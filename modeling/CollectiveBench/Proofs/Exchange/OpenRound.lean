import Mathlib.Data.List.Nodup
import Mathlib.Data.List.Perm.Subperm
import CollectiveBench.World.Exchange

/-!
# Open rounds as lists of waiting calls

A round in the table is determined by the calls that wait in it: its slots hold their
contributions, its counter is their number, and its waiters are their tickets in the order of
arrival. `Round.ofWaiting` is that round. Filling a vacant slot appends a call to the list, and
a list with one call for each position has the contributions in the order of the positions,
whatever the order of arrival was.

The table itself is only ever read through `find?`, so the laws of `erase` and `insert` are
stated for that view.
-/

namespace CollectiveBench

/-- Where a field tells entries apart, looking for the field of one finds that entry. -/
theorem find?_of_nodup_map {α : Type} (field : α → Nat) {entries : List α} {entry : α}
    (apart : (entries.map field).Nodup) (present : entry ∈ entries) :
    entries.find? (field · = field entry) = some entry := by
  induction entries with
  | nil => simp at present
  | cons first rest inductionHypothesis =>
    rw [List.map_cons, List.nodup_cons] at apart
    rcases List.mem_cons.mp present with rfl | later
    · simp
    · have different : field first ≠ field entry := by
        intro same
        exact apart.1 (same ▸ List.mem_map_of_mem later)
      simp [different, inductionHypothesis apart.2 later]

namespace Rounds

/-- An erased round is gone. -/
@[simp] theorem find?_erase_self (rounds : Rounds) (key : RoundKey) :
    (rounds.erase key).find? key = none := by
  simp only [find?, erase, List.lookup_eq_none_iff, List.mem_filter, decide_eq_true_eq]
  intro entry kept
  exact bne_iff_ne.mpr (Ne.symm kept.2)

/-- Erasing a round leaves the others. -/
theorem find?_erase_of_ne (rounds : Rounds) {key other : RoundKey} (different : other ≠ key) :
    (rounds.erase key).find? other = rounds.find? other := by
  induction rounds with
  | nil => rfl
  | cons head rest inductionHypothesis =>
    obtain ⟨found, round⟩ := head
    simp only [find?, erase] at inductionHypothesis ⊢
    by_cases same : found = key
    · subst same
      have absent : (other == found) = false := beq_eq_false_iff_ne.mpr different
      simp only [List.filter_cons, ne_eq, not_true_eq_false, decide_false, Bool.false_eq_true,
        if_false, List.lookup_cons, absent]
      exact inductionHypothesis
    · simp only [List.filter_cons, ne_eq, same, not_false_eq_true, decide_true, if_true,
        List.lookup_cons]
      rw [inductionHypothesis]

/-- An inserted round is found under its key. -/
@[simp] theorem find?_insert_self (rounds : Rounds) (key : RoundKey) (round : Round) :
    (rounds.insert key round).find? key = some round := by
  simp [find?, insert]

/-- Inserting a round leaves the others. -/
theorem find?_insert_of_ne (rounds : Rounds) (round : Round) {key other : RoundKey}
    (different : other ≠ key) : (rounds.insert key round).find? other = rounds.find? other := by
  have absent : (other == key) = false := by simpa using different
  rw [← find?_erase_of_ne rounds different]
  simp [find?, insert, List.lookup_cons, absent]

/-- A table in which nothing is found is empty. -/
theorem eq_nil_of_find?_eq_none {rounds : Rounds} (nothing : ∀ key, rounds.find? key = none) :
    rounds = [] := by
  cases rounds with
  | nil => rfl
  | cons head rest => simpa [find?] using nothing head.1

end Rounds

namespace Round

/-- The round of a group of the given size that these calls have entered, in the order of
their arrival. -/
def ofWaiting (size : Nat) (entries : List Waiting) : Round :=
  ⟨(List.range size).map fun position =>
      (entries.find? (·.position = position)).map (·.call.contribution),
    entries.length, entries.map Waiting.ticket⟩

/-- As many arrived as wait. -/
@[simp] theorem arrived_ofWaiting (size : Nat) (entries : List Waiting) :
    (ofWaiting size entries).arrived = entries.length := rfl

/-- The waiters of a round hold the tickets of those that wait. -/
@[simp] theorem waiters_ofWaiting (size : Nat) (entries : List Waiting) :
    (ofWaiting size entries).waiters = entries.map Waiting.ticket := rfl

/-- A round that nobody has entered is empty. -/
theorem ofWaiting_nil (size : Nat) : ofWaiting size [] = empty size := by
  simp [ofWaiting, empty, List.map_const']

/-- What a slot of the group holds. -/
theorem getElem?_slots_ofWaiting {size position : Nat} (entries : List Waiting)
    (inside : position < size) :
    (ofWaiting size entries).slots[position]? =
      some ((entries.find? (·.position = position)).map (·.call.contribution)) := by
  simp [ofWaiting, inside]

/-- Filling a vacant slot appends the call. A call at another position keeps its slot, and the
filled slot finds no earlier call at its position. -/
theorem fill_ofWaiting {size : Nat} {entries : List Waiting} {entry : Waiting}
    (inside : entry.position < size)
    (vacant : ∀ other ∈ entries, other.position ≠ entry.position) :
    (ofWaiting size entries).fill entry.position entry.ticket entry.call.contribution =
      ofWaiting size (entries ++ [entry]) := by
  have slots : (ofWaiting size entries).slots.set entry.position (some entry.call.contribution) =
      (ofWaiting size (entries ++ [entry])).slots := by
    apply List.ext_getElem?
    intro position
    by_cases here : position = entry.position
    · subst here
      have absent : entries.find? (·.position = entry.position) = none := by
        simpa [List.find?_eq_none] using vacant
      simp [ofWaiting, inside, absent]
    · have elsewhere : entry.position ≠ position := Ne.symm here
      by_cases bounded : position < size
      · simp [ofWaiting, bounded, elsewhere]
      · simp [ofWaiting, bounded]
  simp only [fill, slots]
  simp [ofWaiting]

/-- Calls at different positions within a group that are as many as its members stand at every
position. -/
theorem positions_perm {size : Nat} {entries : List Waiting}
    (apart : (entries.map Waiting.position).Nodup)
    (inside : ∀ entry ∈ entries, entry.position < size) (full : entries.length = size) :
    (entries.map Waiting.position).Perm (List.range size) := by
  have contained : entries.map Waiting.position ⊆ List.range size := by
    intro position member
    obtain ⟨entry, present, rfl⟩ := List.mem_map.mp member
    exact List.mem_range.mpr (inside entry present)
  exact (List.subperm_of_subset apart contained).perm_of_length_le (by simp [full])

/-- Once every slot is filled, the contributions are the slots. -/
theorem map_some_contributions {round : Round} (filled : ∀ slot ∈ round.slots, slot.isSome) :
    round.contributions.map some = round.slots := by
  have present (slots : List (Option Contribution)) (all : ∀ slot ∈ slots, slot.isSome) :
      (slots.filterMap id).map some = slots := by
    induction slots with
    | nil => rfl
    | cons slot rest inductionHypothesis =>
      obtain ⟨contribution, rfl⟩ := Option.isSome_iff_exists.mp (all slot List.mem_cons_self)
      have restFilled : ∀ slot ∈ rest, slot.isSome :=
        fun slot member => all slot (List.mem_cons_of_mem _ member)
      simpa using inductionHypothesis restFilled
  exact present round.slots filled

/-- The contributions of a complete round stand at the positions of the calls that made them,
and there is one for each member. -/
theorem contributions_ofWaiting {size : Nat} {entries : List Waiting}
    (apart : (entries.map Waiting.position).Nodup)
    (inside : ∀ entry ∈ entries, entry.position < size) (full : entries.length = size) :
    (ofWaiting size entries).contributions.length = size ∧
      ∀ entry ∈ entries, (ofWaiting size entries).contributions[entry.position]? =
        some entry.call.contribution := by
  have everywhere := positions_perm apart inside full
  have filled : ∀ slot ∈ (ofWaiting size entries).slots, slot.isSome := by
    intro slot member
    obtain ⟨position, bounded, rfl⟩ := List.mem_map.mp member
    obtain ⟨entry, present, same⟩ := List.mem_map.mp (everywhere.mem_iff.mpr bounded)
    simpa using ⟨entry, present, same⟩
  have slots := map_some_contributions filled
  refine ⟨by simpa [ofWaiting] using congrArg List.length slots, ?_⟩
  intro entry present
  have located : entries.find? (·.position = entry.position) = some entry :=
    find?_of_nodup_map Waiting.position apart present
  have slot := getElem?_slots_ofWaiting entries (inside entry present)
  rw [← slots, List.getElem?_map, located] at slot
  simpa using slot

end Round

end CollectiveBench
