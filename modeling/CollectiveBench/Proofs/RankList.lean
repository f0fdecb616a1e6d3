import CollectiveBench.Proofs.Outcomes
import CollectiveBench.Proofs.Text.Fields
import CollectiveBench.Proofs.Text.Numerals
import CollectiveBench.RankList
import Mathlib.Data.List.Forall2
import Mathlib.Data.List.Induction

/-!
# The notation of rank lists

A text spells a list of ranks in one of three ways: a blank text spells none, two ranks with a colon
between them spell a range, and ranks with commas between them spell those ranks, each once and in
the order of their first places. The reader takes exactly the texts that spell a list in this way
and gives the list that they spell; so its lists name no rank twice and no rank outside of the
world. Any such list can be written with commas, however it is spaced and whatever it repeats, and
is read back (`rank_lists_spelled`).
-/

namespace CollectiveBench

open Text

/-! ## First places -/

/-- The values of a list, each once, in the order of the first places where they stand. -/
structure FirstPlaces (values distinct : List Nat) : Prop where
  same : ∀ value, value ∈ distinct ↔ value ∈ values
  ordered : distinct.Pairwise fun left right => values.idxOf left < values.idxOf right

namespace FirstPlaces

variable {values distinct others : List Nat}

/-- First places name no value twice. -/
theorem nodup (places : FirstPlaces values distinct) : distinct.Nodup :=
  places.ordered.imp fun before same => Nat.ne_of_lt before (congrArg values.idxOf same)

/-- There is one such list. -/
theorem unique (places : FirstPlaces values distinct) (again : FirstPlaces values others) :
    distinct = others := by
  have members : distinct.Perm others := (List.perm_ext_iff_of_nodup places.nodup again.nodup).mpr
    fun value => (places.same value).trans (again.same value).symm
  refine members.eq_of_pairwise (fun left right _ _ before after => ?_) places.ordered again.ordered
  exact absurd before (Nat.lt_asymm after)

/-- Dropping repeats leaves it. The induction is from the last value: a value that stands before
it keeps its first place. -/
theorem eraseDups (values : List Nat) : FirstPlaces values values.eraseDups := by
  refine ⟨fun value => List.mem_eraseDups, ?_⟩
  induction values using List.reverseRecOn with
  | nil => simp
  | append_singleton front last inductionHypothesis =>
    have kept : front.eraseDups.Pairwise fun left right =>
        (front ++ [last]).idxOf left < (front ++ [last]).idxOf right := by
      refine List.Pairwise.imp_of_mem (fun left right before => ?_) inductionHypothesis
      rw [List.idxOf_append, if_pos (List.mem_eraseDups.mp left), List.idxOf_append,
        if_pos (List.mem_eraseDups.mp right)]
      exact before
    rw [List.eraseDups_append]
    by_cases repeated : last ∈ front
    · simpa [List.removeAll, repeated] using kept
    · have fresh : [last].removeAll front = [last] := by simp [List.removeAll, repeated]
      rw [fresh]
      refine List.pairwise_append.mpr ⟨kept, by simp [List.eraseDups_cons], ?_⟩
      intro value before other listed
      obtain rfl : other = last := by simpa using listed
      have present : value ∈ front := List.mem_eraseDups.mp before
      rw [List.idxOf_append, if_pos present, List.idxOf_append, if_neg repeated]
      have place := List.idxOf_lt_length_of_mem present
      omega

end FirstPlaces

/-! ## Spelled ranks -/

/-- The list names different ranks of a world. -/
structure AreRanks (worldSize : Nat) (ranks : List Nat) : Prop where
  distinct : ranks.Nodup
  inside : ∀ rank ∈ ranks, rank < worldSize

/-- No ranks are ranks of every world. -/
theorem AreRanks.nil {worldSize : Nat} : AreRanks worldSize [] := ⟨List.nodup_nil, by simp⟩

/-- A count between blanks is a rank. -/
def IsRank (field : List Char) (rank : Nat) : Prop := IsCount (trim field) rank

/-- What a trimmed text spells as a list of ranks of a world. -/
inductive SpellsRanks (worldSize : Nat) : List Char → List Nat → Prop where
  | nothing : SpellsRanks worldSize [] []
  | range {lower upper : List Char} {first last : Nat} (begins : IsRank lower first)
      (ends : IsRank upper last) (ordered : first ≤ last) (inside : last < worldSize) :
    SpellsRanks worldSize (lower ++ ':' :: upper) (List.range' first (last + 1 - first))
  | listed {fields : List (List Char)} {named ranks : List Nat} (some : fields ≠ [])
      (spelled : List.Forall₂ IsRank fields named) (inside : ∀ rank ∈ named, rank < worldSize)
      (distinct : FirstPlaces named ranks) :
    SpellsRanks worldSize ([','].intercalate fields) ranks

/-- A list of computations has a value if each of them has. -/
theorem mapM_eq_some_iff {α β : Type} {compute : α → Option β} {entries : List α}
    {values : List β} : entries.mapM compute = some values ↔
      List.Forall₂ (fun entry value => compute entry = some value) entries values := by
  induction entries generalizing values with
  | nil => simp [eq_comm]
  | cons first rest inductionHypothesis =>
    simp only [List.mapM_cons, Option.bind_eq_bind, Option.bind_eq_some_iff, Option.pure_def,
      Option.some.injEq, inductionHypothesis, List.forall₂_cons_left_iff]
    constructor
    · rintro ⟨value, here, others, there, rfl⟩
      exact ⟨value, others, here, there, rfl⟩
    · rintro ⟨value, others, here, there, rfl⟩
      exact ⟨value, here, others, there, rfl⟩

/-- A field is read as the rank that it writes, if a word of 32 bits holds it. -/
theorem readRank?_eq_some_iff {field : List Char} {rank : Nat} :
    readRank? field = some rank ↔ IsRank field rank ∧ rank < bound32 :=
  unsigned?_eq_some_iff

/-- No comma and no colon stands in a rank. -/
theorem IsRank.solid {field : List Char} {rank : Nat} (spelled : IsRank field rank)
    {separator : Char} (visible : isBlank separator = false)
    (other : separator.isDigit = false ∧ separator ≠ '+') : separator ∉ field := by
  intro listed
  obtain ⟨left, right, whole, before, after⟩ := exists_trim field
  rw [whole, List.mem_append, List.mem_append] at listed
  rcases listed with (early | inner) | late
  · rw [before separator early] at visible
    cases visible
  · rcases spelled.characters.2 separator inner with digit | plus
    · rw [other.1] at digit
      cases digit
    · exact other.2 plus
  · rw [after separator late] at visible
    cases visible

namespace SpellsRanks

variable {worldSize : Nat} {text : List Char} {ranks : List Nat}

/-- The ranks that a text spells are different ranks of the world. -/
theorem areRanks (spelled : SpellsRanks worldSize text ranks) : AreRanks worldSize ranks := by
  cases spelled with
  | nothing => exact .nil
  | @range _ _ first last _ _ ordered inside =>
    refine ⟨List.nodup_range', fun rank listed => ?_⟩
    obtain ⟨offset, bound, rfl⟩ := List.mem_range'.mp listed
    omega
  | listed _ _ inside distinct =>
    exact ⟨distinct.nodup, fun rank listed => inside rank ((distinct.same rank).mp listed)⟩

/-- What is read is spelled. -/
theorem of_readRanks? (read : readRanks? worldSize text = some ranks) :
    SpellsRanks worldSize text ranks := by
  rw [readRanks?] at read
  split at read
  next lower upper halves =>
    obtain ⟨first, begins, read⟩ := Option.bind_eq_some_iff.mp read
    obtain ⟨last, ends, read⟩ := Option.bind_eq_some_iff.mp read
    split at read
    next within =>
      obtain rfl := Option.some.inj read
      rw [eq_of_splitOnce halves, ← List.range'_eq_map_range]
      exact .range (readRank?_eq_some_iff.mp begins).1 (readRank?_eq_some_iff.mp ends).1 within.1
        within.2
    next => cases read
  next =>
    obtain ⟨named, fields, read⟩ := Option.bind_eq_some_iff.mp read
    split at read
    next within =>
      obtain rfl := Option.some.inj read
      have spelled := (mapM_eq_some_iff.mp fields).imp
        fun _ _ rank => (readRank?_eq_some_iff.mp rank).1
      have inside : ∀ rank ∈ named, rank < worldSize := by simpa using within
      rw [← intercalate_splitOn ',' text]
      exact .listed (splitOn_ne_nil ',' text) spelled inside (.eraseDups named)
    next => cases read

/-- The fields of listed ranks are what stands between the commas. -/
theorem splitOn_intercalate {fields : List (List Char)} {named : List Nat} (some : fields ≠ [])
    (spelled : List.Forall₂ IsRank fields named) :
    splitOn ',' ([','].intercalate fields) = fields ∧ ':' ∉ [','].intercalate fields := by
  have each : ∀ field ∈ fields, ∃ rank, IsRank field rank := by
    intro field listed
    obtain ⟨place, bound, rfl⟩ := List.mem_iff_getElem.mp listed
    exact ⟨_, spelled.get bound (spelled.length_eq ▸ bound)⟩
  constructor
  · rw [splitOn_eq]
    refine List.splitOn_intercalate ',' (fun field listed => ?_) some
    obtain ⟨rank, spelled⟩ := each field listed
    exact spelled.solid (by decide) (by decide)
  · refine not_mem_intercalate (by decide) fun field listed => ?_
    obtain ⟨rank, spelled⟩ := each field listed
    exact spelled.solid (by decide) (by decide)

/-- Only no ranks are spelled by nothing. -/
theorem eq_nil (spelled : SpellsRanks worldSize text ranks) (blank : text = []) : ranks = [] := by
  cases spelled with
  | nothing => rfl
  | range => simp at blank
  | @listed fields named _ some spelled =>
    have cut := (splitOn_intercalate some spelled).1
    rw [blank] at cut
    obtain rfl : fields = [[]] := cut.symm
    obtain ⟨rank, _, count, -⟩ := List.forall₂_cons_left_iff.mp spelled
    exact absurd rfl count.characters.1

/-- What is spelled is read, in a world whose ranks have 32 bits. -/
theorem readRanks?_eq (spelled : SpellsRanks worldSize text ranks) (written : text ≠ [])
    (counted : worldSize < bound32) : readRanks? worldSize text = some ranks := by
  cases spelled with
  | nothing => exact absurd rfl written
  | range begins ends ordered inside =>
    have first := readRank?_eq_some_iff.mpr ⟨begins, by omega⟩
    have last := readRank?_eq_some_iff.mpr ⟨ends, by omega⟩
    rw [readRanks?, splitOnce_append (begins.solid (by decide) (by decide))]
    simp only [first, last, Option.bind_eq_bind, Option.bind_some, ordered, inside, and_self,
      if_true, List.range'_eq_map_range, Option.pure_def]
  | @listed fields named _ some spelled inside distinct =>
    obtain ⟨cut, uncolon⟩ := splitOn_intercalate some spelled
    have read : fields.mapM readRank? = .some named := by
      refine mapM_eq_some_iff.mpr
        (List.forall₂_iff_get.mpr ⟨spelled.length_eq, fun place here there => ?_⟩)
      have bound := inside _ (List.get_mem named ⟨place, there⟩)
      exact readRank?_eq_some_iff.mpr ⟨spelled.get here there, by omega⟩
    have within : named.all (· < worldSize) = true := by simpa using inside
    rw [readRanks?, splitOnce_eq_none_iff.mpr uncolon, cut]
    simp only [read, Option.bind_eq_bind, Option.bind_some, within, if_true, Option.pure_def,
      distinct.unique (.eraseDups named)]

/-- Blanks around a list of ranks belong to the first and the last rank. -/
theorem listed_trimmed {fields : List (List Char)} {named : List Nat} (some : fields ≠ [])
    (spelled : List.Forall₂ IsRank fields named) (inside : ∀ rank ∈ named, rank < worldSize)
    (distinct : FirstPlaces named ranks) :
    SpellsRanks worldSize (trim ([','].intercalate fields)) ranks := by
  have cut : (splitOn ',' (trim ([','].intercalate fields))).map trim = fields.map trim := by
    rw [map_trim_splitOn (by decide), (splitOn_intercalate some spelled).1]
  have trimmed : List.Forall₂ IsRank (splitOn ',' (trim ([','].intercalate fields))) named := by
    have same : List.Forall₂ IsCount (fields.map trim) named :=
      List.forall₂_map_left_iff.mpr spelled
    rw [← cut] at same
    exact (List.forall₂_map_left_iff (R := IsCount)).mp same
  rw [← intercalate_splitOn ',' (trim ([','].intercalate fields))]
  exact .listed (splitOn_ne_nil _ _) trimmed inside distinct

end SpellsRanks

/-! ## The reader -/

variable {name : String} {worldSize : Nat} {text : String} {ranks : List Nat}

/-- What is read as ranks spells them. -/
theorem spells_of_readRankList (read : readRankList name worldSize text = .ok ranks) :
    SpellsRanks worldSize (trim text.toList) ranks := by
  rw [readRankList] at read
  split at read
  next blank =>
    obtain rfl := Except.ok.inj read
    rw [blank]
    exact .nothing
  next =>
    split at read
    next found =>
      obtain rfl := Except.ok.inj read
      exact .of_readRanks? found
    next => cases read

/-- What spells ranks is read as them. -/
theorem readRankList_eq_ok (spelled : SpellsRanks worldSize (trim text.toList) ranks)
    (counted : worldSize < bound32) : readRankList name worldSize text = .ok ranks := by
  rw [readRankList]
  split
  next blank => rw [spelled.eq_nil blank]
  next written => rw [spelled.readRanks?_eq written counted]

/-- What the reader refuses, it names. -/
theorem failsOnly_readRankList :
    FailsOnly (readRankList name worldSize text) (· = .invalidRankList name text) := by
  rw [readRankList]
  split
  next => exact failsOnly_ok _
  next =>
    split
    next => exact failsOnly_ok _
    next => exact failsOnly_error rfl

/-! ## Writing -/

/-- A rank as it stands in a written list, between blanks. -/
structure Spaced where
  before : List Char
  rank : Nat
  after : List Char
  blank : ∀ character ∈ before ++ after, isBlank character = true

/-- The rank with the blanks around it. -/
def Spaced.written (entry : Spaced) : List Char := entry.before ++ digits entry.rank ++ entry.after

/-- Ranks with commas between them. -/
def writeRanks (entries : List Spaced) : String :=
  String.ofList ([','].intercalate (entries.map Spaced.written))

/-- A digit is no blank. -/
theorem isBlank_of_isDigit {character : Char} (digit : character.isDigit = true) :
    isBlank character = false := by
  have bounds : 48 ≤ character.toNat ∧ character.toNat ≤ 57 := by
    simpa [Char.isDigit, UInt32.le_iff_toNat_le] using digit
  simp [isBlank, blankRanges]
  omega

/-- A rank is written as itself, whatever blanks are around it. -/
theorem Spaced.isRank_written (entry : Spaced) : IsRank entry.written entry.rank := by
  have solid : trim (digits entry.rank) = digits entry.rank :=
    trim_eq_self fun _ listed => isBlank_of_isDigit (isDigit_of_mem_digits listed)
  have blank := List.forall_mem_append.mp entry.blank
  rw [IsRank, written, trim_between blank.1 blank.2, solid]
  exact .unsigned (isNumeral_digits entry.rank)

/-- In a world whose ranks have 32 bits, a text is read as a list of ranks exactly if, trimmed, it
spells one, and every other text is refused by name. What is read are different ranks of the world.
Every such list that is not empty is read back from any text that has its ranks between commas in
the order of their first places, with blanks and with repeats of ranks that stand before. -/
theorem rank_lists_spelled (name : String) (counted : worldSize < bound32) :
    (∀ text ranks, readRankList name worldSize text = .ok ranks ↔
      SpellsRanks worldSize (trim text.toList) ranks) ∧
    (∀ text, readRankList name worldSize text = .error (.invalidRankList name text) ↔
      ∀ ranks, ¬ SpellsRanks worldSize (trim text.toList) ranks) ∧
    (∀ text ranks, readRankList name worldSize text = .ok ranks → AreRanks worldSize ranks) ∧
    ∀ entries ranks, ranks ≠ [] → (∀ rank ∈ ranks, rank < worldSize) →
      FirstPlaces (entries.map Spaced.rank) ranks →
      readRankList name worldSize (writeRanks entries) = .ok ranks := by
  have taken (text : String) (ranks : List Nat) : readRankList name worldSize text = .ok ranks ↔
      SpellsRanks worldSize (trim text.toList) ranks :=
    ⟨spells_of_readRankList, fun spelled => readRankList_eq_ok spelled counted⟩
  refine ⟨taken, fun text => ?_, fun text ranks read =>
    (spells_of_readRankList read).areRanks, fun entries ranks some inside places => ?_⟩
  · simp only [← taken]
    exact failsOnly_readRankList.eq_error_iff
  · have written : entries.map Spaced.written ≠ [] := by
      obtain ⟨rank, listed⟩ := List.exists_mem_of_ne_nil ranks some
      rintro nothing
      have named := (places.same rank).mp listed
      rw [List.map_eq_nil_iff.mp nothing] at named
      cases named
    have spelled : List.Forall₂ IsRank (entries.map Spaced.written) (entries.map Spaced.rank) := by
      rw [List.forall₂_map_left_iff, List.forall₂_map_right_iff, List.forall₂_same]
      exact fun entry _ => entry.isRank_written
    rw [taken, writeRanks, String.toList_ofList]
    exact .listed_trimmed written spelled
      (fun rank named => inside rank ((places.same rank).mpr named)) places

/-- Four ranks: a list with blanks and a repeat, and a range with a sign and a leading zero. -/
theorem rank_lists_spelled_four :
    let entries : List Spaced :=
      [⟨[' '], 3, [], List.forall_mem_singleton.mpr rfl⟩,
        ⟨[], 1, ['\t'], List.forall_mem_singleton.mpr rfl⟩, ⟨[], 3, [], by simp⟩]
    4 < bound32 ∧ writeRanks entries = " 3,1\t,3" ∧
      readRankList "src_ranks" 4 (writeRanks entries) = .ok [3, 1] ∧
      readRankList "src_ranks" 4 "+0: 03" = .ok [0, 1, 2, 3] ∧
      readRankList "src_ranks" 4 "0:4" = .error (.invalidRankList "src_ranks" "0:4") := by
  intro entries
  have counted : 4 < bound32 := by decide
  have places : FirstPlaces (entries.map Spaced.rank) [3, 1] := .eraseDups [3, 1, 3]
  obtain ⟨-, -, -, back⟩ := rank_lists_spelled "src_ranks" counted
  exact ⟨counted, rfl, back entries [3, 1] (by decide) (by decide) places, rfl, rfl⟩

end CollectiveBench
