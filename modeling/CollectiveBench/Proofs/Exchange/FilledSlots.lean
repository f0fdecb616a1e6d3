import Mathlib.Data.List.Induction
import CollectiveBench.Proofs.Entries
import CollectiveBench.Proofs.Exchange.Step

/-!
# The slots of the open rounds

`Sound` reads the table of rounds off the waiting calls. That ends where a caller gives up: its call
waits no longer, but what it brought stays in its slot. And a deadline can be acted on late, when
the round of its call is gone and another one may be open under the same key.

What is true of the table in spite of this is said here of the table alone. `Round.Filled` ties the
slots of a round to its counter, to its waiters and to the calls that filled them; `Rounds.Filled`
says it of every open round. A deposit keeps it (`Rounds.Filled.deposit_cases`), and so does all
that happens to an exchange (`Tended.undergo`).
-/

namespace CollectiveBench

variable {took : Waiting → Prop} {members : List Nat} {key : RoundKey} {round : Round}
  {entry : Waiting} {world : World} {rounds : Rounds}

/-- A call that holds its slot of a round: it took the seat of its rank there, and its ticket is
among those that the round will notify. -/
structure Round.Holds (round : Round) (key : RoundKey) (members : List Nat) (entry : Waiting) :
    Prop where
  key : entry.key = key
  seat : World.positionIn members entry.rank = some entry.position
  slot : round.slots[entry.position]? = some (some entry.call.contribution)
  waiter : entry.ticket ∈ round.waiters

/-- A round of a group: who has arrived is counted by the slots and by the waiters, and whatever a
slot holds was brought by a call that `took` admits. -/
structure Round.Filled (took : Waiting → Prop) (key : RoundKey) (members : List Nat)
    (round : Round) : Prop where
  slots : round.slots.length = members.length
  arrived : round.arrived = round.slots.countP Option.isSome
  waiters : round.waiters.length = round.arrived
  held : ∀ position, (∃ contribution, round.slots[position]? = some (some contribution)) →
    ∃ entry, took entry ∧ entry.position = position ∧ round.Holds key members entry

/-- A round that some members of its group have entered, and not all. -/
structure Round.Begun (took : Waiting → Prop) (key : RoundKey) (members : List Nat)
    (round : Round) : Prop extends Round.Filled took key members round where
  started : 1 ≤ round.arrived
  unfinished : round.arrived < members.length

/-- A table with one round under a key, each of them begun. -/
structure Rounds.Filled (took : Waiting → Prop) (world : World) (rounds : Rounds) : Prop where
  distinct : (rounds.map Prod.fst).Nodup
  begun : ∀ key round, (key, round) ∈ rounds →
    round.Begun took key (world.members key.group)

namespace Round

/-- Nobody has entered an empty round. -/
theorem filled_empty : (empty members.length).Filled took key members where
  slots := List.length_replicate
  arrived := by simp [empty, List.countP_replicate]
  waiters := rfl
  held := by
    rintro position ⟨contribution, held⟩
    simp [empty, List.getElem?_replicate] at held

/-- A call that fills another slot of a round does not disturb those that hold theirs. -/
theorem Holds.fill {other : Waiting} (holds : round.Holds key members other)
    (vacant : round.slots[entry.position]? = some none) :
    (round.fill entry.position entry.ticket entry.call.contribution).Holds key members other where
  key := holds.key
  seat := holds.seat
  slot := by
    have elsewhere : entry.position ≠ other.position := by
      intro same
      have held := holds.slot
      rw [← same, vacant] at held
      cases held
    exact (List.getElem?_set_ne elsewhere).trans holds.slot
  waiter := List.mem_append_left _ holds.waiter

/-- A call that takes its seat fills the slot of its rank, which is counted then. -/
theorem Filled.fill (filled : round.Filled took key members) (admitted : took entry)
    (here : entry.key = key) (seat : World.positionIn members entry.rank = some entry.position)
    (vacant : round.slots[entry.position]? = some none) :
    (round.fill entry.position entry.ticket entry.call.contribution).Filled took key members where
  slots := List.length_set.trans filled.slots
  arrived := by
    obtain ⟨inside, empty⟩ := List.getElem?_eq_some_iff.mp vacant
    simp [Round.fill, List.countP_set inside, empty, filled.arrived]
  waiters := by simp [Round.fill, filled.waiters]
  held := by
    rintro position ⟨contribution, held⟩
    by_cases own : position = entry.position
    · obtain ⟨inside, -⟩ := List.getElem?_eq_some_iff.mp vacant
      have slot := List.getElem?_set_self (a := some entry.call.contribution) inside
      exact ⟨entry, admitted, own.symm, here, seat, slot, by simp [Round.fill]⟩
    · have before := (List.getElem?_set_ne (Ne.symm own)).symm.trans held
      obtain ⟨other, known, there, holds⟩ := filled.held position ⟨contribution, before⟩
      exact ⟨other, known, there, holds.fill vacant⟩

/-- The counter stays within the group. -/
theorem Filled.arrived_le (filled : round.Filled took key members) :
    round.arrived ≤ members.length := by
  rw [filled.arrived, ← filled.slots]
  exact List.countP_le_length

/-- Once as many have arrived as the group has members, there is a contribution from each: the
counter reaches the size of the group when the slots are full, and not before. -/
theorem Filled.contributions_full (filled : round.Filled took key members)
    (full : round.arrived = members.length) :
    round.contributions.map some = round.slots := by
  apply map_some_contributions
  rw [← List.countP_eq_length, ← filled.arrived, full, filled.slots]

/-- What is said of the calls that hold slots may be weakened. -/
theorem Begun.mono {later : Waiting → Prop} (begun : round.Begun took key members)
    (onward : ∀ entry, took entry → later entry) : round.Begun later key members :=
  { begun with
    held := fun position filled =>
      have ⟨entry, admitted, there, holds⟩ := begun.held position filled
      ⟨entry, onward entry admitted, there, holds⟩ }

end Round

namespace Rounds

/-- No round is open in an empty table. -/
theorem filled_nil : Filled took world [] where
  distinct := List.nodup_nil
  begun := by simp

namespace Filled

variable (filled : rounds.Filled took world)
include filled

/-- A round is stored exactly if it is found under its key. -/
theorem find?_eq_some_iff : rounds.find? key = some round ↔ (key, round) ∈ rounds :=
  lookup_eq_some_iff_mem filled.distinct

/-- A round that leaves does not disturb the others. -/
theorem erase (key : RoundKey) : (rounds.erase key).Filled took world where
  distinct := filled.distinct.sublist (List.filter_sublist.map Prod.fst)
  begun := fun other round present =>
    filled.begun other round (List.mem_of_mem_filter present)

/-- A round that was begun takes the place of the earlier one of its key. -/
theorem insert (begun : round.Begun took key (world.members key.group)) :
    (rounds.insert key round).Filled took world where
  distinct := by
    refine List.nodup_cons.mpr ⟨?_, (filled.erase key).distinct⟩
    intro listed
    obtain ⟨⟨other, earlier⟩, kept, rfl⟩ := List.mem_map.mp listed
    simp [Rounds.erase] at kept
  begun := by
    intro other stored present
    rcases List.mem_cons.mp present with same | earlier
    · cases same
      exact begun
    · exact (filled.erase key).begun other stored earlier

/-- The round that a contribution goes to, whether it is open already or not. -/
theorem getD_find? (key : RoundKey) :
    ((rounds.find? key).getD (.empty (world.members key.group).length)).Filled took key
      (world.members key.group) := by
  cases found : rounds.find? key with
  | none => exact Round.filled_empty
  | some round => exact (filled.begun key round (filled.find?_eq_some_iff.mp found)).toFilled

/-- What becomes of the contribution of a call that takes its seat. Its slot is filled already; or
it enters the round, which stays open; or it is the last one, and everybody who entered is handed
the contributions of all. -/
theorem deposit_cases (admitted : took entry)
    (seat : World.positionIn (world.members entry.key.group) entry.rank = some entry.position) :
    let members := world.members entry.key.group
    let joined := ((rounds.find? entry.key).getD (.empty members.length)).fill entry.position
      entry.ticket entry.call.contribution
    let outcome := rounds.deposit entry.key members.length entry.position entry.ticket
      entry.call.contribution
    (outcome = .ok .refused ∧ ∃ round contribution, rounds.find? entry.key = some round ∧
      round.slots[entry.position]? = some (some contribution)) ∨
    (outcome = .ok (.waiting (rounds.insert entry.key joined)) ∧
      joined.Begun took entry.key members) ∨
    outcome = .ok (.complete (rounds.erase entry.key) joined.waiters joined.contributions) ∧
      joined.Filled took entry.key members ∧ joined.arrived = members.length := by
  intro members joined outcome
  have target := filled.getD_find? entry.key
  have inside : entry.position <
      ((rounds.find? entry.key).getD (.empty members.length)).slots.length := by
    rw [target.slots]
    exact World.positionIn_lt seat
  cases slot :
      ((rounds.find? entry.key).getD (.empty members.length)).slots[entry.position]? with
  | none => exact absurd inside (by simpa using slot)
  | some content =>
    cases content with
    | some contribution =>
      refine .inl ⟨by simp [outcome, Rounds.deposit, slot], ?_⟩
      cases found : rounds.find? entry.key with
      | none => simp [found, Round.empty, List.getElem?_replicate] at slot
      | some round => exact ⟨round, contribution, rfl, by simpa [found] using slot⟩
    | none =>
      have after : joined.Filled took entry.key members := target.fill admitted rfl seat slot
      have deposited : outcome = if joined.arrived = members.length then
          .ok (.complete (rounds.erase entry.key) joined.waiters joined.contributions)
          else .ok (.waiting (rounds.insert entry.key joined)) := by
        simp only [outcome, Rounds.deposit, slot, joined]
      by_cases full : joined.arrived = members.length
      · exact .inr (.inr ⟨deposited.trans (if_pos full), after, full⟩)
      · refine .inr (.inl ⟨deposited.trans (if_neg full), after, ?_, ?_⟩)
        · simp [joined, Round.fill]
        · exact Nat.lt_of_le_of_ne after.arrived_le full

end Filled

end Rounds

/-- Something that happens to an exchange whose callers may give up. -/
inductive Happening where
  | event (event : Event)
  /-- The caller of the waiting call with this ticket gives up. -/
  | withdraw (ticket : Nat)
  /-- The deadline of a call is acted on, whether the call still waits or not. -/
  | late (due : Waiting)

namespace Exchange

variable {exchange : Exchange} {ranks : List Nat} {now index : Nat} {call : Call}

/-- The exchange after something happened to it. -/
def undergo [Arithmetic] (exchange : Exchange) : Happening → Exchange
  | .event event => (exchange.apply event).1
  | .withdraw ticket =>
    { exchange with waiting := exchange.waiting.filter (·.ticket ≠ ticket) }
  | .late due => (exchange.expire due).1

/-- The exchange after several things happened to it, one after the other. -/
def after [Arithmetic] (exchange : Exchange) (happenings : List Happening) : Exchange :=
  happenings.foldl undergo exchange

/-- Happenings go on where those before ended. -/
theorem after_append [Arithmetic] (exchange : Exchange) (happenings more : List Happening) :
    exchange.after (happenings ++ more) = (exchange.after happenings).after more :=
  List.foldl_append

/-- When deadlines pass, each is acted on. -/
theorem exists_after_expireBefore [Arithmetic] (now : Option Nat) (fuel : Nat)
    (exchange : Exchange) :
    ∃ happenings, (expireBefore now fuel exchange).1 = exchange.after happenings := by
  induction fuel generalizing exchange with
  | zero => exact ⟨[], rfl⟩
  | succ fuel inductionHypothesis =>
    rw [expireBefore]
    split
    next => exact ⟨[], rfl⟩
    next due first =>
      split
      next => exact ⟨[], rfl⟩
      next =>
        obtain ⟨later, same⟩ := inductionHypothesis (exchange.expire due).1
        exact ⟨.late due :: later, same⟩

/-- Between the calls that are issued one after the other, deadlines may pass. -/
theorem exists_after_issueAll [Arithmetic] (pause now : Nat) (exchange : Exchange)
    (calls : List (Nat × Call)) :
    ∃ happenings, (issueAll pause now exchange calls).1 = exchange.after happenings := by
  induction calls generalizing now exchange with
  | nil => exact ⟨[], rfl⟩
  | cons made rest inductionHypothesis =>
    obtain ⟨index, call⟩ := made
    obtain ⟨due, advanced⟩ := exists_after_expireBefore (some now) exchange.waiting.length exchange
    obtain ⟨later, same⟩ := inductionHypothesis (now + pause)
      ((exchange.advance (some now)).1.issue now index call).1
    refine ⟨due ++ .event (.issue now index call) :: later, same.trans ?_⟩
    rw [after_append, ← advanced]
    rfl

/-- Whatever is done to have calls answered is among the things that happen. -/
theorem exists_after_perform [Arithmetic] (exchange : Exchange) (pause : Nat)
    (calls : List (Nat × Call)) :
    ∃ happenings, (exchange.perform pause calls).1 = exchange.after happenings := by
  obtain ⟨issued, early⟩ := exists_after_issueAll pause 0 exchange calls
  obtain ⟨due, late⟩ := exists_after_expireBefore none
    (issueAll pause 0 exchange calls).1.waiting.length (issueAll pause 0 exchange calls).1
  refine ⟨issued ++ due, late.trans ?_⟩
  rw [after_append, ← early]

/-- One of the things that happened is that an endpoint issued a call, and took the seat of the rank
that it stands for with it. -/
def Took [Arithmetic] (world : World) (ranks : List Nat) (happenings : List Happening)
    (entry : Waiting) : Prop :=
  ∃ before now index later,
    happenings = before ++ .event (.issue now index entry.call) :: later ∧
    ((create world ranks).after before).arrival? (.issue now index entry.call) = some entry ∧
    ranks[index]? = some entry.rank

/-- The world and the ranks of the endpoints are the given ones, and the rounds are filled by calls
that `took` admits. -/
structure Tended (took : Waiting → Prop) (world : World) (ranks : List Nat) (exchange : Exchange) :
    Prop where
  setting : exchange.world = world
  posts : exchange.endpoints.map Endpoint.rank = ranks
  rounds : exchange.rounds.Filled took world

/-- In a new exchange no round is open. -/
theorem tended_create : (create world ranks).Tended took world ranks where
  setting := rfl
  posts := by simp [create, Endpoint.create, Function.comp_def]
  rounds := Rounds.filled_nil

namespace Tended

variable (tended : exchange.Tended took world ranks)
include tended

/-- Drawing numbers leaves all of this alone. -/
theorem draw (index : Nat) (entry : Waiting) :
    (exchange.draw index entry).Tended took world ranks where
  setting := tended.setting
  posts := by
    rw [← tended.posts]
    apply List.ext_getElem?
    intro place
    by_cases here : index = place <;>
      simp [Exchange.draw, here, Function.comp_def, Endpoint.advance]
  rounds := tended.rounds

/-- A call that arrives comes from an endpoint of its rank. -/
theorem stands (arrives : exchange.arrival? (.issue now index call) = some entry) :
    ranks[index]? = some entry.rank := by
  obtain ⟨endpoint, _, found, _, rfl⟩ := arrival?_issue arrives
  rw [← tended.posts, List.getElem?_map, found]
  rfl

/-- What becomes of a call that takes its seat. It is refused; or it enters its round and waits, if
it may wait at all; or it completes the round, and all who still wait there are handed what is in
it. -/
theorem issue_cases [Arithmetic] (admitted : took entry)
    (arrives : exchange.arrival? (.issue now index call) = some entry) :
    let members := world.members entry.key.group
    let joined := ((exchange.rounds.find? entry.key).getD (.empty members.length)).fill
      entry.position entry.ticket entry.call.contribution
    let entered := { exchange.draw index entry with
      rounds := exchange.rounds.insert entry.key joined
      waiting := exchange.waiting ++ [entry] }
    exchange.issue now index call = (exchange.draw index entry,
      [Departure.answer world.timeoutMs ⟨entry, .refused⟩]) ∨
    (exchange.issue now index call =
      (if world.timeoutMs = 0 then entered.expire entry else (entered, [])) ∧
      joined.Begun took entry.key members) ∨
    exchange.issue now index call =
      ({ exchange.draw index entry with
          rounds := exchange.rounds.erase entry.key
          waiting := exchange.waiting.filter (!joined.waiters.contains ·.ticket) },
        concludeAll joined.waiters (exchange.waiting ++ [entry]) joined.contributions) ∧
      joined.Filled took entry.key members ∧ joined.arrived = members.length := by
  have place := (arrival_seated arrives).2
  rw [issue_eq_deposit arrives, roundSize]
  rw [tended.setting] at place ⊢
  rcases tended.rounds.deposit_cases admitted place with
    ⟨deposited, -⟩ | ⟨deposited, begun⟩ | ⟨deposited, filled⟩
  · exact .inl (by rw [deposited])
  · exact .inr (.inl ⟨by rw [deposited], begun⟩)
  · exact .inr (.inr ⟨by rw [deposited], filled⟩)

/-- An issued call leaves the rounds filled, if `took` admits it when it takes a seat. -/
theorem issue [Arithmetic]
    (admitted : ∀ entry, exchange.arrival? (.issue now index call) = some entry →
    took entry) : (exchange.issue now index call).1.Tended took world ranks := by
  cases arrives : exchange.arrival? (.issue now index call) with
  | none =>
    rw [issue_eq_immediate arrives]
    exact ⟨tended.setting, tended.posts, tended.rounds⟩
  | some entry =>
    have drawn := tended.draw index entry
    rcases tended.issue_cases (admitted entry arrives) arrives with
      issued | ⟨issued, begun⟩ | ⟨issued, -⟩
    · rw [issued]
      exact drawn
    · rw [issued]
      have joined := tended.rounds.insert begun
      by_cases impatient : world.timeoutMs = 0
      · rw [if_pos impatient]
        exact ⟨drawn.setting, drawn.posts, joined.erase entry.key⟩
      · rw [if_neg impatient]
        exact ⟨drawn.setting, drawn.posts, joined⟩
    · rw [issued]
      exact ⟨drawn.setting, drawn.posts, tended.rounds.erase entry.key⟩

/-- A call whose slot holds a contribution already is refused, and spends its numbers only. -/
theorem issue_refused [Arithmetic] {contribution : Contribution}
    (arrives : exchange.arrival? (.issue now index call) = some entry)
    (stored : (entry.key, round) ∈ exchange.rounds)
    (taken : round.slots[entry.position]? = some (some contribution)) :
    exchange.issue now index call = (exchange.draw index entry,
      [Departure.answer world.timeoutMs ⟨entry, .refused⟩]) := by
  have deposited : exchange.rounds.deposit entry.key (exchange.roundSize entry.key)
      entry.position entry.ticket entry.call.contribution = .ok .refused := by
    simp [Rounds.deposit, tended.rounds.find?_eq_some_iff.mpr stored, taken]
  rw [issue_eq_deposit arrives, deposited, tended.setting]

/-- A deadline that is acted on closes the round of its key. -/
theorem expire (due : Waiting) : (exchange.expire due).1.Tended took world ranks :=
  ⟨tended.setting, tended.posts, tended.rounds.erase due.key⟩

/-- Whatever happens leaves the rounds filled, if `took` admits a call that takes a seat then. -/
theorem undergo [Arithmetic] {happening : Happening}
    (admitted : ∀ now index call entry, happening = .event (.issue now index call) →
      exchange.arrival? (.issue now index call) = some entry → took entry) :
    (exchange.undergo happening).Tended took world ranks := by
  cases happening with
  | event event =>
    cases event with
    | issue now index call =>
      exact tended.issue fun entry arrives => admitted now index call entry rfl arrives
    | expire now ticket =>
      rw [Exchange.undergo, apply]
      split
      next due found => exact tended.expire due
      next => exact tended
  | withdraw ticket => exact ⟨tended.setting, tended.posts, tended.rounds⟩
  | late due => exact tended.expire due

/-- What is said of the calls that fill slots may be weakened. -/
theorem mono {later : Waiting → Prop} (onward : ∀ entry, took entry → later entry) :
    exchange.Tended later world ranks :=
  { tended with
    rounds := ⟨tended.rounds.distinct, fun key round present =>
      (tended.rounds.begun key round present).mono onward⟩ }

end Tended

/-- What took a seat before takes part in all that follows. -/
theorem Took.append [Arithmetic] {happenings : List Happening}
    (took : Took world ranks happenings entry)
    (more : List Happening) : Took world ranks (happenings ++ more) entry := by
  obtain ⟨before, now, index, later, rfl, arrives, stands⟩ := took
  exact ⟨before, now, index, later ++ more, by simp, arrives, stands⟩

/-- Whatever happened, the rounds are filled by calls that took their seats in the course of it. The
induction is on the last thing that happened. -/
theorem tended_after [Arithmetic] (world : World) (ranks : List Nat) (happenings : List Happening) :
    ((create world ranks).after happenings).Tended (Took world ranks happenings) world ranks := by
  induction happenings using List.reverseRecOn with
  | nil => exact tended_create
  | append_singleton before last inductionHypothesis =>
    rw [after_append]
    apply (inductionHypothesis.mono fun entry took => took.append [last]).undergo
    rintro now index call entry rfl arrives
    obtain ⟨_, _, _, _, rfl⟩ := arrival?_issue arrives
    exact ⟨before, now, index, [], rfl, arrives, inductionHypothesis.stands arrives⟩

/-- Whatever happened to a world of any groups and any endpoints, each of its open rounds has a slot
for each member of its group, counts the filled slots and the waiters, at least one and not all, and
its filled slots were filled by endpoints of the ranks that sit there. A further contribution to a
filled slot is refused and leaves the rounds as they are. All that is done to have calls answered is
covered: it is a course of things that happen. -/
theorem rounds_filled [Arithmetic] (world : World) (ranks : List Nat)
    (happenings : List Happening) :
    let exchange := (create world ranks).after happenings
    exchange.rounds.Filled (Took world ranks happenings) world ∧
    (∀ now index call entry round contribution,
      exchange.arrival? (.issue now index call) = some entry →
      (entry.key, round) ∈ exchange.rounds →
      round.slots[entry.position]? = some (some contribution) →
      (exchange.issue now index call).2 = [⟨entry.ticket, .error (.collectiveFailed
        call.operation.name entry.rank
        ("rank contributed twice to round " ++ toString entry.key.sequence))⟩] ∧
      (exchange.issue now index call).1.rounds = exchange.rounds ∧
      (exchange.issue now index call).1.waiting = exchange.waiting) ∧
    ∀ pause calls, ∃ further,
      (exchange.perform pause calls).1 = (create world ranks).after (happenings ++ further) := by
  intro exchange
  have tended := tended_after world ranks happenings
  refine ⟨tended.rounds, ?_, ?_⟩
  · intro now index call entry round contribution arrives stored taken
    rw [tended.issue_refused arrives stored taken]
    obtain ⟨_, _, _, _, rfl⟩ := arrival?_issue arrives
    exact ⟨rfl, rfl, rfl⟩
  · intro pause calls
    obtain ⟨further, same⟩ := exchange.exists_after_perform pause calls
    exact ⟨further, same.trans (after_append _ _ _).symm⟩

/-- Two endpoints stand for rank 1, and rank 3 has given up. Its slot stays filled, and the second
of the endpoints is refused. -/
theorem rounds_filled_twice :
    let world : World := .create 6 [[3, 1, 5]] 100
    let happenings : List Happening := [.event (.issue 0 0 (.barrier 1)), .withdraw 0,
      .event (.issue 1 1 (.barrier 1))]
    let exchange := (create world [3, 1, 1]).after happenings
    let made := (Call.barrier 1).contribution
    let round : Round := ⟨[some made, some made, none], 2, [0, 1]⟩
    exchange.waiting.map Waiting.ticket = [1] ∧
      round.Begun (Took world [3, 1, 1] happenings) ⟨1, 0⟩ [3, 1, 5] ∧
      (exchange.issue 2 2 (.barrier 1)).1.rounds = [(⟨1, 0⟩, round)] ∧
      (exchange.issue 2 2 (.barrier 1)).2 = [⟨2, .error (.collectiveFailed "barrier" 1
        "rank contributed twice to round 0")⟩] := by
  intro world happenings exchange made round
  obtain ⟨filled, refused, -⟩ := rounds_filled world [3, 1, 1] happenings
  have stored : ((⟨1, 0⟩ : RoundKey), round) ∈ exchange.rounds := List.mem_singleton_self _
  obtain ⟨answers, rounds, -⟩ := refused 2 2 (.barrier 1) ⟨2, 1, 1, ⟨1, 0⟩, 102, .barrier 1⟩ round
    made rfl stored rfl
  exact ⟨rfl, filled.begun _ round stored, rounds, answers⟩

end Exchange

end CollectiveBench
