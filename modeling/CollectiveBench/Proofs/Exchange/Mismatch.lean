import CollectiveBench.Proofs.Delivery.Reducing
import CollectiveBench.Proofs.Exchange.InRange
import CollectiveBench.Proofs.Exchange.Numbering
import CollectiveBench.Proofs.Exchange.Resolution

/-!
# Rounds of different operations

Each member of a filled round compares its own operation with those that the others brought, and
decides alone. Because all are handed one list, in the order of the group, they decide alike: where
two operations differ, every member finds one that differs from its own, and none gets a result;
where all are the same, none finds any, and a member can only fail for its buffers. Either way the
members have spent the number of the round, and their next calls meet in the rounds that follow
(`filled_rounds_agree`).
-/

namespace CollectiveBench

/-- A call of a round is the first one, in the order of the group, whose operation differs from
that of an entry. -/
structure FirstToDiffer (entries : List Waiting) (entry other : Waiting) : Prop where
  entered : other ∈ entries
  differs : other.call.operation ≠ entry.call.operation
  first : ∀ earlier ∈ entries, earlier.position < other.position →
    earlier.call.operation = entry.call.operation

/-- A fault of the buffers is never reported as a mismatch of operations. -/
theorem mismatch_ne_split (peer : String) :
    "peer issued " ++ peer ++ " in the same round" ≠ "peer sent no usable split" := by
  intro same
  have letters := congrArg (fun text => text.toList[5]?) same
  simp only [String.toList_append, List.append_assoc] at letters
  rw [List.getElem?_append_left (by decide)] at letters
  exact absurd letters (by decide)

/-- Calls that stand at all places of a group are at least as many as the places. -/
theorem le_length_of_covered {size : Nat} {entries : List Waiting}
    (covered : ∀ place < size, ∃ entry ∈ entries, entry.position = place) :
    size ≤ entries.length := by
  have contained : List.range size ⊆ entries.map Waiting.position := fun place inside =>
    List.mem_map.mpr (covered place (List.mem_range.mp inside))
  simpa using List.nodup_range.length_le_of_subset contained

namespace Exchange

variable {exchange : Exchange} {event : Event} {key : RoundKey}

/-- With an event, every slot of the round of a key has a call. -/
structure Fills (exchange : Exchange) (event : Event) (key : RoundKey) : Prop where
  someone : exchange.entered event key ≠ []
  covered : ∀ place < exchange.roundSize key,
    ∃ entry ∈ exchange.entered event key, entry.position = place

/-! ## Filled rounds complete -/

/-- The calls that wait in a round leave some slot vacant. -/
theorem Sound.not_covered (sound : exchange.Sound) (someone : exchange.depositors key ≠ []) :
    ¬∀ place < exchange.roundSize key,
      ∃ entry ∈ exchange.depositors key, entry.position = place := by
  intro covered
  obtain ⟨entry, present⟩ := List.exists_mem_of_ne_nil _ someone
  obtain ⟨waits, rfl⟩ := mem_depositors.mp present
  exact absurd (le_length_of_covered covered) (Nat.not_le.mpr (sound.unfinished entry waits))

/-- A call arrives at a slot of its round. -/
theorem position_lt_of_arrival {entry : Waiting} (arrives : exchange.arrival? event = some entry) :
    entry.position < exchange.roundSize entry.key := by
  cases event with
  | expire now ticket => cases arrives
  | issue now index call => exact World.positionIn_lt (arrival_seated arrives).2

/-- A round is filled by a call that arrives at the last vacant slot. -/
theorem Sound.arrival_of_fills (sound : exchange.Sound) (fills : exchange.Fills event key) :
    ∃ entry, exchange.arrival? event = some entry ∧ entry.key = key ∧
      (∀ other ∈ exchange.depositors key, other.position ≠ entry.position) ∧
      (exchange.depositors key ++ [entry]).length = exchange.roundSize key := by
  obtain ⟨someone, covered⟩ := fills
  cases arriving : (exchange.arrival? event).toList.filter (·.key = key) with
  | nil =>
    rw [entered, arriving, List.append_nil] at someone covered
    exact absurd covered (sound.not_covered someone)
  | cons entry rest =>
    have listed : entry ∈ (exchange.arrival? event).toList.filter (·.key = key) := by
      simp [arriving]
    obtain ⟨arrives, here⟩ := List.mem_filter.mp listed
    have arrives := Option.mem_toList.mp arrives
    obtain rfl : entry.key = key := by simpa using here
    have everyone : exchange.entered event entry.key =
        exchange.depositors entry.key ++ [entry] := by simp [entered, arrives]
    rw [everyone] at covered
    have vacant : ∀ other ∈ exchange.depositors entry.key, other.position ≠ entry.position := by
      -- A call at a slot that is taken fills no slot that was vacant.
      intro other present same
      refine sound.not_covered (List.ne_nil_of_mem present) fun place inside => ?_
      obtain ⟨holder, there, sits⟩ := covered place inside
      rcases List.mem_append.mp there with earlier | last
      · exact ⟨holder, earlier, sits⟩
      · rw [List.mem_singleton.mp last] at sits
        exact ⟨other, present, same.trans sits⟩
    refine ⟨entry, arrives, rfl, vacant, ?_⟩
    by_contra incomplete
    have short := sound.short (position_lt_of_arrival arrives) incomplete
    have enough := le_length_of_covered covered
    rw [List.length_append, List.length_singleton] at enough
    omega

/-- A filled round completes. -/
theorem Sound.completes_of_fills (sound : exchange.Sound) (fills : exchange.Fills event key) :
    ∃ all, exchange.Completes event key all := by
  obtain ⟨entry, arrives, rfl, vacant, full⟩ := sound.arrival_of_fills fills
  cases event with
  | expire now ticket => cases arrives
  | issue now index call =>
    have free : ¬(exchange.depositors entry.key).any (·.position = entry.position) := by
      simpa using vacant
    have departing : exchange.departures (.issue now index call) =
        (exchange.depositors entry.key ++ [entry]).map (⟨·, .handed
          (exchange.lineUp entry.key (exchange.depositors entry.key ++ [entry]))⟩) := by
      simp only [departures, arrives, free, full, if_true, Bool.false_eq_true, if_false]
    have nobody : (exchange.apply (.issue now index call)).1.depositors entry.key = [] := by
      simp only [Exchange.apply, sound.issue_eq arrives, free, full, if_true, Bool.false_eq_true,
        if_false, depositors_close]
    exact ⟨_, sound.completes arrives departing nobody⟩

/-! ## What the members answer -/

namespace Completes

variable {all : List Contribution} (completes : exchange.Completes event key all)
  (fills : exchange.Fills event key)
include completes fills

/-- The list has the contribution of the call at each place, and no other. -/
theorem contributed {place : Nat} {contribution : Contribution}
    (here : all[place]? = some contribution) :
    ∃ entry ∈ exchange.entered event key, entry.position = place ∧
      entry.call.contribution = contribution := by
  have inside : place < exchange.roundSize key :=
    completes.length ▸ (List.getElem?_eq_some_iff.mp here).1
  obtain ⟨entry, present, rfl⟩ := fills.covered place inside
  have placed := completes.placed entry present
  exact ⟨entry, present, rfl, Option.some.inj (placed.symm.trans here)⟩

/-- Where a member brought another operation, the call fails and names the first such member. -/
theorem conclude_mismatched {entry peer : Waiting} (present : peer ∈ exchange.entered event key)
    (differs : peer.call.operation ≠ entry.call.operation) :
    ∃ other, FirstToDiffer (exchange.entered event key) entry other ∧
      conclude entry.call entry.rank entry.position all =
        .error (.collectiveFailed entry.call.operation.name entry.rank
          ("peer issued " ++ other.call.operation.name ++ " in the same round")) := by
  cases found : all.find? (·.operation ≠ entry.call.operation) with
  | none =>
    have listed := List.mem_of_getElem? (completes.placed peer present)
    exact absurd (decide_eq_true differs) (List.find?_eq_none.mp found _ listed)
  | some contribution =>
    obtain ⟨holds, place, inside, here, before⟩ := List.find?_eq_some_iff_getElem.mp found
    have unlike := of_decide_eq_true holds
    obtain ⟨other, entered, rfl, rfl⟩ :=
      completes.contributed fills (here ▸ List.getElem?_eq_getElem inside)
    refine ⟨other, ⟨entered, unlike, fun earlier listed sooner => ?_⟩, ?_⟩
    · obtain ⟨_, there⟩ := List.getElem?_eq_some_iff.mp (completes.placed earlier listed)
      have same := before earlier.position sooner
      rw [there, Bool.not_eq_true'] at same
      exact not_not.mp (of_decide_eq_false same)
    · rw [conclude, found]
      rfl

/-- Where all members brought one operation, no call fails for another one. -/
theorem conclude_agreed {posts : Nat} (guarded : exchange.Guarded posts)
    {entry : Waiting} (present : entry ∈ exchange.entered event key)
    (agreed : ∀ other ∈ exchange.entered event key,
      other.call.operation = entry.call.operation) :
    BufferFaults (conclude entry.call entry.rank entry.position all) := by
  have same : ∀ contribution ∈ all, contribution.operation = entry.call.operation := by
    intro contribution listed
    obtain ⟨place, here⟩ := List.mem_iff_getElem?.mp listed
    obtain ⟨other, entered, _, rfl⟩ := completes.contributed fills here
    exact agreed other entered
  have departs : (⟨entry, .handed all⟩ : Departure) ∈ exchange.departures event := by
    rw [completes.departures]
    exact List.mem_map_of_mem present
  rw [conclude_eq_deliver same]
  exact faults_deliver (guarded.inRange departs rfl)

end Completes

/-- Whoever enters a round with an event arrived then or before. -/
theorem Sound.arrival_of_entered {start : Exchange} (sound : start.Sound)
    (nobody : start.waiting = []) {events : List Event} {entry : Waiting}
    (present : entry ∈ (start.run events).1.entered event key) :
    ∃ before arriving after, events ++ [event] = before ++ arriving :: after ∧
      (start.run before).1.arrival? arriving = some entry := by
  rcases List.mem_append.mp present with earlier | last
  · rcases sound.arrived (mem_depositors.mp earlier).1 with
      waited | ⟨before, arriving, after, rfl, arrives⟩
    · simp [nobody] at waited
    · exact ⟨before, arriving, after ++ [event], by simp, arrives⟩
  · exact ⟨events, event, [], rfl, Option.mem_toList.mp (List.mem_of_mem_filter last)⟩

/-- In any world, with endpoints for any ranks and after any events, a round whose slots are all
filled has one call of each member of its group. If two of the calls have different operations, then
every call fails, and names its own operation and the first different one in the order of the group.
If all have one operation, then no call fails for that reason. In either case the endpoint of each
call has spent the number of the round and no other with it, and its next calls on the group go to
the rounds with the next numbers. -/
theorem filled_rounds_agree (world : World) (ranks : List Nat) (events : List Event) (event : Event)
    (key : RoundKey) (fills : ((create world ranks).run events).1.Fills event key) :
    let exchange := ((create world ranks).run events).1
    let entries := exchange.entered event key
    (entries.map Waiting.rank).Perm (world.members key.group) ∧
    ((∃ entry ∈ entries, ∃ peer ∈ entries, peer.call.operation ≠ entry.call.operation) →
      List.Forall₂ (fun entry answer => ∃ other, FirstToDiffer entries entry other ∧
        answer = (⟨entry.ticket, .error (.collectiveFailed entry.call.operation.name entry.rank
          ("peer issued " ++ other.call.operation.name ++ " in the same round"))⟩ : Answer))
        entries (exchange.apply event).2) ∧
    ((∀ entry ∈ entries, ∀ peer ∈ entries, peer.call.operation = entry.call.operation) →
      List.Forall₂ (fun entry answer => answer.ticket = entry.ticket ∧ ∀ name rank peer,
        answer.outcome ≠ .error (.collectiveFailed name rank
          ("peer issued " ++ peer ++ " in the same round")))
        entries (exchange.apply event).2) ∧
    ∀ entry ∈ entries, ∃ before now index after,
      events ++ [event] = before ++ .issue now index entry.call :: after ∧
      (create world ranks).Numbered ranks entry before now index := by
  intro exchange entries
  have idle : (create world ranks).Idle := ⟨rfl, rfl⟩
  have posted := posted_create world ranks
  have guarded := idle.guarded.run events
  obtain ⟨all, completes⟩ := guarded.sound.completes_of_fills fills
  refine ⟨?_, ?_, ?_, ?_⟩
  · have members := completes.members
    rwa [(posted.run events).2] at members
  · rintro ⟨entry, present, peer, listed, differs⟩
    rw [completes.answers, List.forall₂_map_right_iff, List.forall₂_same]
    intro member entered
    -- One of the two differs from this member, whichever operation it has.
    obtain ⟨other, there, unlike⟩ : ∃ other ∈ entries,
        other.call.operation ≠ member.call.operation := by
      by_cases same : entry.call.operation = member.call.operation
      · exact ⟨peer, listed, same ▸ differs⟩
      · exact ⟨entry, present, same⟩
    obtain ⟨first, isFirst, fails⟩ := completes.conclude_mismatched fills there unlike
    exact ⟨first, isFirst, by rw [fails]⟩
  · intro agreed
    rw [completes.answers, List.forall₂_map_right_iff, List.forall₂_same]
    intro member entered
    refine ⟨rfl, fun name rank peer failed => mismatch_ne_split peer ?_⟩
    exact completes.conclude_agreed fills guarded entered (agreed member entered) _ failed
  · intro entry present
    obtain ⟨before, arriving, after, split, arrives⟩ :=
      idle.sound.arrival_of_entered idle.waiting present
    cases arriving with
    | expire now ticket => cases arrives
    | issue now index call =>
      obtain ⟨rfl, numbered⟩ := posted.numbered arrives
      exact ⟨before, now, index, after, split, numbered⟩

/-- In a group that lists rank 2 first, rank 0 sums while the others meet at a barrier. All three
fail: rank 0 names the barrier of rank 2, and the others name the sum. The count of each has moved
on to round 1 of the group. -/
theorem filled_rounds_agree_mixed :
    let world := World.create 3 [[2, 0, 1]] 50
    let call (operation : Operation) : Call := { buffers := { operation }, group := 1 }
    let start := create world [0, 1, 2]
    let events : List Event := [.issue 0 0 (call .allReduce), .issue 1 1 (call .barrier)]
    let last : Event := .issue 2 2 (call .barrier)
    let exchange := (start.run events).1
    let entries := exchange.entered last ⟨1, 0⟩
    let fails (rank : Nat) (own peer : Operation) : Outcome Call :=
      .error (.collectiveFailed own.name rank ("peer issued " ++ peer.name ++ " in the same round"))
    exchange.Fills last ⟨1, 0⟩ ∧
    (exchange.apply last).2.map Answer.outcome = [fails 0 .allReduce .barrier,
      fails 1 .barrier .allReduce, fails 2 .barrier .allReduce] ∧
    List.Forall₂ (fun entry answer => ∃ other, FirstToDiffer entries entry other ∧
        answer = ⟨entry.ticket, fails entry.rank entry.call.operation other.call.operation⟩)
      entries (exchange.apply last).2 ∧
    ∀ entry ∈ entries, ∃ before now index after,
      events ++ [last] = before ++ .issue now index entry.call :: after ∧
      start.Numbered [0, 1, 2] entry before now index := by
  intro world call start events last exchange entries fails
  have fills : exchange.Fills last ⟨1, 0⟩ := ⟨List.cons_ne_nil _ _, by decide⟩
  obtain ⟨-, mismatched, -, numbered⟩ :=
    filled_rounds_agree world [0, 1, 2] events last ⟨1, 0⟩ fills
  have differ : ∃ entry ∈ entries, ∃ peer ∈ entries,
      peer.call.operation ≠ entry.call.operation := by decide
  exact ⟨fills, by decide +kernel, mismatched differ, numbered⟩

end Exchange

end CollectiveBench
