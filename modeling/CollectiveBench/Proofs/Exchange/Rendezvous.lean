import CollectiveBench.Proofs.Delivery.Delivered
import CollectiveBench.Proofs.Exchange.Ledger

/-!
# What a delivered round consists of

When a call is handed a list, every member of its group has made its accepted call of the same
number, and the list has those calls' contributions in the order of the group: no number, group
or rank is ever mixed with another. A barrier that returns has therefore been entered by all.

The proof reads the completed round off the step that handed the list over and looks its calls up
in the ledger of the run, which knows the number of every one of them.
-/

namespace CollectiveBench

/-- A list that a call was handed is the list of its round: the call is the accepted one of its
rank with the number of the round, and each place of the list has the contribution of the
accepted call with that number of the rank in that place of the group. -/
structure World.Meets (world : World) (events : List Event) (entry : Waiting)
    (all : List Contribution) : Prop where
  own : (world.acceptedCalls entry.rank entry.key.group events)[entry.key.sequence]? =
    some entry.call
  length : all.length = (world.members entry.key.group).length
  others : ∀ place rank : Nat, (world.members entry.key.group)[place]? = some rank →
    ∃ call, (world.acceptedCalls rank entry.key.group events)[entry.key.sequence]? = some call ∧
      all[place]? = some call.contribution

namespace Exchange

variable {start exchange : Exchange} {events : List Event} {log : List (List Departure)}
  {clock : Nat}

/-- Nobody has taken part in a round of a new exchange. -/
theorem sequence_create (world : World) (ranks : List Nat) (rank group : Nat) :
    (create world ranks).sequence rank group = 0 := by
  cases found : (create world ranks).endpoints[rank]? with
  | none => simp [sequence, found]
  | some endpoint =>
    obtain ⟨number, _, rfl⟩ : ∃ number, number ∈ ranks ∧ Endpoint.create world number = endpoint :=
      List.mem_map.mp (List.mem_of_getElem? found)
    by_cases known : group < world.groups.length <;>
      simp [sequence, found, Endpoint.next, Endpoint.create, known]

/-- An answer is that of a departing call, or the immediate one to a call that takes no seat. -/
theorem Sound.mem_answers [Arithmetic] (sound : exchange.Sound) {event : Event} {answer : Answer}
    (given : answer ∈ (exchange.apply event).2) :
    (∃ departure ∈ exchange.departures event,
      answer = departure.answer exchange.world.timeoutMs) ∨
    ∃ now index call, event = .issue now index call ∧ exchange.arrival? event = none ∧
      answer = ⟨exchange.nextTicket, exchange.immediate index call⟩ := by
  rw [sound.answers_apply] at given
  cases event with
  | expire now ticket =>
    obtain ⟨departure, departs, same⟩ := List.mem_map.mp given
    exact .inl ⟨departure, departs, same.symm⟩
  | issue now index call =>
    cases arrives : exchange.arrival? (.issue now index call) with
    | none =>
      simp only [answersTo, arrives] at given
      exact .inr ⟨now, index, call, rfl, rfl, List.mem_singleton.mp given⟩
    | some entry =>
      simp only [answersTo, arrives] at given
      obtain ⟨departure, departs, same⟩ := List.mem_map.mp given
      exact .inl ⟨departure, departs, same.symm⟩

/-- In a run from rest, the list that a call is handed has the accepted calls of one number. The
numbers of each rank are counted from where the run started. -/
theorem History.handed [Arithmetic] (rest : start.AtRest)
    (history : History start events log clock exchange)
    {event : Event} {departure : Departure} {all : List Contribution}
    (departs : departure ∈ exchange.departures event) (handed : departure.fate = .handed all) :
    Recorded start (events ++ [event]) departure.entry ∧
      all.length = (start.world.members departure.entry.key.group).length ∧
      ∀ place rank : Nat, (start.world.members departure.entry.key.group)[place]? = some rank →
        ∃ entry, entry ∈ (exchange.departures event).map Departure.entry ∧ entry.rank = rank ∧
          entry.key = departure.entry.key ∧ Recorded start (events ++ [event]) entry ∧
          all[place]? = some entry.call.contribution := by
  have ledger := history.ledger rest
  obtain ⟨everyone, round, present⟩ := ledger.sound.completion departs handed
  have recorded : ∀ entry ∈ everyone, Recorded start (events ++ [event]) entry := by
    intro entry member
    have left : entry ∈ (exchange.departures event).map Departure.entry := by
      rw [round.departures]
      simpa using member
    have known := (ledger.sound.conserved event).mem_iff.mp (List.mem_append_left _ left)
    apply (ledger.step event).recorded
    rcases List.mem_append.mp known with arriving | waited
    · exact List.mem_append_left _ arriving
    · exact List.mem_append_right _ (List.mem_append_right _ waited)
  have size : exchange.roundSize departure.entry.key =
      (start.world.members departure.entry.key.group).length := by
    rw [roundSize, ledger.world]
  refine ⟨recorded _ present, size ▸ round.length, ?_⟩
  intro place rank sits
  have bound : place < exchange.roundSize departure.entry.key := by
    rw [size]
    exact (List.getElem?_eq_some_iff.mp sits).1
  obtain ⟨entry, member, rfl⟩ :=
    List.mem_map.mp (round.places.mem_iff.mpr (List.mem_range.mpr bound))
  have facts := recorded entry member
  have seat := World.getElem?_positionIn facts.place
  rw [round.keys entry member, sits] at seat
  refine ⟨entry, ?_, (Option.some.inj seat).symm, round.keys entry member, facts,
    round.placed entry member⟩
  rw [round.departures]
  simpa using member

/-- Only calls that wait for nobody are answered with a call before a round is. -/
theorem immediate_free {now index : Nat} {call returned : Call}
    (stays : exchange.arrival? (.issue now index call) = none)
    (answered : exchange.immediate index call = .ok returned) :
    returned.operation = .noop ∨ returned.operation = .wait := by
  cases found : exchange.endpoints[index]? with
  | none => simp [immediate, found] at answered
  | some endpoint =>
    cases seated : exchange.world.seatFor endpoint.rank call with
    | error error => simp [immediate, found, seated, Except.map] at answered
    | ok taken =>
      obtain rfl : call = returned := by
        simpa [immediate, found, seated, Except.map] using answered
      cases taken with
      | some seat => simp [arrival?, found, seated] at stays
      | none =>
        by_contra waits
        unfold World.seatFor at seated
        rw [if_neg waits] at seated
        cases located : exchange.world.group call.group with
        | error error => simp [located, bind, Except.bind] at seated
        | ok ranks =>
          cases place : World.positionIn ranks endpoint.rank with
          | none => simp [located, place, bind, Except.bind] at seated
          | some position =>
            cases checked : call.checkPeers endpoint.rank ranks.length <;>
              simp [located, place, checked, bind, Except.bind, pure, Except.pure] at seated

/-- A barrier is never answered with a call before its round is. -/
theorem immediate_ne_barrier {now index : Nat} {call returned : Call}
    (stays : exchange.arrival? (.issue now index call) = none)
    (answered : exchange.immediate index call = .ok returned) :
    returned.operation ≠ .barrier := by
  rcases immediate_free stays answered with free | free <;> simp [free]

/-- Whatever happens next in any run of a world with one endpoint for each rank: the answers are
those of the departing calls, or the immediate one to a call that takes no seat; a call that is
handed a list is handed that of its round, with the contribution of each member's accepted call
of the same number; and a barrier that is answered with a call was entered, as the same number of
their calls on the group, by all members. -/
theorem handed_lists_meet [Arithmetic] (world : World)
    (history : History (create world (List.range world.size)) events log clock exchange)
    (event : Event) :
    (exchange.apply event).2 = exchange.answersTo event ∧
    (∀ departure ∈ exchange.departures event, ∀ all, departure.fate = .handed all →
      world.Meets (events ++ [event]) departure.entry all) ∧
    ∀ answer ∈ (exchange.apply event).2, ∀ returned, answer.outcome = .ok returned →
      returned.operation = .barrier →
      ∃ departure ∈ exchange.departures event,
        departure.entry.ticket = answer.ticket ∧ departure.entry.call = returned ∧
        departure.entry.key.group = returned.group ∧
        ∀ member ∈ world.members returned.group, ∃ call : Call,
          (world.acceptedCalls member returned.group
            (events ++ [event]))[departure.entry.key.sequence]? = some call ∧
          call.operation = .barrier := by
  have rest := atRest_create world
  have sound := (history.ledger rest).sound
  -- Numbers are counted from zero in a new exchange.
  have numbered {entry : Waiting}
      (recorded : Recorded (create world (List.range world.size)) (events ++ [event]) entry) :
      (world.acceptedCalls entry.rank entry.key.group (events ++ [event]))[entry.key.sequence]? =
        some entry.call := by
    obtain ⟨index, number, made⟩ := recorded.made
    rw [sequence_create, Nat.zero_add] at number
    rw [number]
    exact made
  have meets : ∀ departure ∈ exchange.departures event, ∀ all, departure.fate = .handed all →
      world.Meets (events ++ [event]) departure.entry all := by
    intro departure departs all handed
    obtain ⟨recorded, length, others⟩ := history.handed rest departs handed
    refine ⟨numbered recorded, length, ?_⟩
    intro place rank sits
    obtain ⟨entry, _, sameRank, sameKey, entryRecorded, contribution⟩ := others place rank sits
    refine ⟨entry.call, ?_, contribution⟩
    rw [← sameRank, ← sameKey]
    exact numbered entryRecorded
  refine ⟨sound.answers_apply event, meets, ?_⟩
  intro answer given returned succeeded barrier
  rcases sound.mem_answers given with
    ⟨departure, departs, rfl⟩ | ⟨now, index, call, rfl, stays, rfl⟩
  · cases fate : departure.fate with
    | handed all =>
      have concluded : conclude departure.entry.call departure.entry.rank
          departure.entry.position all = .ok returned := by
        simpa only [Departure.answer, fate] using succeeded
      obtain ⟨agreed, delivered⟩ := conclude_eq_ok concluded
      have entered : departure.entry.call.operation = .barrier :=
        (deliver_operation delivered).symm.trans barrier
      obtain rfl : departure.entry.call = returned :=
        Except.ok.inj ((deliver_barrier _ _ entered).symm.trans delivered)
      have group := (history.handed rest departs fate).1.group
      refine ⟨departure, departs, rfl, rfl, group.symm, ?_⟩
      intro member belongs
      rw [group] at belongs ⊢
      obtain ⟨place, sits⟩ := List.mem_iff_getElem?.mp belongs
      obtain ⟨call, made, contribution⟩ :=
        (meets departure departs all fate).others place member sits
      exact ⟨call, made, (agreed _ (List.mem_of_getElem? contribution)).trans entered⟩
    | timedOut => simp [Departure.answer, fate] at succeeded
    | abandoned => simp [Departure.answer, fate] at succeeded
    | refused => simp [Departure.answer, fate] at succeeded
  · exact absurd barrier (immediate_ne_barrier stays succeeded)

/-- In a group that lists rank 3 before rank 1, the list has the contribution of rank 3 first,
though rank 1 arrived first. -/
theorem handed_lists_meet_pair :
    let world : World := ⟨4, [[0, 1, 2, 3], [3, 1]], 50⟩
    let call (word : Nat) : Call :=
      { buffers := { operation := .allReduce, input := .single ⟨.u8, [word]⟩ }, group := 1 }
    let start := create world (List.range 4)
    let exchange := (start.apply (.issue 0 1 (call 7))).1
    let events : List Event := [.issue 0 1 (call 7), .issue 1 3 (call 9)]
    History start [.issue 0 1 (call 7)] [[]] 0 exchange ∧
      ∃ departure ∈ exchange.departures (.issue 1 3 (call 9)),
        departure.fate = .handed [(call 9).contribution, (call 7).contribution] ∧
        world.Meets events departure.entry [(call 9).contribution, (call 7).contribution] := by
  intro world call start exchange events
  have history : History start [.issue 0 1 (call 7)] [[]] 0 exchange :=
    .step .start (.issue 0 1 (call 7)) (.inr rfl) trivial
  have meets := (handed_lists_meet world history (.issue 1 3 (call 9))).2.1
  have departs : ⟨⟨0, 1, 1, ⟨1, 0⟩, 50, call 7⟩,
      .handed [(call 9).contribution, (call 7).contribution]⟩ ∈
        exchange.departures (.issue 1 3 (call 9)) := List.mem_cons_self
  exact ⟨history, _, departs, rfl, meets _ departs _ rfl⟩

end Exchange

end CollectiveBench
