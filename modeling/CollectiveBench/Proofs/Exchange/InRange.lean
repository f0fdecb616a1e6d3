import CollectiveBench.Proofs.Delivery.Defects
import CollectiveBench.Proofs.Exchange.Rendezvous
import CollectiveBench.Proofs.Exchange.Schedule
import CollectiveBench.Proofs.Exchange.Seats
import CollectiveBench.Proofs.Tensor.Bytes

/-!
# Nothing is out of range

No call reaches an index that does not exist, whatever the groups list, whichever ranks the
endpoints stand for, whatever the calls carry and in which order things happen. A call that takes a
seat has its slot, because its round has one for each place of the group. A call that is handed a
list finds a contribution for each place of its group there, and its root and its senders were
checked against the size of that group before it took its seat. So every answer is a call, or an
error that names what a caller got wrong.
-/

namespace CollectiveBench

/-- The checks of a call's peers break no precondition. -/
theorem Call.orderly_checkPeers (call : Call) (rank size : Nat) :
    Orderly (call.checkPeers rank size) := by
  rw [checkPeers]
  split
  · exact failsOnly_error id
  · split
    · exact failsOnly_error id
    · split
      · exact failsOnly_error id
      · exact failsOnly_ok ()

/-- Asking for a seat breaks no precondition. -/
theorem World.orderly_seatFor (world : World) (rank : Nat) (call : Call) :
    Orderly (world.seatFor rank call) := by
  rw [seatFor]
  split
  · exact failsOnly_ok none
  · have known : Orderly (world.group call.group) := by
      rw [group]
      split
      · exact failsOnly_ok _
      · exact failsOnly_error id
    refine known.bind fun ranks => ?_
    split
    · exact failsOnly_error id
    · exact (call.orderly_checkPeers rank ranks.length).bind fun _ => failsOnly_ok _

namespace Exchange

variable {exchange : Exchange} {posts : Nat}

/-- The exchange is sound, every waiting call passed the checks of its peers, and there are as many
endpoints as given. -/
structure Guarded (exchange : Exchange) (posts : Nat) : Prop where
  sound : exchange.Sound
  checked : ∀ entry ∈ exchange.waiting,
    entry.call.checkPeers entry.rank (exchange.roundSize entry.key) = .ok ()
  posts : exchange.endpoints.length = posts

/-- A call that arrives passed the checks of its peers. -/
theorem arrival_checked {now index : Nat} {call : Call} {entry : Waiting}
    (arrives : exchange.arrival? (.issue now index call) = some entry) :
    entry.call.checkPeers entry.rank (exchange.roundSize entry.key) = .ok () := by
  obtain ⟨endpoint, seat, _, seated, rfl⟩ := arrival?_issue arrives
  exact (World.seatFor_eq_some_iff.mp seated).2.2.2

/-- Where nobody waits, everyone who waits was checked. -/
theorem Idle.guarded (idle : exchange.Idle) : exchange.Guarded exchange.endpoints.length where
  sound := idle.sound
  checked := by simp [idle.waiting]
  posts := rfl

namespace Guarded

/-- Whoever arrives with an event or waits before it passed the checks and has a place in the
group. -/
theorem member (guarded : exchange.Guarded posts) {event : Event} {entry : Waiting}
    (present : entry ∈ (exchange.arrival? event).toList ++ exchange.waiting) :
    entry.call.checkPeers entry.rank (exchange.roundSize entry.key) = .ok () ∧
      entry.position < exchange.roundSize entry.key := by
  rcases List.mem_append.mp present with arriving | waits
  · have arrives := Option.mem_toList.mp arriving
    cases event with
    | expire now ticket => cases arrives
    | issue now index call =>
      exact ⟨arrival_checked arrives, World.positionIn_lt (arrival_seated arrives).2⟩
  · exact ⟨guarded.checked entry waits,
      World.positionIn_lt (guarded.sound.seated entry waits).2⟩

/-- Every event keeps the exchange guarded. -/
theorem apply (guarded : exchange.Guarded posts) (event : Event) :
    (exchange.apply event).1.Guarded posts where
  sound := guarded.sound.apply event
  checked := by
    intro entry waits
    have present := (guarded.sound.conserved event).mem_iff.mp (List.mem_append_right _ waits)
    rw [roundSize, world_apply guarded.sound]
    exact (guarded.member present).1
  posts := by
    rw [endpoints_apply guarded.sound]
    cases event with
    | expire now ticket => exact guarded.posts
    | issue now index call =>
      cases arrives : exchange.arrival? (.issue now index call) with
      | none => exact guarded.posts
      | some entry => simpa using guarded.posts

/-- Every run keeps the exchange guarded. -/
theorem run (guarded : exchange.Guarded posts) (events : List Event) :
    (exchange.run events).1.Guarded posts := by
  induction events generalizing exchange with
  | nil => exact guarded
  | cons event rest inductionHypothesis => exact inductionHypothesis (guarded.apply event)

/-- The slot of an arriving call is one of the slots of its round, which may be open already or
not. -/
theorem slot (guarded : exchange.Guarded posts) {now index : Nat} {call : Call} {entry : Waiting}
    (arrives : exchange.arrival? (.issue now index call) = some entry) :
    entry.position < ((exchange.rounds.find? entry.key).getD
      (.empty (exchange.roundSize entry.key))).slots.length := by
  have inside : entry.position < exchange.roundSize entry.key :=
    World.positionIn_lt (arrival_seated arrives).2
  have filled := Round.getElem?_slots_ofWaiting (exchange.depositors entry.key) inside
  rw [guarded.sound.getD_find?]
  exact (List.getElem?_eq_some_iff.mp filled).1

/-- A call that is handed a list finds everything there that it looks for. -/
theorem inRange (guarded : exchange.Guarded posts) {event : Event} {departure : Departure}
    {all : List Contribution} (departs : departure ∈ exchange.departures event)
    (handed : departure.fate = .handed all) :
    departure.entry.call.InRange departure.entry.position all := by
  obtain ⟨everyone, round, _⟩ := guarded.sound.completion departs handed
  have present := (guarded.sound.conserved event).mem_iff.mp
    (List.mem_append_left _ (List.mem_map_of_mem departs))
  obtain ⟨checked, inside⟩ := guarded.member present
  rw [← round.length] at checked inside
  obtain ⟨root, peers, _⟩ := Call.checkPeers_eq_ok.mp checked
  refine ⟨inside, root, fun source listed => peers source (List.mem_append_left _ listed), ?_⟩
  intro contribution _ split usable
  have length : split.length = all.length := by simpa using (Option.filter_eq_some_iff.mp usable).2
  rw [length]
  exact inside

/-- Whoever waits in a completed round finds everything in the delivered list that its call looks
for. -/
theorem delivered (guarded : exchange.Guarded posts) {now index : Nat} {call : Call}
    {entry : Waiting} (arrives : exchange.arrival? (.issue now index call) = some entry)
    {rounds : Rounds} {tickets : List Nat} {all : List Contribution}
    (completes : exchange.rounds.deposit entry.key (exchange.roundSize entry.key) entry.position
      entry.ticket entry.call.contribution = .ok (.complete rounds tickets all)) :
    ∀ member ∈ exchange.waiting ++ [entry], member.ticket ∈ tickets →
      member.call.InRange member.position all := by
  have sound := guarded.sound
  obtain ⟨_, _, _, _, same⟩ := arrival?_issue arrives
  have newest : entry.ticket = exchange.nextTicket := by rw [same]
  have inside : entry.position < exchange.roundSize entry.key :=
    World.positionIn_lt (arrival_seated arrives).2
  rw [sound.deposit_eq inside] at completes
  split at completes
  next => cases completes
  next free =>
    split at completes
    next full =>
      obtain ⟨_, rfl, rfl⟩ := Rounds.Deposit.complete.inj (Except.ok.inj completes)
      intro member present ticket
      have listed : member ∈ exchange.depositors entry.key ++ [entry] := by
        rcases List.mem_append.mp present with waits | last
        · have here := sound.contains_everyone newest waits
          rw [List.contains_iff_mem.mpr ticket] at here
          have key : member.key = entry.key := of_decide_eq_true here.symm
          exact List.mem_append_left _ (mem_depositors.mpr ⟨waits, key⟩)
        · exact List.mem_append_right _ last
      have departs : (⟨member, .handed (exchange.lineUp entry.key
          (exchange.depositors entry.key ++ [entry]))⟩ : Departure) ∈
          exchange.departures (.issue now index call) := by
        simp only [departures, arrives, free, full, if_true]
        exact List.mem_map_of_mem listed
      exact guarded.inRange departs rfl
    next => cases completes

/-- Every answer to an event is a call or an error that names what a caller got wrong. -/
theorem orderly_apply (guarded : exchange.Guarded posts) {event : Event}
    (posted : ∀ issued ∈ event.issued?, issued.1 < posts) :
    ∀ answer ∈ (exchange.apply event).2, Orderly answer.outcome := by
  intro answer given
  rcases guarded.sound.mem_answers given with
    ⟨departure, departs, rfl⟩ | ⟨now, index, call, rfl, _, rfl⟩
  · rw [Departure.answer]
    cases fate : departure.fate with
    | handed all => exact orderly_conclude (guarded.inRange departs fate) departure.entry.rank
    | timedOut => exact failsOnly_error id
    | abandoned => exact failsOnly_error id
    | refused => exact failsOnly_error id
  · have inside : index < exchange.endpoints.length :=
      guarded.posts ▸ posted (index, call) rfl
    simp only [immediate, List.getElem?_eq_getElem inside]
    exact (exchange.world.orderly_seatFor _ call).bind fun _ => failsOnly_ok call

/-- So is every answer to a run. -/
theorem orderly_run (guarded : exchange.Guarded posts) {events : List Event}
    (posted : ∀ issued ∈ events.filterMap Event.issued?, issued.1 < posts) :
    ∀ answer ∈ (exchange.run events).2, Orderly answer.outcome := by
  induction events generalizing exchange with
  | nil => simp [Exchange.run]
  | cons event rest inductionHypothesis =>
    intro answer given
    rcases List.mem_append.mp given with now | later
    · refine guarded.orderly_apply (fun issued happens => ?_) answer now
      exact posted issued (List.mem_filterMap.mpr ⟨event, List.mem_cons_self, happens⟩)
    · refine inductionHypothesis (guarded.apply event) (fun issued happens => ?_) answer later
      obtain ⟨other, present, made⟩ := List.mem_filterMap.mp happens
      exact posted issued
        (List.mem_filterMap.mpr ⟨other, List.mem_cons_of_mem _ present, made⟩)

end Guarded

/-- Each call has an outcome, and the outcome is a call or an error that names what a caller got
wrong. -/
def Answered (calls : List (Nat × Call)) (outcomes : List (Outcome Call)) : Prop :=
  outcomes.length = calls.length ∧ ∀ outcome ∈ outcomes, Orderly outcome

/-- In every sequence of steps, each call has its outcome. -/
theorem Idle.answered (idle : exchange.Idle) {steps : List (Nat × List (Nat × Call))}
    (posted : ∀ step ∈ steps, ∀ issued ∈ step.2, issued.1 < exchange.endpoints.length) :
    List.Forall₂ (fun step outcomes => Answered step.2 outcomes) steps
      (exchange.performAll steps).2 := by
  induction steps generalizing exchange with
  | nil => exact .nil
  | cons step rest inductionHypothesis =>
    obtain ⟨pause, calls⟩ := step
    obtain ⟨events, enacts⟩ := idle.perform pause calls
    have guarded := idle.guarded.run events
    rw [enacts.run] at guarded
    refine .cons ⟨enacts.length, fun outcome given => ?_⟩ (inductionHypothesis enacts.idle ?_)
    · obtain ⟨place, here⟩ := List.mem_iff_getElem?.mp given
      have listed := (enacts.outcomes place outcome).mp here
      refine idle.guarded.orderly_run ?_ _ listed
      rw [enacts.issued]
      exact posted (pause, calls) List.mem_cons_self
    · rw [guarded.posts]
      exact fun step present => posted step (List.mem_cons_of_mem _ present)

/-- In any world, with endpoints for any ranks, several for one rank and for ranks outside of the
world included. However calls of these endpoints and deadlines follow on each other, every answer
is a call or an error that names what a caller got wrong, never a broken precondition. A call that
takes a seat has its slot in its round; and when a round completes, everyone in it finds its own
place, the root and the senders that it named in the delivered list, and its entry in each split
of the list's length. In steps, where deadlines take effect by the clock, every call is answered in
this way. A part that is cut out of a tensor lies within the bytes of the tensor. -/
theorem every_index_in_range (world : World) (ranks : List Nat) :
    (∀ events : List Event,
      (∀ issued ∈ events.filterMap Event.issued?, issued.1 < ranks.length) →
      let exchange := ((create world ranks).run events).1
      (∀ answer ∈ ((create world ranks).run events).2, Orderly answer.outcome) ∧
      ∀ now index call entry, exchange.arrival? (.issue now index call) = some entry →
        entry.position < ((exchange.rounds.find? entry.key).getD
          (.empty (exchange.roundSize entry.key))).slots.length ∧
        ∀ rounds tickets delivered,
          exchange.rounds.deposit entry.key (exchange.roundSize entry.key) entry.position
            entry.ticket entry.call.contribution = .ok (.complete rounds tickets delivered) →
          ∀ member ∈ exchange.waiting ++ [entry], member.ticket ∈ tickets →
            member.call.InRange member.position delivered) ∧
    (∀ steps : List (Nat × List (Nat × Call)),
      (∀ step ∈ steps, ∀ issued ∈ step.2, issued.1 < ranks.length) →
      List.Forall₂ (fun step outcomes => Answered step.2 outcomes) steps
        ((create world ranks).performAll steps).2) ∧
    ∀ (tensor part : Tensor) (start length : Nat), tensor.slice start length = .ok part →
      (start + length) * tensor.type.size ≤ tensor.bytes.length ∧
        part.bytes = (tensor.bytes.drop (start * tensor.type.size)).take
          (length * tensor.type.size) := by
  have idle : (create world ranks).Idle := ⟨rfl, rfl⟩
  have count : (create world ranks).endpoints.length = ranks.length := List.length_map _
  have start := idle.guarded
  rw [count] at start
  refine ⟨fun events posted => ⟨start.orderly_run posted, ?_⟩, fun steps posted => ?_,
    fun tensor part start length cut => Tensor.bytes_of_slice cut⟩
  · intro now index call entry arrives
    have guarded := start.run events
    exact ⟨guarded.slot arrives, fun _ _ _ completes => guarded.delivered arrives completes⟩
  · exact idle.answered (count ▸ posted)

/-- Two endpoints for rank 1, one for a rank outside of the world, and buffers without any split:
two calls meet in a round that neither gets anything out of, one times out and one has no seat. -/
theorem every_index_in_range_malformed :
    let world := World.create 2 [[1, 1, 9]] 5
    let start := create world [0, 1, 1, 7]
    let uneven : Call := { buffers := { operation := .allToAllv }, root := 4, sources := [1] }
    let opened := (start.run [.issue 0 0 uneven]).1
    let entry : Waiting := ⟨1, 1, 1, ⟨0, 0⟩, 6, uneven⟩
    let steps := [(1, [(0, uneven), (1, uneven), (2, uneven), (3, uneven)])]
    opened.arrival? (.issue 1 1 uneven) = some entry ∧
    (∀ member ∈ opened.waiting ++ [entry], member.ticket ∈ [0, 1] →
      member.call.InRange member.position [uneven.contribution, uneven.contribution]) ∧
    (start.performAll steps).2 =
      [[.error (.collectiveFailed "all_to_allv" 0 "peer sent no usable split"),
        .error (.collectiveFailed "all_to_allv" 1 "peer sent no usable split"),
        .error (.collectiveTimeout "all_to_allv" 0 5), .error (.invalidRank 7 2)]] ∧
    List.Forall₂ (fun step outcomes => Answered step.2 outcomes) steps
      (start.performAll steps).2 := by
  intro world start uneven opened entry steps
  obtain ⟨runs, performs, _⟩ := every_index_in_range world [0, 1, 1, 7]
  have arrives : opened.arrival? (.issue 1 1 uneven) = some entry := rfl
  have completes : opened.rounds.deposit entry.key (opened.roundSize entry.key) entry.position
      entry.ticket entry.call.contribution =
      .ok (.complete [] [0, 1] [uneven.contribution, uneven.contribution]) := rfl
  have posted : ∀ issued ∈ [Event.issue 0 0 uneven].filterMap Event.issued?,
      issued.1 < [0, 1, 1, 7].length := by decide
  obtain ⟨_, delivered⟩ := (runs [.issue 0 0 uneven] posted).2 1 1 uneven entry arrives
  exact ⟨arrives, delivered _ _ _ completes, rfl, performs steps (by decide)⟩

end Exchange

end CollectiveBench
