import CollectiveBench.Proofs.Exchange.Conservation

/-!
# Runs of an exchange

A `History` is a run: events that happened to an exchange one after the other, and who departed
with each. Time does not run backwards while a call waits, and of the deadlines of one round the
earliest takes effect first; nothing else is fixed, so ranks may issue calls in any order, have
several outstanding, and deadlines of different rounds may take effect in any order and late. The
steps of a world are among these runs (`AtRest.perform`).

`World.acceptedCalls` reads the calls that a rank made on a group off the events alone. Where one
endpoint stands for each rank, they are the calls that arrive for the rank (`acceptedCall?_eq`),
and the rank's count in the group moves with them (`sequence_apply`).
-/

namespace CollectiveBench

/-- Whether a rank's call takes a seat in its group. -/
def World.accepts (world : World) (rank : Nat) (call : Call) : Bool :=
  match world.seatFor rank call with
  | .ok (some _) => true
  | _ => false

/-- The call of an event, if a rank made it on a group and it was accepted. -/
def World.acceptedCall? (world : World) (rank group : Nat) : Event → Option Call
  | .issue _ index call =>
    if index = rank ∧ call.group = group ∧ world.accepts rank call then some call else none
  | .expire _ _ => none

/-- The accepted calls of a rank on a group, in order. -/
def World.acceptedCalls (world : World) (rank group : Nat) (events : List Event) : List Call :=
  events.filterMap (world.acceptedCall? rank group)

namespace Exchange

/-- One endpoint stands for each rank, in the order of the ranks, and counts in every group. -/
def Staffed (exchange : Exchange) : Prop :=
  ∀ (rank : Nat) (endpoint : Endpoint), exchange.endpoints[rank]? = some endpoint →
    endpoint.rank = rank ∧ endpoint.sequences.length = exchange.world.groups.length

/-- The number of a rank's next round in a group. -/
def sequence (exchange : Exchange) (rank group : Nat) : Nat :=
  (exchange.endpoints[rank]?.map (·.next group)).getD 0

/-- Whether an event can happen now, where tasks take turns. A deadline takes effect once it has
come, and not before an earlier one of the same round; of equal deadlines that of the first call
takes effect first. -/
def Permits (exchange : Exchange) : Event → Prop
  | .issue _ _ _ => True
  | .expire now ticket => ∃ due ∈ exchange.waiting, due.ticket = ticket ∧ due.deadline ≤ now ∧
      ∀ other ∈ exchange.depositors due.key, due.deadline < other.deadline ∨
        due.deadline = other.deadline ∧ due.ticket ≤ other.ticket

/-- The runs of an exchange from `start` on: the events, the calls that departed with each, the
time of the last event, and the exchange after it. -/
inductive History [Arithmetic] (start : Exchange) :
    List Event → List (List Departure) → Nat → Exchange → Prop where
  | start : History start [] [] 0 start
  | step {events : List Event} {log : List (List Departure)} {clock : Nat} {exchange : Exchange}
      (earlier : History start events log clock exchange) (event : Event)
      (onward : clock ≤ event.time ∨ exchange.waiting = [])
      (permitted : exchange.Permits event) :
      History start (events ++ [event]) (log ++ [exchange.departures event]) event.time
        (exchange.apply event).1

variable {start exchange : Exchange} {events : List Event} {log : List (List Departure)}
  {clock : Nat}

/-- One endpoint stands for each rank, no round is open and nobody waits. -/
structure AtRest (exchange : Exchange) : Prop where
  staffed : exchange.Staffed
  rounds : exchange.rounds = []
  waiting : exchange.waiting = []

/-- A new exchange with one endpoint for each rank is at rest. -/
theorem atRest_create (world : World) : (create world (List.range world.size)).AtRest where
  staffed := by
    intro rank endpoint found
    simp only [create, List.getElem?_map] at found
    obtain ⟨number, here, rfl⟩ := Option.map_eq_some_iff.mp found
    obtain ⟨inside, same⟩ := List.getElem?_eq_some_iff.mp here
    simp only [List.getElem_range] at same
    subst same
    simp [Endpoint.create, create]
  rounds := rfl
  waiting := rfl

/-- At rest nothing goes on. -/
theorem AtRest.idle (rest : exchange.AtRest) : exchange.Idle := ⟨rest.rounds, rest.waiting⟩

/-- An exchange at rest is sound. -/
theorem AtRest.sound (rest : exchange.AtRest) : exchange.Sound := rest.idle.sound

/-- No event changes the world. -/
theorem world_apply [Arithmetic] (sound : exchange.Sound) (event : Event) :
    (exchange.apply event).1.world = exchange.world := by
  have step := sound.step event
  generalize (exchange.apply event).1 = after at step ⊢
  generalize exchange.departures event = departing at step
  cases step <;> rfl

/-- The endpoints after an event: that of an arriving call has spent a number. -/
theorem endpoints_apply [Arithmetic] (sound : exchange.Sound) (event : Event) :
    (exchange.apply event).1.endpoints =
      match event with
      | .issue _ index _ =>
        match exchange.arrival? event with
        | some entry => exchange.endpoints.modify index (·.advance entry.key.group)
        | none => exchange.endpoints
      | .expire _ _ => exchange.endpoints := by
  have step := sound.step event
  generalize (exchange.apply event).1 = after at step ⊢
  generalize exchange.departures event = departing at step
  cases step with
  | answered stays => simp [stays]
  | refused arrives taken => simp [arrives, draw]
  | completed arrives vacant full => simp [arrives, draw]
  | hurried arrives vacant short impatient => simp [arrives, draw]
  | waits arrives vacant short patient => simp [arrives, draw]
  | expired found => rfl
  | idle missing => rfl

/-- Spending a number of a group moves the count of that group only. -/
theorem next_advance {endpoint : Endpoint} (spent : Nat) {group : Nat}
    (inside : group < endpoint.sequences.length) :
    (endpoint.advance spent).next group =
      endpoint.next group + if spent = group then 1 else 0 := by
  by_cases same : spent = group
  · subst same
    simp [Endpoint.next, Endpoint.advance, inside]
  · simp [Endpoint.next, Endpoint.advance, same]

/-- The endpoints keep their ranks and their groups. -/
theorem Staffed.apply [Arithmetic] (staffed : exchange.Staffed) (sound : exchange.Sound)
    (event : Event) :
    (exchange.apply event).1.Staffed ∧
      (exchange.apply event).1.endpoints.length = exchange.endpoints.length := by
  have advanced (index group : Nat) : ∀ (rank : Nat) (endpoint : Endpoint),
      (exchange.endpoints.modify index (·.advance group))[rank]? = some endpoint →
        endpoint.rank = rank ∧ endpoint.sequences.length = exchange.world.groups.length := by
    intro rank endpoint found
    rw [List.getElem?_modify] at found
    obtain ⟨old, here, rfl⟩ := Option.map_eq_some_iff.mp found
    obtain ⟨same, counts⟩ := staffed rank old here
    split
    · exact ⟨same, by simpa [Endpoint.advance] using counts⟩
    · exact ⟨same, counts⟩
  have endpoints := endpoints_apply sound event
  unfold Staffed
  rw [world_apply sound event]
  cases event with
  | issue now index call =>
    cases arrives : exchange.arrival? (.issue now index call) with
    | none =>
      simp only [arrives] at endpoints
      rw [endpoints]
      exact ⟨staffed, rfl⟩
    | some entry =>
      simp only [arrives] at endpoints
      rw [endpoints]
      exact ⟨advanced index entry.key.group, by simp⟩
  | expire now ticket =>
    simp only at endpoints
    rw [endpoints]
    exact ⟨staffed, rfl⟩

/-- An accepted call of a rank is the call that arrives for it. -/
theorem acceptedCall?_eq (staffed : exchange.Staffed) {rank : Nat}
    (inside : rank < exchange.endpoints.length) (group : Nat) (event : Event) :
    exchange.world.acceptedCall? rank group event =
      ((exchange.arrival? event).filter fun entry =>
        entry.rank = rank ∧ entry.key.group = group).map Waiting.call := by
  cases event with
  | expire now ticket => rfl
  | issue now index call =>
    cases found : exchange.endpoints[index]? with
    | none =>
      have absent : index ≠ rank := by
        rintro rfl
        rw [List.getElem?_eq_getElem inside] at found
        cases found
      simp [World.acceptedCall?, arrival?, found, absent]
    | some endpoint =>
      obtain ⟨same, _⟩ := staffed index endpoint found
      by_cases here : index = rank ∧ call.group = group
      · obtain ⟨rfl, rfl⟩ := here
        cases seated : exchange.world.seatFor index call with
        | error error => simp [World.acceptedCall?, World.accepts, arrival?, found, same, seated]
        | ok taken =>
          cases taken <;>
            simp [World.acceptedCall?, World.accepts, arrival?, found, same, seated, Option.filter]
      · have elsewhere :
            ¬(index = rank ∧ call.group = group ∧ exchange.world.accepts rank call) := by
          rintro ⟨sameRank, sameGroup, _⟩
          exact here ⟨sameRank, sameGroup⟩
        cases seated : exchange.world.seatFor index call with
        | error error => simp [World.acceptedCall?, elsewhere, arrival?, found, same, seated]
        | ok taken =>
          cases taken with
          | none => simp [World.acceptedCall?, elsewhere, arrival?, found, same, seated]
          | some seat =>
            simp [World.acceptedCall?, elsewhere, arrival?, found, same, seated, Option.filter,
              here]

/-- The count of a rank in a group moves with its accepted calls on the group. -/
theorem sequence_apply [Arithmetic] (staffed : exchange.Staffed) (sound : exchange.Sound)
    {rank group : Nat}
    (inside : rank < exchange.endpoints.length) (known : group < exchange.world.groups.length)
    (event : Event) :
    (exchange.apply event).1.sequence rank group =
      exchange.sequence rank group +
        (exchange.world.acceptedCall? rank group event).toList.length := by
  obtain ⟨endpoint, found⟩ : ∃ endpoint, exchange.endpoints[rank]? = some endpoint :=
    ⟨_, List.getElem?_eq_getElem inside⟩
  obtain ⟨same, counts⟩ := staffed rank endpoint found
  have endpoints := endpoints_apply sound event
  rw [acceptedCall?_eq staffed inside]
  cases event with
  | expire now ticket =>
    simp only at endpoints
    simp [sequence, endpoints, arrival?]
  | issue now index call =>
    cases arrives : exchange.arrival? (.issue now index call) with
    | none =>
      simp only [arrives] at endpoints
      simp [sequence, endpoints]
    | some entry =>
      simp only [arrives] at endpoints
      obtain ⟨owner, seat, located, _, rfl⟩ := arrival?_issue arrives
      obtain ⟨ownRank, _⟩ := staffed index owner located
      simp only [sequence, endpoints, List.getElem?_modify, found, Option.map_some,
        Option.getD_some, ownRank]
      by_cases here : index = rank
      · subst here
        obtain rfl : endpoint = owner := Option.some.inj (found.symm.trans located)
        have inGroup : group < endpoint.sequences.length := by rwa [counts]
        have advanced := next_advance call.group inGroup
        by_cases sameGroup : call.group = group
        · subst sameGroup
          simpa [Option.filter] using advanced
        · simpa [sameGroup, Option.filter] using advanced
      · simp [here, Option.filter]

end Exchange

end CollectiveBench
