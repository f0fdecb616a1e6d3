import CollectiveBench.Proofs.Exchange.History

/-!
# The ledger of a run

Whoever took a seat in a run has one entry: its call, its place, its round. Some of the entries
departed and the others still wait. `Ledger` says what is true of all of them together. Each is
an accepted call of its rank, and the sequence number of its round is the number of its rank's
accepted calls on the group before it, counted from the start of the run. No two entries have
the same rank and the same round, and each accepted call has an entry.
-/

namespace CollectiveBench

/-- The accepted calls of a run are those before an event and that of the event. -/
theorem World.acceptedCalls_snoc (world : World) (rank group : Nat) (events : List Event)
    (event : Event) :
    world.acceptedCalls rank group (events ++ [event]) =
      world.acceptedCalls rank group events ++ (world.acceptedCall? rank group event).toList := by
  cases made : world.acceptedCall? rank group event <;>
    simp [acceptedCalls, List.filterMap_append, made]

namespace Exchange

/-- An entry is an accepted call of its rank, at its place in the group, and in the round that
the number of earlier accepted calls gives. -/
structure Recorded (start : Exchange) (events : List Event) (entry : Waiting) : Prop where
  inside : entry.rank < start.endpoints.length
  group : entry.call.group = entry.key.group
  place : World.positionIn (start.world.members entry.key.group) entry.rank = some entry.position
  made : ∃ index, entry.key.sequence = start.sequence entry.rank entry.key.group + index ∧
    (start.world.acceptedCalls entry.rank entry.key.group events)[index]? = some entry.call

/-- What is true of the entries of a run, those who departed and those who wait. -/
structure Ledger (start : Exchange) (events : List Event) (entries : List Waiting)
    (exchange : Exchange) : Prop where
  sound : exchange.Sound
  staffed : exchange.Staffed
  world : exchange.world = start.world
  posts : exchange.endpoints.length = start.endpoints.length
  counted : ∀ rank group, rank < start.endpoints.length → group < start.world.groups.length →
    exchange.sequence rank group =
      start.sequence rank group + (start.world.acceptedCalls rank group events).length
  recorded : ∀ entry ∈ entries, Recorded start events entry
  /-- Each accepted call has an entry. -/
  complete : ∀ rank group index call, rank < start.endpoints.length →
    (start.world.acceptedCalls rank group events)[index]? = some call →
    ∃ entry ∈ entries, entry.rank = rank ∧
      entry.key = ⟨group, start.sequence rank group + index⟩ ∧ entry.call = call
  distinct : (entries.map fun entry => (entry.rank, entry.key)).Nodup
  tickets : (entries.map Waiting.ticket).Nodup
  issued : ∀ entry ∈ entries, entry.ticket < exchange.nextTicket

variable {start exchange : Exchange} {events : List Event} {log : List (List Departure)}
  {clock : Nat} {entries : List Waiting}

/-- What was recorded stays so. -/
theorem Recorded.extend {entry : Waiting} (recorded : Recorded start events entry)
    (event : Event) : Recorded start (events ++ [event]) entry where
  inside := recorded.inside
  group := recorded.group
  place := recorded.place
  made := by
    obtain ⟨index, number, call⟩ := recorded.made
    refine ⟨index, number, ?_⟩
    rw [World.acceptedCalls_snoc, List.getElem?_append_left (List.getElem?_eq_some_iff.mp call).1]
    exact call

/-- The order of the entries does not matter. -/
theorem Ledger.perm {others : List Waiting} (ledger : Ledger start events entries exchange)
    (same : others.Perm entries) : Ledger start events others exchange where
  sound := ledger.sound
  staffed := ledger.staffed
  world := ledger.world
  posts := ledger.posts
  counted := ledger.counted
  recorded := fun entry present => ledger.recorded entry (same.mem_iff.mp present)
  complete := by
    intro rank group index call inside made
    obtain ⟨entry, present, facts⟩ := ledger.complete rank group index call inside made
    exact ⟨entry, same.mem_iff.mpr present, facts⟩
  distinct := (same.map _).nodup_iff.mpr ledger.distinct
  tickets := (same.map _).nodup_iff.mpr ledger.tickets
  issued := fun entry present => ledger.issued entry (same.mem_iff.mp present)

/-- At rest nobody has an entry. -/
theorem AtRest.ledger (rest : start.AtRest) : Ledger start [] [] start where
  sound := rest.sound
  staffed := rest.staffed
  world := rfl
  posts := rfl
  counted := by simp [World.acceptedCalls]
  recorded := by simp
  complete := by simp [World.acceptedCalls]
  distinct := by simp
  tickets := by simp
  issued := by simp

/-- Every issued call draws a ticket. -/
theorem nextTicket_apply [Arithmetic] (sound : exchange.Sound) (event : Event) :
    (exchange.apply event).1.nextTicket =
      exchange.nextTicket + (exchange.drawnTicket event).length := by
  have step := sound.step event
  generalize (exchange.apply event).1 = after at step ⊢
  generalize exchange.departures event = departing at step
  cases step <;> rfl

/-- The arriving call is an accepted call of its rank, the one after all earlier ones. -/
theorem Ledger.arrival (ledger : Ledger start events entries exchange) {event : Event}
    {entry : Waiting} (arrives : exchange.arrival? event = some entry) :
    entry.rank < start.endpoints.length ∧ entry.ticket = exchange.nextTicket ∧
      entry.call.group = entry.key.group ∧
      World.positionIn (start.world.members entry.key.group) entry.rank = some entry.position ∧
      entry.key.sequence = start.sequence entry.rank entry.key.group +
        (start.world.acceptedCalls entry.rank entry.key.group events).length ∧
      start.world.acceptedCall? entry.rank entry.key.group event = some entry.call := by
  cases event with
  | expire now ticket => cases arrives
  | issue now index call =>
    have place := arrival_seated arrives
    obtain ⟨endpoint, seat, found, seated, same⟩ := arrival?_issue arrives
    obtain ⟨rank, _⟩ := ledger.staffed index endpoint found
    have inside : entry.rank < exchange.endpoints.length := by
      rw [same]
      exact rank ▸ (List.getElem?_eq_some_iff.mp found).1
    have known : entry.key.group < start.world.groups.length := by
      rw [same, ← ledger.world]
      exact (World.seatFor_eq_some seated).1
    have number : entry.key.sequence = exchange.sequence entry.rank entry.key.group := by
      rw [same]
      simp [sequence, rank, found]
    have accepted := acceptedCall?_eq ledger.staffed inside entry.key.group (.issue now index call)
    rw [arrives, ledger.world] at accepted
    have posts := ledger.posts ▸ inside
    refine ⟨posts, by rw [same], place.1, ledger.world ▸ place.2, ?_,
      by simpa [Option.filter] using accepted⟩
    rw [number, ledger.counted _ _ posts known]

/-- An event without an arrival adds no accepted call of a rank that has an endpoint. -/
theorem Ledger.acceptedCall?_eq_none (ledger : Ledger start events entries exchange)
    {event : Event} (stays : exchange.arrival? event = none) {rank : Nat}
    (inside : rank < start.endpoints.length) (group : Nat) :
    start.world.acceptedCall? rank group event = none := by
  have accepted := acceptedCall?_eq ledger.staffed (ledger.posts ▸ inside) group event
  rw [ledger.world, stays] at accepted
  simpa using accepted

/-- Where an event has an arrival, an accepted call of the event is that arrival's. -/
theorem Ledger.newest (ledger : Ledger start events entries exchange) {event : Event}
    {entry : Waiting} (arrives : exchange.arrival? event = some entry) {rank group index : Nat}
    {call : Call} (inside : rank < start.endpoints.length)
    (made : (start.world.acceptedCall? rank group event).toList[index]? = some call) :
    entry.rank = rank ∧ entry.key.group = group ∧ entry.call = call ∧ index = 0 := by
  have accepted := acceptedCall?_eq ledger.staffed (ledger.posts ▸ inside) group event
  rw [ledger.world, arrives] at accepted
  rw [accepted] at made
  by_cases here : entry.rank = rank ∧ entry.key.group = group
  · have single : [entry.call][index]? = some call := by simpa [Option.filter, here] using made
    obtain ⟨bound, same⟩ := List.getElem?_eq_some_iff.mp single
    have first : index = 0 := by simpa using bound
    subst first
    exact ⟨here.1, here.2, same, rfl⟩
  · simp [Option.filter, here] at made

/-- The counts after an event are those of the accepted calls, its own included. -/
theorem Ledger.counted_apply [Arithmetic] (ledger : Ledger start events entries exchange)
    (event : Event)
    {rank group : Nat} (inside : rank < start.endpoints.length)
    (known : group < start.world.groups.length) :
    (exchange.apply event).1.sequence rank group = start.sequence rank group +
      (start.world.acceptedCalls rank group (events ++ [event])).length := by
  have here : rank < exchange.endpoints.length := ledger.posts.symm ▸ inside
  have there : group < exchange.world.groups.length := ledger.world.symm ▸ known
  rw [sequence_apply ledger.staffed ledger.sound here there,
    ledger.counted rank group inside known, World.acceptedCalls_snoc, ledger.world,
    List.length_append, Nat.add_assoc]

/-- The arriving call has no entry yet: earlier entries of its rank on its group have smaller
numbers, and all earlier entries have smaller tickets. -/
theorem Ledger.fresh (ledger : Ledger start events entries exchange) {event : Event}
    {entry : Waiting} (arrives : exchange.arrival? event = some entry) :
    (entry.rank, entry.key) ∉ entries.map (fun other => (other.rank, other.key)) ∧
      entry.ticket ∉ entries.map Waiting.ticket := by
  obtain ⟨_, ticket, _, _, number, _⟩ := ledger.arrival arrives
  constructor
  · intro listed
    obtain ⟨other, present, same⟩ := List.mem_map.mp listed
    obtain ⟨sameRank, sameKey⟩ := Prod.mk.inj same
    obtain ⟨index, otherNumber, otherMade⟩ := (ledger.recorded other present).made
    have bound := (List.getElem?_eq_some_iff.mp otherMade).1
    rw [sameRank, sameKey] at otherNumber bound
    omega
  · intro listed
    obtain ⟨other, present, same⟩ := List.mem_map.mp listed
    have bound := ledger.issued other present
    omega

/-- Each accepted call has an entry after an event: the call of the event itself is the one that
arrives, and the others had theirs. -/
theorem Ledger.complete_apply (ledger : Ledger start events entries exchange) (event : Event)
    {rank group index : Nat} {call : Call} (inside : rank < start.endpoints.length)
    (made : (start.world.acceptedCalls rank group (events ++ [event]))[index]? = some call) :
    ∃ entry ∈ (exchange.arrival? event).toList ++ entries, entry.rank = rank ∧
      entry.key = ⟨group, start.sequence rank group + index⟩ ∧ entry.call = call := by
  rw [World.acceptedCalls_snoc] at made
  by_cases old : index < (start.world.acceptedCalls rank group events).length
  · rw [List.getElem?_append_left old] at made
    obtain ⟨found, present, facts⟩ := ledger.complete rank group index call inside made
    exact ⟨found, List.mem_append_right _ present, facts⟩
  · rw [List.getElem?_append_right (Nat.le_of_not_lt old)] at made
    cases arrives : exchange.arrival? event with
    | none => simp [ledger.acceptedCall?_eq_none arrives inside] at made
    | some entry =>
      obtain ⟨sameRank, sameGroup, sameCall, last⟩ := ledger.newest arrives inside made
      obtain ⟨_, _, _, _, number, _⟩ := ledger.arrival arrives
      refine ⟨entry, by simp, sameRank, ?_, sameCall⟩
      have here : index = (start.world.acceptedCalls rank group events).length := by omega
      subst sameRank sameGroup
      rw [here, ← number]

/-- The entry of an arriving call is recorded. -/
theorem Ledger.recorded_arrival (ledger : Ledger start events entries exchange) {event : Event}
    {entry : Waiting} (arrives : exchange.arrival? event = some entry) :
    Recorded start (events ++ [event]) entry := by
  obtain ⟨inside, _, group, place, number, made⟩ := ledger.arrival arrives
  refine ⟨inside, group, place, _, number, ?_⟩
  rw [World.acceptedCalls_snoc, made]
  simp

/-- The ledger after an event: an arriving call gets its entry, and nothing else changes. -/
theorem Ledger.step [Arithmetic] (ledger : Ledger start events entries exchange) (event : Event) :
    Ledger start (events ++ [event]) ((exchange.arrival? event).toList ++ entries)
      (exchange.apply event).1 where
  sound := ledger.sound.apply event
  staffed := (ledger.staffed.apply ledger.sound event).1
  world := (world_apply ledger.sound event).trans ledger.world
  posts := (ledger.staffed.apply ledger.sound event).2.trans ledger.posts
  counted := fun _ _ inside known => ledger.counted_apply event inside known
  recorded := by
    intro other present
    rcases List.mem_append.mp present with arrives | old
    · exact ledger.recorded_arrival (Option.mem_toList.mp arrives)
    · exact (ledger.recorded other old).extend event
  complete := fun _ _ _ _ inside made => ledger.complete_apply event inside made
  distinct := by
    cases arrives : exchange.arrival? event with
    | none => exact ledger.distinct
    | some entry => exact List.nodup_cons.mpr ⟨(ledger.fresh arrives).1, ledger.distinct⟩
  tickets := by
    cases arrives : exchange.arrival? event with
    | none => exact ledger.tickets
    | some entry => exact List.nodup_cons.mpr ⟨(ledger.fresh arrives).2, ledger.tickets⟩
  issued := by
    intro other present
    rw [nextTicket_apply ledger.sound event]
    rcases List.mem_append.mp present with arrives | old
    · have ticket := (ledger.arrival (Option.mem_toList.mp arrives)).2.1
      cases event with
      | expire now due => simp [arrival?] at arrives
      | issue now index call => exact ticket ▸ Nat.lt_succ_self _
    · exact Nat.lt_of_lt_of_le (ledger.issued other old) (Nat.le_add_right _ _)

/-- Every run from rest keeps its ledger. The induction follows the events: whoever arrives gets an
entry, and by conservation the entries are those of the departed and of the waiting calls. -/
theorem History.ledger [Arithmetic] (rest : start.AtRest)
    (history : History start events log clock exchange) :
    Ledger start events (log.flatten.map Departure.entry ++ exchange.waiting) exchange := by
  induction history with
  | start => simpa [rest.waiting] using rest.ledger
  | @step events log clock exchange earlier event onward permitted inductionHypothesis =>
    apply (inductionHypothesis.step event).perm
    simp only [List.flatten_append, List.flatten_cons, List.flatten_nil, List.append_nil,
      List.map_append, List.append_assoc]
    calc log.flatten.map Departure.entry ++
          ((exchange.departures event).map Departure.entry ++ (exchange.apply event).1.waiting)
        |>.Perm (log.flatten.map Departure.entry ++
          ((exchange.arrival? event).toList ++ exchange.waiting)) :=
          (inductionHypothesis.sound.conserved event).append_left _
      _ |>.Perm ((exchange.arrival? event).toList ++
          (log.flatten.map Departure.entry ++ exchange.waiting)) := by
          simp only [← List.append_assoc]
          exact List.perm_append_comm.append_right _

end Exchange

end CollectiveBench
