import CollectiveBench.Proofs.Exchange.Schedule

/-!
# Which round a call goes to

An endpoint numbers its calls on a group: its count stands at the number of the round that its next
call goes to. Only its own calls that take a seat move the count, by one each
(`Posted.sequence_run`), and nothing that becomes of a round moves it back. So the call that comes
so and so many calls after another one goes to the round so and so many numbers later, however
either round ends (`Posted.numbered`). Several endpoints may stand for one rank; each has a count of
its own.
-/

namespace CollectiveBench

/-- Whether an event is a call of the endpoint of an index, standing for a rank, that takes a seat
in a group. -/
def World.acceptedFrom (world : World) (index rank group : Nat) : Event → Bool
  | .issue _ caller call => caller = index ∧ call.group = group ∧ world.accepts rank call
  | .expire _ _ => false

namespace Exchange

variable {start exchange : Exchange} {ranks : List Nat} {index rank group : Nat}

/-- The calls that take a seat are those that arrive. -/
theorem accepts_eq {endpoint : Endpoint} (found : exchange.endpoints[index]? = some endpoint)
    (now : Nat) (call : Call) :
    exchange.world.accepts endpoint.rank call =
      (exchange.arrival? (.issue now index call)).isSome := by
  simp only [arrival?, found, World.accepts]
  cases exchange.world.seatFor endpoint.rank call with
  | error error => rfl
  | ok seat => cases seat <;> rfl

/-- The exchange is sound, and its endpoints stand for the given ranks and count in every group. -/
structure Posted (exchange : Exchange) (ranks : List Nat) : Prop where
  sound : exchange.Sound
  posts : exchange.endpoints.map (fun endpoint => (endpoint.rank, endpoint.sequences.length)) =
    ranks.map (·, exchange.world.groups.length)

/-- A new exchange has an endpoint for each of the ranks. -/
theorem posted_create (world : World) (ranks : List Nat) : (create world ranks).Posted ranks where
  sound := Idle.sound ⟨rfl, rfl⟩
  posts := by simp [create, Endpoint.create]

namespace Posted

variable (posted : exchange.Posted ranks)
include posted

/-- The endpoint of an index counts in every group. -/
theorem endpoint (stands : ranks[index]? = some rank) :
    ∃ endpoint, exchange.endpoints[index]? = some endpoint ∧ endpoint.rank = rank ∧
      endpoint.sequences.length = exchange.world.groups.length := by
  have here := congrArg (·[index]?) posted.posts
  simp only [List.getElem?_map, stands, Option.map_some] at here
  obtain ⟨endpoint, found, facts⟩ := Option.map_eq_some_iff.mp here
  obtain ⟨own, counts⟩ := Prod.mk.inj facts
  exact ⟨endpoint, found, own, counts⟩

/-- The endpoint of an index stands for the rank of that index. -/
theorem stands {endpoint : Endpoint} (found : exchange.endpoints[index]? = some endpoint) :
    ranks[index]? = some endpoint.rank := by
  have here := congrArg (·[index]?) posted.posts
  simp only [List.getElem?_map, found, Option.map_some] at here
  obtain ⟨rank, listed, facts⟩ := Option.map_eq_some_iff.mp here.symm
  rw [listed, (Prod.mk.inj facts).1]

/-- No event changes which ranks the endpoints stand for, or the groups they count in. -/
theorem apply [Arithmetic] (event : Event) : (exchange.apply event).1.Posted ranks where
  sound := posted.sound.apply event
  posts := by
    have spent (index group : Nat) :
        (exchange.endpoints.modify index (·.advance group)).map
            (fun endpoint => (endpoint.rank, endpoint.sequences.length)) =
          exchange.endpoints.map fun endpoint => (endpoint.rank, endpoint.sequences.length) := by
      apply List.ext_getElem?
      intro place
      by_cases here : index = place <;>
        simp [here, Function.comp_def, Endpoint.advance]
    rw [world_apply posted.sound, ← posted.posts, endpoints_apply posted.sound]
    cases event with
    | expire now ticket => rfl
    | issue now index call =>
      cases arrives : exchange.arrival? (.issue now index call) with
      | none => rfl
      | some entry => exact spent index entry.key.group

/-- With an event, the count of an endpoint moves on by one if it is a call of the endpoint that
takes a seat. -/
theorem sequence_apply [Arithmetic] (stands : ranks[index]? = some rank)
    (known : group < exchange.world.groups.length) (event : Event) :
    (exchange.apply event).1.sequence index group = exchange.sequence index group +
      if exchange.world.acceptedFrom index rank group event then 1 else 0 := by
  obtain ⟨endpoint, found, rfl, counts⟩ := posted.endpoint stands
  have endpoints := endpoints_apply posted.sound event
  cases event with
  | expire now ticket => simp [sequence, endpoints, World.acceptedFrom]
  | issue now caller call =>
    by_cases own : caller = index
    · subst own
      have accepts := accepts_eq found now call
      cases arrives : exchange.arrival? (.issue now caller call) with
      | none =>
        rw [arrives] at accepts endpoints
        simp [sequence, endpoints, World.acceptedFrom, accepts]
      | some entry =>
        rw [arrives] at accepts endpoints
        obtain ⟨_, _, _, _, rfl⟩ := arrival?_issue arrives
        have advanced : (endpoint.advance call.group).next group = _ :=
          next_advance call.group (counts ▸ known)
        by_cases here : call.group = group
        · simpa [sequence, endpoints, found, World.acceptedFrom, accepts, here] using advanced
        · simpa [sequence, endpoints, found, World.acceptedFrom, here] using advanced
    · have other : exchange.world.acceptedFrom index endpoint.rank group (.issue now caller call) =
          false := by simp [World.acceptedFrom, own]
      cases arrives : exchange.arrival? (.issue now caller call) with
      | none =>
        rw [arrives] at endpoints
        simp [sequence, endpoints, other]
      | some entry =>
        rw [arrives] at endpoints
        simp [sequence, endpoints, own, other]

/-- A run keeps the endpoints. -/
theorem run [Arithmetic] (events : List Event) :
    (exchange.run events).1.Posted ranks ∧ (exchange.run events).1.world = exchange.world := by
  induction events generalizing exchange with
  | nil => exact ⟨posted, rfl⟩
  | cons event rest inductionHypothesis =>
    obtain ⟨later, world⟩ := inductionHypothesis (posted.apply event)
    exact ⟨later, world.trans (world_apply posted.sound event)⟩

/-- In a run, the count of an endpoint moves on by the number of its calls that take a seat. -/
theorem sequence_run [Arithmetic] (stands : ranks[index]? = some rank)
    (known : group < exchange.world.groups.length) (events : List Event) :
    (exchange.run events).1.sequence index group = exchange.sequence index group +
      events.countP (exchange.world.acceptedFrom index rank group) := by
  induction events generalizing exchange with
  | nil => rfl
  | cons event rest inductionHypothesis =>
    have world := world_apply posted.sound event
    have here := posted.sequence_apply stands known event
    have later := inductionHypothesis (posted.apply event) (world.symm ▸ known)
    rw [world, here] at later
    rw [List.countP_cons]
    simp only [Exchange.run, later]
    omega

end Posted

/-- Whoever waits after a run waited before it or arrived in it. -/
theorem Sound.arrived [Arithmetic] (sound : start.Sound) {events : List Event} {entry : Waiting}
    (waits : entry ∈ (start.run events).1.waiting) :
    entry ∈ start.waiting ∨ ∃ before event after, events = before ++ event :: after ∧
      (start.run before).1.arrival? event = some entry := by
  induction events generalizing start with
  | nil => exact .inl waits
  | cons event rest inductionHypothesis =>
    rcases inductionHypothesis (sound.apply event) waits with
      earlier | ⟨before, arriving, after, rfl, arrives⟩
    · have present := (sound.conserved event).mem_iff.mp (List.mem_append_right _ earlier)
      rcases List.mem_append.mp present with arriving | waited
      · exact .inr ⟨[], event, rest, rfl, Option.mem_toList.mp arriving⟩
      · exact .inl waited
    · exact .inr ⟨event :: before, arriving, after, rfl, arrives⟩

/-- The endpoint of an index issues the call of an entry after the events `before`, and its count
spends the number of the entry's round for it: that number, no other, and none again. -/
structure Numbered [Arithmetic] (start : Exchange) (ranks : List Nat) (entry : Waiting)
    (before : List Event)
    (now index : Nat) : Prop where
  /-- The endpoint is one of the entry's rank. -/
  stands : ranks[index]? = some entry.rank
  /-- Its count stands at the number of the entry's round. -/
  reached : (start.run before).1.sequence index entry.key.group = entry.key.sequence
  /-- The call moves the count on by one, and then only further calls of the endpoint do. -/
  moved : ∀ more, (start.run (before ++ .issue now index entry.call :: more)).1.sequence index
    entry.key.group = entry.key.sequence + 1 +
      more.countP (start.world.acceptedFrom index entry.rank entry.key.group)
  /-- The next of these calls goes to the round of the count. -/
  next : ∀ more later call arriving,
    (start.run (before ++ .issue now index entry.call :: more)).1.arrival?
      (.issue later index call) = some arriving → call.group = entry.key.group →
    arriving.key = ⟨entry.key.group, entry.key.sequence + 1 +
      more.countP (start.world.acceptedFrom index entry.rank entry.key.group)⟩

/-- A call that arrives goes to the round of its endpoint's count. -/
theorem arrival_key {now : Nat} {call : Call} {entry : Waiting}
    (arrives : exchange.arrival? (.issue now index call) = some entry) :
    entry.key = ⟨call.group, exchange.sequence index call.group⟩ := by
  obtain ⟨endpoint, _, found, _, rfl⟩ := arrival?_issue arrives
  simp [sequence, found]

/-- Whoever arrives in a run is numbered. -/
theorem Posted.numbered [Arithmetic] (posted : start.Posted ranks) {before : List Event} {now : Nat}
    {call : Call} {entry : Waiting}
    (arrives : (start.run before).1.arrival? (.issue now index call) = some entry) :
    entry.call = call ∧ start.Numbered ranks entry before now index := by
  obtain ⟨earlier, world⟩ := posted.run before
  have key := arrival_key arrives
  obtain ⟨endpoint, seat, found, seated, same⟩ := arrival?_issue arrives
  obtain rfl : entry.call = call := by rw [same]
  have stands : ranks[index]? = some entry.rank := by
    rw [same]
    exact earlier.stands found
  have group : entry.call.group = entry.key.group := by rw [key]
  have known : entry.key.group < (start.run before).1.world.groups.length :=
    group ▸ (World.seatFor_eq_some seated).1
  have reached : (start.run before).1.sequence index entry.key.group = entry.key.sequence := by
    rw [← group, key]
  have accepted : start.world.acceptedFrom index entry.rank entry.key.group
      (.issue now index entry.call) = true := by
    have owner : entry.rank = endpoint.rank := by rw [same]
    simp [World.acceptedFrom, World.accepts, group, owner, ← world, seated]
  have moved (more : List Event) :
      (start.run (before ++ .issue now index entry.call :: more)).1.sequence index
        entry.key.group = entry.key.sequence + 1 +
          more.countP (start.world.acceptedFrom index entry.rank entry.key.group) := by
    rw [run_append, earlier.sequence_run stands known, reached, world, List.countP_cons,
      if_pos accepted]
    omega
  refine ⟨rfl, stands, reached, moved, ?_⟩
  intro more later call arriving arrives here
  rw [arrival_key arrives, here, moved]

end Exchange

end CollectiveBench
