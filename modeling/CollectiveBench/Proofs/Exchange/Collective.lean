import CollectiveBench.Proofs.Exchange.Order

/-!
# One call of every member

The step that a collective is made for: every member of a group issues one call, in any order, and
all calls are issued before the first deadline. Each answer is then what the contributions of all
members, in the order of the group, bring to the member's call (`Ready.perform_each`), and the
group is ready for the next such step.
-/

namespace CollectiveBench

/-- One call of each rank, in a given order of the ranks. -/
def oneEach (made : Nat → Call) (order : List Nat) : List (Nat × Call) :=
  order.map fun rank => (rank, made rank)

/-- Where each rank makes one call, a rank's calls on the group are that one. -/
theorem callsOf_oneEach {group : Nat} {made : Nat → Call}
    (here : ∀ rank, (made rank).group = group) {order : List Nat} (distinct : order.Nodup)
    (rank : Nat) :
    callsOf rank group (oneEach made order) = if rank ∈ order then [made rank] else [] := by
  induction order with
  | nil => rfl
  | cons first rest inductionHypothesis =>
    obtain ⟨fresh, restDistinct⟩ := List.nodup_cons.mp distinct
    rw [oneEach, List.map_cons, callsOf_cons, ← oneEach, inductionHypothesis restDistinct]
    by_cases own : first = rank
    · subst own
      simp [here, fresh]
    · have other : rank ≠ first := Ne.symm own
      simp [own, other]

/-- A rank has no calls before its only one. -/
theorem callsOf_take_oneEach {group : Nat} {made : Nat → Call}
    (here : ∀ rank, (made rank).group = group) {order : List Nat} (distinct : order.Nodup)
    {place rank : Nat} (located : order[place]? = some rank) :
    callsOf rank group ((oneEach made order).take place) = [] := by
  have absent : rank ∉ order.take place := by
    intro before
    obtain ⟨index, bound, same⟩ := List.mem_take_iff_getElem.mp before
    obtain ⟨inside, there⟩ := List.getElem?_eq_some_iff.mp located
    have equal := distinct.getElem_inj_iff.mp (same.trans there.symm)
    omega
  have taken : (oneEach made order).take place = oneEach made (order.take place) :=
    List.map_take.symm
  rw [taken, callsOf_oneEach here (distinct.sublist (List.take_sublist place order)),
    if_neg absent]

/-- The place of a rank in a group is the first index of the rank. -/
theorem World.idxOf_of_positionIn {ranks : List Nat} {rank position : Nat}
    (found : World.positionIn ranks rank = some position) : ranks.idxOf rank = position := by
  rw [List.idxOf_eq_getD_idxOf?]
  simp [show ranks.idxOf? rank = some position from found]

/-- An accepted call has a seat at the place of its rank. -/
theorem World.seat_of_accepts {world : World} {rank : Nat} {call : Call}
    (accepted : world.accepts rank call) :
    ∃ seat, world.seatFor rank call = .ok (some seat) ∧
      seat.position = (world.members call.group).idxOf rank := by
  unfold accepts at accepted
  split at accepted
  next seat seated =>
    exact ⟨seat, seated, (idxOf_of_positionIn (seatFor_eq_some seated).2.1).symm⟩
  next => cases accepted

/-- A member's call takes a seat if its operation waits for others and its peers exist. -/
theorem World.accepts_of_peers {world : World} {rank : Nat} {call : Call}
    (waits : call.operation ≠ .noop ∧ call.operation ≠ .wait)
    (peers : call.checkPeers rank (world.members call.group).length = .ok ())
    (member : rank ∈ world.members call.group) : world.accepts rank call := by
  obtain ⟨seat, seated⟩ := exists_seat waits member peers
  simp [accepts, seated]

namespace Exchange

variable {exchange : Exchange}

/-- The members of a group are different, have endpoints and count alike, and nobody waits. -/
structure Ready (exchange : Exchange) (group : Nat) : Prop where
  rest : exchange.AtRest
  distinct : (exchange.world.members group).Nodup
  posts : ∀ rank ∈ exchange.world.members group, rank < exchange.endpoints.length
  inStep : exchange.InStep group

/-- Where the members of a group make equally many accepted calls, one each or none, the answers
are those that the calls have for themselves, and the group is ready again. -/
theorem Ready.perform_outcomes [Arithmetic] {group : Nat} (ready : exchange.Ready group)
    (made : Nat → Call)
    (here : ∀ rank, (made rank).group = group) {order : List Nat}
    (everyone : order.Perm (exchange.world.members group))
    (balanced : exchange.world.Balanced group (oneEach made order)) {pause : Nat}
    (prompt : pause * (order.length - 1) < exchange.world.timeoutMs) :
    (exchange.perform pause (oneEach made order)).2 = (order.map fun rank =>
        exchange.world.outcome (oneEach made order) rank [] (made rank)) ∧
      (exchange.perform pause (oneEach made order)).1.Ready group ∧
      (exchange.perform pause (oneEach made order)).1.world = exchange.world := by
  have distinct : order.Nodup := everyone.nodup_iff.mpr ready.distinct
  have size : (oneEach made order).length = order.length := List.length_map _
  have posts : ∀ issued ∈ oneEach made order, issued.1 < exchange.endpoints.length := by
    intro issued present
    obtain ⟨rank, member, rfl⟩ := List.mem_map.mp present
    exact ready.posts rank (everyone.mem_iff.mp member)
  have early := issued_in_time (size ▸ prompt)
  obtain ⟨_, _, _, performs⟩ := ready.rest.perform pause (oneEach made order)
  have ledger := performs.history.ledger ready.rest
  refine ⟨?_, ?_, ledger.world⟩
  · apply List.ext_getElem?
    intro place
    cases located : order[place]? with
    | none =>
      have beyond := List.getElem?_eq_none_iff.mp located
      have beyondAnswers : (exchange.perform pause (oneEach made order)).2[place]? = none := by
        rw [List.getElem?_eq_none_iff, performs.length, size]
        exact beyond
      simp [beyondAnswers, located]
    | some rank =>
      have issued : (oneEach made order)[place]? = some (rank, made rank) := by
        simp [oneEach, located]
      rw [ready.rest.outcome_eq posts early ready.distinct ready.inStep balanced issued (here rank),
        callsOf_take_oneEach here distinct located, List.getElem?_map, located, Option.map_some]
  · refine ⟨performs.rest, ledger.world ▸ ready.distinct, ?_, ?_⟩
    · rw [ledger.world, ledger.posts]
      exact ready.posts
    · exact performs.inStep ready.rest ready.inStep balanced

/-- Every member's call is answered with what the calls of all members bring, and the group is
ready again. -/
theorem Ready.perform_each [Arithmetic] {group : Nat} (ready : exchange.Ready group)
    (made : Nat → Call)
    (here : ∀ rank, (made rank).group = group)
    (accepted : ∀ rank ∈ exchange.world.members group, exchange.world.accepts rank (made rank))
    {order : List Nat} (everyone : order.Perm (exchange.world.members group)) {pause : Nat}
    (prompt : pause * (order.length - 1) < exchange.world.timeoutMs) :
    (exchange.perform pause (oneEach made order)).2 = (order.map fun rank =>
        conclude (made rank) rank ((exchange.world.members group).idxOf rank)
          ((exchange.world.members group).map fun member => (made member).contribution)) ∧
      (exchange.perform pause (oneEach made order)).1.Ready group ∧
      (exchange.perform pause (oneEach made order)).1.world = exchange.world := by
  have distinct : order.Nodup := everyone.nodup_iff.mpr ready.distinct
  have single (rank : Nat) (member : rank ∈ exchange.world.members group) :
      exchange.world.acceptedOf rank group (oneEach made order) = [made rank] := by
    rw [World.acceptedOf, callsOf_oneEach here distinct, if_pos (everyone.mem_iff.mpr member)]
    simp [accepted rank member]
  have balanced : exchange.world.Balanced group (oneEach made order) := by
    intro rank member other otherMember
    rw [single rank member, single other otherMember]
    rfl
  have lists : ((exchange.world.members group).filterMap fun other =>
      (exchange.world.acceptedOf other group (oneEach made order))[0]?.map Call.contribution) =
      (exchange.world.members group).map fun other => (made other).contribution := by
    symm
    apply eq_filterMap (List.length_map _)
    intro place other sits
    refine ⟨(made other).contribution, ?_, by simp [sits]⟩
    rw [single other (List.mem_of_getElem? sits)]
    rfl
  obtain ⟨answers, readyAgain, world⟩ :=
    ready.perform_outcomes made here everyone balanced prompt
  refine ⟨answers.trans (List.map_congr_left fun rank listed => ?_), readyAgain, world⟩
  obtain ⟨seat, seated, position⟩ :=
    World.seat_of_accepts (accepted rank (everyone.mem_iff.mp listed))
  rw [World.outcome, seated]
  simp only [List.filter_nil, List.length_nil, here rank, lists, position]

/-- A call that waits for nobody comes back as it was issued. -/
theorem Ready.perform_free [Arithmetic] {group : Nat} (ready : exchange.Ready group)
    (made : Nat → Call)
    (here : ∀ rank, (made rank).group = group)
    (free : ∀ rank ∈ exchange.world.members group,
      (made rank).operation = .noop ∨ (made rank).operation = .wait)
    {order : List Nat} (everyone : order.Perm (exchange.world.members group)) {pause : Nat}
    (prompt : pause * (order.length - 1) < exchange.world.timeoutMs) :
    (exchange.perform pause (oneEach made order)).2 = (order.map fun rank => .ok (made rank)) ∧
      (exchange.perform pause (oneEach made order)).1.Ready group ∧
      (exchange.perform pause (oneEach made order)).1.world = exchange.world := by
  have distinct : order.Nodup := everyone.nodup_iff.mpr ready.distinct
  have seatless (rank : Nat) (member : rank ∈ exchange.world.members group) :
      exchange.world.seatFor rank (made rank) = .ok none := if_pos (free rank member)
  have nobody (rank : Nat) (member : rank ∈ exchange.world.members group) :
      exchange.world.acceptedOf rank group (oneEach made order) = [] := by
    rw [World.acceptedOf, callsOf_oneEach here distinct, if_pos (everyone.mem_iff.mpr member)]
    simp [World.accepts, seatless rank member]
  have balanced : exchange.world.Balanced group (oneEach made order) := by
    intro rank member other otherMember
    rw [nobody rank member, nobody other otherMember]
  obtain ⟨answers, readyAgain, world⟩ :=
    ready.perform_outcomes made here everyone balanced prompt
  refine ⟨answers.trans (List.map_congr_left fun rank listed => ?_), readyAgain, world⟩
  rw [World.outcome, seatless rank (everyone.mem_iff.mp listed)]

end Exchange

end CollectiveBench
