import CollectiveBench.Proofs.Delivery.Layouts

/-!
# The terms of a round

The terms are what the members of a round have in common before they exchange anything. They decide
the shapes of every member's buffers. A member whose buffers have these shapes and whose peers
exist suits the terms. In a complete round of such members every call succeeds, and what comes back
suits the terms again, so that the same buffers can take part in a further round
(`gives_conclude`).
-/

namespace CollectiveBench

/-! ## Buffers of a layout -/

/-- The buffers have the shapes of a layout. -/
structure Buffers.Fits (type : ElementType) (layout : Layout) (buffers : Buffers) : Prop where
  input : buffers.input.Fits type layout.input
  output : Option.Rel (Staged.Fits type) layout.output buffers.output

namespace Buffers.Fits

variable {type : ElementType} {layout : Layout} {buffers : Buffers}

/-- The destination has the shape of the layout's destination. -/
theorem destination (fits : buffers.Fits type layout) :
    buffers.destination.Fits type layout.destination := by
  obtain ⟨input, output⟩ := fits
  rw [Buffers.destination, Layout.destination]
  generalize layout.output = extent at output ⊢
  generalize buffers.output = staged at output ⊢
  cases output with
  | none => exact input
  | some fits => exact fits

/-- Buffers keep their shapes when the destination takes over something of its shape. -/
theorem withDestination (fits : buffers.Fits type layout) {destination : Staged}
    (same : destination.Fits type layout.destination) :
    (buffers.withDestination destination).Fits type layout := by
  obtain ⟨shape, output⟩ := layout
  obtain ⟨operation, input, staged, inSplit, outSplit⟩ := buffers
  obtain ⟨holds, related⟩ := fits
  cases related with
  | none => exact ⟨same, .none⟩
  | some _ => exact ⟨holds, .some same⟩

end Buffers.Fits

/-! ## Terms -/

/-- What the members of a round have in common. -/
structure Terms where
  /-- The members in the order of the group. -/
  ranks : List Nat
  operation : Operation
  type : ElementType := .f32
  /-- How many members an incast collects from. -/
  senders : Nat := 0
  /-- Elements of a message, where all members exchange equally much. -/
  count : Nat := 0
  /-- Elements that a sender has for a receiver in an uneven exchange. -/
  lengths : Nat → Nat → Nat := fun _ _ => 0

/-- The shapes of a member's buffers. In an uneven exchange it sends what its row of the matrix
divides and has room for what its column adds up to. -/
def Terms.layout (terms : Terms) (rank : Nat) : Layout :=
  if terms.operation = .allToAllv then
    ⟨.single (total (sentBy terms.ranks terms.lengths rank)),
      some (.single (total (sentTo terms.ranks terms.lengths rank)))⟩
  else .of terms.operation terms.count terms.count terms.ranks.length terms.senders

variable {terms : Terms} {rank : Nat}

/-- Apart from uneven exchanges, all members have the layout of the operation. -/
theorem Terms.layout_even (even : terms.operation ≠ .allToAllv) (rank : Nat) :
    terms.layout rank =
      .of terms.operation terms.count terms.count terms.ranks.length terms.senders :=
  if_neg even

/-- In an uneven exchange a member sends what its row of lengths says and receives what its column
says. -/
theorem Terms.layout_uneven (uneven : terms.operation = .allToAllv) (rank : Nat) :
    terms.layout rank = ⟨.single (total (sentBy terms.ranks terms.lengths rank)),
      some (.single (total (sentTo terms.ranks terms.lengths rank)))⟩ :=
  if_pos uneven

/-- The buffers are those of a member. Operations that only synchronise ask for no shapes. -/
structure Buffers.Suits (terms : Terms) (rank : Nat) (buffers : Buffers) : Prop where
  operation : buffers.operation = terms.operation
  shapes : terms.operation.isSyncOnly = false → buffers.Fits terms.type (terms.layout rank)
  split : terms.operation = .allToAllv →
    buffers.inSplit = some (sentBy terms.ranks terms.lengths rank)

/-- Buffers still suit a call after their destination was exchanged for one of its shape. -/
theorem Buffers.Suits.withDestination {buffers : Buffers} (suits : buffers.Suits terms rank)
    {destination : Staged}
    (same : terms.operation.isSyncOnly = false →
      destination.Fits terms.type (terms.layout rank).destination) :
    (buffers.withDestination destination).Suits terms rank where
  operation := by rw [Buffers.operation_withDestination, suits.operation]
  shapes allocates := (suits.shapes allocates).withDestination (same allocates)
  split uneven := by rw [Buffers.inSplit_withDestination, suits.split uneven]

/-- The peers of a call exist and, where messages go from point to point, are paired. -/
theorem Call.checkPeers_eq_ok {call : Call} {rank size : Nat} :
    call.checkPeers rank size = .ok () ↔
      (call.operation.isRooted → call.root < size) ∧
      (∀ peer ∈ call.sources ++ call.destinations, peer < size) ∧
      (call.operation = .pt2pt ∨ call.operation = .recv →
        call.sources.length = call.destinations.length) := by
  rw [checkPeers]
  by_cases outside : call.operation.isRooted && decide (size ≤ call.root)
  · obtain ⟨rooted, beyond⟩ : call.operation.isRooted ∧ size ≤ call.root := by simpa using outside
    rw [if_pos outside]
    simp only [reduceCtorEq, false_iff]
    exact fun inRange => absurd (inRange.1 rooted) (Nat.not_lt.mpr beyond)
  · have root : call.operation.isRooted → call.root < size := by simpa using outside
    rw [if_neg outside]
    cases found : (call.sources ++ call.destinations).find? (size ≤ ·) with
    | some peer =>
      have listed := List.mem_of_find?_eq_some found
      have beyond : size ≤ peer := by simpa using List.find?_some found
      simp only [reduceCtorEq, false_iff]
      exact fun inRange => absurd (inRange.2.1 peer listed) (Nat.not_lt.mpr beyond)
    | none =>
      have peers : ∀ peer ∈ call.sources ++ call.destinations, peer < size := by
        intro peer listed
        simpa using List.find?_eq_none.mp found peer listed
      dsimp only
      by_cases unpaired : (call.operation = .pt2pt ∨ call.operation = .recv) ∧
          call.sources.length ≠ call.destinations.length
      · rw [if_pos unpaired]
        simp only [reduceCtorEq, false_iff]
        exact fun inRange => unpaired.2 (inRange.2.2 unpaired.1)
      · rw [if_neg unpaired]
        simp only [true_iff]
        exact ⟨root, peers, fun paired => by_contra fun apart => unpaired ⟨paired, apart⟩⟩

/-- The call is one of a member. -/
structure Call.Suits (terms : Terms) (rank : Nat) (call : Call) : Prop where
  buffers : call.buffers.Suits terms rank
  senders : call.sources.length = terms.senders
  peers : call.checkPeers rank terms.ranks.length = .ok ()

/-- A call on buffers that suit the terms suits them if its peers exist and, where messages go from
point to point, are paired. -/
theorem Buffers.Suits.call {call : Call} (suits : call.buffers.Suits terms rank)
    (senders : call.sources.length = terms.senders)
    (root : terms.operation.isRooted → call.root < terms.ranks.length)
    (peers : ∀ peer ∈ call.sources ++ call.destinations, peer < terms.ranks.length)
    (paired : terms.operation = .pt2pt ∨ terms.operation = .recv →
      call.sources.length = call.destinations.length) : call.Suits terms rank := by
  refine ⟨suits, senders, Call.checkPeers_eq_ok.mpr ?_⟩
  rw [show call.operation = terms.operation from suits.operation]
  exact ⟨root, peers, paired⟩

/-- A call suits the terms with other buffers that suit them. -/
theorem Call.Suits.withBuffers {call : Call} (suits : call.Suits terms rank) {buffers : Buffers}
    (others : buffers.Suits terms rank) : Call.Suits terms rank { call with buffers } where
  buffers := others
  senders := suits.senders
  peers := by
    have same : Call.operation { call with buffers } = call.operation :=
      others.operation.trans suits.buffers.operation.symm
    have peers := suits.peers
    rw [checkPeers_eq_ok] at peers ⊢
    rwa [same]

/-! ## Complete rounds -/

section

variable {made : Nat → Call}

/-- What a member receives has the shape of its destination. -/
theorem gives_received (suits : ∀ rank ∈ terms.ranks, (made rank).Suits terms rank)
    (allocates : terms.operation.isSyncOnly = false) (member : rank ∈ terms.ranks) :
    Gives (payload (made rank) (terms.ranks.idxOf rank)
        (terms.ranks.map fun other => (made other).contribution))
      (·.Fits terms.type (terms.layout rank).destination) := by
  have own := suits rank member
  have operation : (made rank).operation = terms.operation := own.buffers.operation
  by_cases uneven : terms.operation = .allToAllv
  · have singles : ∀ sender ∈ terms.ranks, ∃ input, (made sender).buffers.input = .single input ∧
        input.HasShape terms.type (total (sentBy terms.ranks terms.lengths sender)) := by
      intro sender present
      have fits := ((suits sender present).buffers.shapes allocates).input
      rw [Terms.layout_uneven uneven] at fits
      generalize (made sender).buffers.input = input at fits
      cases input with
      | single tensor => exact ⟨tensor, rfl, fits⟩
      | list tensors => exact fits.elim
    have : Nonempty Tensor := ⟨.zeros 0 .f32⟩
    choose! inputs singles shapes using singles
    refine ⟨_, payload_allToAllv (operation.trans uneven) singles
      (fun sender present => (suits sender present).buffers.split uneven) shapes member, ?_⟩
    rw [Terms.layout_uneven uneven]
    exact ⟨rfl, length_exchanged (fun sender present => (shapes sender present).2) member⟩
  · have size : (terms.ranks.map fun other => (made other).contribution).length =
        terms.ranks.length := List.length_map _
    have layout : (made rank).layout terms.count terms.ranks.length = terms.layout rank := by
      rw [Terms.layout_even uneven, Call.layout, operation, own.senders]
    obtain ⟨root, peers, _⟩ := Call.checkPeers_eq_ok.mp own.peers
    rw [← layout, ← size]
    refine gives_payload ?_ (operation ▸ uneven) ?_ ?_ (by rwa [size]) ?_
    · rw [size]
      exact List.idxOf_lt_length_iff.mpr member
    · rw [List.forall_mem_map, size, layout, Terms.layout_even uneven]
      intro other present
      rw [← Terms.layout_even uneven other]
      exact ((suits other present).buffers.shapes allocates).input
    · rw [size, layout]
      exact (own.buffers.shapes allocates).destination
    · intro source listed
      rw [size]
      exact peers source (List.mem_append_left _ listed)

/-- Members that suit the terms issue one operation. -/
theorem agreed_of_suits (suits : ∀ rank ∈ terms.ranks, (made rank).Suits terms rank)
    (member : rank ∈ terms.ranks) :
    ∀ contribution ∈ terms.ranks.map fun other => (made other).contribution,
      contribution.operation = (made rank).operation :=
  agreed_of_map (fun other present => (suits other present).buffers.operation) member

/-- A call that moves nothing comes back as it was issued. -/
theorem conclude_still (suits : ∀ rank ∈ terms.ranks, (made rank).Suits terms rank)
    (still : terms.operation = .barrier ∨ terms.operation = .wait ∨ terms.operation = .noop)
    (member : rank ∈ terms.ranks) :
    conclude (made rank) rank (terms.ranks.idxOf rank)
        (terms.ranks.map fun other => (made other).contribution) = .ok (made rank) := by
  have operation : (made rank).operation = terms.operation :=
    (suits rank member).buffers.operation
  rw [conclude_eq_deliver (agreed_of_suits suits member), deliver]
  rcases still with same | same | same <;> simp only [payload, operation, same] <;> rfl

/-- In a complete round of members that suit the terms every call succeeds, and the returned calls
suit the terms as well. Only buffers change. -/
theorem gives_conclude (suits : ∀ rank ∈ terms.ranks, (made rank).Suits terms rank)
    (member : rank ∈ terms.ranks) :
    Gives (conclude (made rank) rank (terms.ranks.idxOf rank)
        (terms.ranks.map fun other => (made other).contribution))
      fun returned => returned.Suits terms rank ∧
        ∃ buffers, returned = { made rank with buffers } := by
  have own := suits rank member
  cases synchronises : terms.operation.isSyncOnly with
  | true =>
    have still : terms.operation = .barrier ∨ terms.operation = .wait ∨
        terms.operation = .noop := by
      cases same : terms.operation <;> simp_all [Operation.isSyncOnly]
    rw [conclude_still suits still member]
    exact gives_ok ⟨own, _, rfl⟩
  | false =>
    rw [conclude_eq_deliver (agreed_of_suits suits member)]
    refine (gives_deliver (gives_received suits synchronises member)
      (own.buffers.shapes synchronises).destination).mono ?_
    rintro _ ⟨destination, fits, rfl⟩
    exact ⟨own.withBuffers (own.buffers.withDestination fun _ => fits), _, rfl⟩

end

end CollectiveBench
