import CollectiveBench.Proofs.Checking
import CollectiveBench.Proofs.Exchange.StagedCalls

/-!
# Validated calls

Validation raises no false alarm where elements are only moved: buffers that all ranks stage for
one message and reset for a validated run pass the check after the operation, for every role that
a rank can have in it (`moved_data_passes`). The check looks at values and the round at shapes, so
the two halves are proved apart: whatever comes back from a round passes, and everything does come
back.
-/

namespace CollectiveBench

/-- In the group that spans the world the place of a rank is the rank itself. -/
theorem idxOf_range {size rank : Nat} (inside : rank < size) :
    (List.range size).idxOf rank = rank := by
  have length : rank < (List.range size).length := by simpa using inside
  simpa using List.nodup_range.idxOf_getElem rank length

/-- Buffers for a validated run of an operation that moves elements: a sender holds the initial
value, the destination has tensors of one type, and a member that is served without a message holds
the initial value in its destination. -/
structure Checker.Prepared (checker : Checker) (operation : Operation) (type : ElementType)
    (rank root : Nat) (buffers : Buffers) : Prop where
  issued : buffers.operation = operation
  sends : (onlyRootSends operation → rank = root) →
    buffers.input.Holds (type.encode checker.initial)
  types : ∀ tensor ∈ buffers.destination.tensors, tensor.type = type
  served : operation = .multicast ∧ rank = root ∨ operation = .recv →
    buffers.destination.Holds (type.encode checker.initial)

/-- Buffers that were staged and then reset are prepared. -/
theorem Checker.prepared_of_staged {supported : List Operation} {world : World} {params : Params}
    {descriptor : Descriptor} {operation : Operation} {device : Device} {buffers : Buffers}
    {rank : Nat} (checker : Checker) (root : Nat) (other : Numeric.Scalar)
    (resolved : Operation.resolve supported (Plan.nameOf params descriptor) = .ok operation)
    (member : rank ∈ world.members (descriptor.group.getD World.defaultGroup))
    (staged : (stage supported world params descriptor true device).1 = .ok buffers) :
    checker.Prepared operation (descriptor.type.getD params.type) rank root
      (checker.reset buffers rank root other) := by
  obtain ⟨plan, made, rfl⟩ := stage_eq_ok staged
  obtain ⟨known, inhabited⟩ := World.groupSize_of_mem member
  obtain ⟨sameOperation, sameType, _, decided⟩ := Plan.of_make made resolved known inhabited
  have issued : (plan.allocate params device).1.operation = operation :=
    (plan.allocate_decided params device).1.trans sameOperation
  obtain ⟨inputTypes, destinationTypes⟩ := plan.types_allocate params device
  rw [sameType] at inputTypes destinationTypes
  have sends (sender : onlyRootSends operation → rank = root) :=
    checker.holds_reset other inputTypes (issued ▸ sender)
  refine ⟨issued, sends, checker.types_reset other destinationTypes, fun served => ?_⟩
  have allocates : operation.isSyncOnly = false := by
    rcases served with ⟨rfl, _⟩ | rfl <;> rfl
  have chosen := congrArg Plan.layout (decided allocates).1
  have inPlace : (plan.allocate params device).1.output = none := by
    refine Plan.output_allocate chosen ?_ params device
    rcases served with ⟨rfl, _⟩ | rfl <;> rfl
  rw [checker.destination_reset other inPlace]
  refine sends fun alone => ?_
  rcases served with ⟨_, same⟩ | rfl
  · exact same
  · cases alone

/-- In a complete round of all ranks whose buffers are prepared, whatever comes back passes. -/
theorem Checker.Prepared.givesOnly_conclude {checker : Checker} {operation : Operation}
    {type : ElementType} {size root : Nat} {made : Nat → Call}
    (prepared : ∀ rank ∈ List.range size,
      checker.Prepared operation type rank root (made rank).buffers)
    (isNumber : (type.cast checker.initial).isNaN = false)
    (moves : operation.isReduction = false) (sameRoot : ∀ rank, (made rank).root = root)
    (paired : operation = .pt2pt → ∀ rank,
      (made rank).sources.length = (made rank).destinations.length)
    {rank : Nat} (inside : rank ∈ List.range size) (sizeBytes : Nat) :
    GivesOnly (conclude (made rank) rank rank
        ((List.range size).map fun other => (made other).contribution))
      (checker.check · rank size sizeBytes = .ok ()) := by
  intro returned concluded
  have own := prepared rank inside
  have issued : (made rank).operation = operation := own.issued
  have sent : ∀ sender contribution,
      ((List.range size).map fun other => (made other).contribution)[sender]? = some contribution →
      (onlyRootSends (made rank).operation → sender = (made rank).root) →
        contribution.input.Holds (type.encode checker.initial) := by
    rw [issued, sameRoot rank]
    intro sender contribution found alone
    obtain ⟨bound, rfl⟩ := List.getElem?_eq_some_iff.mp found
    have inside : sender < size := by simpa using bound
    have sends := (prepared sender (List.mem_range.mpr inside)).sends alone
    simpa [Call.contribution] using sends
  refine givesOnly_check isNumber (issued ▸ moves) sent (fun single => ?_) own.types ?_ size
    sizeBytes returned (conclude_eq_ok concluded).2
  · exact paired (issued ▸ single) rank
  · rw [Call.Served, issued, sameRoot rank]
    exact own.served

namespace Exchange

/-- All ranks of a world stage one message for an operation that moves elements, on any devices,
reset what they staged for a validated run, each with values of its own where nothing is sent, and
issue it with a common root, the senders that staging counted and common receivers. The initial
value is a number in the type of the elements, the peers exist, and messages from point to point
have as many receivers as senders. Then whatever a rank gets back passes the check. And all ranks
do get their calls back, in complete rounds and in steps in which they issue their calls in any
order before the first deadline, where the parameters have no split for an uneven exchange or the
even one. -/
theorem moved_data_passes (checker : Checker) {supported : List Operation} (size : Nat)
    (subgroups : List (List Nat)) (timeoutMs : Nat) {params : Params} {descriptor : Descriptor}
    {operation : Operation} {count : Nat} (root : Nat) (destinations : List Nat)
    (reduction : Reduction) (devices : Nat → Device) (buffers : Nat → Buffers)
    (stale : Nat → Numeric.Scalar) (sizeBytes : Nat)
    (resolved : Operation.resolve supported (Plan.nameOf params descriptor) = .ok operation)
    (moves : operation.isReduction = false) (asks : descriptor.AsksFor count)
    (here : descriptor.group.getD World.defaultGroup = World.defaultGroup)
    (isNumber : ((descriptor.type.getD params.type).cast checker.initial).isNaN = false) :
    let world := World.create size subgroups timeoutMs
    let ranks := List.range size
    let made (rank : Nat) : Call :=
      { buffers := checker.reset (buffers rank) rank root (stale rank), root,
        sources := params.sources, destinations, group := World.defaultGroup, reduction }
    let answer (rank : Nat) :=
      conclude (made rank) rank rank (ranks.map fun other => (made other).contribution)
    let passes (rank : Nat) (returned : Call) : Prop :=
      checker.check returned rank size sizeBytes = .ok ()
    (∀ rank ∈ ranks,
      (stage supported world params descriptor true (devices rank)).1 = .ok (buffers rank)) →
    (operation.isRooted → root < size) →
    (∀ peer ∈ params.sources ++ destinations, peer < size) →
    (operation = .pt2pt ∨ operation = .recv → params.sources.length = destinations.length) →
    (∀ rank ∈ ranks, ∀ returned, answer rank = .ok returned → passes rank returned) ∧
    ((operation = .allToAllv → ∀ split, params.inSplit = some split →
        split = evenSplit count size) →
      (∀ rank ∈ ranks, ∃ returned, answer rank = .ok returned ∧ passes rank returned) ∧
      ∀ exchange : Exchange, exchange.Ready World.defaultGroup →
        exchange.world.members World.defaultGroup = ranks →
          ∀ pause, pause * (size - 1) < exchange.world.timeoutMs →
            ∀ order, order.Perm ranks → ∃ returned : Nat → Call,
              (exchange.perform pause (oneEach made order)).2 =
                (order.map fun rank => .ok (returned rank)) ∧
              ∀ rank ∈ ranks, passes rank (returned rank)) := by
  intro world ranks made answer passes staged rooted peers paired
  have members : world.members (descriptor.group.getD World.defaultGroup) = ranks := by
    rw [here]
    rfl
  have prepared : ∀ rank ∈ ranks, checker.Prepared operation (descriptor.type.getD params.type)
      rank root (made rank).buffers := fun rank member =>
    checker.prepared_of_staged root (stale rank) resolved (members ▸ member) (staged rank member)
  have pass : ∀ rank ∈ ranks, ∀ returned, answer rank = .ok returned → passes rank returned :=
    fun rank member => Checker.Prepared.givesOnly_conclude prepared isNumber moves (fun _ => rfl)
      (fun single _ => paired (.inl single)) member sizeBytes
  refine ⟨pass, fun even => ?_⟩
  let terms := Terms.message ranks operation (descriptor.type.getD params.type)
    params.sources.length count
  have length : ranks.length = size := List.length_range
  have place (rank : Nat) (member : rank ∈ ranks) : terms.ranks.idxOf rank = rank :=
    idxOf_range (List.mem_range.mp member)
  have suits : ∀ rank ∈ terms.ranks, (made rank).Suits terms rank := by
    intro rank member
    have own : rank ∈ world.members (descriptor.group.getD World.defaultGroup) :=
      members ▸ (member : rank ∈ ranks)
    have suits := Buffers.suits_of_staged resolved asks own (staged rank member)
      (by rwa [members, length])
    rw [members] at suits
    have reset := checker.suits_reset rank root (stale rank) suits
    refine Buffers.Suits.call reset rfl ?_ ?_ paired
    · exact length.symm ▸ rooted
    · exact length.symm ▸ peers
  have rounds : ∀ rank ∈ ranks, ∃ returned, answer rank = .ok returned ∧ passes rank returned := by
    intro rank member
    obtain ⟨returned, concluded, _⟩ := gives_conclude suits member
    rw [place rank member] at concluded
    exact ⟨returned, concluded, pass rank member returned concluded⟩
  refine ⟨rounds, ?_⟩
  intro exchange ready known pause prompt order everyone
  have meeting : exchange.world.members World.defaultGroup = terms.ranks := known
  obtain ⟨answers, _, _⟩ := ready.perform_suiting meeting (fun _ => rfl) suits everyone
    (by rwa [show terms.ranks.length = size from length])
  choose! returned concluded passed using rounds
  refine ⟨returned, answers.trans (List.map_congr_left fun rank listed => ?_), passed⟩
  have member := everyone.mem_iff.mp listed
  rw [← concluded rank member, place rank member]
  rfl

/-- Three ranks of which the second multicasts to the first and to itself numbers that the elements
can only hold rounded. The third keeps what it was reset to and is not checked. -/
theorem moved_data_passes_three :
    let checker : Checker := ⟨.ofNat 1 / .ofNat 10⟩
    let world := World.create 3 [] 1000
    let params : Params := {}
    let descriptor := Descriptor.of "multicast" 2 2 .bf16
    let staged (rank : Nat) :=
      (stage Operation.all world params descriptor true (Device.create 7 rank)).1
    let buffers (rank : Nat) := (staged rank).toOption.getD { operation := .noop }
    let made (rank : Nat) : Call :=
      { buffers := checker.reset (buffers rank) rank 1 (.ofNat rank), root := 1, sources := [],
        destinations := [0, 1], group := World.defaultGroup, reduction := .sum }
    let exchange := create world (List.range 3)
    exchange.Ready World.defaultGroup ∧ (∀ rank ∈ [0, 1, 2], staged rank = .ok (buffers rank)) ∧
      ∃ returned : Nat → Call, (exchange.perform 1 (oneEach made [2, 0, 1])).2 =
        ([2, 0, 1].map fun rank => .ok (returned rank)) ∧
        ∀ rank ∈ [0, 1, 2], checker.check (returned rank) rank 3 4 = .ok () := by
  intro checker world params descriptor staged buffers made exchange
  have ready : exchange.Ready World.defaultGroup :=
    ⟨atRest_create world, by decide, by decide, inStep_create _ _ _⟩
  have each : ∀ rank ∈ [0, 1, 2], staged rank = .ok (buffers rank) := by decide +kernel
  have known : Operation.multicast ∈ Operation.all := by decide
  have resolved : Operation.resolve Operation.all (Plan.nameOf params descriptor) =
      .ok .multicast := by
    rw [show Plan.nameOf params descriptor = Operation.multicast.name from rfl]
    exact Operation.resolve_name known
  have isNumber : ((descriptor.type.getD params.type).cast checker.initial).isNaN = false := by
    decide +kernel
  have steps := (moved_data_passes checker 3 [] 1000 1 [0, 1] .sum (Device.create 7) buffers
    Numeric.Scalar.ofNat 4 resolved rfl ⟨rfl, rfl, rfl⟩ rfl isNumber each (by decide) (by decide)
    (by decide)).2 (by decide)
  exact ⟨ready, each, steps.2 exchange ready rfl 1 (by decide) [2, 0, 1] (by decide)⟩

end Exchange

end CollectiveBench
