import CollectiveBench.Proofs.Delivery.Reducing
import CollectiveBench.Proofs.Exchange.Collective

/-!
# Reducing in two steps

A scattered reduction followed by a gathering of the chunks gives what one in-place reduction
gives, word for word and for every element type: each chunk was reduced in the order of the group,
as the whole is.
-/

namespace CollectiveBench

/-- A member's call whose peers exist in groups of any size takes a seat if its operation waits for
others. -/
theorem World.accepts_of_mem {world : World} {rank : Nat} {call : Call}
    (waits : call.operation ≠ .noop ∧ call.operation ≠ .wait)
    (peers : ∀ size, call.checkPeers rank size = .ok ())
    (member : rank ∈ world.members call.group) : world.accepts rank call :=
  accepts_of_peers waits (peers _) member

/-- Chunks that stand at the places of their ranks make up the whole. -/
theorem flatMap_chunkAt_idxOf {ranks : List Nat} (distinct : ranks.Nodup) {size : Nat}
    {words : List Nat} (length : words.length = ranks.length * size) :
    (ranks.flatMap fun rank => chunkAt size words (ranks.idxOf rank)) = words := by
  calc (ranks.flatMap fun rank => chunkAt size words (ranks.idxOf rank))
      = (ranks.map ranks.idxOf).flatMap (chunkAt size words) := by rw [List.flatMap_map]
    _ = (List.range ranks.length).flatMap (chunkAt size words) := by rw [map_idxOf distinct]
    _ = words := flatMap_chunkAt length

/-- The reduction of what some ranks contribute, in their order. -/
def reducedTensor (type : ElementType) (reduction : Reduction) (ranks : List Nat)
    (inputs : Nat → Tensor) : Tensor :=
  ⟨type, reduceWords type reduction (ranks.map fun rank => (inputs rank).words)⟩

/-- The chunk of a tensor at a place. -/
def Tensor.chunk (tensor : Tensor) (size place : Nat) : Tensor :=
  ⟨tensor.type, chunkAt size tensor.words place⟩

section

variable {type : ElementType} {size : Nat} {ranks : List Nat}
  {inputs outputs targets : Nat → Tensor} (group : Nat) (reduction : Reduction)

/-- Complete rounds: the scattered reduction answers each member with its chunk, and the gathering
of these chunks answers each with the whole, as the in-place reduction does. -/
theorem conclude_scatter_gather (distinct : ranks.Nodup)
    (inputShapes : ∀ rank ∈ ranks, (inputs rank).HasShape type (ranks.length * size))
    (outputShapes : ∀ rank ∈ ranks, (outputs rank).HasShape type size)
    (targetShapes : ∀ rank ∈ ranks, (targets rank).HasShape type (ranks.length * size)) :
    let whole := reducedTensor type reduction ranks inputs
    let chunk (rank : Nat) := whole.chunk size (ranks.idxOf rank)
    let scatter (rank : Nat) := Call.reduceScatterBase group reduction (inputs rank) (outputs rank)
    let gather (rank : Nat) := Call.allGatherBase group (chunk rank) (targets rank)
    let reduce (rank : Nat) := Call.allReduce group reduction (inputs rank)
    ∀ rank ∈ ranks,
      conclude (scatter rank) rank (ranks.idxOf rank)
          (ranks.map fun other => (scatter other).contribution) =
        .ok (.reduceScatterBase group reduction (inputs rank) (chunk rank)) ∧
      conclude (gather rank) rank (ranks.idxOf rank)
          (ranks.map fun other => (gather other).contribution) =
        .ok (.allGatherBase group (chunk rank) whole) ∧
      conclude (reduce rank) rank (ranks.idxOf rank)
          (ranks.map fun other => (reduce other).contribution) =
        .ok (.allReduce group reduction whole) := by
  intro whole chunk scatter gather reduce rank member
  have length : whole.words.length = ranks.length * size :=
    (hasShape_reduceWords reduction inputShapes (List.ne_nil_of_mem member)).2
  refine ⟨?_, ?_, ?_⟩
  · exact conclude_reduceScatterBase group reduction inputShapes member (outputShapes rank member)
      (List.idxOf_lt_length_iff.mpr member)
  · have joined : (ranks.flatMap fun other => (chunk other).words) = whole.words :=
      flatMap_chunkAt_idxOf distinct length
    have types : ∀ other ∈ ranks, (chunk other).type = type := fun _ _ => rfl
    have fits := targetShapes rank member
    rw [← length, ← joined] at fits
    rw [conclude_allGatherBase group types member fits, joined]
    rfl
  · exact conclude_allReduce group reduction inputShapes member _

end

namespace Exchange

/-- In a group whose members have inputs of one type that they can divide among themselves: the
scattered reduction and the gathering of its results leave at every member what the in-place
reduction of the same inputs leaves there. It is so in complete rounds, and therefore in steps in
which all members issue their calls, in any order, before the first deadline: all calls succeed,
and the group is ready for the gathering after the scattered reduction. -/
theorem scatter_gather_eq_reduce (group : Nat) (reduction : Reduction) {type : ElementType}
    {size : Nat} {ranks : List Nat} (distinct : ranks.Nodup) {inputs outputs targets : Nat → Tensor}
    (inputShapes : ∀ rank ∈ ranks, (inputs rank).HasShape type (ranks.length * size))
    (outputShapes : ∀ rank ∈ ranks, (outputs rank).HasShape type size)
    (targetShapes : ∀ rank ∈ ranks, (targets rank).HasShape type (ranks.length * size)) :
    let whole := reducedTensor type reduction ranks inputs
    let chunk (rank : Nat) := whole.chunk size (ranks.idxOf rank)
    let scatter (rank : Nat) := Call.reduceScatterBase group reduction (inputs rank) (outputs rank)
    let gather (rank : Nat) := Call.allGatherBase group (chunk rank) (targets rank)
    let reduce (rank : Nat) := Call.allReduce group reduction (inputs rank)
    (∀ rank ∈ ranks,
      conclude (scatter rank) rank (ranks.idxOf rank)
          (ranks.map fun other => (scatter other).contribution) =
        .ok (.reduceScatterBase group reduction (inputs rank) (chunk rank)) ∧
      conclude (gather rank) rank (ranks.idxOf rank)
          (ranks.map fun other => (gather other).contribution) =
        .ok (.allGatherBase group (chunk rank) whole) ∧
      conclude (reduce rank) rank (ranks.idxOf rank)
          (ranks.map fun other => (reduce other).contribution) =
        .ok (.allReduce group reduction whole)) ∧
    ∀ exchange : Exchange, exchange.Ready group → exchange.world.members group = ranks →
      ∀ pause, pause * (ranks.length - 1) < exchange.world.timeoutMs →
        ∀ first second third, first.Perm ranks → second.Perm ranks → third.Perm ranks →
          let scattered := exchange.perform pause (oneEach scatter first)
          let gathered := scattered.1.perform pause (oneEach gather second)
          let reduced := exchange.perform pause (oneEach reduce third)
          (scattered.2 = first.map fun rank =>
            .ok (.reduceScatterBase group reduction (inputs rank) (chunk rank))) ∧
          (gathered.2 = second.map fun rank => .ok (.allGatherBase group (chunk rank) whole)) ∧
          reduced.2 = third.map fun _ => .ok (.allReduce group reduction whole) := by
  intro whole chunk scatter gather reduce
  have rounds := conclude_scatter_gather group reduction distinct inputShapes outputShapes
    targetShapes
  refine ⟨rounds, ?_⟩
  rintro exchange ready rfl pause prompt first second third scatters gathers reduces
  obtain ⟨scattered, readyAgain, world⟩ := ready.perform_each scatter (fun _ => rfl)
    (fun rank member => World.accepts_of_mem
      (by simp [scatter, Call.reduceScatterBase, Call.operation]) (fun _ => rfl) member)
    scatters (scatters.length_eq ▸ prompt)
  obtain ⟨gathered, _, _⟩ := readyAgain.perform_each gather (fun _ => rfl)
    (fun rank member => World.accepts_of_mem
      (by simp [gather, Call.allGatherBase, Call.operation]) (fun _ => rfl) member)
    (world ▸ gathers) (by rw [world, gathers.length_eq]; exact prompt)
  obtain ⟨reduced, _, _⟩ := ready.perform_each reduce (fun _ => rfl)
    (fun rank member => World.accepts_of_mem
      (by simp [reduce, Call.allReduce, Call.operation]) (fun _ => rfl) member)
    reduces (reduces.length_eq ▸ prompt)
  refine ⟨?_, ?_, ?_⟩
  · rw [scattered]
    exact List.map_congr_left fun rank listed => (rounds rank (scatters.mem_iff.mp listed)).1
  · rw [gathered, world]
    exact List.map_congr_left fun rank listed => (rounds rank (gathers.mem_iff.mp listed)).2.1
  · rw [reduced]
    exact List.map_congr_left fun rank listed => (rounds rank (reduces.mem_iff.mp listed)).2.2

/-- Three ranks in a group with an order of its own, each with three single-precision numbers of
which one is an infinity. -/
theorem scatter_gather_eq_reduce_three :
    let ranks := [2, 0, 1]
    let input (rank : Nat) : Tensor := ⟨.f32, [0x3F800000, rank, 0x7F800000]⟩
    let whole := reducedTensor .f32 .sum ranks input
    let chunk (rank : Nat) := whole.chunk 1 (ranks.idxOf rank)
    let exchange := create (World.create 3 [ranks] 1000) (List.range 3)
    let scattered := exchange.perform 1 (oneEach
      (fun rank => .reduceScatterBase 1 .sum (input rank) (.zeros 1 .f32)) [1, 0, 2])
    let gathered := scattered.1.perform 1 (oneEach
      (fun rank => .allGatherBase 1 (chunk rank) (.zeros 3 .f32)) [2, 0, 1])
    let reduced := exchange.perform 1 (oneEach
      (fun rank => .allReduce 1 .sum (input rank)) [0, 1, 2])
    exchange.Ready 1 ∧ (∀ rank ∈ ranks, (input rank).HasShape .f32 (ranks.length * 1)) ∧
      (gathered.2 = [2, 0, 1].map fun rank => .ok (.allGatherBase 1 (chunk rank) whole)) ∧
      reduced.2 = [0, 1, 2].map fun _ => .ok (.allReduce 1 .sum whole) := by
  intro ranks input whole chunk exchange scattered gathered reduced
  have ready : exchange.Ready 1 :=
    ⟨atRest_create (World.create 3 [ranks] 1000), by decide, by decide, inStep_create _ _ 1⟩
  have shapes : ∀ rank ∈ ranks, (input rank).HasShape .f32 (ranks.length * 1) :=
    fun _ _ => ⟨rfl, rfl⟩
  have outputs : ∀ rank ∈ ranks, ((fun _ => .zeros 1 .f32 : Nat → Tensor) rank).HasShape .f32 1 :=
    fun _ _ => ⟨rfl, rfl⟩
  have targets : ∀ rank ∈ ranks,
      ((fun _ => .zeros 3 .f32 : Nat → Tensor) rank).HasShape .f32 (ranks.length * 1) :=
    fun _ _ => ⟨rfl, rfl⟩
  have steps := (scatter_gather_eq_reduce 1 .sum (by decide) shapes outputs targets).2 exchange
    ready rfl 1 (by decide) [1, 0, 2] [2, 0, 1] [0, 1, 2] (by decide) (by decide) (by decide)
  exact ⟨ready, shapes, steps.2⟩

end Exchange

end CollectiveBench
