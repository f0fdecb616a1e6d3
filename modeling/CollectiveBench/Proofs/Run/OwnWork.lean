import CollectiveBench.Proofs.Run.Plans
import CollectiveBench.Proofs.Run.Workloads
import CollectiveBench.Proofs.Staging.Admission

/-!
# Own work

Most of what a rank does between its calls concerns nobody else: it plans and stages buffers, stops
its clock and runs its kernel. Where that fails, the error says so (`Error.OfOwnWork`): it is none
of those that come with a call, which name a rank or a round.
-/

namespace CollectiveBench

/-! ## Plans -/

/-- Planning is a rank's own work. -/
theorem Plan.failsOnly_make (supported : List Operation) (world : World) (params : Params)
    (descriptor : Descriptor) :
    FailsOnly (make supported world params descriptor) Error.OfOwnWork := by
  have divisible (operation : Operation) (count size : Nat) :
      FailsOnly (checkDivisible operation count size) Error.OfOwnWork := by
    rw [checkDivisible]
    split
    · exact failsOnly_ok ()
    · exact failsOnly_error trivial
  have splits (operation : Operation) (split : Option (List Nat)) (count size : Nat) :
      FailsOnly (checkSplits operation split count size) Error.OfOwnWork := by
    cases split with
    | none => exact divisible operation count size
    | some lengths =>
      rw [checkSplits_exact]
      split
      · exact failsOnly_ok ()
      · exact failsOnly_error trivial
  have counts (operation : Operation) (inCount outCount size : Nat)
      (inSplit outSplit : Option (List Nat)) :
      FailsOnly (checkCounts operation inCount outCount size inSplit outSplit)
        Error.OfOwnWork := by
    cases operation
    case allToAllv => exact (splits _ _ _ _).bind fun _ => splits _ _ _ _
    case allToAll => exact (divisible _ _ _).bind fun _ => divisible _ _ _
    all_goals
      first
        | exact divisible _ _ _
        | exact failsOnly_ok ()
  have resolved : FailsOnly (Operation.resolve supported (nameOf params descriptor))
      Error.OfOwnWork := by
    rw [Operation.resolve]
    split
    · split
      · exact failsOnly_ok _
      · exact failsOnly_error trivial
    · exact failsOnly_error trivial
  have sized : FailsOnly (world.groupSize (descriptor.group.getD World.defaultGroup))
      Error.OfOwnWork := by
    rw [World.groupSize, World.group]
    split
    · exact failsOnly_ok _
    · exact failsOnly_error trivial
  rw [make]
  refine resolved.bind fun operation => ?_
  dsimp only
  split
  · exact failsOnly_ok _
  refine sized.bind fun size => ?_
  split
  · exact failsOnly_error trivial
  · exact (counts _ _ _ _ _ _).bind fun _ => failsOnly_ok _

/-- A rank plans an item for the item's operation. -/
theorem Item.operation_of_plan {bench : Bench} {item : Item} {rank : Nat} {made : Plan}
    (planned : plan bench item rank = .ok made) : made.operation = item.operation := by
  obtain ⟨operation, resolved, decided⟩ := Plan.make_eq_ok_iff.mp planned
  have named : Operation.ofName? item.operation.name = some operation := by
    have known := (Operation.resolve_eq_ok_iff.mp resolved).1
    rwa [Plan.nameOf, (item.descriptor_names _ _ _).1] at known
  obtain rfl : item.operation = operation :=
    Option.some.inj ((Operation.ofName?_name _).symm.trans named)
  rcases decided with ⟨_, rfl⟩ | ⟨_, size, _, _, _, rfl⟩ <;> rfl

/-- Staging an item is a rank's own work, and gives buffers of the item's operation. -/
theorem Item.stage_own (bench : Bench) (item : Item) (rank : Nat) (allocate : Bool)
    (device : Device) :
    FailsOnly (stage bench.supported bench.world (item.stagingParams bench.params bench.worldSize)
      (item.descriptor bench.params bench.worldSize rank) allocate device).1 Error.OfOwnWork ∧
    GivesOnly (stage bench.supported bench.world (item.stagingParams bench.params bench.worldSize)
      (item.descriptor bench.params bench.worldSize rank) allocate device).1
        (·.operation = item.operation) := by
  rw [item.stage_eq]
  cases planned : plan bench item rank with
  | error error =>
    exact ⟨failsOnly_error (Plan.failsOnly_make _ _ _ _ error planned), givesOnly_error error⟩
  | ok made =>
    refine ⟨failsOnly_ok _, givesOnly_ok ?_⟩
    rw [← operation_of_plan planned]
    split
    · exact (made.allocate_decided _ device).1
    · rfl

/-! ## Clocks and kernels -/

/-- Adding an interval fails only at the own work. -/
theorem Stopwatch.failsOnly_add (stopwatch : Stopwatch) (nanoseconds : Nat) :
    FailsOnly (stopwatch.add nanoseconds) Error.OfOwnWork := by
  rw [add]
  split
  · exact failsOnly_ok _
  · exact failsOnly_error trivial

namespace Workload

variable {requests : List (Request × Outcome Tensor)}

/-- Requests that fail only at the own work are performed so, too. -/
theorem failsOnly_perform (each : ∀ request ∈ requests, FailsOnly request.2 Error.OfOwnWork)
    (device : Device) : FailsOnly (perform requests device).1 Error.OfOwnWork := by
  induction requests generalizing device with
  | nil => exact failsOnly_ok ()
  | cons first rest inductionHypothesis =>
    obtain ⟨request, outcome⟩ := first
    rw [List.forall_mem_cons] at each
    cases outcome with
    | ok tensor => exact inductionHypothesis each.2 _
    | error error => exact failsOnly_error (each.1 error rfl)

/-- Requests that fail only at the own work are repeated so, too. -/
theorem failsOnly_repeated (each : ∀ request ∈ requests, FailsOnly request.2 Error.OfOwnWork)
    (runs : Nat) (device : Device) :
    FailsOnly (repeated requests runs device).1 Error.OfOwnWork := by
  induction runs generalizing device with
  | zero => exact failsOnly_ok ()
  | succ runs inductionHypothesis =>
    rw [repeated]
    split
    · exact inductionHypothesis _
    next failed =>
      have own := failsOnly_perform each device
      rw [failed] at own
      exact own

/-- A product fails for the sizes of its operands. -/
theorem failsOnly_matrixProduct (left right : Tensor) (dimension : Nat) :
    FailsOnly (matrixProduct left right dimension) Error.OfOwnWork := by
  refine FailsOnly.bind (failsOnly_ok _) fun count => ?_
  dsimp only
  split
  · exact failsOnly_error trivial
  split
  · exact failsOnly_error trivial
  refine FailsOnly.bind (failsOnly_ok ()) fun _ => FailsOnly.bind (failsOnly_ok ()) fun _ =>
    FailsOnly.bind (failsOnly_ok ()) fun _ => ?_
  split
  · exact failsOnly_error trivial
  · exact failsOnly_ok _

/-- Running a kernel is a rank's own work. -/
theorem failsOnly_run (workload : Workload) (device : Device) :
    FailsOnly (workload.run device).1 Error.OfOwnWork := by
  obtain ⟨input, runs, stream⟩ := workload
  refine failsOnly_repeated (fun request listed => ?_) runs _
  cases input with
  | product left right dimension =>
    rw [List.mem_singleton.mp listed]
    exact failsOnly_matrixProduct left right dimension
  | lookups dimension lookups =>
    obtain ⟨lookup, _, rfl⟩ := List.mem_map.mp listed
    exact failsOnly_embeddingBags _ _ _ _

end Workload

end CollectiveBench
