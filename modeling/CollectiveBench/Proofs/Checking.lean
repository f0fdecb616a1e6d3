import CollectiveBench.Proofs.Delivery.Uniform
import CollectiveBench.Proofs.Staging

/-!
# Buffers of a validated run

Resetting buffers keeps their shapes, so reset buffers suit the same terms as those that were
staged. Senders then hold the initial value. A destination that holds the word of that value
passes the check, whatever its shape, as long as the value is a number in the type of the elements.
-/

namespace CollectiveBench

open Numeric

/-! ## Resetting -/

/-- Changing the tensors of a buffer changes each of them. -/
theorem Staged.tensors_map (change : Tensor → Tensor) (staged : Staged) :
    (staged.map change).tensors = staged.tensors.map change := by
  cases staged <;> rfl

/-- Filling a tensor leaves its shape. -/
theorem Tensor.HasShape.fill [Halves] {type : ElementType} {count : Nat} {tensor : Tensor}
    (shape : tensor.HasShape type count) (value : Scalar) :
    (tensor.fill value).HasShape type count :=
  ⟨shape.1, List.length_replicate.trans shape.2⟩

/-- Filling a buffer leaves its shape. -/
theorem Staged.Fits.fill [Halves] {type : ElementType} {extent : Extent} {staged : Staged}
    (fits : staged.Fits type extent) (value : Scalar) :
    (staged.map (·.fill value)).Fits type extent := by
  cases extent <;> cases staged
  case single.single => exact Tensor.HasShape.fill fits value
  case list.list =>
    refine ⟨(List.length_map _).trans fits.1, ?_⟩
    rw [List.forall_mem_map]
    exact fun tensor present => (fits.2 tensor present).fill value
  all_goals exact fits.elim

/-- A buffer that was filled holds the word of the value. -/
theorem Staged.holds_fill [Halves] {type : ElementType} {staged : Staged}
    (types : ∀ tensor ∈ staged.tensors, tensor.type = type) (value : Scalar) :
    (staged.map (·.fill value)).Holds (type.encode value) := by
  rw [Holds, tensors_map, List.forall_mem_map]
  intro tensor present word listed
  rw [List.eq_of_mem_replicate listed, types tensor present]

/-- The tensors of a buffer that fits are of its type. -/
theorem Staged.Fits.types {type : ElementType} {extent : Extent} {staged : Staged}
    (fits : staged.Fits type extent) : ∀ tensor ∈ staged.tensors, tensor.type = type := by
  cases extent <;> cases staged
  case single.single =>
    intro tensor present
    rw [List.mem_singleton.mp present]
    exact (show Tensor.HasShape _ type _ from fits).1
  case list.list => exact fun tensor present => (fits.2 tensor present).1
  all_goals exact fits.elim

namespace Checker

variable (checker : Checker) (buffers : Buffers) (rank root : Nat) (other : Scalar)

variable {buffers}

/-- Reset buffers have the shapes that they had. -/
theorem fits_reset [Halves] {type : ElementType} {layout : Layout}
    (fits : buffers.Fits type layout) :
    (checker.reset buffers rank root other).Fits type layout := by
  obtain ⟨operation, input, staged, inSplit, outSplit⟩ := buffers
  obtain ⟨extent, room⟩ := layout
  obtain ⟨holds, related⟩ := fits
  refine ⟨holds.fill _, ?_⟩
  cases related with
  | none => exact .none
  | some fits => exact .some (Staged.Fits.fill fits other)

/-- Buffers that were reset suit a call as they did before. -/
theorem suits_reset [Halves] {terms : Terms} (suits : buffers.Suits terms rank) :
    (checker.reset buffers rank root other).Suits terms rank where
  operation := suits.operation
  shapes allocates := checker.fits_reset rank root other (suits.shapes allocates)
  split := suits.split

variable {rank root}

/-- A sender holds the initial value. -/
theorem holds_reset [Halves] {type : ElementType}
    (types : ∀ tensor ∈ buffers.input.tensors, tensor.type = type)
    (sends : onlyRootSends buffers.operation → rank = root) :
    (checker.reset buffers rank root other).input.Holds (type.encode checker.initial) := by
  have value : (if onlyRootSends buffers.operation ∧ rank ≠ root then other else checker.initial) =
      checker.initial := if_neg fun apart => apart.2 (sends apart.1)
  rw [reset, value]
  exact Staged.holds_fill types checker.initial

/-- The tensors of the destination keep their types. -/
theorem types_reset [Halves] {type : ElementType}
    (types : ∀ tensor ∈ buffers.destination.tensors, tensor.type = type) :
    ∀ tensor ∈ (checker.reset buffers rank root other).destination.tensors, tensor.type = type := by
  obtain ⟨operation, input, output, inSplit, outSplit⟩ := buffers
  cases output with
  | none =>
    rw [reset, Buffers.destination, Option.map_none, Option.getD_none, Staged.tensors_map,
      List.forall_mem_map]
    exact types
  | some staged =>
    rw [reset, Buffers.destination, Option.map_some, Option.getD_some, Staged.tensors_map,
      List.forall_mem_map]
    exact types

/-- Buffers of an operation in place have their input for a destination, also when reset. -/
theorem destination_reset [Halves] (inPlace : buffers.output = none) :
    (checker.reset buffers rank root other).destination =
      (checker.reset buffers rank root other).input := by
  simp [reset, Buffers.destination, inPlace]

/-! ## Checking -/

variable {checker}

/-- Values that are all the expected one have no mismatch. -/
theorem firstMismatch_eq_none {expected : Scalar} {values : List Scalar}
    (same : ∀ value ∈ values, value.beq expected) (start : Nat) :
    firstMismatch expected start values = none := by
  induction values generalizing start with
  | nil => rfl
  | cons first rest inductionHypothesis =>
    rw [firstMismatch, if_pos (same first List.mem_cons_self)]
    exact inductionHypothesis (fun value present => same value (List.mem_cons_of_mem _ present)) _

/-- Tensors whose values are all the expected one have no fault. -/
theorem firstFault_eq_none {expected : Scalar} {tensors : List Tensor}
    (same : ∀ tensor ∈ tensors, ∀ value ∈ tensor.values, value.beq expected) (start : Nat) :
    firstFault expected start tensors = none := by
  induction tensors generalizing start with
  | nil => rfl
  | cons first rest inductionHypothesis =>
    rw [firstFault, firstMismatch_eq_none (same first List.mem_cons_self)]
    exact inductionHypothesis (fun tensor present => same tensor (List.mem_cons_of_mem _ present)) _

/-- A call of an operation that moves elements passes if its destination holds the initial value
wherever it is to be checked. -/
theorem check_eq_ok [Halves] {call : Call} {type : ElementType}
    (isNumber : (type.cast checker.initial).isNaN = false)
    (moves : call.operation.isReduction = false)
    (holds : shouldCheck call rank →
      (∀ tensor ∈ call.buffers.destination.tensors, tensor.type = type) ∧
        call.buffers.destination.Holds (type.encode checker.initial))
    (worldSize sizeBytes : Nat) : checker.check call rank worldSize sizeBytes = .ok () := by
  have plain : isReduced call.operation rank call.root = false := by
    cases same : call.operation <;> simp_all [Operation.isReduction, isReduced]
  have expected (type : ElementType) :
      checker.expected call.operation type rank call.root worldSize = checker.initial := by
    simp [Checker.expected, plain]
  rw [check]
  by_cases needed : shouldCheck call rank
  · obtain ⟨types, words⟩ := holds needed
    rw [if_pos needed]
    cases tensors : call.buffers.destination.tensors with
    | nil => rfl
    | cons first rest =>
      rw [tensors] at types
      have same : ∀ tensor ∈ first :: rest, ∀ value ∈ tensor.values,
          value.beq (type.cast checker.initial) := by
        intro tensor present value listed
        obtain ⟨word, stored, rfl⟩ := List.mem_map.mp listed
        rw [types tensor present, words tensor (tensors ▸ present) word stored]
        exact Scalar.beq_self _ isNumber
      simp only [expected, types first List.mem_cons_self, firstFault_eq_none same]
  · rw [if_neg needed]

/-- Whatever comes back from a round whose senders sent the initial value passes. -/
theorem givesOnly_check [Halves] {call : Call} {all : List Contribution} {type : ElementType}
    (isNumber : (type.cast checker.initial).isNaN = false)
    (moves : call.operation.isReduction = false)
    (sent : ∀ sender contribution, all[sender]? = some contribution →
      (onlyRootSends call.operation → sender = call.root) →
        contribution.input.Holds (type.encode checker.initial))
    (paired : call.operation = .pt2pt → call.sources.length = call.destinations.length)
    (types : ∀ tensor ∈ call.buffers.destination.tensors, tensor.type = type)
    (served : call.Served rank →
      call.buffers.destination.Holds (type.encode checker.initial))
    (worldSize sizeBytes : Nat) :
    GivesOnly (deliver call rank all) (checker.check · rank worldSize sizeBytes = .ok ()) := by
  intro returned delivered
  obtain ⟨⟨destination, same⟩, holds⟩ :=
    givesOnly_deliver moves sent paired types served returned delivered
  have operation : returned.operation = call.operation := deliver_operation delivered
  have needed : shouldCheck returned rank = shouldCheck call rank := by
    rw [shouldCheck, shouldCheck, operation, same]
  exact check_eq_ok isNumber (operation ▸ moves) (needed ▸ holds) worldSize sizeBytes

end Checker

/-! ## What a plan allocates -/

/-- All tensors that a plan allocates are of its type. -/
theorem Plan.types_allocate [Halves] (plan : Plan) (params : Params) (device : Device) :
    (∀ tensor ∈ (plan.allocate params device).1.input.tensors, tensor.type = plan.type) ∧
      ∀ tensor ∈ (plan.allocate params device).1.destination.tensors, tensor.type = plan.type := by
  cases chosen : plan.layout with
  | none =>
    have nothing : (plan.allocate params device).1 = plan.unallocated := by rw [allocate, chosen]
    have empty : plan.unallocated.destination = .empty := by
      simp [Buffers.destination, unallocated, chosen]
    have vacuous : ∀ tensor ∈ Staged.empty.tensors, tensor.type = plan.type := by
      simp [Staged.empty, Staged.tensors]
    rw [nothing, empty]
    exact ⟨vacuous, vacuous⟩
  | some layout =>
    have fits := plan.fits_allocate chosen params device
    exact ⟨fits.input.types, fits.destination.types⟩

/-- Where the layout has no output, none is allocated. -/
theorem Plan.output_allocate [Halves] {plan : Plan} {layout : Layout}
    (chosen : plan.layout = some layout)
    (inPlace : layout.output = none) (params : Params) (device : Device) :
    (plan.allocate params device).1.output = none := by
  have related := (plan.fits_allocate chosen params device).output
  rw [inPlace] at related
  generalize (plan.allocate params device).1.output = output at related ⊢
  cases related
  rfl

end CollectiveBench
