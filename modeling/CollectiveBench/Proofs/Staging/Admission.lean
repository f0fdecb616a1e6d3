import CollectiveBench.Proofs.Operation
import CollectiveBench.Proofs.Staging.Builds

/-!
# What staging admits

Staging decides everything before it allocates. A descriptor is admitted exactly if its name stands
for a supported operation and, unless that only synchronises, its group has members and its counts
can be divided among them as the operation asks (`Plan.exists_make_iff`). A refused descriptor
leaves the device as it was; an admitted one is counted tensor by tensor.
-/

namespace CollectiveBench

/-! ## Counts -/

/-- What one side of an uneven exchange asks of its count: a given split has an entry for each
member and adds up to the count, and without one the count can be divided evenly. -/
def Apportions (size count : Nat) : Option (List Nat) → Prop
  | some split => split.length = size ∧ total split = count
  | none => size ∣ count

/-- What an operation asks of the element counts of a member of a group. -/
def Operation.CanDivide (operation : Operation) (inCount outCount size : Nat)
    (inSplit outSplit : Option (List Nat)) : Prop :=
  match operation with
  | .gather | .allGather | .allGatherBase => size ∣ inCount
  | .scatter | .reduceScatter | .reduceScatterBase => size ∣ outCount
  | .allToAll => size ∣ inCount ∧ size ∣ outCount
  | .allToAllv => Apportions size inCount inSplit ∧ Apportions size outCount outSplit
  | _ => True

variable {operation : Operation} {count inCount outCount size : Nat}
  {split inSplit outSplit : Option (List Nat)}

/-- A count passes exactly if the ranks can divide it evenly. -/
theorem checkDivisible_eq_ok_iff :
    checkDivisible operation count size = .ok () ↔ size ∣ count := by
  rw [checkDivisible, Nat.dvd_iff_mod_eq_zero]
  split <;> simp_all

/-- A count passes exactly if the split, or an even one, apportions it. -/
theorem checkSplits_eq_ok_iff :
    checkSplits operation split count size = .ok () ↔ Apportions size count split := by
  cases split with
  | none => exact checkDivisible_eq_ok_iff
  | some lengths =>
    rw [checkSplits_exact, Apportions]
    split <;> simp_all

/-- One check after the other passes where both do. -/
theorem andThen_eq_ok_iff {first second : Outcome Unit} :
    (do first; second) = .ok () ↔ first = .ok () ∧ second = .ok () := by
  constructor
  · intro passed
    obtain ⟨⟨⟩, here, rest⟩ := bind_eq_ok passed
    exact ⟨here, rest⟩
  · rintro ⟨rfl, rfl⟩
    rfl

/-- The counts are in order exactly if the operation can divide them. -/
theorem checkCounts_eq_ok_iff :
    checkCounts operation inCount outCount size inSplit outSplit = .ok () ↔
      operation.CanDivide inCount outCount size inSplit outSplit := by
  cases operation
  case allToAllv =>
    exact andThen_eq_ok_iff.trans (and_congr checkSplits_eq_ok_iff checkSplits_eq_ok_iff)
  case allToAll =>
    exact andThen_eq_ok_iff.trans (and_congr checkDivisible_eq_ok_iff checkDivisible_eq_ok_iff)
  case gather | allGather | allGatherBase => exact checkDivisible_eq_ok_iff
  case scatter | reduceScatter | reduceScatterBase => exact checkDivisible_eq_ok_iff
  all_goals simp [checkCounts, Operation.CanDivide]

/-- Whether an operation can divide the counts is what staging checks. -/
instance : Decidable (operation.CanDivide inCount outCount size inSplit outSplit) :=
  decidable_of_iff _ checkCounts_eq_ok_iff

/-! ## Plans -/

/-- A group has a size exactly if it is known, and then the number of its members. -/
theorem World.groupSize_eq_ok_iff {world : World} {group : Nat} :
    world.groupSize group = .ok size ↔
      ∃ ranks, world.groups[group]? = some ranks ∧ ranks.length = size := by
  rw [groupSize, World.group]
  cases world.groups[group]? <;> simp [Except.map]

section

variable {supported : List Operation} {world : World} {params : Params} {descriptor : Descriptor}

/-- A descriptor can be planned exactly if its name stands for a supported operation and, unless
that is a barrier or a wait, its group is known and has members among whom the operation can divide
the counts. -/
theorem Plan.exists_make_iff :
    (∃ plan, make supported world params descriptor = .ok plan) ↔
      ∃ operation, Operation.ofName? (nameOf params descriptor) = some operation ∧
        operation ∈ supported ∧
        ((operation = .barrier ∨ operation = .wait) ∨
          ∃ ranks, world.groups[descriptor.group.getD World.defaultGroup]? = some ranks ∧
            ranks ≠ [] ∧ operation.CanDivide descriptor.inElements descriptor.outElements
              ranks.length (descriptor.inSplit <|> params.inSplit)
              (descriptor.outSplit <|> params.outSplit)) := by
  have synchronising (operation : Operation) :
      operation.isSyncOnly = true ↔ operation = .barrier ∨ operation = .wait := by
    cases operation <;> simp [Operation.isSyncOnly]
  simp only [make_eq_ok_iff, checkCounts_eq_ok_iff, Operation.resolve_eq_ok_iff,
    World.groupSize_eq_ok_iff]
  constructor
  · rintro ⟨plan, operation, ⟨named, listed⟩, ⟨synchronises, _⟩ |
      ⟨_, _, ⟨ranks, known, rfl⟩, inhabited, divides, _⟩⟩
    · exact ⟨operation, named, listed, .inl ((synchronising operation).mp synchronises)⟩
    · exact ⟨operation, named, listed,
        .inr ⟨ranks, known, fun empty => inhabited (by rw [empty]; rfl), divides⟩⟩
  · rintro ⟨operation, named, listed, admitted⟩
    cases synchronises : operation.isSyncOnly with
    | true => exact ⟨_, operation, ⟨named, listed⟩, .inl ⟨synchronises, rfl⟩⟩
    | false =>
      rcases admitted with still | ⟨ranks, known, inhabited, divides⟩
      · rw [(synchronising operation).mpr still] at synchronises
        cases synchronises
      · exact ⟨_, operation, ⟨named, listed⟩, .inr ⟨synchronises, ranks.length, ⟨ranks, known, rfl⟩,
          fun empty => inhabited (List.eq_nil_of_length_eq_zero empty), divides, rfl⟩⟩

/-! ## Tensors -/

/-- All tensors of buffers. -/
def Buffers.tensors (buffers : Buffers) : List Tensor :=
  buffers.input.tensors ++ (buffers.output.map Staged.tensors).getD []

namespace Device

variable (device : Device) (filling : Filling) (type : ElementType)

/-- A new tensor counts as one. -/
@[simp] theorem allocations_filled [Halves] (count : Nat) :
    (device.filled filling type count).2.allocations = device.allocations + 1 := by
  cases filling <;> rfl

/-- Each tensor of a list is counted. -/
theorem allocations_filledList [Halves] (count parts : Nat) :
    (filledList filling type count parts device).2.allocations =
      device.allocations + (filledList filling type count parts device).1.length := by
  induction parts generalizing device with
  | zero => rfl
  | succ parts inductionHypothesis =>
    simp only [filledList, List.length_cons, inductionHypothesis, allocations_filled]
    omega

/-- The tensors of a buffer are counted. -/
theorem allocations_allocate [Halves] (extent : Extent) :
    (device.allocate filling type extent).2.allocations =
      device.allocations + (device.allocate filling type extent).1.tensors.length := by
  cases extent with
  | single count => exact device.allocations_filled filling type count
  | list parts count => exact device.allocations_filledList filling type count parts

end Device

/-- The tensors that a plan allocates are counted, those of the input and those of the output. -/
theorem Plan.allocations_allocate [Halves] (plan : Plan) (params : Params) (device : Device) :
    (plan.allocate params device).2.allocations =
      device.allocations + (plan.allocate params device).1.tensors.length := by
  rw [allocate]
  cases chosen : plan.layout with
  | none => simp [Buffers.tensors, unallocated, chosen, Staged.empty, Staged.tensors]
  | some layout =>
    have input := device.allocations_allocate (plan.inputFilling params) plan.type layout.input
    cases room : layout.output with
    | none => simpa [Buffers.tensors, unallocated, chosen, room] using input
    | some extent =>
      simp only [room, Buffers.tensors, Option.map_some, Option.getD_some, List.length_append,
        Device.allocations_allocate]
      omega

/-- Without allocation there are no tensors. -/
theorem Plan.tensors_unallocated (plan : Plan) : plan.unallocated.tensors = [] := by
  cases output : plan.layout.bind Layout.output <;>
    simp [Buffers.tensors, unallocated, output, Staged.empty, Staged.tensors]

/-! ## Staging -/

/-- Staging succeeds where planning does. -/
theorem exists_stage_iff [Halves] {allocate : Bool} {device : Device} :
    (∃ buffers, (stage supported world params descriptor allocate device).1 = .ok buffers) ↔
      ∃ plan, Plan.make supported world params descriptor = .ok plan := by
  rw [stage_exact]
  cases Plan.make supported world params descriptor with
  | error error => simp
  | ok plan => cases allocate <;> simp

/-- A refused descriptor leaves the device as it was. -/
theorem stage_refused [Halves] {allocate : Bool} {device : Device} {error : Error}
    (refused : (stage supported world params descriptor allocate device).1 = .error error) :
    (stage supported world params descriptor allocate device).2 = device := by
  rw [stage_exact] at refused ⊢
  cases made : Plan.make supported world params descriptor with
  | error error => rfl
  | ok plan => cases allocate <;> simp [made] at refused

/-- Staged tensors are counted. -/
theorem allocations_stage [Halves] {device : Device} {buffers : Buffers}
    (staged : (stage supported world params descriptor true device).1 = .ok buffers) :
    (stage supported world params descriptor true device).2.allocations =
      device.allocations + buffers.tensors.length := by
  obtain ⟨plan, made, rfl⟩ := stage_eq_ok staged
  rw [stage_exact, made]
  exact plan.allocations_allocate params device

/-- Staging without allocation gives no tensors and leaves the device as it was. -/
theorem stage_unallocated [Halves] {device : Device} {buffers : Buffers}
    (staged : (stage supported world params descriptor false device).1 = .ok buffers) :
    buffers.tensors = [] ∧
      (stage supported world params descriptor false device).2 = device := by
  rw [stage_exact] at staged ⊢
  cases made : Plan.make supported world params descriptor with
  | error error => simp [made] at staged
  | ok plan =>
    obtain rfl : plan.unallocated = buffers := by simpa [made] using staged
    exact ⟨plan.tensors_unallocated, rfl⟩

/-- Staging is all or nothing. It succeeds exactly if the name of the descriptor, or else the first
of the parameters, stands for a supported operation, and this is a barrier or a wait or the group
is known and has members among whom the operation can divide the counts. If it is refused, the
device is as it was. If it succeeds, the device has counted as many tensors as the buffers have;
without allocation there are none, and the device is as it was. This holds in every build that holds
the sums of the splits and has room for the tensors. -/
theorem stage_all_or_nothing [Arithmetic] [Halves] (supported : List Operation) (world : World)
    (params : Params) (descriptor : Descriptor) (allocate : Bool) (device : Device)
    (summed : descriptor.Summed supported params)
    (room : allocate = true → Arithmetic.Allots (max descriptor.inElements descriptor.outElements)
      (descriptor.type.getD params.type).size) :
    ((∃ buffers, (stage supported world params descriptor allocate device).1 = .ok buffers) ↔
      ∃ operation,
        Operation.ofName? (descriptor.name.getD (params.collectives.head?.getD "")) =
          some operation ∧ operation ∈ supported ∧
        ((operation = .barrier ∨ operation = .wait) ∨
          ∃ ranks, world.groups[descriptor.group.getD World.defaultGroup]? = some ranks ∧
            ranks ≠ [] ∧ operation.CanDivide descriptor.inElements descriptor.outElements
              ranks.length (descriptor.inSplit <|> params.inSplit)
              (descriptor.outSplit <|> params.outSplit))) ∧
    (∀ error, (stage supported world params descriptor allocate device).1 = .error error →
      (stage supported world params descriptor allocate device).2 = device) ∧
    ∀ buffers, (stage supported world params descriptor allocate device).1 = .ok buffers →
      (stage supported world params descriptor allocate device).2.allocations =
        device.allocations + buffers.tensors.length ∧
      (allocate = false → buffers.tensors = [] ∧
        (stage supported world params descriptor allocate device).2 = device) := by
  simp only [stage_of_holds summed room]
  refine ⟨exists_stage_iff.trans Plan.exists_make_iff, fun error => stage_refused, ?_⟩
  intro buffers staged
  cases allocate with
  | true => exact ⟨allocations_stage staged, fun without => by cases without⟩
  | false =>
    obtain ⟨none, untouched⟩ := stage_unallocated staged
    exact ⟨by rw [untouched, none]; rfl, fun _ => ⟨none, untouched⟩⟩

/-- In a build that goes on with lower bits, two ranks exchange four elements, of which the first
keeps one. The split of the descriptor goes before that of the parameters, which does not fit, and
the elements received are divided evenly. The device counts the two tensors. -/
theorem stage_uneven_counts :
    let world := World.create 2 [] 1000
    let params : Params := { inSplit := some [4] }
    let descriptor := { Descriptor.of "all_to_allv" 4 4 .i32 with inSplit := some [1, 3] }
    let staged := @stage .wrapping .nearest Operation.all world params descriptor true (.create 0 0)
    ∃ buffers, staged.1 = .ok buffers ∧ buffers.inSplit = some [1, 3] ∧
      staged.2.allocations = 0 + 2 := by
  intro world params descriptor staged
  have summed : @Descriptor.Summed .wrapping Operation.all params descriptor := by
    refine @Descriptor.Summed.mk .wrapping _ _ _ ?_ fun _ _ => nofun
    rintro _ _ ⟨⟩
    exact .inr (by decide)
  obtain ⟨admitted, -, counted⟩ :=
    @stage_all_or_nothing .wrapping .nearest Operation.all world params
    descriptor true (.create 0 0) summed fun _ => .inr (by decide)
  obtain ⟨buffers, success⟩ := admitted.mpr
    ⟨.allToAllv, by decide, by decide, .inr ⟨[0, 1], rfl, by decide, by decide⟩⟩
  have same : buffers = (staged.1.toOption.getD { operation := .noop }) := by
    rw [show staged.1 = .ok buffers from success]
    rfl
  refine ⟨buffers, success, ?_, (counted buffers success).1.trans ?_⟩
  · rw [same]
    decide +kernel
  · rw [same]
    decide +kernel

/-- A split that does not add up is refused in every build, also where the count could have been
divided evenly. -/
theorem divisible_count_refused :
    let world := World.create 2 [] 1000
    let descriptor := { Descriptor.of "all_to_allv" 4 4 .i32 with inSplit := some [1, 2] }
    Operation.ofName? "all_to_allv" = some .allToAllv ∧ .allToAllv ∈ Operation.all ∧
      world.groups[World.defaultGroup]? = some [0, 1] ∧
      [0, 1].length ∣ descriptor.inElements ∧ [0, 1].length ∣ descriptor.outElements ∧
      (@stage .checked .nearest Operation.all world {} descriptor true (.create 0 0)).1 =
        .error (.splitMismatch "all_to_allv" [1, 2] 4 2) ∧
      (@stage .wrapping .nearest Operation.all world {} descriptor true (.create 0 0)).1 =
        .error (.splitMismatch "all_to_allv" [1, 2] 4 2) := by
  decide +kernel

end

end CollectiveBench
