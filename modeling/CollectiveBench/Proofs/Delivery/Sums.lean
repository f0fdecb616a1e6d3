import CollectiveBench.Proofs.Checking
import CollectiveBench.Proofs.Numeric.Ones

/-!
# Sums of what all ranks contribute

If every rank contributes ones, a sum over all of them consists of one word, the one that the type
adds so many ones up to (`givesOnly_summed`). A result that consists of one word passes the check
if that word reads as the number that is expected, so whether a sum passes depends on the type and
the number of ranks only.
-/

namespace CollectiveBench

/-- All elements are one word of a type. -/
def Tensor.IsUniform (type : ElementType) (word : Nat) (tensor : Tensor) : Prop :=
  tensor.type = type ∧ tensor.Holds word

variable {type : ElementType} {word other : Nat}

/-! ## Reducing -/

/-- The tensor of a buffer for one is among its tensors. -/
theorem Staged.givesOnly_single_mem (staged : Staged) (name : String) :
    GivesOnly (staged.expectSingle name) (· ∈ staged.tensors) := by
  cases staged with
  | single tensor => exact givesOnly_ok (List.mem_singleton_self tensor)
  | list tensors => exact givesOnly_error _

/-- The tensor at a place of a list is among the tensors of the list. -/
theorem Staged.givesOnly_part_mem (staged : Staged) (name : String) (place : Nat) :
    GivesOnly (staged.part name place) (· ∈ staged.tensors) := by
  cases staged with
  | single tensor => exact givesOnly_error _
  | list tensors =>
    rw [Staged.part]
    cases found : tensors[place]? with
    | none => exact givesOnly_error _
    | some tensor => exact givesOnly_ok (List.mem_of_getElem? found)

/-- What is cut out of a uniform tensor is uniform. -/
theorem Tensor.IsUniform.givesOnly_slice {tensor : Tensor} (uniform : tensor.IsUniform type word)
    (start length : Nat) : GivesOnly (tensor.slice start length) (·.IsUniform type word) := by
  intro part cut
  refine ⟨?_, uniform.2.givesOnly_slice start length part cut⟩
  obtain ⟨-, rfl⟩ := slice_eq_ok_iff.mp cut
  exact uniform.1

/-- Uniform tensors are reduced to a uniform one, whose word is reduced from theirs. -/
theorem Tensor.IsUniform.givesOnly_reduceWith {tensor source : Tensor}
    (uniform : tensor.IsUniform type word) (same : source.IsUniform type other)
    (reduction : Reduction) :
    GivesOnly (tensor.reduceWith source reduction)
      (·.IsUniform type (type.combine reduction word other)) := by
  intro reduced succeeds
  obtain ⟨_, _, result⟩ := bind_eq_ok succeeds
  obtain rfl := Except.ok.inj result
  refine ⟨uniform.1, fun made present => ?_⟩
  rw [← List.map_uncurry_zip_eq_zipWith] at present
  obtain ⟨⟨left, right⟩, paired, rfl⟩ := List.mem_map.mp present
  obtain ⟨leftPresent, rightPresent⟩ := List.of_mem_zip paired
  rw [Function.uncurry_apply_pair, uniform.1, uniform.2 left leftPresent,
    same.2 right rightPresent]

/-- Ones that are summed from left to right are the sum of as many ones. -/
theorem givesOnly_reduceAll {α : Type} {fetch : α → Outcome Tensor} {entries : List α}
    (fetched : ∀ entry ∈ entries,
      GivesOnly (fetch entry) (·.IsUniform type (type.encode .one))) :
    GivesOnly (reduceAll fetch .sum entries)
      (·.IsUniform type (type.onePlus (entries.length - 1))) := by
  cases entries with
  | nil => exact givesOnly_error _
  | cons first rest =>
    have fold (entries : List α) (within : ∀ entry ∈ entries, entry ∈ first :: rest) (more : Nat)
        (sum : Tensor) (summed : sum.IsUniform type (type.onePlus more)) :
        GivesOnly (entries.foldlM
          (fun total next => do total.reduceWith (← fetch next) .sum) sum)
          (·.IsUniform type (type.onePlus (more + entries.length))) := by
      induction entries generalizing more sum with
      | nil => exact givesOnly_ok summed
      | cons next others inductionHypothesis =>
        rw [List.foldlM_cons, List.length_cons, Nat.add_comm others.length, ← Nat.add_assoc]
        have here := fetched next (within next List.mem_cons_self)
        refine (here.bind fun source same => summed.givesOnly_reduceWith same .sum).bind ?_
        intro sum summed
        exact inductionHypothesis
          (fun entry present => within entry (List.mem_cons_of_mem _ present)) (more + 1) sum summed
    refine (fetched first List.mem_cons_self).bind fun start one => ?_
    rw [List.length_cons, Nat.add_sub_cancel, ← Nat.zero_add rest.length]
    exact fold rest (fun entry => List.mem_cons_of_mem _) 0 start one

/-! ## What is received -/

/-- Where every rank contributes ones, a sum gives its recipients the sum of as many ones; only a
rank that a reduction does not end at receives nothing. -/
theorem givesOnly_summed {call : Call} {me : Nat} {all : List Contribution}
    (reduces : call.operation.isReduction) (sum : call.reduction = .sum)
    (ones : ∀ contribution ∈ all, ∀ tensor ∈ contribution.input.tensors,
      tensor.IsUniform type (type.encode .one)) :
    GivesOnly (payload call me all) fun received =>
      received = .nothing ∧ call.operation = .reduce ∧ me ≠ call.root ∨
        ∃ tensor, received = .one tensor ∧
          tensor.IsUniform type (type.onePlus (all.length - 1)) ∧
            (call.operation = .reduce → me = call.root) := by
  have single (name : String) (contribution : Contribution) (present : contribution ∈ all) :
      GivesOnly (contribution.input.expectSingle name)
        (·.IsUniform type (type.encode .one)) := fun tensor fetched =>
    ones contribution present tensor (contribution.input.givesOnly_single_mem name tensor fetched)
  have part (name : String) (contribution : Contribution) (present : contribution ∈ all) :
      GivesOnly (contribution.input.part name me)
        (·.IsUniform type (type.encode .one)) := fun tensor fetched =>
    ones contribution present tensor (contribution.input.givesOnly_part_mem name me tensor fetched)
  cases operation : call.operation <;> rw [operation] at reduces <;>
    try exact absurd reduces (by decide)
  all_goals simp only [payload, operation, sum]
  case allReduce =>
    exact (givesOnly_reduceAll (single _)).bind fun tensor summed =>
      givesOnly_ok (.inr ⟨tensor, rfl, summed, by simp⟩)
  case reduce =>
    split
    next root =>
      exact (givesOnly_reduceAll (single _)).bind fun tensor summed =>
        givesOnly_ok (.inr ⟨tensor, rfl, summed, fun _ => root⟩)
    next apart => exact givesOnly_ok (.inl ⟨rfl, trivial, apart⟩)
  case reduceScatter =>
    exact (givesOnly_reduceAll (part _)).bind fun tensor summed =>
      givesOnly_ok (.inr ⟨tensor, rfl, summed, by simp⟩)
  case reduceScatterBase =>
    refine (call.buffers.destination.givesOnly_single_mem _).bind fun destination _ => ?_
    refine (givesOnly_mapM fun contribution present =>
      (single _ contribution present).bind fun tensor one =>
        one.givesOnly_slice _ _).bind fun parts each => ?_
    rw [← each.1]
    exact (givesOnly_reduceAll fun part present => givesOnly_ok (each.2 part present)).bind
      fun tensor summed => givesOnly_ok (.inr ⟨tensor, rfl, summed, by simp⟩)

/-! ## Checking -/

namespace Checker

open Numeric

/-- There is no mismatch exactly if all values are the expected one. -/
theorem firstMismatch_eq_none_iff {expected : Scalar} {values : List Scalar} (start : Nat) :
    firstMismatch expected start values = none ↔ ∀ value ∈ values, value.beq expected := by
  refine ⟨fun nothing => ?_, fun same => firstMismatch_eq_none same start⟩
  induction values generalizing start with
  | nil => simp
  | cons first rest inductionHypothesis =>
    rw [firstMismatch] at nothing
    split at nothing
    next here => exact List.forall_mem_cons.mpr ⟨here, inductionHypothesis (start + 1) nothing⟩
    next => cases nothing

/-- There is no fault exactly if the values of all tensors are the expected one. -/
theorem firstFault_eq_none_iff {expected : Scalar} {tensors : List Tensor} (start : Nat) :
    firstFault expected start tensors = none ↔
      ∀ tensor ∈ tensors, ∀ value ∈ tensor.values, value.beq expected := by
  refine ⟨fun nothing => ?_, fun same => firstFault_eq_none same start⟩
  induction tensors generalizing start with
  | nil => simp
  | cons first rest inductionHypothesis =>
    rw [firstFault] at nothing
    split at nothing
    next => cases nothing
    next here =>
      exact List.forall_mem_cons.mpr ⟨(firstMismatch_eq_none_iff 0).mp here,
        inductionHypothesis (start + 1) nothing⟩

/-- A destination that consists of one word passes if that word reads as what is expected, or if
there is nothing to be checked. -/
theorem check_holds_iff [Halves] {checker : Checker} {call : Call}
    (types : ∀ tensor ∈ call.buffers.destination.tensors, tensor.type = type)
    (holds : call.buffers.destination.Holds word) (rank worldSize sizeBytes : Nat) :
    checker.check call rank worldSize sizeBytes = .ok () ↔
      shouldCheck call rank = false ∨
        (∀ tensor ∈ call.buffers.destination.tensors, tensor.count = 0) ∨ (type.decode word).beq
          (type.cast (checker.expected call.operation type rank call.root worldSize)) := by
  have passes (expected : Scalar) : (∀ tensor ∈ call.buffers.destination.tensors,
      ∀ value ∈ tensor.values, value.beq expected) ↔
      (∀ tensor ∈ call.buffers.destination.tensors, tensor.count = 0) ∨
        (type.decode word).beq expected := by
    constructor
    · intro same
      by_cases empty : ∀ tensor ∈ call.buffers.destination.tensors, tensor.count = 0
      · exact .inl empty
      · simp only [not_forall] at empty
        obtain ⟨tensor, present, some⟩ := empty
        obtain ⟨element, stored⟩ := List.exists_mem_of_length_pos (Nat.pos_of_ne_zero some)
        have read := same tensor present _ (List.mem_map_of_mem stored)
        rw [types tensor present, holds tensor present element stored] at read
        exact .inr read
    · rintro (empty | same) tensor present value listed
      · obtain ⟨element, stored, _⟩ := List.mem_map.mp listed
        rw [List.eq_nil_of_length_eq_zero (empty tensor present)] at stored
        cases stored
      · obtain ⟨element, stored, rfl⟩ := List.mem_map.mp listed
        rwa [types tensor present, holds tensor present element stored]
  rw [check]
  cases needed : shouldCheck call rank with
  | false => simp
  | true =>
    cases tensors : call.buffers.destination.tensors with
    | nil => simp
    | cons first rest =>
      rw [← tensors, ← passes, ← firstFault_eq_none_iff 0,
        ← types first (tensors ▸ List.mem_cons_self), tensors]
      simp only [if_true]
      cases firstFault _ 0 (first :: rest) <;> simp

/-- A result that consists of one word passes if that word reads as what is expected, or if there
is nothing to be checked. -/
theorem check_uniform_iff [Halves] {checker : Checker} {call : Call} {tensor : Tensor}
    (destination : call.buffers.destination = .single tensor) (uniform : tensor.IsUniform type word)
    (rank worldSize sizeBytes : Nat) :
    checker.check call rank worldSize sizeBytes = .ok () ↔
      shouldCheck call rank = false ∨ tensor.count = 0 ∨ (type.decode word).beq
        (type.cast (checker.expected call.operation type rank call.root worldSize)) := by
  have single : call.buffers.destination.tensors = [tensor] := by rw [destination]; rfl
  have types : ∀ other ∈ call.buffers.destination.tensors, other.type = type := by
    simpa [single] using uniform.1
  have holds : call.buffers.destination.Holds word := by
    simpa [Staged.Holds, single] using uniform.2
  rw [check_holds_iff types holds, single, List.forall_mem_singleton]

end Checker

end CollectiveBench
