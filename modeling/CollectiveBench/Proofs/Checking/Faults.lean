import CollectiveBench.Proofs.Delivery.Sums

/-!
# What a check reports

A check compares the elements of a destination with the expected value, tensor by tensor and from
the first element of each on, and stops at the first one that differs. It passes only where no
element of any tensor does, since a tensor without a fault, an empty one for instance, sends it on
to the next. So there is an error exactly if some element differs, and it tells of the first one
(`first_fault_reported`).
-/

namespace CollectiveBench

namespace Checker

open Numeric

variable {expected actual : Scalar} {start place index : Nat}

/-- The value stands at a place of a list and differs from what is expected, as none before it
does. -/
structure IsFirstMismatch (expected : Scalar) (values : List Scalar) (index : Nat)
    (actual : Scalar) : Prop where
  here : values[index]? = some actual
  differs : actual.beq expected = false
  before : ∀ earlier < index, ∀ value ∈ values[earlier]?, value.beq expected

/-- The value is the first one of a tensor that differs from what is expected, and all tensors
before that one hold nothing else than is expected. -/
structure IsFirstFault (expected : Scalar) (tensors : List Tensor) (place index : Nat)
    (actual : Scalar) : Prop where
  here : ∃ tensor ∈ tensors[place]?, IsFirstMismatch expected tensor.values index actual
  before : ∀ earlier < place, ∀ tensor ∈ tensors[earlier]?,
    ∀ value ∈ tensor.values, value.beq expected

/-- A list has one first value that differs. -/
theorem IsFirstMismatch.unique {values : List Scalar} {other : Nat} {another : Scalar}
    (first : IsFirstMismatch expected values index actual)
    (same : IsFirstMismatch expected values other another) : index = other ∧ actual = another := by
  rcases Nat.lt_trichotomy index other with before | rfl | behind
  · exact absurd (same.before index before actual first.here) (Bool.eq_false_iff.mp first.differs)
  · exact ⟨rfl, Option.some.inj (first.here.symm.trans same.here)⟩
  · exact absurd (first.before other behind another same.here) (Bool.eq_false_iff.mp same.differs)

/-- A faulty tensor does not stand before a fault that is the first one. -/
theorem IsFirstFault.not_before {tensors : List Tensor} {earlier other : Nat} {another : Scalar}
    (first : IsFirstFault expected tensors place index actual)
    (same : IsFirstFault expected tensors earlier other another) : place ≤ earlier := by
  refine Nat.not_lt.mp fun before => ?_
  obtain ⟨tensor, there, mismatch⟩ := same.here
  have listed : another ∈ tensor.values := List.mem_of_getElem? mismatch.here
  exact absurd (first.before earlier before tensor there another listed)
    (Bool.eq_false_iff.mp mismatch.differs)

/-- Several tensors have one first fault. -/
theorem IsFirstFault.unique {tensors : List Tensor} {further other : Nat} {another : Scalar}
    (first : IsFirstFault expected tensors place index actual)
    (same : IsFirstFault expected tensors further other another) :
    place = further ∧ index = other ∧ actual = another := by
  obtain rfl := Nat.le_antisymm (first.not_before same) (same.not_before first)
  obtain ⟨tensor, there, mismatch⟩ := first.here
  obtain ⟨found, thereToo, mismatchToo⟩ := same.here
  obtain rfl := Option.some.inj (there.symm.trans thereToo)
  exact ⟨rfl, mismatch.unique mismatchToo⟩

/-- What a search through a list finds is the first value that differs. Its place is counted from
where the search started. -/
theorem firstMismatch_eq_some {values : List Scalar}
    (found : firstMismatch expected start values = some (place, actual)) :
    ∃ index, place = start + index ∧ IsFirstMismatch expected values index actual := by
  induction values generalizing start with
  | nil => cases found
  | cons first rest inductionHypothesis =>
    rw [firstMismatch] at found
    split at found
    next same =>
      obtain ⟨index, rfl, mismatch⟩ := inductionHypothesis found
      refine ⟨index + 1, by omega, mismatch.here, mismatch.differs, fun earlier reached => ?_⟩
      cases earlier with
      | zero =>
        rintro value ⟨⟩
        exact same
      | succ earlier => exact mismatch.before earlier (Nat.lt_of_succ_lt_succ reached)
    next other =>
      obtain ⟨rfl, rfl⟩ := Prod.mk.inj (Option.some.inj found)
      refine ⟨0, rfl, rfl, Bool.eq_false_iff.mpr other, fun earlier reached => ?_⟩
      exact absurd reached (Nat.not_lt_zero earlier)

/-- What a search through several tensors finds is the first value that differs, in the order of the
tensors and of the values in each. -/
theorem firstFault_eq_some {tensors : List Tensor}
    (found : firstFault expected start tensors = some (place, index, actual)) :
    ∃ further, place = start + further ∧ IsFirstFault expected tensors further index actual := by
  induction tensors generalizing start with
  | nil => cases found
  | cons first rest inductionHypothesis =>
    rw [firstFault] at found
    split at found
    next mismatched =>
      obtain ⟨rfl, same⟩ := Prod.mk.inj (Option.some.inj found)
      obtain ⟨rfl, rfl⟩ := Prod.mk.inj same
      obtain ⟨index, rfl, mismatch⟩ := firstMismatch_eq_some mismatched
      rw [Nat.zero_add]
      refine ⟨0, rfl, ⟨first, rfl, mismatch⟩, fun earlier reached => ?_⟩
      exact absurd reached (Nat.not_lt_zero earlier)
    next nothing =>
      obtain ⟨further, rfl, fault⟩ := inductionHypothesis found
      refine ⟨further + 1, by omega, fault.here, fun earlier reached => ?_⟩
      cases earlier with
      | zero =>
        rintro tensor ⟨⟩
        exact (firstMismatch_eq_none_iff 0).mp nothing
      | succ earlier => exact fault.before earlier (Nat.lt_of_succ_lt_succ reached)

/-- A search through several tensors finds something if there is something to be found. -/
theorem exists_firstFault_iff {tensors : List Tensor} (start : Nat) :
    (∃ fault, firstFault expected start tensors = some fault) ↔
      ∃ tensor ∈ tensors, ∃ value ∈ tensor.values, value.beq expected = false := by
  rw [← Option.isSome_iff_exists, ← Option.ne_none_iff_isSome, Ne, firstFault_eq_none_iff]
  simp only [not_forall, Bool.not_eq_true, exists_prop]

/-- The place of an element is written with the number of its tensor only in a list. -/
theorem location_eq (inList : Bool) (tensor index : Nat) : location inList tensor index =
    if inList then "[" ++ toString tensor ++ "][" ++ toString index ++ "]"
      else "[" ++ toString index ++ "]" := by
  cases inList with
  | false => simp [location]
  | true =>
    have joint : "][" = "]" ++ "[" := rfl
    simp only [location, if_true, joint, String.append_assoc]

/-- A check fails with what the search through its tensors finds. -/
theorem check_eq_error_iff [Halves] (checker : Checker) (call : Call)
    (rank worldSize sizeBytes : Nat)
    (error : Error) :
    checker.check call rank worldSize sizeBytes = .error error ↔
      shouldCheck call rank ∧ ∃ first ∈ call.buffers.destination.tensors.head?,
        let expected := first.type.cast
          (checker.expected call.operation first.type rank call.root worldSize)
        ∃ fault, firstFault expected 0 call.buffers.destination.tensors = some fault ∧
          error = .validationFailed sizeBytes call.operation.name
            (location call.buffers.destination.isList fault.1 fault.2.1) fault.2.2 expected := by
  rw [check]
  cases needed : shouldCheck call rank with
  | false => simp
  | true =>
    cases tensors : call.buffers.destination.tensors with
    | nil => simp
    | cons first rest =>
      simp only [if_true, List.head?_cons, Option.mem_def, Option.some.injEq, true_and,
        exists_eq_left']
      cases found : firstFault _ 0 (first :: rest) with
      | none => simp
      | some fault => simp [eq_comm]

/-- A check fails exactly if the rank holds a result and some element of some tensor of the
destination, be it after empty ones, differs from what the type of the first tensor makes of the
expected value. The error names the first such element, in the order of the tensors and of the
elements in each: its place, with the number of its tensor where the destination is a list, its own
value and the expected one. A destination without any tensor passes. -/
theorem first_fault_reported [Halves] (checker : Checker) (call : Call)
    (rank worldSize sizeBytes : Nat) :
    let destination := call.buffers.destination
    let expected (type : ElementType) : Scalar :=
      type.cast (checker.expected call.operation type rank call.root worldSize)
    let checked := checker.check call rank worldSize sizeBytes
    ((∃ error, checked = .error error) ↔
      shouldCheck call rank ∧ ∃ first ∈ destination.tensors.head?,
        ∃ tensor ∈ destination.tensors, ∃ value ∈ tensor.values,
          value.beq (expected first.type) = false) ∧
    (∀ error, checked = .error error →
      ∃ first ∈ destination.tensors.head?, ∃ place index actual,
        IsFirstFault (expected first.type) destination.tensors place index actual ∧
        error = .validationFailed sizeBytes call.operation.name
          (if destination.isList then "[" ++ toString place ++ "][" ++ toString index ++ "]"
            else "[" ++ toString index ++ "]")
          actual (expected first.type)) ∧
    (destination.tensors = [] → checked = .ok ()) := by
  intro destination expected checked
  have fails := check_eq_error_iff checker call rank worldSize sizeBytes
  refine ⟨⟨?_, ?_⟩, fun error failed => ?_, fun none => ?_⟩
  · rintro ⟨error, failed⟩
    obtain ⟨needed, first, head, fault, found, -⟩ := (fails error).mp failed
    exact ⟨needed, first, head, (exists_firstFault_iff 0).mp ⟨fault, found⟩⟩
  · rintro ⟨needed, first, head, differs⟩
    obtain ⟨fault, found⟩ := (exists_firstFault_iff 0).mpr differs
    exact ⟨_, (fails _).mpr ⟨needed, first, head, fault, found, rfl⟩⟩
  · obtain ⟨-, first, head, ⟨place, index, actual⟩, found, rfl⟩ := (fails error).mp failed
    obtain ⟨further, rfl, fault⟩ := firstFault_eq_some found
    refine ⟨first, head, further, index, actual, fault, ?_⟩
    rw [location_eq, Nat.zero_add]
  · cases outcome : checked with
    | ok => rfl
    | error error =>
      obtain ⟨-, first, head, -⟩ := (fails error).mp outcome
      rw [show call.buffers.destination.tensors = [] from none] at head
      cases head

/-- The tensor that is at fault comes after an empty one and a faultless one. Its last element would
not do either, but the one before it is named. -/
theorem first_fault_reported_late :
    let values (numbers : List Nat) : Tensor := .ofValues (numbers.map Scalar.ofNat) .i32
    let gathered (tensors : List Tensor) : Call :=
      { buffers := { operation := .allGather, input := .empty, output := some (.list tensors) } }
    Checker.check ⟨.one⟩ (gathered [values [], values [1, 1], values [1, 7, 9]]) 0 3 12 =
      .error (.validationFailed 12 "all_gather" "[2][1]" (.ofNat 7) .one) ∧
    Checker.check ⟨.one⟩ (gathered []) 0 3 12 = .ok () := by
  intro values gathered
  let tensors := [values [], values [1, 1], values [1, 7, 9]]
  obtain ⟨fails, names, -⟩ := first_fault_reported ⟨.one⟩ (gathered tensors) 0 3 12
  have differs : ∃ tensor ∈ tensors, ∃ value ∈ tensor.values,
      value.beq (ElementType.i32.cast .one) = false :=
    ⟨values [1, 7, 9], by simp [tensors], .ofNat 7, by decide +kernel⟩
  obtain ⟨error, failed⟩ := fails.mpr ⟨rfl, values [], rfl, differs⟩
  obtain ⟨first, ⟨⟩, place, index, actual, fault, rfl⟩ := names error failed
  have expected : IsFirstFault (ElementType.i32.cast .one) tensors 2 1 (.ofNat 7) :=
    ⟨⟨_, rfl, by decide +kernel, by decide +kernel, by decide +kernel⟩, by decide +kernel⟩
  obtain ⟨rfl, rfl, rfl⟩ := fault.unique expected
  exact ⟨failed.trans (congrArg Except.error (by decide +kernel)),
    (first_fault_reported ⟨.one⟩ (gathered []) 0 3 12).2.2 rfl⟩

end Checker

end CollectiveBench
