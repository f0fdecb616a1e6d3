import CollectiveBench.Arithmetic
import CollectiveBench.Element

/-!
# Tensors

A tensor is a flat sequence of elements of one type. Cutting, joining, copying and reducing
work on whole elements, so no operation can leave a part of an element behind. Those that
can fail return an error and no tensor; the operands stay as they were.
-/

namespace CollectiveBench

open Numeric

/-- Elements of one type, as words. -/
structure Tensor where
  type : ElementType
  words : List Nat
deriving DecidableEq, Repr

namespace Tensor

/-- Every word fits the element type. -/
def WellFormed (tensor : Tensor) : Prop :=
  ∀ word ∈ tensor.words, word < powerOfTwo tensor.type.bits

/-- The number of elements. -/
def count (tensor : Tensor) : Nat := tensor.words.length

/-- Whether there are no elements. -/
def isEmpty (tensor : Tensor) : Bool := tensor.words.isEmpty

/-- The number of bytes. -/
def byteCount (tensor : Tensor) : Nat := tensor.count * tensor.type.size

/-- `count` elements whose bytes are all zero. -/
def zeros (count : Nat) (type : ElementType) : Tensor := ⟨type, List.replicate count 0⟩

/-- `count` elements that hold `value`. -/
def full [Halves] (count : Nat) (type : ElementType) (value : Scalar) : Tensor :=
  ⟨type, List.replicate count (type.encode value)⟩

/-- One element for each of the values. -/
def ofValues [Halves] (values : List Scalar) (type : ElementType) : Tensor :=
  ⟨type, values.map type.encode⟩

/-- The element at a position. -/
def get (tensor : Tensor) (index : Nat) : Outcome Scalar :=
  match tensor.words[index]? with
  | some word => .ok (tensor.type.decode word)
  | none => .error (.defect (.indexOutOfRange index tensor.count))

/-- The tensor with `value` stored at a position. -/
def set [Halves] (tensor : Tensor) (index : Nat) (value : Scalar) : Outcome Tensor :=
  if index < tensor.count then
    .ok { tensor with words := tensor.words.set index (tensor.type.encode value) }
  else .error (.defect (.indexOutOfRange index tensor.count))

/-- The tensor with `value` stored everywhere. -/
def fill [Halves] (tensor : Tensor) (value : Scalar) : Tensor := full tensor.count tensor.type value

/-- All elements as scalars. -/
def values (tensor : Tensor) : List Scalar := tensor.words.map tensor.type.decode

/-- The tensor with all elements that are no number made one word. -/
def canonical (tensor : Tensor) : Tensor :=
  { tensor with words := tensor.words.map tensor.type.canonicalWord }

/-- The last element. -/
def last? (tensor : Tensor) : Option Scalar := tensor.words.getLast?.map tensor.type.decode

/-- `length` elements from position `start` on. -/
def slice [Arithmetic] (tensor : Tensor) (start length : Nat) : Outcome Tensor := do
  let size := tensor.type.size
  let (first, last) ← Arithmetic.span tensor.byteCount size start length
  return { tensor with words := (tensor.words.drop (first / size)).take ((last - first) / size) }

/-- The elements that are asked for must be there. -/
theorem slice_eq [Arithmetic] {tensor : Tensor} {start length : Nat}
    (holds : Arithmetic.Holds (start + length)) (fits : Arithmetic.Holds tensor.byteCount) :
    tensor.slice start length =
      if tensor.count < start + length then
        .error (.bufferSizeMismatch (start + length) tensor.count)
      else .ok { tensor with words := (tensor.words.drop start).take length } := by
  have sized := tensor.type.size_pos
  have elements : tensor.byteCount / tensor.type.size = tensor.count := Nat.mul_div_cancel _ sized
  have extent : (start + length) * tensor.type.size - start * tensor.type.size =
      length * tensor.type.size := by
    rw [Nat.add_mul, Nat.add_sub_cancel_left]
  rw [slice, Arithmetic.span_of_holds sized holds fits, elements]
  split
  next => rfl
  next =>
    show Except.ok _ = _
    rw [extent, Nat.mul_div_cancel _ sized, Nat.mul_div_cancel _ sized]

/-- Where every count is held, only the end of the tensor matters. -/
theorem slice_exact (tensor : Tensor) (start length : Nat) :
    tensor.slice start length =
      if tensor.count < start + length then
        .error (.bufferSizeMismatch (start + length) tensor.count)
      else .ok { tensor with words := (tensor.words.drop start).take length } :=
  slice_eq (Arithmetic.holds_exact _) (Arithmetic.holds_exact _)

/-- What is cut out lies within the tensor. -/
theorem slice_eq_ok_iff {tensor part : Tensor} {start length : Nat} :
    tensor.slice start length = .ok part ↔
      start + length ≤ tensor.count ∧
        part = ⟨tensor.type, (tensor.words.drop start).take length⟩ := by
  rw [slice_exact]
  split
  next beyond => exact iff_of_false (by rintro ⟨⟩) fun both => absurd beyond (Nat.not_lt.mpr both.1)
  next within =>
    constructor
    · rintro ⟨⟩
      exact ⟨Nat.not_lt.mp within, rfl⟩
    · rintro ⟨-, rfl⟩
      rfl

/-- The elements of all parts in order; every part must have the given type. -/
def concat (parts : List Tensor) (type : ElementType) : Outcome Tensor :=
  match parts.find? (·.type ≠ type) with
  | some part => .error (.unsupportedElementType part.type "concat")
  | none => .ok ⟨type, parts.flatMap Tensor.words⟩

/-- Type and number of elements agree. -/
def checkCompatible (tensor other : Tensor) : Outcome Unit :=
  if tensor.type ≠ other.type then .error (.unsupportedElementType other.type "copy")
  else if tensor.count ≠ other.count then
    .error (.bufferSizeMismatch tensor.count other.count)
  else .ok ()

/-- Tensors are compatible exactly if they have one type and one number of elements. -/
theorem checkCompatible_eq_ok_iff (tensor other : Tensor) :
    tensor.checkCompatible other = .ok () ↔ tensor.type = other.type ∧
      tensor.count = other.count := by
  unfold checkCompatible
  split
  next types => exact iff_of_false (by rintro ⟨⟩) fun both => types both.1
  next types =>
    split
    next counts => exact iff_of_false (by rintro ⟨⟩) fun both => counts both.2
    next counts => exact iff_of_true rfl ⟨Decidable.not_not.mp types, Decidable.not_not.mp counts⟩

/-- The tensor after the elements of a compatible one were copied into it. -/
def copyFrom (tensor source : Tensor) : Outcome Tensor := do
  tensor.checkCompatible source
  return { tensor with words := source.words }

/-- The tensor after a compatible one was reduced into it, element by element. -/
def reduceWith (tensor other : Tensor) (reduction : Reduction) : Outcome Tensor := do
  tensor.checkCompatible other
  return { tensor with
    words := List.zipWith (tensor.type.combine reduction) tensor.words other.words }

end Tensor

end CollectiveBench
