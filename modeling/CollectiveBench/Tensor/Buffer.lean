import CollectiveBench.Tensor.InPlace

/-!
# Buffers

A buffer keeps the elements of a tensor as the bytes that travel. Every access goes to bytes: an
element is found at its index times its size, and a range of elements between two such places. An
operation that changes a buffer gives what came of it together with the buffer as it is then, also
when it fails.
-/

namespace CollectiveBench

open Numeric

/-- Elements of one type, as bytes. -/
structure Buffer where
  type : ElementType
  data : List UInt8
deriving DecidableEq, Repr

namespace Buffer

/-- The number of elements. -/
def count (buffer : Buffer) : Nat := buffer.data.length / buffer.type.size

/-- Whether there are no bytes. -/
def isEmpty (buffer : Buffer) : Bool := buffer.data.isEmpty

/-- The buffer with some bytes. -/
def ofBytes (data : List UInt8) (type : ElementType) : Outcome Buffer :=
  if data.length % type.size = 0 then .ok ⟨type, data⟩
  else .error (.bufferSizeMismatch ((data.length / type.size + 1) * type.size) data.length)

/-- The buffer with `value` stored in every element. Bytes that are no whole element stay. -/
def fill [Halves] (buffer : Buffer) (value : Scalar) : Buffer :=
  let size := buffer.type.size
  let stored := wordBytes size (buffer.type.encode value)
  { buffer with
    data := (List.replicate buffer.count stored).flatten ++ buffer.data.drop (buffer.count * size) }

/-- Type and number of bytes agree. -/
def checkCompatible (buffer other : Buffer) : Outcome Unit :=
  if buffer.type ≠ other.type then .error (.unsupportedElementType other.type "copy")
  else if buffer.data.length ≠ other.data.length then
    .error (.bufferSizeMismatch buffer.count other.count)
  else .ok ()

/-- Copies the bytes of a compatible buffer into this one. -/
def copyFrom (buffer source : Buffer) : Outcome Unit × Buffer :=
  match buffer.checkCompatible source with
  | .ok () => (.ok (), { buffer with data := source.data })
  | .error error => (.error error, buffer)

section

variable [Arithmetic]

/-- `count` elements whose bytes are all zero. -/
def zeros (count : Nat) (type : ElementType) : Outcome Buffer := do
  let bytes ← Arithmetic.room count type.size
  return ⟨type, List.replicate bytes 0⟩

/-- `count` elements that hold `value`. -/
def full [Halves] (count : Nat) (type : ElementType) (value : Scalar) : Outcome Buffer := do
  let buffer ← zeros count type
  return buffer.fill value

/-- Where an element begins and ends. -/
def place (type : ElementType) (index : Nat) : Outcome (Nat × Nat) := do
  let first ← Arithmetic.word (index * type.size)
  let next ← Arithmetic.word (index + 1)
  let last ← Arithmetic.word (next * type.size)
  return (first, last)

/-- The element at an index. -/
def get (buffer : Buffer) (index : Nat) : Outcome Scalar := do
  let (first, last) ← place buffer.type index
  let bytes ← bytesBetween buffer.data first last
  return buffer.type.decode (bytesWord bytes)

/-- The bytes with `value` stored at an index. -/
def stored [Halves] (buffer : Buffer) (index : Nat) (value : Scalar) : Outcome (List UInt8) := do
  let (first, last) ← place buffer.type index
  storeBetween buffer.data first last (wordBytes buffer.type.size (buffer.type.encode value))

/-- Stores `value` at an index. -/
def set [Halves] (buffer : Buffer) (index : Nat) (value : Scalar) : Outcome Unit × Buffer :=
  match buffer.stored index value with
  | .ok data => (.ok (), { buffer with data })
  | .error error => (.error error, buffer)

/-- Stores values at the indices from one on, until one cannot be stored. -/
def setFrom [Halves] (buffer : Buffer) (index : Nat) : List Scalar → Outcome Unit × Buffer
  | [] => (.ok (), buffer)
  | value :: rest =>
    match buffer.set index value with
    | (.ok (), buffer) => buffer.setFrom (index + 1) rest
    | (.error error, buffer) => (.error error, buffer)

/-- One element for each of the values. -/
def ofValues [Halves] (values : List Scalar) (type : ElementType) : Outcome Buffer := do
  let blank ← zeros values.length type
  let (outcome, buffer) := blank.setFrom 0 values
  outcome
  return buffer

/-- All elements as scalars. -/
def values (buffer : Buffer) : Outcome (List Scalar) :=
  (List.range buffer.count).mapM buffer.get

/-- `length` elements from position `start` on. -/
def slice (buffer : Buffer) (start length : Nat) : Outcome Buffer := do
  let (first, last) ← Arithmetic.span buffer.data.length buffer.type.size start length
  return { buffer with data := (buffer.data.drop first).take (last - first) }

/-- The bytes with those of a further part, which must have the given type, behind them. -/
def extend (type : ElementType) (data : List UInt8) (part : Buffer) : Outcome (List UInt8) :=
  if part.type ≠ type then .error (.unsupportedElementType part.type "concat")
  else do
    let _ ← Arithmetic.room (data.length + part.data.length) 1
    return data ++ part.data

/-- The bytes of all parts in order; every part must have the given type. The room for all of them
is allocated first. -/
def concat (parts : List Buffer) (type : ElementType) : Outcome Buffer := do
  let _ ← Arithmetic.room (total (parts.map (·.data.length))) 1
  let data ← parts.foldlM (extend type) []
  return ⟨type, data⟩

/-- Reduces a compatible buffer into this one, element by element. -/
def reduceWith (buffer other : Buffer) (reduction : Reduction) : Outcome Unit × Buffer :=
  match buffer.checkCompatible other with
  | .ok () =>
    let (outcome, data) :=
      reduceInto buffer.type reduction other.data buffer.count buffer.data
    (outcome, { buffer with data })
  | .error error => (.error error, buffer)

end

end Buffer

/-- The bytes of a tensor, with its type. -/
def Tensor.buffer (tensor : Tensor) : Buffer := ⟨tensor.type, tensor.bytes⟩

end CollectiveBench
