import CollectiveBench.Arithmetic
import CollectiveBench.Generator
import CollectiveBench.Request
import CollectiveBench.Stream

/-!
# Devices

A device allocates the tensors of one rank and holds its streams. It counts the tensors that
it has allocated and keeps the trace of what it was asked for.
-/

namespace CollectiveBench

open Numeric

/-- The allocating side of a rank. -/
structure Device where
  generator : Generator
  allocations : Nat := 0
  streams : Streams := {}
  /-- The latest entry stands first. -/
  trace : List TraceEntry := []

namespace Device

/-- The device of a rank. Its values follow from the sum of seed and rank, which is held in a word.
-/
def create (seed rank : Nat) (source : Source := .counter) : Device :=
  { generator := .ofSeed ((seed + rank) % Arithmetic.wordLimit) source }

/-- The device with a further request in its trace. -/
def note (device : Device) (request : Request) : Device :=
  { device with trace := ⟨request, device.streams.current⟩ :: device.trace }

/-- The device after a tensor was allocated. -/
def counted (device : Device) : Device := { device with allocations := device.allocations + 1 }

/-- A tensor of random values. -/
def random [Halves] (device : Device) (count : Nat) (type : ElementType) (scale : Scalar) :
    Tensor × Device :=
  let (words, generator) := device.generator.words type scale count
  (⟨type, words⟩, { (device.note (.random type count scale)).counted with generator })

/-- A tensor that holds one value. -/
def ones [Halves] (device : Device) (count : Nat) (type : ElementType) (value : Scalar) :
    Tensor × Device :=
  (.full count type value, (device.note (.ones type count value)).counted)

/-- A tensor of zero bytes. -/
def zeros (device : Device) (count : Nat) (type : ElementType) : Tensor × Device :=
  (.zeros count type, device.counted)

/-- A table of random rows. -/
def table [Halves] (device : Device) (rows dimension : Nat) (type : ElementType) :
    Tensor × Device :=
  device.random (rows * dimension) type .one

/-- Whether every element is one that a random tensor of a scale can hold. -/
def couldDraw [Halves] (scale : Scalar) (tensor : Tensor) : Bool :=
  let greatest :=
    match tensor.type with
    | .bool => .one
    | .i32 | .i64 | .u8 => .ofNat 9
    | type => type.cast (.one / if scale.beq .zero then .one else scale)
  tensor.values.all fun value => Scalar.zero.le value && value.le greatest

/-- What newly allocated tensors hold. -/
inductive Filling where
  | ones (value : Scalar)
  | random (scale : Scalar)
deriving DecidableEq, Repr

/-- The elements that a new tensor holds if it is to hold `count`. Random values are stored one
after the other, and all of them must find room. -/
def Filling.held [Arithmetic] (filling : Filling) (type : ElementType) (count : Nat) :
    Outcome Nat := do
  let bytes ← Arithmetic.room count type.size
  let held := bytes / type.size
  match filling with
  | .ones _ => return held
  | .random _ =>
    if held < count then throw (.defect (.indexOutOfRange held held)) else return count

/-- A tensor with a filling. -/
def filled [Halves] (device : Device) (filling : Filling) (type : ElementType) (count : Nat) :
    Tensor × Device :=
  match filling with
  | .ones value => device.ones count type value
  | .random scale => device.random count type scale

/-- `parts` tensors of `count` elements with a filling. -/
def filledList [Halves] (filling : Filling) (type : ElementType) (count : Nat) :
    Nat → Device → List Tensor × Device
  | 0, device => ([], device)
  | parts + 1, device =>
    let (tensor, device) := device.filled filling type count
    let (rest, device) := filledList filling type count parts device
    (tensor :: rest, device)

end Device

end CollectiveBench
