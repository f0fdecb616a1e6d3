import CollectiveBench.Tensor.Bytes

/-!
# Reducing in place

The elements of one buffer are reduced into another, one after the other. Both must hold as many as
are asked for. The buffers may be longer: bytes behind the last element are left alone.
-/

namespace CollectiveBench

variable [Arithmetic] (type : ElementType) (reduction : Reduction) (source : List UInt8)

/-- The buffer after the element of an index was reduced with that of the source. -/
def reduceElement (destination : List UInt8) (index : Nat) : Outcome (List UInt8) := do
  let first ← Arithmetic.word (index * type.size)
  let last ← Arithmetic.word (first + type.size)
  let left ← bytesBetween destination first last
  let right ← bytesBetween source first last
  storeBetween destination first last
    (wordBytes type.size (type.combine reduction (bytesWord left) (bytesWord right)))

/-- Reduces the elements of some indices one after the other. What is stored by the time that one of
them fails remains. -/
def reduceElements (destination : List UInt8) : List Nat → Outcome Unit × List UInt8
  | [] => (.ok (), destination)
  | index :: rest =>
    match reduceElement type reduction source destination index with
    | .ok stored => reduceElements stored rest
    | .error error => (.error error, destination)

/-- Reduces the first `count` elements of `source` into `destination`, and gives what is in there
afterwards. Both must hold that many. -/
def reduceInto (count : Nat) (destination : List UInt8) : Outcome Unit × List UInt8 :=
  match Arithmetic.word (count * type.size) with
  | .error error => (.error error, destination)
  | .ok needed =>
    if destination.length < needed ∨ source.length < needed then
      (.error (.bufferSizeMismatch needed (min destination.length source.length)), destination)
    else reduceElements type reduction source destination (List.range count)

end CollectiveBench
