import CollectiveBench.Operation
import CollectiveBench.Text.Blank
import CollectiveBench.Text.Numeral

/-!
# Message sizes

A size is written as a number of bytes with an optional suffix for a power of 1024. A sweep
runs from its first size up to its last one, in equal steps or by a constant factor; it never
holds more than a hundred sizes. The first size of a sweep is raised where it would leave a
rank without elements.
-/

namespace CollectiveBench

open Text

/-- Bytes that a suffix stands for. -/
def unitOf : Char → Option Nat
  | 'K' => some (powerOfTwo 10)
  | 'M' => some (powerOfTwo 20)
  | 'G' => some (powerOfTwo 30)
  | _ => none

/-- The number of bytes that a text spells. The number ends at the first suffix; the product
must fit in 64 bits. -/
def readSize (text : String) : Outcome Nat :=
  let characters := trim text.toList
  let number := characters.takeWhile fun character => (unitOf character).isNone
  let unit := ((characters.drop number.length).head?.bind unitOf).getD 1
  match (unsigned? bound64 number).filter (· * unit < bound64) with
  | some number => .ok (number * unit)
  | none => .error (.invalidSize text)

namespace Sweep

/-- The largest number of sizes. -/
def limit : Nat := 100

/-- The largest 64-bit count, where growing sizes stop. -/
def ceiling : Nat := bound64 - 1

/-- The size after a size. A step of zero bytes means a factor. -/
def next (factor stepBytes size : Nat) : Nat :=
  if stepBytes = 0 then min ceiling (size * factor) else min ceiling (size + stepBytes)

/-- Up to `room` sizes from `size` to `last`, and whether a further one was left out. A size
that does not grow ends the sweep. -/
def sizesFrom (next : Nat → Nat) (last : Nat) : Nat → Nat → List Nat × Bool
  | 0, size => ([], size ≤ last)
  | room + 1, size =>
    if last < size then ([], false)
    else if next size = size then ([size], false)
    else
      let (rest, truncated) := sizesFrom next last room (next size)
      (size :: rest, truncated)

/-- The sizes from `first` to `last`, and a notice if there are too many of them. -/
def sizes (first last factor stepBytes : Nat) : List Nat × List Notice :=
  let (found, truncated) := sizesFrom (next factor stepBytes) last limit first
  (found, if truncated then [⟨.error, "size sweep truncated"⟩] else [])

/-- The first size that gives every rank an element: one for each rank if the message is
split, as many as the quantised dimension asks for if it is also quantised, and one in all
for reductions. -/
def firstSize (first : Nat) (operation : Operation) (elementSize worldSize bitwidth
    quantDim : Nat) : Outcome Nat :=
  if operation.isSplit then
    if elementSize = 0 then .error (.defect .divisionByZero)
    else
      let first := if first / elementSize < worldSize then worldSize * elementSize else first
      if bitwidth < 32 ∧ first / elementSize / max worldSize 1 < quantDim then
        .ok (quantDim * worldSize * elementSize)
      else .ok first
  else if (operation = .allReduce ∨ operation = .reduce) ∧ first < elementSize then
    .ok elementSize
  else .ok first

/-- Sizes double up to the last one, which belongs to the sweep. -/
example : (sizes 8 64 2 0).1 = [8, 16, 32, 64] := by decide +kernel

end Sweep

end CollectiveBench
