import CollectiveBench.Arithmetic
import CollectiveBench.Tensor.Basic

/-!
# Matrix products

Square matrices are tensors in row-major order. A row of the product is accumulated over the
rows of the right operand, one after the other, so that every operand is read in order. All
sums start from zero and run from left to right.
-/

namespace CollectiveBench

open Numeric

/-- `count` pieces of `size` items. -/
def pieces {α : Type} (size : Nat) : Nat → List α → List (List α)
  | 0, _ => []
  | count + 1, items => items.take size :: pieces size count (items.drop size)

/-- A row with the multiple of another row added to it. -/
def addScaled (row : List Scalar) (factor : Scalar) (other : List Scalar) : List Scalar :=
  List.zipWith (fun total value => total + factor * value) row other

/-- A row of the left operand times the right operand. -/
def rowProduct (dimension : Nat) (row : List Scalar) (right : List (List Scalar)) :
    List Scalar :=
  (row.zip right).foldl (fun total (factor, other) => addScaled total factor other)
    (List.replicate dimension .zero)

/-- The product of two matrices of `dimension` rows, in the element type of the first. The operands
and the product are kept as numbers of eight bytes. -/
def matrixProduct [Arithmetic] [Halves] (left right : Tensor) (dimension : Nat) :
    Outcome Tensor := do
  let count ← Arithmetic.word (dimension * dimension)
  if left.count ≠ count then .error (.bufferSizeMismatch count left.count)
  else if right.count ≠ count then .error (.bufferSizeMismatch count right.count)
  else
    Arithmetic.items left.count 8
    Arithmetic.items right.count 8
    Arithmetic.items count 8
    -- A count that lost its upper bits is less than what the rows and columns ask for.
    if count < dimension * dimension then .error (.defect (.indexOutOfRange count count))
    else
      let rows := pieces dimension dimension right.values
      return .ofValues ((pieces dimension dimension left.values).flatMap fun row =>
        rowProduct dimension row rows) left.type

end CollectiveBench
