import CollectiveBench.Kernel.Product

/-!
# Embedding bags

A table holds rows of a fixed dimension. A list of row indices is cut into bags by the
offsets at which the bags begin; a bag ends where the next one begins, and the last ends with
the list. The result has a row for each bag: the sum of the bag's rows, from left to right.
-/

namespace CollectiveBench

open Numeric

/-- The numbers of the bags with the positions where they begin and end. -/
def bags (offsets : List Nat) (indices : Nat) : List (Nat × Nat × Nat) :=
  offsets.zipIdx.map fun (start, bag) => (bag, start, offsets.getD (bag + 1) indices)

/-- The values of a row that there must be. -/
def rowAt (rows : List (List Scalar)) (row : Nat) : Outcome (List Scalar) :=
  match rows[row]? with
  | some values => .ok values
  | none => .error (.configuration ("embedding index " ++ toString row
      ++ " out of range for " ++ toString rows.length ++ " rows"))

/-- The sums after the values of a row were added to those of a bag. -/
def addRow [Arithmetic] (dimension bag : Nat) (values sums : List Scalar) :
    Outcome (List Scalar) := do
  let first ← Arithmetic.word (bag * dimension)
  let last ← Arithmetic.word ((bag + 1) * dimension)
  if last < first ∨ sums.length < last then .error (.defect (.indexOutOfRange last sums.length))
  else
    return sums.take first ++ (List.zipWith (· + ·) ((sums.drop first).take (last - first)) values
      ++ sums.drop last)

/-- The sums after all rows of a bag were added, which begins and ends at two positions. -/
def addBag [Arithmetic] (dimension : Nat) (rows : List (List Scalar)) (indices : List Nat)
    (sums : List Scalar) (span : Nat × Nat × Nat) : Outcome (List Scalar) :=
  let (bag, start, stop) := span
  if start ≤ stop ∧ stop ≤ indices.length then
    ((indices.take stop).drop start).foldlM (fun sums row => do
      addRow dimension bag (← rowAt rows row) sums) sums
  else
    .error (.configuration ("bag " ++ toString bag ++ " spans " ++ toString start ++ ".."
      ++ toString stop ++ " beyond " ++ toString indices.length ++ " indices"))

/-- The sums of all bags, in the element type of the table. The table and the sums are kept as
numbers of eight bytes, and the bags are added to the sums one after the other. -/
def embeddingBags [Arithmetic] [Halves] (table : Tensor) (dimension : Nat)
    (indices offsets : List Nat) : Outcome Tensor :=
  if dimension = 0 ∨ table.count % dimension ≠ 0 then
    .error (.configuration ("embedding table of " ++ toString table.count
      ++ " elements is not a multiple of dim " ++ toString dimension))
  else do
    let rows := pieces dimension (table.count / dimension) table.values
    Arithmetic.items table.count 8
    let count ← Arithmetic.word (offsets.length * dimension)
    Arithmetic.items count 8
    let sums ← (bags offsets indices.length).foldlM (addBag dimension rows indices)
      (List.replicate count .zero)
    return .ofValues sums table.type

end CollectiveBench
