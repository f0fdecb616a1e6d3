import CollectiveBench.Kernel.Product
import Mathlib.Data.List.GetD

/-!
# Rows of a table

The kernels take the elements of a table row by row and join the rows of a result. A row that is cut
out begins where the rows before it end, and an element of the joined rows is found by the number of
its row and its place in it.
-/

namespace CollectiveBench

variable {α : Type} {size count place column : Nat} {items : List α}

/-- There are as many pieces as were asked for. -/
theorem length_pieces (size count : Nat) (items : List α) :
    (pieces size count items).length = count := by
  induction count generalizing items with
  | zero => rfl
  | succ count inductionHypothesis => rw [pieces, List.length_cons, inductionHypothesis]

/-- A piece begins where the pieces before it end. -/
theorem getElem?_pieces (inside : place < count) :
    (pieces size count items)[place]? = some ((items.drop (place * size)).take size) := by
  induction count generalizing place items with
  | zero => exact absurd inside (Nat.not_lt_zero place)
  | succ count inductionHypothesis =>
    cases place with
    | zero => simp [pieces]
    | succ place =>
      rw [pieces, List.getElem?_cons_succ, inductionHypothesis (Nat.lt_of_succ_lt_succ inside),
        List.drop_drop, Nat.succ_mul, Nat.add_comm]

/-- A piece of as many items as there are pieces of its size, item by item. -/
theorem take_drop_eq_map (fallback : α) (length : items.length = count * size)
    (inside : place < count) : (items.drop (place * size)).take size =
      (List.range size).map fun column => items.getD (place * size + column) fallback := by
  have within : (place + 1) * size ≤ count * size := Nat.mul_le_mul_right size inside
  rw [Nat.succ_mul, ← length] at within
  apply List.ext_getElem
  · simp
    omega
  · intro column here _
    rw [List.length_take, List.length_drop] at here
    rw [List.getElem_take, List.getElem_drop, List.getElem_map, List.getElem_range,
      List.getD_eq_getElem]

/-- A table of rows of one size, row by row and item by item. -/
theorem pieces_eq_map (fallback : α) (length : items.length = count * size) :
    pieces size count items = (List.range count).map fun place =>
      (List.range size).map fun column => items.getD (place * size + column) fallback := by
  refine List.ext_getElem? fun place => ?_
  rw [List.getElem?_map]
  rcases Nat.lt_or_ge place count with inside | beyond
  · rw [getElem?_pieces inside, List.getElem?_range inside, Option.map_some,
      take_drop_eq_map fallback length inside]
  · rw [List.getElem?_eq_none (by rwa [length_pieces]),
      List.getElem?_eq_none (by simpa using beyond),
      Option.map_none]

/-- An item of joined rows of one size is found by its row and its place in the row. -/
theorem getElem?_flatMap_range {rows : Nat → List α} (sizes : ∀ row, (rows row).length = size)
    (inside : place < count) (within : column < size) :
    ((List.range count).flatMap rows)[place * size + column]? = (rows place)[column]? := by
  have total (count : Nat) : ((List.range count).flatMap rows).length = count * size := by
    simp only [List.length_flatMap, sizes, List.map_const', List.length_range,
      List.sum_replicate_nat]
  induction count with
  | zero => exact absurd inside (Nat.not_lt_zero place)
  | succ count inductionHypothesis =>
    rw [List.range_succ, List.flatMap_append, List.flatMap_singleton]
    rcases Nat.lt_succ_iff_lt_or_eq.mp inside with earlier | rfl
    · have before : place * size + column < count * size := by
        have bound := Nat.mul_le_mul_right size (Nat.succ_le_of_lt earlier)
        rw [Nat.succ_mul] at bound
        omega
      rw [List.getElem?_append_left (by rw [total]; exact before), inductionHypothesis earlier]
    · rw [List.getElem?_append_right (by rw [total]; omega), total, Nat.add_sub_cancel_left]

end CollectiveBench
