import CollectiveBench.Kernel.Product
import CollectiveBench.Proofs.Kernel.Rows
import CollectiveBench.Proofs.Outcomes
import Mathlib.Data.List.Induction

/-!
# Elements of a matrix product

A row of a product is accumulated over the rows of the right operand: every operand row adds a term
to each column before the next row is looked at. No column ever meets another one, so a column is
the sum of its own terms, from left to right. That is the product of a row and a column, term by
term, and nothing is assumed of how two scalars are added (`matrix_products_by_element`).
-/

namespace CollectiveBench

open Numeric

/-- The sum of the products of a row of one square matrix and a column of another, from left to
right. -/
def dotProduct (left right : Tensor) (dimension row column : Nat) : Scalar :=
  (List.range dimension).foldl (fun total place =>
    total + left.values.getD (row * dimension + place) .zero *
      right.values.getD (place * dimension + column) .zero) .zero

variable {left right product : Tensor} {dimension row column : Nat}

/-- Accumulating rows accumulates each column by itself.

The induction is on the rows that have been added so far: the next one adds its term to what every
column has got by then. -/
theorem rowProduct_map (dimension : Nat) (places : List Nat) (factor : Nat → Scalar)
    (other : Nat → Nat → Scalar) :
    rowProduct dimension (places.map factor)
        (places.map fun place => (List.range dimension).map (other place)) =
      (List.range dimension).map fun column =>
        places.foldl (fun total place => total + factor place * other place column) .zero := by
  rw [rowProduct, List.zip_map', List.foldl_map]
  induction places using List.reverseRecOn with
  | nil => simp only [List.foldl_nil, List.map_const', List.length_range]
  | append_singleton front place inductionHypothesis =>
    rw [List.foldl_append, inductionHypothesis]
    simp only [List.foldl_append, List.foldl_cons, List.foldl_nil, addScaled]
    rw [List.zipWith_map, List.zipWith_self]

section

variable [arithmetic : Arithmetic] [Halves]

/-- A product has the sums of the products of rows and columns for its elements. -/
theorem matrixProduct_eq (held : Arithmetic.Allots left.count 8)
    (square : left.count = dimension * dimension)
    (squareToo : right.count = dimension * dimension) :
    matrixProduct left right dimension =
      .ok (.ofValues ((List.range dimension).flatMap fun row =>
        (List.range dimension).map (dotProduct left right dimension row)) left.type) := by
  have size : left.values.length = dimension * dimension := (List.length_map _).trans square
  have sizeToo : right.values.length = dimension * dimension := (List.length_map _).trans squareToo
  have heldToo : Arithmetic.Allots right.count 8 := by rwa [squareToo, ← square]
  have room : Arithmetic.Allots (dimension * dimension) 8 := by rwa [← square]
  refine bind_eq_of_eq_ok (Arithmetic.word_of_holds (room.holds_count (by decide))) ?_
  rw [if_neg (not_not_intro square), if_neg (not_not_intro squareToo)]
  refine bind_eq_of_eq_ok (Arithmetic.items_of_allots held)
    (bind_eq_of_eq_ok (Arithmetic.items_of_allots heldToo)
      (bind_eq_of_eq_ok (Arithmetic.items_of_allots room) ?_))
  rw [if_neg (Nat.lt_irrefl _), pieces_eq_map .zero size, pieces_eq_map .zero sizeToo]
  simp only [List.flatMap_map, rowProduct_map]
  rfl

/-- A product exists only if both operands are square. A build that has lost a part of the square
finds fewer elements than there are rows and columns. -/
theorem square_of_matrixProduct (succeeds : matrixProduct left right dimension = .ok product) :
    left.count = dimension * dimension ∧ right.count = dimension * dimension := by
  obtain ⟨count, counted, succeeds⟩ := bind_eq_ok succeeds
  split at succeeds
  next => cases succeeds
  next square =>
    split at succeeds
    next => cases succeeds
    next squareToo =>
      obtain ⟨_, -, succeeds⟩ := bind_eq_ok succeeds
      obtain ⟨_, -, succeeds⟩ := bind_eq_ok succeeds
      obtain ⟨_, -, succeeds⟩ := bind_eq_ok succeeds
      split at succeeds
      next => cases succeeds
      next whole =>
        obtain rfl : count = dimension * dimension :=
          Nat.le_antisymm (Arithmetic.word_le counted) (Nat.le_of_not_lt whole)
        exact ⟨not_not.mp square, not_not.mp squareToo⟩

end

/-- In every build, two tensors are multiplied exactly if both have as many elements as a square
matrix of the dimension, provided there is room for the numbers of the first. The product has as
many too, and the type of the left operand. Its element in a row and a column is what the type makes
of the sum of the products of that row and that column, added from zero on and from left to right.
-/
theorem matrix_products_by_element [arithmetic : Arithmetic] [Halves] (left right : Tensor)
    (dimension : Nat)
    (held : Arithmetic.Allots left.count 8) :
    ((∃ product, matrixProduct left right dimension = .ok product) ↔
      left.count = dimension * dimension ∧ right.count = dimension * dimension) ∧
    ∀ product, matrixProduct left right dimension = .ok product →
      product.type = left.type ∧ product.count = dimension * dimension ∧
      ∀ row < dimension, ∀ column < dimension, product.get (row * dimension + column) =
        .ok (left.type.cast (dotProduct left right dimension row column)) := by
  refine ⟨⟨?_, ?_⟩, fun product succeeds => ?_⟩
  · rintro ⟨product, succeeds⟩
    exact square_of_matrixProduct succeeds
  · rintro ⟨square, squareToo⟩
    exact ⟨_, matrixProduct_eq held square squareToo⟩
  · obtain ⟨square, squareToo⟩ := square_of_matrixProduct succeeds
    rw [matrixProduct_eq held square squareToo] at succeeds
    obtain rfl := Except.ok.inj succeeds
    refine ⟨rfl, ?_, fun row inside column within => ?_⟩
    · simp only [Tensor.ofValues, Tensor.count, List.length_map, List.length_flatMap,
        List.length_range, List.map_const', List.sum_replicate_nat]
    · have sizes (row : Nat) : ((List.range dimension).map
          (dotProduct left right dimension row)).length = dimension := by simp
      have found := getElem?_flatMap_range sizes inside within
      rw [List.getElem?_map, List.getElem?_range within] at found
      simp only [Tensor.get, Tensor.ofValues, List.getElem?_map, found]
      rfl

/-- Between two large terms that cancel each other the one is lost, since the terms are added from
left to right. A tensor of eight elements is no matrix of three rows, and nothing is one whose
number of elements no word holds. -/
theorem matrix_products_by_element_cancelling :
    let large (negative : Bool) : Scalar := .ofValue (.finite negative 1 53)
    let left : Tensor := .ofValues ([large false, .one, large true] ++ List.replicate 6 .one) .f64
    let right : Tensor := .full 9 .f64 .one
    (∃ product, @matrixProduct .checked .nearest left right 3 = .ok product ∧ product.count = 9 ∧
      product.get 1 = .ok .zero ∧ product.get 4 = .ok (.ofNat 3)) ∧
    (¬ ∃ product, @matrixProduct .checked .nearest left (.full 8 .f64 .one) 3 = .ok product) ∧
    ¬ ∃ product, @matrixProduct .wrapping .nearest (.zeros 0 .f64) (.zeros 0 .f64) (powerOfTwo 32) =
      .ok product := by
  intro large left right
  obtain ⟨exist, elements⟩ :=
    @matrix_products_by_element .checked .nearest left right 3 (.inr (by decide))
  obtain ⟨product, succeeds⟩ := exist.mpr ⟨by decide, by decide⟩
  obtain ⟨-, count, elements⟩ := elements product succeeds
  refine ⟨⟨product, succeeds, count, ?_, ?_⟩, ?_, ?_⟩
  · refine (elements 0 (by decide) 1 (by decide)).trans (congrArg Except.ok ?_)
    decide +kernel
  · refine (elements 1 (by decide) 1 (by decide)).trans (congrArg Except.ok ?_)
    decide +kernel
  · rw [(@matrix_products_by_element .checked .nearest left _ 3 (.inr (by decide))).1]
    decide
  · rw [(@matrix_products_by_element .wrapping .nearest _ _ (powerOfTwo 32) (.inr (by decide))).1]
    decide

end CollectiveBench
