import CollectiveBench.Sweep
import Mathlib.Algebra.Group.Nat.Defs

/-!
# Sweeps as progressions

A sweep in steps of some bytes is an arithmetic progression, and one by a factor is a geometric one:
of the first hundred terms the sweep has those that do not exceed the last size, and a notice says
whether the next term does not exceed it either (`Sweep.sizes_eq_progression`). Sizes stop growing
at the largest count there is. That shows nowhere, because a last size below this count has been
exceeded by then, by the exact term as well as by the count it was cut to.
-/

namespace CollectiveBench.Sweep

variable {next term : Nat → Nat} {last : Nat}

/-- A size beyond the last one adds nothing to a sweep. -/
theorem sizesFrom_beyond {size : Nat} (beyond : last < size) (next : Nat → Nat) (room : Nat) :
    sizesFrom next last room size = ([], false) := by
  cases room with
  | zero => simp [sizesFrom, beyond]
  | succ room => rw [sizesFrom, if_pos beyond]

/-- A rising progression has no terms in range once one of them is beyond the last size. -/
theorem terms_beyond (rising : ∀ index, term index < term (index + 1)) {index : Nat}
    (beyond : last < term index) (offset : Nat) : last < term (index + offset) := by
  induction offset with
  | zero => exact beyond
  | succ offset inductionHypothesis =>
    exact Nat.lt_trans inductionHypothesis (rising (index + offset))

/-- Sizes that follow a rising progression up to the last size are its terms up to the last size.
The step may miss a term that is beyond the last size, as long as it is beyond it as well. The
induction is on the room: each size is a term, or the sweep has ended. -/
theorem sizesFrom_eq (rising : ∀ index, term index < term (index + 1))
    (follows : ∀ index, term index ≤ last → next (term index) = term (index + 1) ∨
      last < next (term index) ∧ last < term (index + 1)) (room index : Nat) :
    sizesFrom next last room (term index) =
      (((List.range room).map fun offset => term (index + offset)).filter (· ≤ last),
        decide (term (index + room) ≤ last)) := by
  induction room generalizing index with
  | zero => rfl
  | succ room inductionHypothesis =>
    by_cases inside : term index ≤ last
    · have moves : next (term index) ≠ term index := by
        have grows := rising index
        rcases follows index inside with exact | ⟨beyond, _⟩ <;> omega
      have onward : sizesFrom next last room (next (term index)) =
          sizesFrom next last room (term (index + 1)) := by
        rcases follows index inside with exact | ⟨beyond, missed⟩
        · rw [exact]
        · rw [sizesFrom_beyond beyond, sizesFrom_beyond missed]
      have shifted (offset : Nat) : index + 1 + offset = index + (offset + 1) := by omega
      rw [sizesFrom, if_neg (Nat.not_lt.mpr inside), if_neg moves, onward, inductionHypothesis,
        List.range_succ_eq_map, List.map_cons, List.map_map, List.filter_cons_of_pos (by simpa)]
      simp only [shifted, Function.comp_def, Nat.add_zero, Nat.succ_eq_add_one]
    · have beyond : last < term index := Nat.lt_of_not_le inside
      have none : ((List.range (room + 1)).map fun offset => term (index + offset)).filter
          (· ≤ last) = [] := by
        simp [List.filter_eq_nil_iff, terms_beyond rising beyond]
      rw [sizesFrom_beyond beyond, none,
        decide_eq_false (Nat.not_le.mpr (terms_beyond rising beyond (room + 1)))]

/-- What a sweep has of a rising progression: those of the first hundred terms that do not exceed
the last size, and a notice if the next one does not exceed it either. -/
def ofTerms (term : Nat → Nat) (last : Nat) : List Nat × List Notice :=
  (((List.range 100).map term).filter (· ≤ last),
    if term 100 ≤ last then [⟨.error, "size sweep truncated"⟩] else [])

/-- Below the largest count, cutting a size to that count changes no sweep. -/
theorem sizes_eq_ofTerms {first factor stepBytes : Nat} (counted : last < ceiling)
    (begins : term 0 = first) (rising : ∀ index, term index < term (index + 1))
    (follows : ∀ index, Sweep.next factor stepBytes (term index) = min ceiling (term (index + 1))) :
    sizes first last factor stepBytes = ofTerms term last := by
  have onward (index : Nat) (_ : term index ≤ last) :
      Sweep.next factor stepBytes (term index) = term (index + 1) ∨
        last < Sweep.next factor stepBytes (term index) ∧ last < term (index + 1) := by
    rw [follows]
    omega
  have whole := sizesFrom_eq rising onward limit 0
  simp only [Nat.zero_add, begins] at whole
  rw [sizes, whole]
  simp only [decide_eq_true_eq]
  rfl

/-- A sweep up to a last size below the largest count is the progression that it is meant to be, of
which no term is left out, repeated or cut: in steps of some bytes the arithmetic one, and
otherwise, by a factor of at least two from a size that is not zero, the geometric one. It has those
of the first hundred terms that do not exceed the last size, and a notice exactly if the next term
does not exceed it either. -/
theorem sizes_eq_progression (first factor stepBytes : Nat) (counted : last < ceiling) :
    (1 ≤ stepBytes → sizes first last factor stepBytes =
      ofTerms (fun index => first + index * stepBytes) last) ∧
    (stepBytes = 0 → 2 ≤ factor → 1 ≤ first → sizes first last factor stepBytes =
      ofTerms (fun index => first * factor ^ index) last) := by
  constructor
  · intro moves
    have steps (index : Nat) : first + (index + 1) * stepBytes =
        first + index * stepBytes + stepBytes := by
      rw [Nat.add_mul, Nat.one_mul, Nat.add_assoc]
    refine sizes_eq_ofTerms counted (by simp) (fun index => ?_) fun index => ?_
    · rw [steps]
      omega
    · rw [Sweep.next, if_neg (by omega), steps]
  · rintro rfl grows positive
    have steps (index : Nat) : first * factor ^ (index + 1) = first * factor ^ index * factor := by
      rw [Nat.pow_succ, Nat.mul_assoc]
    have someBytes (index : Nat) : 0 < first * factor ^ index :=
      Nat.mul_pos positive (Nat.pow_pos (by omega))
    refine sizes_eq_ofTerms counted (by simp) (fun index => ?_) fun index => ?_
    · rw [steps]
      exact (Nat.lt_mul_iff_one_lt_right (someBytes index)).mpr grows
    · rw [Sweep.next, if_pos rfl, steps]

/-- The powers of three that come before the largest count are a sweep, and the next power is beyond
64 bits. With steps of one byte a hundred sizes are a sweep as well, and one more is left out with a
notice. -/
theorem sizes_eq_progression_edges :
    sizes 1 (ceiling - 1) 3 0 = ((List.range 41).map (3 ^ ·), []) ∧ ceiling < 3 ^ 41 ∧
      sizes 7 106 2 1 = ((List.range 100).map (7 + ·), []) ∧
      sizes 7 107 2 1 =
        ((List.range 100).map (7 + ·), [⟨.error, "size sweep truncated"⟩]) := by
  refine ⟨?_, by decide +kernel, ?_, ?_⟩
  · exact ((sizes_eq_progression 1 3 0 (by decide)).2 rfl (by decide) (by decide)).trans
      (by decide +kernel)
  · exact ((sizes_eq_progression 7 2 1 (by decide)).1 (by decide)).trans (by decide +kernel)
  · exact ((sizes_eq_progression 7 2 1 (by decide)).1 (by decide)).trans (by decide +kernel)

end CollectiveBench.Sweep
