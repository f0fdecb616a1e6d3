import CollectiveBench.Proofs.CommandLine

/-!
# Sweeps of checked parameters

A sweep grows as long as its step does: then it starts with its first size, rises strictly, stays
between its first and its last size and has no more sizes than there is room for
(`Sweep.isSweep_sizesFrom`). That a step grows is for the most part checked beforehand. The check
lets a single size pass with any factor, though, and a factor of zero leads from that size down
to zero, so this one case has a sweep that is none.
-/

namespace CollectiveBench

namespace Sweep

/-- Sizes that start with the first one, rise strictly and go no further than to the last one, and
no more of them than there is room for. -/
structure IsSweep (first last room : Nat) (sizes : List Nat) : Prop where
  starts : sizes.head? = some first
  bounded : sizes.length ≤ room
  rising : sizes.Pairwise (· < ·)
  within : ∀ size ∈ sizes, first ≤ size ∧ size ≤ last

namespace IsSweep

variable {first last room size : Nat} {sizes : List Nat}

/-- A size alone is a sweep. -/
theorem single (inside : size ≤ last) : IsSweep size last (room + 1) [size] where
  starts := rfl
  bounded := Nat.succ_le_succ (Nat.zero_le room)
  rising := List.pairwise_singleton _ _
  within := by simpa using inside

/-- A smaller size goes before a sweep. -/
theorem cons (sweep : IsSweep first last room sizes) (smaller : size < first) :
    IsSweep size last (room + 1) (size :: sizes) where
  starts := rfl
  bounded := Nat.succ_le_succ sweep.bounded
  rising := by
    refine List.pairwise_cons.mpr ⟨fun other listed => ?_, sweep.rising⟩
    exact Nat.lt_of_lt_of_le smaller (sweep.within other listed).1
  within := by
    have upper : first ≤ last := (sweep.within first (List.mem_of_head? sweep.starts)).2
    rintro other (_ | ⟨_, listed⟩)
    · exact ⟨Nat.le_refl size, by omega⟩
    · have bounds := sweep.within other listed
      exact ⟨by omega, bounds.2⟩

end IsSweep

/-- A step that never shrinks a size between the first and the last one makes a sweep. The
induction is on the room: a size that is reached is larger than the one before, or the last of the
sweep. -/
theorem isSweep_sizesFrom {next : Nat → Nat} {first last : Nat}
    (onward : ∀ size, first ≤ size → size ≤ last → size ≤ next size) (room : Nat) {size : Nat}
    (lower : first ≤ size) (upper : size ≤ last) :
    IsSweep size last (room + 1) (sizesFrom next last (room + 1) size).1 := by
  induction room generalizing size with
  | zero =>
    rw [sizesFrom, if_neg (Nat.not_lt.mpr upper)]
    split
    · exact .single upper
    · exact .single upper
  | succ room inductionHypothesis =>
    rw [sizesFrom, if_neg (Nat.not_lt.mpr upper)]
    split
    next => exact .single upper
    next moves =>
      have larger : size < next size := Nat.lt_of_le_of_ne (onward size lower upper) (Ne.symm moves)
      by_cases inside : next size ≤ last
      · exact (inductionHypothesis (Nat.le_trans lower (Nat.le_of_lt larger)) inside).cons larger
      · have beyond : sizesFrom next last (room + 1) (next size) = ([], false) := by
          rw [sizesFrom, if_pos (Nat.lt_of_not_le inside)]
        rw [beyond]
        exact .single upper

/-- A step of some bytes never shrinks a size that a machine can count to, and a factor that is not
zero does not either. Of zero nothing but zero can come. -/
theorem le_next {factor stepBytes size : Nat} (counted : size ≤ ceiling)
    (grows : stepBytes = 0 → factor = 0 → size = 0) : size ≤ next factor stepBytes size := by
  rw [next]
  split
  next still =>
    refine Nat.le_min.mpr ⟨counted, ?_⟩
    by_cases vanishing : factor = 0
    · rw [grows still vanishing]
      exact Nat.zero_le _
    · exact Nat.le_mul_of_pos_right size (Nat.pos_of_ne_zero vanishing)
  next => exact Nat.le_min.mpr ⟨counted, Nat.le_add_right size stepBytes⟩

end Sweep

namespace Params

variable {params : Params}

/-- Checked parameters do not end before they begin, and without a step of bytes they have a
single size or a factor that lets sizes grow. -/
theorem sweep_of_check (checked : params.check.1 = .ok ()) :
    params.beginSize ≤ params.endSize ∧
      (params.stepBytes = 0 → params.stepFactor < 2 → params.beginSize = params.endSize) := by
  have consistent := consistent_of_check checked
  rw [checkConsistency] at consistent
  obtain ⟨_, consistent⟩ := guard_eq_ok consistent
  obtain ⟨_, _, consistent⟩ := bind_eq_ok consistent
  obtain ⟨ordered, consistent⟩ := guard_eq_ok consistent
  obtain ⟨stepping, _⟩ := guard_eq_ok consistent
  refine ⟨Nat.le_of_not_lt ordered, fun still slow => ?_⟩
  by_contra different
  exact stepping ⟨still, slow, different⟩

/-- Without a step of bytes and with a factor of zero a single size is followed by zero. -/
theorem sizes_vanishing (single : params.beginSize = params.endSize) (still : params.stepBytes = 0)
    (vanishing : params.stepFactor = 0) (something : params.beginSize ≠ 0) :
    params.sizes.1 = [params.beginSize, 0] := by
  have falls (size : Nat) : Sweep.next 0 0 size = 0 := by simp [Sweep.next]
  rw [sizes, Sweep.sizes, ← single, still, vanishing]
  simp [Sweep.limit, Sweep.sizesFrom, falls, Ne.symm something]

/-- Parameters that pass the check, with sizes that a machine can count to, have a proper sweep:
it starts with the first size, rises strictly, stays between the first and the last size and has
a hundred sizes at most. The only ones that do not are those of a single size with neither a step
of bytes nor a factor, whose sweep goes on to zero. -/
theorem checked_sweep_proper (checked : params.check.1 = .ok ())
    (counted : params.endSize ≤ Sweep.ceiling) :
    (Sweep.IsSweep params.beginSize params.endSize Sweep.limit params.sizes.1 ↔
      ¬ (params.stepBytes = 0 ∧ params.stepFactor = 0 ∧ params.beginSize ≠ 0)) ∧
    (params.stepBytes = 0 ∧ params.stepFactor = 0 ∧ params.beginSize ≠ 0 →
      params.sizes.1 = [params.beginSize, 0]) := by
  obtain ⟨ordered, single⟩ := sweep_of_check checked
  have falls (flawed : params.stepBytes = 0 ∧ params.stepFactor = 0 ∧ params.beginSize ≠ 0) :
      params.sizes.1 = [params.beginSize, 0] := by
    obtain ⟨still, vanishing, something⟩ := flawed
    exact sizes_vanishing (single still (by omega)) still vanishing something
  refine ⟨⟨fun sweep flawed => ?_, fun sane => ?_⟩, falls⟩
  · have bounds := sweep.within 0 (by simp [falls flawed])
    exact flawed.2.2 (Nat.le_zero.mp bounds.1)
  · refine Sweep.isSweep_sizesFrom (fun size lower upper => ?_) 99 (Nat.le_refl _) ordered
    refine Sweep.le_next (Nat.le_trans upper counted) fun still vanishing => ?_
    -- Without any step there is one size, and it is zero.
    have only := single still (by omega)
    have nothing : params.beginSize = 0 := by
      by_contra something
      exact sane ⟨still, vanishing, something⟩
    omega

/-- A factor of three leads from one byte to the largest count there is, which ends the sweep. -/
theorem checked_sweep_proper_saturated :
    let params : Params := { beginSize := 1, endSize := Sweep.ceiling, stepFactor := 3 }
    params.check.1 = .ok () ∧ params.endSize ≤ Sweep.ceiling ∧
      Sweep.IsSweep 1 Sweep.ceiling 100 params.sizes.1 ∧
      params.sizes.1.getLast? = some Sweep.ceiling := by
  intro params
  have checked : params.check.1 = .ok () := by decide +kernel
  have counted : params.endSize ≤ Sweep.ceiling := Nat.le_refl _
  exact ⟨checked, counted, (checked_sweep_proper checked counted).1.mpr (by decide),
    by decide +kernel⟩

/-- A single size of eight bytes with a factor of zero passes the check, and its sweep has a second
size, which is smaller than the first and outside of the sweep. -/
theorem checked_sweep_falls :
    let params : Params := { beginSize := 8, endSize := 8, stepFactor := 0 }
    params.check.1 = .ok () ∧ params.sizes.1 = [8, 0] ∧
      ¬ params.sizes.1.Pairwise (· < ·) ∧
      ¬ ∀ size ∈ params.sizes.1, params.beginSize ≤ size ∧ size ≤ params.endSize := by
  decide +kernel

end Params

end CollectiveBench
