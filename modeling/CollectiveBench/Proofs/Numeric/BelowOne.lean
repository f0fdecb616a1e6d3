import CollectiveBench.Proofs.Numeric.Counting

/-!
# Values below one

A value between zero and one is rounded to one or to a value below one, and where the border is
depends on the fraction bits of the format alone: it is half a place below the last value before
one, a distance of `2 ^ -(fractionBits + 2)` (`NearOne`). The border itself is a tie and goes to
one, whose fraction is even (`Format.Counts.magnitudeOf_fraction`). What the words below that of one
stand for is farther from one than any wider format's border (`Format.Counts.decode_lt_one`), so a
value that was told from one in a narrow format is told from it in a wider one too.
-/

namespace CollectiveBench.Numeric

/-- `significand / 2 ^ places` lacks no more than `2 ^ -distance` to one. -/
def NearOne (distance significand places : Nat) : Prop :=
  powerOfTwo distance * (powerOfTwo places - significand) ≤ powerOfTwo places

/-- The value is `significand / 2 ^ places`, at least zero and less than one. -/
inductive Value.IsFraction : Value → Nat → Nat → Prop
  | part {significand places : Nat} (below : significand < powerOfTwo places) :
    IsFraction (.finite false significand (-places)) significand places
  | zero (negative : Bool) (exponent : Int) : IsFraction (.finite negative 0 exponent) 0 0

section

variable {distance other significand places : Nat}

/-- What is near to one is more than a half. -/
theorem NearOne.half (near : NearOne (distance + 1) significand places) :
    powerOfTwo places ≤ 2 * significand := by
  have twice : 2 * (powerOfTwo places - significand) ≤ powerOfTwo places := by
    refine Nat.le_trans (Nat.mul_le_mul_right _ ?_) near
    rw [powerOfTwo_succ]
    exact Nat.le_mul_of_pos_right 2 (powerOfTwo_pos distance)
  omega

/-- What is near to one is near at smaller distances only. -/
theorem NearOne.mono (near : NearOne other significand places) (le : distance ≤ other) :
    NearOne distance significand places :=
  Nat.le_trans (Nat.mul_le_mul_right _ (powerOfTwo_le le)) near

/-- Zero is not near one. -/
theorem not_nearOne_zero : ¬ NearOne (distance + 1) 0 0 := fun near => by
  have half := near.half
  have some := powerOfTwo_pos 0
  omega

/-- A quotient below an even number is rounded to it if it lacks a half at most. -/
theorem roundQuotient_eq_iff {numerator denominator target : Nat} (even : target % 2 = 0)
    (below : numerator < target * denominator) :
    roundQuotient numerator denominator = target ↔
      2 * (target * denominator) ≤ 2 * numerator + denominator := by
  have some : 0 < denominator := Nat.pos_of_ne_zero fun none => by simp [none] at below
  have parts := Nat.div_add_mod numerator denominator
  have rest := Nat.mod_lt numerator some
  have less : numerator / denominator < target := (Nat.div_lt_iff_lt_mul some).mpr below
  rw [Nat.mul_comm] at parts
  rcases Nat.lt_or_eq_of_le less with far | last
  · have room := Nat.mul_le_mul_right denominator far
    rw [Nat.succ_mul, Nat.succ_mul] at room
    have upper := (div_le_roundQuotient numerator denominator).2
    refine iff_of_false (fun same => ?_) (by omega)
    omega
  · obtain rfl : target = numerator / denominator + 1 := last.symm
    rw [Nat.add_mul, Nat.one_mul] at below ⊢
    simp only [roundQuotient]
    split
    next lower => exact iff_of_false (by omega) (by omega)
    next upper => exact iff_of_true rfl (by omega)

end

namespace Format

variable {format : Format} {significand places word : Nat}

/-- The word of one has an empty fraction. -/
theorem Counts.word_one (counts : format.Counts) :
    format.word 1 =
      (powerOfTwo (format.exponentBits - 1) - 1) * powerOfTwo format.fractionBits := by
  have range := counts.range
  have exponents := counts.exponents
  have log : Nat.log2 1 = 0 := by decide
  have significand : format.significandOf 1 = powerOfTwo format.fractionBits := by
    rw [significandOf, log, Nat.sub_zero, Nat.zero_sub, Nat.one_mul]
    exact roundQuotient_one _
  have unit : format.binadeOf 1 + 1 = powerOfTwo (format.exponentBits - 1) - 1 := by
    rw [binadeOf, log]
    omega
  rw [counts.word_eq Nat.one_pos, significand, ← Nat.succ_mul, Nat.succ_eq_add_one, unit, infinity]
  exact Nat.min_eq_right (Nat.mul_le_mul_right _ (by omega))

/-- The word of one is not that of zero. -/
theorem Counts.word_one_pos (counts : format.Counts) : 0 < format.word 1 := by
  have range := counts.range
  rw [counts.word_one]
  exact Nat.mul_pos (by omega) (powerOfTwo_pos _)

/-- A significand is rounded up to the next power of two where its value, moved below one, is near
to one. -/
theorem significandOf_eq_iff (format : Format) (some : 0 < significand) :
    format.significandOf significand = powerOfTwo (format.fractionBits + 1) ↔
      NearOne (format.fractionBits + 2) significand (significand.log2 + 1) := by
  obtain ⟨_, most⟩ := (log2_eq_iff some).mp rfl
  -- Both sides are multiplied until the denominator is the unit above the significand.
  have above : powerOfTwo (significand.log2 + 1) =
      powerOfTwo (significand.log2 - format.fractionBits) *
        powerOfTwo (significand.log2 + 1 - (significand.log2 - format.fractionBits)) := by
    rw [← powerOfTwo_add]
    congr 1
    omega
  have wide : powerOfTwo (format.fractionBits + 2) =
      2 * powerOfTwo (format.fractionBits - significand.log2) *
        powerOfTwo (significand.log2 + 1 - (significand.log2 - format.fractionBits)) := by
    rw [← powerOfTwo_succ, ← powerOfTwo_add]
    congr 1
    omega
  have below : significand * powerOfTwo (format.fractionBits - significand.log2) <
      powerOfTwo (format.fractionBits + 1) *
        powerOfTwo (significand.log2 - format.fractionBits) := by
    refine Nat.lt_of_lt_of_le (Nat.mul_lt_mul_of_pos_right most (powerOfTwo_pos _)) ?_
    rw [← powerOfTwo_add, ← powerOfTwo_add]
    exact powerOfTwo_le (by omega)
  have even : powerOfTwo (format.fractionBits + 1) % 2 = 0 := by
    rw [powerOfTwo_succ]
    exact Nat.mul_mod_right 2 _
  have double : powerOfTwo (format.fractionBits + 2) =
      2 * powerOfTwo (format.fractionBits + 1) := powerOfTwo_succ _
  have lacks : powerOfTwo (format.fractionBits + 2) *
      (powerOfTwo (significand.log2 + 1) - significand) =
      (2 * (powerOfTwo (format.fractionBits + 1) *
        powerOfTwo (significand.log2 - format.fractionBits)) -
          2 * (significand * powerOfTwo (format.fractionBits - significand.log2))) *
        powerOfTwo (significand.log2 + 1 - (significand.log2 - format.fractionBits)) := by
    rw [Nat.mul_sub, Nat.sub_mul]
    congr 1
    · rw [above, double]
      ring
    · rw [wide]
      ring
  rw [significandOf, roundQuotient_eq_iff even below, NearOne, lacks, above,
    Nat.mul_le_mul_right_iff (powerOfTwo_pos _)]
  omega

/-- The magnitude of a value in the normal range, from its binade and its significand. -/
theorem magnitudeOf_normal (format : Format) (some : 0 < significand)
    (normal : -(places : Int) + significand.log2 - format.fractionBits ≥ format.leastExponent) :
    format.magnitudeOf significand 1 (-places) = min format.infinity
      ((-(places : Int) + significand.log2 - format.fractionBits - format.leastExponent).toNat *
        powerOfTwo format.fractionBits + format.significandOf significand) := by
  have above : (-(places : Int) -
    (-(places : Int) + significand.log2 - format.fractionBits)).toNat =
      format.fractionBits - significand.log2 := by omega
  have under : (-(places : Int) + significand.log2 - format.fractionBits - -(places : Int)).toNat =
      significand.log2 - format.fractionBits := by omega
  simp only [magnitudeOf, if_neg (Nat.ne_of_gt some), quotientLog2_one some,
    Int.max_eq_right normal, above, under, Nat.one_mul, significandOf]

/-- The magnitude of a value below the normal range is at most that of the least value in it. -/
theorem magnitudeOf_subnormal (format : Format) (some : 0 < significand)
    (small : -(places : Int) + significand.log2 - format.fractionBits < format.leastExponent) :
    format.magnitudeOf significand 1 (-places) ≤ powerOfTwo format.fractionBits := by
  obtain ⟨_, most⟩ := (log2_eq_iff some).mp rfl
  have place : max format.leastExponent
      (-(places : Int) + significand.log2 - format.fractionBits) = format.leastExponent :=
    Int.max_eq_left (Int.le_of_lt small)
  have below : significand * powerOfTwo (-(places : Int) - format.leastExponent).toNat <
      powerOfTwo format.fractionBits *
        (1 * powerOfTwo (format.leastExponent - -(places : Int)).toNat) := by
    refine Nat.lt_of_lt_of_le (Nat.mul_lt_mul_of_pos_right most (powerOfTwo_pos _)) ?_
    rw [Nat.one_mul, ← powerOfTwo_add, ← powerOfTwo_add]
    exact powerOfTwo_le (by omega)
  have rounded := (div_le_roundQuotient
    (significand * powerOfTwo (-(places : Int) - format.leastExponent).toNat)
    (1 * powerOfTwo (format.leastExponent - -(places : Int)).toNat)).2
  have quotient := (Nat.div_lt_iff_lt_mul
    (Nat.mul_pos Nat.one_pos (powerOfTwo_pos _))).mpr below
  simp only [magnitudeOf, if_neg (Nat.ne_of_gt some), quotientLog2_one some, place, Int.sub_self,
    Int.toNat_zero, Nat.zero_mul, Nat.zero_add]
  omega

/-- A value below one is rounded to one if it is near to one, and to a smaller magnitude
otherwise. -/
theorem Counts.magnitudeOf_fraction (counts : format.Counts) (some : 0 < significand)
    (below : significand < powerOfTwo places) :
    (NearOne (format.fractionBits + 2) significand places →
      format.magnitudeOf significand 1 (-places) = format.word 1) ∧
    (¬ NearOne (format.fractionBits + 2) significand places →
      format.magnitudeOf significand 1 (-places) < format.word 1) := by
  have range := counts.range
  have unit := powerOfTwo_pos format.fractionBits
  obtain ⟨least, most⟩ := (log2_eq_iff some).mp rfl
  obtain ⟨_, carried⟩ := format.significandOf_bounds some
  have double : powerOfTwo (format.fractionBits + 1) = 2 * powerOfTwo format.fractionBits :=
    powerOfTwo_succ _
  have inside : significand.log2 < places :=
    (Nat.pow_lt_pow_iff_right Nat.one_lt_two).mp (Nat.lt_of_le_of_lt least below)
  have lowest : format.leastExponent =
      2 - (powerOfTwo (format.exponentBits - 1) : Int) - format.fractionBits := rfl
  -- Only in the binade right below one a value may be near to it.
  have binade (near : NearOne (format.fractionBits + 2) significand places) :
      places = significand.log2 + 1 := by
    have half := near.half
    have above : powerOfTwo (significand.log2 + 2) = 2 * powerOfTwo (significand.log2 + 1) :=
      powerOfTwo_succ _
    have close : places < significand.log2 + 2 :=
      (Nat.pow_lt_pow_iff_right Nat.one_lt_two).mp
        (Nat.lt_of_le_of_lt half (show _ < powerOfTwo _ by omega))
    omega
  rw [counts.word_one]
  rcases Int.lt_or_le (-(places : Int) + significand.log2 - format.fractionBits)
    format.leastExponent with small | normal
  · refine ⟨fun near => ?_, fun _ => ?_⟩
    · have close := binade near
      omega
    · refine Nat.lt_of_le_of_lt (format.magnitudeOf_subnormal some small) ?_
      exact (Nat.lt_mul_iff_one_lt_left unit).mpr (by omega)
  · rw [format.magnitudeOf_normal some normal]
    obtain ⟨lower, position⟩ : ∃ lower : Nat, lower + (places - significand.log2) + 1 =
        powerOfTwo (format.exponentBits - 1) - 1 ∧
        (-(places : Int) + significand.log2 - format.fractionBits -
          format.leastExponent).toNat = lower := ⟨_, by omega, rfl⟩
    rw [position.2, ← position.1]
    refine ⟨fun near => ?_, fun far => ?_⟩
    · -- The carry reaches the word of one, which is far from infinity.
      obtain rfl := binade near
      have within : (lower + 2) * powerOfTwo format.fractionBits ≤ format.infinity :=
        Nat.mul_le_mul_right _ (by have := counts.exponents; omega)
      rw [(format.significandOf_eq_iff some).mpr near, double, ← Nat.add_mul,
        Nat.min_eq_right within]
      congr 1
      omega
    · refine Nat.lt_of_le_of_lt (Nat.min_le_right _ _) ?_
      by_cases last : places = significand.log2 + 1
      · subst last
        have short := mt (format.significandOf_eq_iff some).mp far
        have room : (lower + 2) * powerOfTwo format.fractionBits =
            lower * powerOfTwo format.fractionBits + 2 * powerOfTwo format.fractionBits :=
          Nat.add_mul _ _ _
        rw [show lower + (significand.log2 + 1 - significand.log2) + 1 = lower + 2 by omega]
        omega
      · have room : (lower + 3) * powerOfTwo format.fractionBits ≤
            (lower + (places - significand.log2) + 1) * powerOfTwo format.fractionBits :=
          Nat.mul_le_mul_right _ (by omega)
        rw [Nat.add_mul lower 3] at room
        omega

/-- The value of a word with an empty exponent field. -/
theorem Counts.decode_subnormal (counts : format.Counts)
    (small : significand < powerOfTwo format.fractionBits) :
    format.decode significand = .finite false significand format.leastExponent := by
  have range := counts.range
  have exponents := counts.exponents
  have unsigned : significand.testBit (format.fractionBits + format.exponentBits) = false :=
    Nat.testBit_lt_two_pow (Nat.lt_of_lt_of_le small (powerOfTwo_le (Nat.le_add_right _ _)))
  have shifted : significand >>> format.fractionBits = 0 := by
    rw [Nat.shiftRight_eq_div_pow]
    exact Nat.div_eq_of_lt small
  simp only [decode, unsigned, shifted, Nat.zero_mod, Nat.mod_eq_of_lt small]
  rw [if_neg (by omega), if_pos trivial]

/-- A word below that of one stands for a value that is told from one, in wider formats as well. -/
theorem Counts.decode_lt_one (counts : format.Counts) (less : word < format.word 1) :
    ∃ significand places, (format.decode word).IsFraction significand places ∧
      ¬ NearOne (format.fractionBits + 2) significand places := by
  have range := counts.range
  have exponents := counts.exponents
  have unit := powerOfTwo_pos format.fractionBits
  have double : powerOfTwo (format.fractionBits + 1) = 2 * powerOfTwo format.fractionBits :=
    powerOfTwo_succ _
  have quadruple : powerOfTwo (format.fractionBits + 2) =
      2 * powerOfTwo (format.fractionBits + 1) := powerOfTwo_succ _
  have fraction := Nat.mod_lt word unit
  have parts := Nat.div_add_mod' word (powerOfTwo format.fractionBits)
  rw [counts.word_one] at less
  have field := (Nat.div_lt_iff_lt_mul unit).mpr less
  rcases Nat.eq_zero_or_pos (word / powerOfTwo format.fractionBits) with empty | normal
  · have small : word < powerOfTwo format.fractionBits := (Nat.div_eq_zero_iff_lt unit).mp empty
    obtain ⟨places, least⟩ : ∃ places : Nat, format.leastExponent = -(places : Int) :=
      ⟨(-format.leastExponent).toNat, by rw [leastExponent]; omega⟩
    have deep : format.fractionBits + 1 ≤ places := by
      rw [leastExponent] at least
      omega
    have above := powerOfTwo_le deep
    refine ⟨word, places, ?_, fun near => ?_⟩
    · rw [counts.decode_subnormal small, least]
      exact .part (by omega)
    · have half := near.half
      omega
  · obtain ⟨places, exponent⟩ : ∃ places : Nat, format.leastExponent +
        (word / powerOfTwo format.fractionBits : Nat) - 1 = -(places : Int) :=
      ⟨(1 - format.leastExponent - (word / powerOfTwo format.fractionBits : Nat)).toNat, by
        rw [leastExponent]; omega⟩
    have deep : format.fractionBits + 1 ≤ places := by
      rw [leastExponent] at exponent
      omega
    have above := powerOfTwo_le deep
    refine ⟨powerOfTwo format.fractionBits + word % powerOfTwo format.fractionBits, places, ?_,
      fun near => ?_⟩
    · have fields := format.decode_fields normal (by omega) fraction
      rw [parts, exponent] at fields
      rw [fields]
      exact .part (by omega)
    · have half := near.half
      have close : places < format.fractionBits + 2 :=
        (Nat.pow_lt_pow_iff_right Nat.one_lt_two).mp
          (Nat.lt_of_le_of_lt half (show _ < powerOfTwo _ by omega))
      obtain rfl : places = format.fractionBits + 1 := by omega
      have lacks : powerOfTwo (format.fractionBits + 2) ≤ powerOfTwo (format.fractionBits + 1) :=
        Nat.le_trans (Nat.le_mul_of_pos_right _ (by omega)) near
      omega

/-- The sign bit alone stands for zero. -/
theorem Counts.decode_signUnit (counts : format.Counts) :
    format.decode format.signUnit = .finite true 0 format.leastExponent := by
  have range := counts.range
  have exponents := counts.exponents
  have negative : format.signUnit.testBit (format.fractionBits + format.exponentBits) = true :=
    Nat.testBit_two_pow_self
  have shifted : format.signUnit >>> format.fractionBits = powerOfTwo format.exponentBits := by
    rw [Nat.shiftRight_eq_div_pow, signUnit, powerOfTwo_add]
    exact Nat.mul_div_cancel_left _ (powerOfTwo_pos _)
  have rest : format.signUnit % powerOfTwo format.fractionBits = 0 := by
    rw [signUnit, powerOfTwo_add]
    exact Nat.mul_mod_right _ _
  simp only [decode, negative, shifted, rest, Nat.mod_self]
  rw [if_neg (by omega), if_pos trivial]

end Format

namespace Value.IsFraction

variable {value : Value} {significand places : Nat}

/-- What a format makes of a value below one: one if the value is near to one, and otherwise a value
below one that is told from it. -/
theorem encode (fraction : value.IsFraction significand places) {format : Format}
    (counts : format.Counts) :
    (NearOne (format.fractionBits + 2) significand places → format.encode value = format.word 1) ∧
    (¬ NearOne (format.fractionBits + 2) significand places →
      ∃ significand places, (format.decode (format.encode value)).IsFraction significand places ∧
        ¬ NearOne (format.fractionBits + 2) significand places) := by
  cases fraction with
  | part below =>
    rcases Nat.eq_zero_or_pos significand with rfl | some
    · refine ⟨fun near => ?_, fun _ => counts.decode_lt_one ?_⟩
      · have half := near.half
        have unit := powerOfTwo_pos places
        omega
      · exact counts.word_one_pos
    · obtain ⟨one, less⟩ := counts.magnitudeOf_fraction some below
      exact ⟨one, fun far => counts.decode_lt_one (less far)⟩
  | zero negative exponent =>
    refine ⟨fun near => absurd near not_nearOne_zero, fun _ => ?_⟩
    cases negative with
    | false => exact counts.decode_lt_one counts.word_one_pos
    | true =>
      refine ⟨0, 0, ?_, not_nearOne_zero⟩
      show (format.decode format.signUnit).IsFraction 0 0
      rw [counts.decode_signUnit]
      exact .zero true format.leastExponent

/-- A value below one is converted by writing it into the other format. -/
theorem convert {source target : Format} {word : Nat}
    (fraction : (source.decode word).IsFraction significand places) :
    source.convert target word = target.encode (source.decode word) := by
  unfold Format.convert
  split
  next missing =>
    rw [missing] at fraction
    cases fraction
  next => rfl

/-- A value below one equals no natural number but zero. -/
theorem compare?_ne (fraction : value.IsFraction significand places) {right : Value} {count : Nat}
    (denotes : right.Denotes count) (positive : 0 < count) : value.compare? right ≠ some .eq := by
  cases fraction with
  | part below =>
    obtain @⟨other, exponent, amounts⟩ := denotes
    have whole := (amounts.lower (Int.min_le_right (-(places : Int)) exponent)).eq
      (show ((0 : Nat) : Int) - ((-min (-(places : Int)) exponent).toNat : Nat) =
        min (-(places : Int)) exponent by omega)
    have unit : powerOfTwo (-min (-(places : Int)) exponent).toNat =
        powerOfTwo places * powerOfTwo
          (-(places : Int) - min (-(places : Int)) exponent).toNat := by
      rw [← powerOfTwo_add]
      congr 1
      omega
    have less := Nat.mul_lt_mul_of_pos_right below
      (powerOfTwo_pos (-(places : Int) - min (-(places : Int)) exponent).toNat)
    have most := Nat.le_mul_of_pos_left
      (powerOfTwo (-min (-(places : Int)) exponent).toNat) positive
    rw [compare?, scaled_false, scaled_false, ne_eq, Option.some.injEq, compare_eq_iff_eq,
      Int.natCast_inj]
    rw [← unit] at less
    rw [show powerOfTwo 0 = 1 from rfl, Nat.mul_one] at whole
    omega
  | zero negative lowest =>
    intro same
    cases negative with
    | false =>
      have nothing : (Value.finite false 0 lowest).Denotes 0 := .finite (by simp [Amounts])
      have equal := (nothing.compare?_eq denotes).mp same
      omega
    | true => exact denotes.compare?_ne positive (by simp) (compare?_swap same)

/-- A value below one is not infinite. -/
theorem compare?_infinite (fraction : value.IsFraction significand places) (negative : Bool) :
    value.compare? (.infinite negative) ≠ some .eq := by
  cases fraction <;> cases negative <;> simp [compare?]

/-- Nothing is left of a value below one when it is cut to an integer. -/
theorem truncate_eq (fraction : value.IsFraction significand places) (least greatest : Int) :
    value.truncate least greatest = max least (min greatest 0) := by
  cases fraction with
  | part below =>
    have above : (-(places : Int)).toNat = 0 := by omega
    have under : (-(-(places : Int))).toNat = places := by omega
    simp only [truncate, above, under, show powerOfTwo 0 = 1 from rfl, Nat.mul_one,
      Nat.div_eq_of_lt below]
    rfl
  | zero negative exponent =>
    simp only [truncate, Nat.zero_mul, Nat.zero_div]
    cases negative <;> rfl

end Value.IsFraction

/-! ## Scalars -/

namespace Scalar

variable {scalar : Scalar} {significand places : Nat}

/-- The scalar that lacks `2 ^ -distance` to one. -/
def nearOne (distance : Nat) : Scalar :=
  .ofValue (.finite false (powerOfTwo distance - 1) (-distance))

/-- A scalar is at most another exactly if its value compares as less or equal. -/
theorem le_iff {left right : Scalar} : left.le right ↔
    left.value.compare? right.value = some .lt ∨ left.value.compare? right.value = some .eq := by
  simp [le, lt, beq]

/-- A scalar from zero to one without one. -/
theorem exists_fraction (lower : Scalar.zero.le scalar) (upper : scalar.lt .one) :
    ∃ significand places, scalar.value.IsFraction significand places := by
  have zero : Scalar.zero.value = .finite false 0 (-1074) := by decide +kernel
  have one : Scalar.one.value = .finite false (powerOfTwo 52) (-52) := by decide +kernel
  rw [le_iff, zero] at lower
  rw [lt, beq_iff_eq, one] at upper
  cases found : scalar.value with
  | nan => simp [found, Value.compare?] at upper
  | infinite negative => cases negative <;> simp [found, Value.compare?] at lower upper
  | finite negative significand exponent =>
    rw [found] at lower upper
    rcases Nat.eq_zero_or_pos significand with rfl | some
    · exact ⟨0, 0, .zero negative exponent⟩
    · have positive : negative = false := by
        cases negative with
        | false => rfl
        | true =>
          have less := Nat.mul_pos some (powerOfTwo_pos (exponent - min (-1074) exponent).toNat)
          simp only [Value.compare?, Option.some.injEq, compare_lt_iff_lt, compare_eq_iff_eq,
            Value.scaled, signed, if_true, Bool.false_eq_true, if_false, Nat.zero_mul] at lower
          omega
      subst positive
      rw [Value.compare?, Option.some.injEq, compare_lt_iff_lt, Value.scaled_false,
        Value.scaled_false, Int.ofNat_lt, ← powerOfTwo_add,
        show 52 + ((-52 : Int) - min exponent (-52)).toNat = (-min exponent (-52)).toNat by omega]
        at upper
      rcases Int.lt_or_le exponent 0 with falling | rising
      · obtain ⟨places, rfl⟩ : ∃ places : Nat, exponent = -(places : Int) :=
          ⟨(-exponent).toNat, by omega⟩
        rw [show (-min (-(places : Int)) (-52)).toNat =
          places + (-(places : Int) - min (-(places : Int)) (-52)).toNat by omega,
          powerOfTwo_add] at upper
        exact ⟨significand, places, .part (Nat.lt_of_mul_lt_mul_right upper)⟩
      · have large : powerOfTwo (-min exponent (-52)).toNat ≤
            powerOfTwo (exponent - min exponent (-52)).toNat := powerOfTwo_le (by omega)
        have most := Nat.le_mul_of_pos_left (powerOfTwo (exponent - min exponent (-52)).toNat) some
        omega

/-- A scalar below one is near to one from the scalar on that lacks just so much. -/
theorem nearOne_le_iff (fraction : scalar.value.IsFraction significand places) {distance : Nat}
    (some : 0 < distance) (short : distance ≤ 53)
    (border : (nearOne distance).value =
      .finite false ((powerOfTwo distance - 1) * powerOfTwo (53 - distance)) (-53)) :
    (nearOne distance).le scalar ↔ NearOne distance significand places := by
  have wide : 2 ≤ powerOfTwo distance := powerOfTwo_le some
  rw [le_iff, border]
  generalize scalar.value = value at fraction
  cases fraction with
  | zero negative exponent =>
    obtain ⟨lower, rfl⟩ := Nat.exists_eq_add_one_of_ne_zero (Nat.ne_of_gt some)
    have above := Nat.mul_pos (Nat.mul_pos (show 0 < powerOfTwo (lower + 1) - 1 by omega)
      (powerOfTwo_pos (53 - (lower + 1)))) (powerOfTwo_pos (-53 - min (-53) exponent).toNat)
    refine iff_of_false ?_ not_nearOne_zero
    rw [Value.compare?, Value.scaled_false]
    simp only [Option.some.injEq, compare_lt_iff_lt, compare_eq_iff_eq, Value.scaled, signed,
      Nat.zero_mul, Int.natCast_zero, Int.neg_zero, ite_self]
    omega
  | part below =>
    rw [Value.compare?, Value.scaled_false, Value.scaled_false]
    simp only [Option.some.injEq, compare_lt_iff_lt, compare_eq_iff_eq, Int.ofNat_lt,
      Int.natCast_inj, ← Nat.le_iff_lt_or_eq]
    -- Both sides are brought to the unit of the scalar and freed of what they share.
    have shared : powerOfTwo (-53 - min (-53) (-(places : Int))).toNat * powerOfTwo 53 =
        powerOfTwo (-(places : Int) - min (-53) (-(places : Int))).toNat * powerOfTwo places := by
      rw [← powerOfTwo_add, ← powerOfTwo_add]
      congr 1
      omega
    have unit : powerOfTwo 53 = powerOfTwo distance * powerOfTwo (53 - distance) := by
      rw [← powerOfTwo_add]
      congr 1
      omega
    generalize powerOfTwo (-53 - min (-53) (-(places : Int))).toNat = left at shared
    have some := powerOfTwo_pos (-(places : Int) - min (-53) (-(places : Int))).toNat
    generalize powerOfTwo (-(places : Int) - min (-53) (-(places : Int))).toNat =
      right at shared some
    calc (powerOfTwo distance - 1) * powerOfTwo (53 - distance) * left ≤ significand * right
        ↔ (powerOfTwo distance - 1) * powerOfTwo (53 - distance) * left * powerOfTwo 53 ≤
            significand * right * powerOfTwo 53 :=
          (Nat.mul_le_mul_right_iff (powerOfTwo_pos 53)).symm
      _ ↔ (powerOfTwo distance - 1) * powerOfTwo places * (powerOfTwo (53 - distance) * right) ≤
            significand * powerOfTwo distance * (powerOfTwo (53 - distance) * right) := by
          rw [Nat.mul_assoc _ left, shared, unit]
          refine iff_of_eq (congrArg₂ _ ?_ ?_) <;> ring
      _ ↔ (powerOfTwo distance - 1) * powerOfTwo places ≤ significand * powerOfTwo distance :=
          Nat.mul_le_mul_right_iff (Nat.mul_pos (powerOfTwo_pos _) some)
      _ ↔ NearOne distance significand places := by
          rw [NearOne, Nat.mul_sub, Nat.sub_mul, Nat.one_mul, Nat.mul_comm significand]
          omega

end Scalar

end CollectiveBench.Numeric
