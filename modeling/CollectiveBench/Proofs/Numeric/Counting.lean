import Mathlib.Tactic.Ring
import CollectiveBench.Numeric.Scalar

/-!
# Counting in a floating-point format

A value may be the natural number `count`, whatever its significand and exponent are
(`Value.Denotes`). Sums, products, comparisons and cuts of such values are those of the numbers,
and a format's word of such a value depends on the number alone. A format holds every number up to
`2 ^ (fractionBits + 1)`, its limit (`Format.Counts.denotes_word`). One more is a tie that goes back
to the limit, so counting by ones stops there (`Format.Counts.word_succ_limit`). Any larger number
is rounded to one beyond the limit, or to infinity.
-/

namespace CollectiveBench.Numeric

/-! ## Powers of two -/

/-- A power of a sum is the product of the powers. -/
theorem powerOfTwo_add (left right : Nat) :
    powerOfTwo (left + right) = powerOfTwo left * powerOfTwo right :=
  Nat.pow_add 2 left right

/-- Powers of two grow with the exponent. -/
theorem powerOfTwo_le {left right : Nat} (le : left ≤ right) :
    powerOfTwo left ≤ powerOfTwo right :=
  Nat.pow_le_pow_right (by decide) le

/-- The logarithm of a count is the exponent of the last power of two that it reaches. -/
theorem log2_eq_iff {count exponent : Nat} (some : 0 < count) :
    count.log2 = exponent ↔ powerOfTwo exponent ≤ count ∧ count < powerOfTwo (exponent + 1) :=
  Nat.log2_eq_iff (Nat.ne_of_gt some)

/-- A power of two adds its exponent to the logarithm. -/
theorem log2_mul_powerOfTwo {count : Nat} (some : 0 < count) (exponent : Nat) :
    (count * powerOfTwo exponent).log2 = count.log2 + exponent := by
  obtain ⟨least, most⟩ := (log2_eq_iff some).mp rfl
  refine (log2_eq_iff (Nat.mul_pos some (powerOfTwo_pos exponent))).mpr ⟨?_, ?_⟩
  · rw [powerOfTwo_add]
    exact Nat.mul_le_mul_right _ least
  · rw [Nat.add_right_comm, powerOfTwo_add]
    exact Nat.mul_lt_mul_of_pos_right most (powerOfTwo_pos exponent)

/-! ## Rounding -/

/-- The rounded quotient depends on the quotient alone. -/
theorem roundQuotient_mul_right (numerator denominator : Nat) {factor : Nat}
    (positive : 0 < factor) :
    roundQuotient (numerator * factor) (denominator * factor) =
      roundQuotient numerator denominator := by
  have less : 2 * (numerator % denominator * factor) < denominator * factor ↔
      2 * (numerator % denominator) < denominator := by
    rw [← Nat.mul_assoc, Nat.mul_lt_mul_right positive]
  have same : 2 * (numerator % denominator * factor) = denominator * factor ↔
      2 * (numerator % denominator) = denominator := by
    rw [← Nat.mul_assoc, Nat.mul_left_inj (Nat.ne_of_gt positive)]
  simp only [roundQuotient, Nat.mul_div_mul_right _ _ positive, Nat.mul_mod_mul_right, less, same]

/-- Equal quotients are rounded alike. -/
theorem roundQuotient_congr {numerator denominator other divisor : Nat}
    (positive : 0 < denominator) (otherPositive : 0 < divisor)
    (same : numerator * divisor = other * denominator) :
    roundQuotient numerator denominator = roundQuotient other divisor := by
  rw [← roundQuotient_mul_right numerator denominator otherPositive, same, Nat.mul_comm denominator,
    roundQuotient_mul_right other divisor positive]

/-- A rounded quotient is the quotient or its successor. -/
theorem div_le_roundQuotient (numerator denominator : Nat) :
    numerator / denominator ≤ roundQuotient numerator denominator ∧
      roundQuotient numerator denominator ≤ numerator / denominator + 1 := by
  simp only [roundQuotient]
  split
  · exact ⟨Nat.le_refl _, Nat.le_succ _⟩
  · exact ⟨Nat.le_succ _, Nat.le_refl _⟩

/-- A quotient that is whole is not rounded up. -/
theorem roundQuotientUp_mul (count : Nat) {denominator : Nat} (positive : 0 < denominator) :
    roundQuotientUp (count * denominator) denominator = count := by
  rw [roundQuotientUp, Nat.mul_left_comm, Nat.add_comm,
    Nat.add_mul_div_right _ _ (Nat.mul_pos Nat.two_pos positive),
    Nat.div_eq_of_lt (by omega), Nat.zero_add]

/-- The logarithm of a quotient with denominator one is that of the numerator. -/
theorem quotientLog2_one {count : Nat} (some : 0 < count) :
    quotientLog2 count 1 = count.log2 := by
  have least : powerOfTwo count.log2 ≤ count := ((log2_eq_iff some).mp rfl).1
  have one : Nat.log2 1 = 0 := by decide
  have fits : 1 * powerOfTwo (count.log2 : Int).toNat ≤
      count * powerOfTwo (-(count.log2 : Int)).toNat := by
    rw [Nat.one_mul]
    exact Nat.le_trans least (Nat.le_mul_of_pos_right _ (powerOfTwo_pos _))
  simp only [quotientLog2, one, Int.natCast_zero, Int.sub_zero]
  exact if_pos fits

/-! ## Values that are natural numbers -/

/-- `significand * 2 ^ exponent` is the number `count`. -/
def Amounts (significand : Nat) (exponent : Int) (count : Nat) : Prop :=
  significand * powerOfTwo exponent.toNat = count * powerOfTwo (-exponent).toNat

/-- A count amounts to itself. -/
theorem amounts_self (count : Nat) : Amounts count 0 count := rfl

section

variable {significand count other otherCount above below : Nat} {exponent otherExponent : Int}

/-- The exponent may be taken apart into any two that differ by it. -/
theorem Amounts.eq (amounts : Amounts significand exponent count)
    (apart : (above : Int) - below = exponent) :
    significand * powerOfTwo above = count * powerOfTwo below := by
  have aboveParts : above = exponent.toNat + (above - exponent.toNat) := by omega
  have belowParts : below = (-exponent).toNat + (above - exponent.toNat) := by omega
  rw [aboveParts, belowParts, powerOfTwo_add, powerOfTwo_add, ← Nat.mul_assoc, ← Nat.mul_assoc,
    amounts]

/-- What is equal after both sides were scaled to one exponent amounts to the same. -/
theorem Amounts.of_eq (above below : Nat) (apart : (above : Int) - below = exponent)
    (same : significand * powerOfTwo above = count * powerOfTwo below) :
    Amounts significand exponent count := by
  have aboveParts : above = exponent.toNat + (above - exponent.toNat) := by omega
  have belowParts : below = (-exponent).toNat + (above - exponent.toNat) := by omega
  rw [aboveParts, belowParts, powerOfTwo_add, powerOfTwo_add, ← Nat.mul_assoc, ← Nat.mul_assoc]
    at same
  exact Nat.eq_of_mul_eq_mul_right (powerOfTwo_pos _) same

/-- What amounts to something has a significand. -/
theorem Amounts.pos (amounts : Amounts significand exponent count) (some : 0 < count) :
    0 < significand := by
  refine Nat.pos_of_ne_zero fun none => ?_
  have nothing : 0 = count * powerOfTwo (-exponent).toNat := by
    simpa [Amounts, none] using amounts
  exact absurd nothing (Nat.ne_of_lt (Nat.mul_pos some (powerOfTwo_pos _)))

/-- The logarithm of a count is that of its significand moved by the exponent. -/
theorem Amounts.log2_eq (amounts : Amounts significand exponent count) (some : 0 < count) :
    (significand.log2 : Int) + exponent = count.log2 := by
  have logs := congrArg Nat.log2 amounts
  rw [log2_mul_powerOfTwo (amounts.pos some), log2_mul_powerOfTwo some] at logs
  omega

/-- Lowering the exponent leaves the number. -/
theorem Amounts.lower {floor : Int} (amounts : Amounts significand exponent count)
    (below : floor ≤ exponent) :
    Amounts (significand * powerOfTwo (exponent - floor).toNat) floor count := by
  unfold Amounts
  rw [Nat.mul_assoc, ← powerOfTwo_add]
  exact amounts.eq (by omega)

/-- Factors of two may go into the exponent. -/
theorem Amounts.raise {factor : Nat}
    (amounts : Amounts (significand * powerOfTwo factor) exponent count) :
    Amounts significand (exponent + factor) count := by
  refine .of_eq (exponent.toNat + factor) (-exponent).toNat (by omega) ?_
  rw [Nat.add_comm, powerOfTwo_add, ← Nat.mul_assoc]
  exact amounts

/-- Significands at one exponent amount to the sum. -/
theorem Amounts.add (amounts : Amounts significand exponent count)
    (others : Amounts other exponent otherCount) :
    Amounts (significand + other) exponent (count + otherCount) := by
  unfold Amounts at *
  rw [Nat.add_mul, Nat.add_mul, amounts, others]

/-- Significands amount to the product at the sum of the exponents. -/
theorem Amounts.mul (amounts : Amounts significand exponent count)
    (others : Amounts other otherExponent otherCount) :
    Amounts (significand * other) (exponent + otherExponent) (count * otherCount) := by
  refine .of_eq (exponent.toNat + otherExponent.toNat)
    ((-exponent).toNat + (-otherExponent).toNat) (by omega) ?_
  unfold Amounts at *
  rw [powerOfTwo_add, powerOfTwo_add, Nat.mul_mul_mul_comm, amounts, others, Nat.mul_mul_mul_comm]

/-- Significands at one exponent are equal exactly if the counts are. -/
theorem Amounts.eq_iff (amounts : Amounts significand exponent count)
    (others : Amounts other exponent otherCount) : significand = other ↔ count = otherCount := by
  rw [← Nat.mul_left_inj (Nat.ne_of_gt (powerOfTwo_pos exponent.toNat)), amounts, others,
    Nat.mul_left_inj (Nat.ne_of_gt (powerOfTwo_pos _))]

end

namespace Value

/-- The value is the natural number `count`. -/
inductive Denotes (count : Nat) : Value → Prop
  | finite {significand : Nat} {exponent : Int} (amounts : Amounts significand exponent count) :
    Denotes count (.finite false significand exponent)

variable {left right value : Value} {count other : Nat}

/-- A positive number is scaled without a sign. -/
theorem scaled_false (significand : Nat) (exponent floor : Int) :
    scaled false significand exponent floor =
      (significand * powerOfTwo (exponent - floor).toNat : Nat) := rfl

/-- Values add up to the sum of what they denote. -/
theorem Denotes.add (denotes : left.Denotes count) (others : right.Denotes other) :
    (left.add right).Denotes (count + other) := by
  obtain @⟨m, e, amounts⟩ := denotes
  obtain @⟨n, f, otherAmounts⟩ := others
  have sum := (amounts.lower (Int.min_le_left e f)).add
    (otherAmounts.lower (Int.min_le_right e f))
  rw [Value.add, scaled_false, scaled_false, ← Int.natCast_add]
  generalize m * powerOfTwo (e - min e f).toNat + n * powerOfTwo (f - min e f).toNat = all at sum
  rcases Nat.eq_zero_or_pos all with rfl | some
  · exact .finite sum
  · rw [if_neg (by omega), decide_eq_false (by omega), Int.natAbs_natCast]
    exact .finite sum

/-- Values multiply to the product of what they denote. -/
theorem Denotes.mul (denotes : left.Denotes count) (others : right.Denotes other) :
    (left.mul right).Denotes (count * other) := by
  obtain ⟨amounts⟩ := denotes
  obtain ⟨otherAmounts⟩ := others
  exact .finite (amounts.mul otherAmounts)

/-- Natural numbers are equal as values when they are equal. -/
theorem Denotes.compare?_eq (denotes : left.Denotes count) (others : right.Denotes other) :
    left.compare? right = some .eq ↔ count = other := by
  obtain @⟨m, e, amounts⟩ := denotes
  obtain @⟨n, f, otherAmounts⟩ := others
  rw [compare?, Option.some.injEq, compare_eq_iff_eq, scaled_false, scaled_false, Int.natCast_inj]
  exact (amounts.lower (Int.min_le_left e f)).eq_iff (otherAmounts.lower (Int.min_le_right e f))

/-- Equality of values does not depend on the side. -/
theorem compare?_swap (same : left.compare? right = some .eq) :
    right.compare? left = some .eq := by
  cases left with
  | nan => cases same
  | infinite negative =>
    cases right with
    | nan => cases same
    | infinite other =>
      rw [compare?, Option.some.injEq, compare_eq_iff_eq] at same ⊢
      exact same.symm
    | finite => cases negative <;> cases same
  | finite negative m e =>
    cases right with
    | nan => cases same
    | infinite other => cases other <;> cases same
    | finite other n f =>
      rw [compare?, Option.some.injEq, compare_eq_iff_eq] at same ⊢
      rw [Int.min_comm]
      exact same.symm

/-- A positive natural number equals no value with a minus sign, no infinity and nothing that is no
number. -/
theorem Denotes.compare?_ne (denotes : left.Denotes count) (positive : 0 < count)
    (apart : ∀ significand exponent, right ≠ .finite false significand exponent) :
    left.compare? right ≠ some .eq := by
  obtain @⟨n, f, amounts⟩ := denotes
  cases right with
  | nan => simp [compare?]
  | infinite negative => cases negative <;> simp [compare?]
  | finite negative m e =>
    obtain rfl : negative = true := by
      cases negative
      · exact absurd rfl (apart m e)
      · rfl
    have above := Nat.mul_pos (amounts.pos positive) (powerOfTwo_pos (f - min f e).toNat)
    rw [compare?, scaled_false, ne_eq, Option.some.injEq, compare_eq_iff_eq]
    simp only [scaled, signed, if_true]
    omega

/-- A value that denotes a count is cut to it, within the bounds. -/
theorem Denotes.truncate_eq (denotes : value.Denotes count) (least greatest : Int) :
    value.truncate least greatest = max least (min greatest count) := by
  obtain ⟨amounts⟩ := denotes
  simp only [truncate]
  rw [amounts, Nat.mul_div_cancel _ (powerOfTwo_pos _)]
  rfl

/-- A value that denotes a count is rounded to it, within the bounds. -/
theorem Denotes.roundAway_eq (denotes : value.Denotes count) (least greatest : Int) :
    value.roundAway least greatest = max least (min greatest count) := by
  obtain ⟨amounts⟩ := denotes
  simp only [roundAway]
  rw [amounts, roundQuotientUp_mul _ (powerOfTwo_pos _)]
  rfl

end Value

/-! ## Words -/

namespace Format

/-- The word of a natural number. -/
def word (format : Format) (count : Nat) : Nat := format.encode (.ofNat count)

/-- The number up to which a format holds every natural number. -/
def limit (format : Format) : Nat := powerOfTwo (format.fractionBits + 1)

/-- The range of exponents reaches beyond the limit. -/
structure Counts (format : Format) : Prop where
  fraction : 0 < format.fractionBits
  range : format.fractionBits + 2 < powerOfTwo (format.exponentBits - 1)

variable {format : Format} {count : Nat}

/-- The significand of a number that is rounded to a format. -/
def significandOf (format : Format) (count : Nat) : Nat :=
  roundQuotient (count * powerOfTwo (format.fractionBits - count.log2))
    (powerOfTwo (count.log2 - format.fractionBits))

/-- The binade of a number, counted from the lowest one of the format. -/
def binadeOf (format : Format) (count : Nat) : Nat :=
  count.log2 + powerOfTwo (format.exponentBits - 1) - 2

/-- The magnitude of a number depends on nothing else. -/
theorem Counts.magnitudeOf_eq (counts : format.Counts) (positive : 0 < count) {significand : Nat}
    {exponent : Int} (amounts : Amounts significand exponent count) :
    format.magnitudeOf significand 1 exponent =
      min format.infinity (format.binadeOf count * powerOfTwo format.fractionBits +
        format.significandOf count) := by
  have some := amounts.pos positive
  have logs := amounts.log2_eq positive
  have range := counts.range
  have log := quotientLog2_one some
  have place : max format.leastExponent
      (exponent + quotientLog2 significand 1 - format.fractionBits) =
      count.log2 - format.fractionBits := by
    rw [log, leastExponent]
    omega
  have binade : ((count.log2 - format.fractionBits : Int) - format.leastExponent).toNat =
      format.binadeOf count := by
    rw [binadeOf, leastExponent]
    omega
  have rounded : roundQuotient
      (significand * powerOfTwo (exponent - (count.log2 - format.fractionBits)).toNat)
      (1 * powerOfTwo ((count.log2 - format.fractionBits) - exponent).toNat) =
        format.significandOf count := by
    refine roundQuotient_congr (by simp [powerOfTwo_pos]) (powerOfTwo_pos _) ?_
    rw [Nat.one_mul, Nat.mul_assoc, Nat.mul_assoc, ← powerOfTwo_add, ← powerOfTwo_add]
    exact amounts.eq (by omega)
  rw [magnitudeOf, if_neg (Nat.ne_of_gt some)]
  simp only [place, binade, rounded]

/-- A value that denotes a count is stored as the word of the count. -/
theorem Counts.encode_eq (counts : format.Counts) {value : Value} (denotes : value.Denotes count) :
    format.encode value = format.word count := by
  obtain @⟨m, e, amounts⟩ := denotes
  show format.magnitudeOf m 1 e = format.magnitudeOf count 1 0
  rcases Nat.eq_zero_or_pos count with rfl | positive
  · obtain rfl : m = 0 := by
      have nothing : m * powerOfTwo e.toNat = 0 := by simpa [Amounts] using amounts
      exact (Nat.mul_eq_zero.mp nothing).resolve_right (Nat.ne_of_gt (powerOfTwo_pos _))
    simp [magnitudeOf]
  · rw [counts.magnitudeOf_eq positive amounts, counts.magnitudeOf_eq positive (amounts_self count)]

/-- The word of a count has its binade above its significand, unless it is infinite. -/
theorem Counts.word_eq (counts : format.Counts) (positive : 0 < count) :
    format.word count = min format.infinity
      (format.binadeOf count * powerOfTwo format.fractionBits + format.significandOf count) :=
  counts.magnitudeOf_eq positive (amounts_self count)

/-- A significand has `fractionBits` binary digits after the first one, or is the next power of
two. -/
theorem significandOf_bounds (format : Format) (positive : 0 < count) :
    powerOfTwo format.fractionBits ≤ format.significandOf count ∧
      format.significandOf count ≤ powerOfTwo (format.fractionBits + 1) := by
  obtain ⟨least, most⟩ := (log2_eq_iff positive).mp rfl
  have unit := powerOfTwo_pos (count.log2 - format.fractionBits)
  have between := div_le_roundQuotient (count * powerOfTwo (format.fractionBits - count.log2))
    (powerOfTwo (count.log2 - format.fractionBits))
  constructor
  · refine Nat.le_trans ?_ between.1
    rw [Nat.le_div_iff_mul_le unit, ← powerOfTwo_add]
    refine Nat.le_trans (powerOfTwo_le ?_)
      (powerOfTwo_add count.log2 _ ▸ Nat.mul_le_mul_right _ least)
    omega
  · refine Nat.le_trans between.2 ?_
    rw [Nat.succ_le_iff, Nat.div_lt_iff_lt_mul unit, ← powerOfTwo_add]
    refine Nat.lt_of_lt_of_le (Nat.mul_lt_mul_of_pos_right most (powerOfTwo_pos _)) ?_
    rw [← powerOfTwo_add]
    exact powerOfTwo_le (by omega)

/-- The number that is read back where a number was rounded to a format, if it is not infinity. -/
def rounded (format : Format) (count : Nat) : Nat :=
  roundQuotient count (powerOfTwo (count.log2 - format.fractionBits)) *
    powerOfTwo (count.log2 - format.fractionBits)

/-- The significand of a count amounts to the rounded count. -/
theorem amounts_significandOf (format : Format) (count : Nat) :
    Amounts (format.significandOf count) (count.log2 - format.fractionBits)
      (format.rounded count) := by
  refine .of_eq (count.log2 - format.fractionBits) (format.fractionBits - count.log2)
    (by omega) ?_
  rw [rounded, significandOf, Nat.mul_right_comm]
  congr 1
  rcases Nat.le_total count.log2 format.fractionBits with within | beyond
  · rw [Nat.sub_eq_zero_of_le within]
    show roundQuotient _ 1 = roundQuotient _ 1 * _
    rw [roundQuotient_one, roundQuotient_one]
  · rw [Nat.sub_eq_zero_of_le beyond]
    show roundQuotient (count * 1) _ = _ * 1
    rw [Nat.mul_one, Nat.mul_one]

/-- The value of a word with both fields given. -/
theorem decode_fields (format : Format) {field fraction : Nat} (normal : 0 < field)
    (finite : field + 1 < powerOfTwo format.exponentBits)
    (small : fraction < powerOfTwo format.fractionBits) :
    format.decode (field * powerOfTwo format.fractionBits + fraction) =
      .finite false (powerOfTwo format.fractionBits + fraction)
        (format.leastExponent + field - 1) := by
  have unsigned : (field * powerOfTwo format.fractionBits + fraction).testBit
      (format.fractionBits + format.exponentBits) = false := by
    apply Nat.testBit_lt_two_pow
    show _ < powerOfTwo _
    have below : (field + 1) * powerOfTwo format.fractionBits ≤
        powerOfTwo format.exponentBits * powerOfTwo format.fractionBits :=
      Nat.mul_le_mul_right _ (Nat.le_of_lt finite)
    rw [← powerOfTwo_add, Nat.succ_mul, Nat.add_comm format.exponentBits] at below
    omega
  have shifted : (field * powerOfTwo format.fractionBits + fraction) >>> format.fractionBits =
      field := by
    rw [Nat.shiftRight_eq_div_pow]
    show _ / powerOfTwo _ = _
    rw [Nat.add_comm, Nat.add_mul_div_right _ _ (powerOfTwo_pos _), Nat.div_eq_of_lt small,
      Nat.zero_add]
  have rest : (field * powerOfTwo format.fractionBits + fraction) %
      powerOfTwo format.fractionBits = fraction := by
    rw [Nat.add_comm, Nat.add_mul_mod_self_right, Nat.mod_eq_of_lt small]
  have known : field % powerOfTwo format.exponentBits = field := Nat.mod_eq_of_lt (by omega)
  simp only [decode, unsigned, shifted, rest, known]
  rw [if_neg (Nat.ne_of_lt finite), if_neg (Nat.ne_of_gt normal)]

/-- Half of all exponents have the top bit. -/
theorem Counts.exponents (counts : format.Counts) :
    powerOfTwo format.exponentBits = 2 * powerOfTwo (format.exponentBits - 1) := by
  have range := counts.range
  cases bits : format.exponentBits with
  | zero => simp [bits, powerOfTwo] at range
  | succ lower => exact powerOfTwo_succ lower

/-- The sign is above the word of infinity. -/
theorem infinity_lt (format : Format) : format.infinity < format.signUnit := by
  have some := powerOfTwo_pos format.exponentBits
  rw [infinity, signUnit, Nat.add_comm, powerOfTwo_add]
  exact Nat.mul_lt_mul_of_pos_right (by omega) (powerOfTwo_pos _)

/-- No magnitude is above infinity. -/
theorem magnitudeOf_le (format : Format) (numerator denominator : Nat) (exponent : Int) :
    format.magnitudeOf numerator denominator exponent ≤ format.infinity := by
  simp only [magnitudeOf]
  split
  · exact Nat.zero_le _
  · exact Nat.min_le_left _ _

/-- The exponent field of infinity is full and its fraction is empty. -/
theorem decode_infinity (format : Format) : format.decode format.infinity = .infinite false := by
  have full := powerOfTwo_pos format.exponentBits
  have unsigned : format.infinity.testBit (format.fractionBits + format.exponentBits) = false :=
    Nat.testBit_lt_two_pow format.infinity_lt
  have shifted : format.infinity >>> format.fractionBits = powerOfTwo format.exponentBits - 1 := by
    rw [Nat.shiftRight_eq_div_pow]
    exact Nat.mul_div_cancel _ (powerOfTwo_pos _)
  have rest : format.infinity % powerOfTwo format.fractionBits = 0 := Nat.mul_mod_left _ _
  have known : (powerOfTwo format.exponentBits - 1) % powerOfTwo format.exponentBits + 1 =
      powerOfTwo format.exponentBits := by
    rw [Nat.mod_eq_of_lt (by omega)]
    omega
  simp only [decode, unsigned, shifted, rest, known, if_true]

/-- The fields of a number's word: where the significand was rounded up to a power of two, the
exponent field is one more and the fraction is empty. -/
theorem exists_fields (format : Format) (positive : 0 < count) : ∃ carry fraction,
    carry ≤ 1 ∧ fraction < powerOfTwo format.fractionBits ∧
    (powerOfTwo format.fractionBits + fraction) * powerOfTwo carry = format.significandOf count ∧
    format.binadeOf count * powerOfTwo format.fractionBits + format.significandOf count =
      (format.binadeOf count + 1 + carry) * powerOfTwo format.fractionBits + fraction := by
  obtain ⟨least, most⟩ := format.significandOf_bounds positive
  have double := powerOfTwo_succ format.fractionBits
  have unit := powerOfTwo_pos format.fractionBits
  rcases Nat.lt_or_eq_of_le most with inside | carried
  · refine ⟨0, format.significandOf count - powerOfTwo format.fractionBits, Nat.zero_le 1,
      ?_, ?_, ?_⟩
    · omega
    · show _ * 1 = _
      omega
    · rw [Nat.add_zero, Nat.succ_mul]
      omega
  · refine ⟨1, 0, Nat.le_refl 1, unit, ?_, ?_⟩
    · rw [carried, Nat.add_zero, powerOfTwo_add]
    · rw [carried, double, Nat.add_zero, Nat.add_mul, Nat.add_mul]
      omega

/-- The word of a number stands for what the number was rounded to, or for infinity. It is not
infinity where the exponent field has room for one binade more. -/
theorem Counts.decode_word (counts : format.Counts) (positive : 0 < count) :
    (format.decode (format.word count)).Denotes (format.rounded count) ∨
      format.decode (format.word count) = .infinite false ∧
        powerOfTwo (format.exponentBits - 1) ≤ count.log2 + 1 := by
  have range := counts.range
  have exponents := counts.exponents
  obtain ⟨carry, fraction, carries, small, significand, fields⟩ := format.exists_fields positive
  rw [counts.word_eq positive, fields]
  rcases Nat.lt_or_ge (format.binadeOf count + 1 + carry + 1) (powerOfTwo format.exponentBits)
    with finite | full
  · left
    have within : (format.binadeOf count + 1 + carry) * powerOfTwo format.fractionBits + fraction ≤
        format.infinity := by
      have below : (format.binadeOf count + 1 + carry + 1) * powerOfTwo format.fractionBits ≤
          format.infinity := Nat.mul_le_mul_right _ (by omega)
      rw [Nat.succ_mul] at below
      omega
    rw [Nat.min_eq_right within, decode_fields format (by omega) finite small]
    have amounts := format.amounts_significandOf count
    rw [← significand] at amounts
    refine .finite ?_
    have exponent : format.leastExponent + (format.binadeOf count + 1 + carry : Nat) - 1 =
        count.log2 - format.fractionBits + carry := by
      rw [leastExponent, binadeOf]
      omega
    rw [exponent]
    exact amounts.raise
  · right
    have beyond : format.infinity ≤
        (format.binadeOf count + 1 + carry) * powerOfTwo format.fractionBits + fraction :=
      Nat.le_trans (Nat.mul_le_mul_right _ (by omega)) (Nat.le_add_right _ _)
    rw [Nat.min_eq_left beyond]
    refine ⟨format.decode_infinity, ?_⟩
    rw [binadeOf] at full
    omega

/-- A count within the limit of a format has no more bits than its significands. -/
theorem log2_le_of_le_limit (positive : 0 < count) (small : count ≤ format.limit) :
    count.log2 ≤ format.fractionBits + 1 := by
  have below : count < powerOfTwo (format.fractionBits + 1 + 1) :=
    Nat.lt_of_le_of_lt small (Nat.pow_lt_pow_right Nat.one_lt_two (Nat.lt_succ_self _))
  exact Nat.le_of_lt_succ ((Nat.log2_lt (Nat.ne_of_gt positive)).mpr below)

/-- A format holds the numbers up to its limit. -/
theorem rounded_of_le (positive : 0 < count) (small : count ≤ format.limit) :
    format.rounded count = count := by
  obtain ⟨least, _⟩ := (log2_eq_iff positive).mp rfl
  rcases Nat.lt_or_ge format.fractionBits count.log2 with beyond | within
  · have log : count.log2 = format.fractionBits + 1 :=
      Nat.le_antisymm (log2_le_of_le_limit positive small) beyond
    rw [log] at least
    have limit : count = powerOfTwo format.fractionBits * powerOfTwo 1 :=
      (Nat.le_antisymm small least).trans (powerOfTwo_add _ 1)
    rw [rounded, log, Nat.add_sub_cancel_left, limit, roundQuotient_mul _ _ (powerOfTwo_pos 1)]
  · rw [rounded, Nat.sub_eq_zero_of_le within]
    show roundQuotient count 1 * 1 = count
    rw [roundQuotient_one, Nat.mul_one]

/-- Up to the limit of a format, the word of a count stands for the count. -/
theorem Counts.denotes_word (counts : format.Counts) (small : count ≤ format.limit) :
    (format.decode (format.word count)).Denotes count := by
  have range := counts.range
  rcases Nat.eq_zero_or_pos count with rfl | positive
  · have exponents := counts.exponents
    show (format.decode 0).Denotes 0
    simp only [decode, Nat.zero_testBit, Nat.zero_shiftRight, Nat.zero_mod]
    rw [if_neg (by omega), if_pos trivial]
    exact .finite (by simp [Amounts])
  · rcases counts.decode_word positive with denotes | ⟨_, full⟩
    · rwa [rounded_of_le positive small] at denotes
    · have log := log2_le_of_le_limit positive small
      omega

/-- One more than the limit is a tie and goes to the limit, whose fraction is even. -/
theorem Counts.word_succ_limit (counts : format.Counts) :
    format.word (format.limit + 1) = format.word format.limit := by
  have fraction := counts.fraction
  have positive : 0 < format.limit := powerOfTwo_pos _
  have double : format.limit = 2 * powerOfTwo format.fractionBits := powerOfTwo_succ _
  have log : format.limit.log2 = format.fractionBits + 1 := Nat.log2_two_pow
  have logSucc : (format.limit + 1).log2 = format.fractionBits + 1 := by
    refine (log2_eq_iff (Nat.succ_pos _)).mpr ⟨Nat.le_succ _, ?_⟩
    have twice : powerOfTwo (format.fractionBits + 1 + 1) = 2 * format.limit := powerOfTwo_succ _
    have some := powerOfTwo_pos format.fractionBits
    omega
  have even : powerOfTwo format.fractionBits % 2 = 0 := by
    obtain ⟨lower, same⟩ : ∃ lower, format.fractionBits = lower + 1 :=
      ⟨format.fractionBits - 1, by omega⟩
    rw [same, powerOfTwo_succ, Nat.mul_mod_right]
  have tie : roundQuotient (format.limit + 1) 2 = roundQuotient format.limit 2 := by
    have above : (2 * powerOfTwo format.fractionBits + 1) / 2 = powerOfTwo format.fractionBits := by
      omega
    have half : (2 * powerOfTwo format.fractionBits + 1) % 2 = 1 := by omega
    rw [double, Nat.mul_comm 2, roundQuotient_mul _ _ Nat.two_pos, Nat.mul_comm _ 2]
    simp [roundQuotient, above, half, even]
  rw [counts.word_eq positive, counts.word_eq (Nat.succ_pos _)]
  simp only [binadeOf, significandOf, log, logSucc]
  rw [Nat.add_sub_cancel_left, Nat.sub_eq_zero_of_le (Nat.le_succ _)]
  show min _ (_ + roundQuotient ((format.limit + 1) * 1) 2) =
    min _ (_ + roundQuotient (format.limit * 1) 2)
  rw [Nat.mul_one, Nat.mul_one, tie]

/-- A count that stops at the limit is not told from one that goes one further. -/
theorem Counts.word_min (counts : format.Counts) (near : count ≤ format.limit + 1) :
    format.word (min count format.limit) = format.word count := by
  rcases Nat.lt_or_ge format.limit count with last | below
  · obtain rfl : count = format.limit + 1 := by omega
    rw [Nat.min_eq_right (Nat.le_succ _), counts.word_succ_limit]
  · rw [Nat.min_eq_left below]

/-- Numbers further beyond the limit are rounded to numbers beyond the limit. -/
theorem limit_lt_rounded (beyond : format.limit + 1 < count) :
    format.limit < format.rounded count := by
  have positive : 0 < count := by omega
  have double : format.limit = 2 * powerOfTwo format.fractionBits := powerOfTwo_succ _
  obtain ⟨least, most⟩ := (log2_eq_iff positive).mp rfl
  have log : format.fractionBits + 1 ≤ count.log2 :=
    (Nat.le_log2 (Nat.ne_of_gt positive)).mpr (by show format.limit ≤ _; omega)
  have under := Nat.mul_le_mul_right (powerOfTwo (count.log2 - format.fractionBits))
    (div_le_roundQuotient count (powerOfTwo (count.log2 - format.fractionBits))).1
  refine Nat.lt_of_lt_of_le ?_ under
  rcases Nat.lt_or_eq_of_le log with far | near
  · have quotient : powerOfTwo format.fractionBits ≤
        count / powerOfTwo (count.log2 - format.fractionBits) := by
      rw [Nat.le_div_iff_mul_le (powerOfTwo_pos _), ← powerOfTwo_add]
      exact Nat.le_trans (powerOfTwo_le (by omega)) least
    refine Nat.lt_of_lt_of_le ?_ (Nat.mul_le_mul_right _ quotient)
    rw [← powerOfTwo_add]
    exact Nat.pow_lt_pow_right Nat.one_lt_two (by omega)
  · rw [← near, Nat.add_sub_cancel_left]
    show format.limit < count / 2 * 2
    omega

/-- Rounding never doubles a count. -/
theorem rounded_le (format : Format) (positive : 0 < count) :
    format.rounded count ≤ 2 * count := by
  obtain ⟨least, _⟩ := (log2_eq_iff positive).mp rfl
  have above := Nat.mul_le_mul_right (powerOfTwo (count.log2 - format.fractionBits))
    (div_le_roundQuotient count (powerOfTwo (count.log2 - format.fractionBits))).2
  have quotient := Nat.div_mul_le_self count (powerOfTwo (count.log2 - format.fractionBits))
  have unit : powerOfTwo (count.log2 - format.fractionBits) ≤ count :=
    Nat.le_trans (powerOfTwo_le (Nat.sub_le _ _)) least
  rw [Nat.succ_mul] at above
  rw [rounded]
  omega

/-- Words of counts within the limit add up to the word of the sum. -/
theorem Counts.add_word (counts : format.Counts) {count other : Nat}
    (small : count ≤ format.limit) (otherSmall : other ≤ format.limit) :
    format.add (format.word count) (format.word other) = format.word (count + other) :=
  counts.encode_eq ((counts.denotes_word small).add (counts.denotes_word otherSmall))

/-- A value that is a number is converted by writing it into the other format. -/
theorem convert_of_denotes {source target : Format} {word : Nat}
    (denotes : (source.decode word).Denotes count) (counts : target.Counts) :
    source.convert target word = target.word count := by
  unfold convert
  split
  next missing =>
    rw [missing] at denotes
    cases denotes
  next => exact counts.encode_eq denotes

/-- A magnitude that got the sign bit has no value without a minus sign. -/
theorem decode_withSign_ne (format : Format) {magnitude : Nat} (below : magnitude < format.signUnit)
    (significand : Nat) (exponent : Int) :
    format.decode (format.withSign true magnitude) ≠ .finite false significand exponent := by
  have negative : (format.withSign true magnitude).testBit
      (format.fractionBits + format.exponentBits) = true := by
    show (2 ^ _ + magnitude).testBit _ = true
    rw [Nat.testBit_two_pow_add_eq, Nat.testBit_lt_two_pow below, Bool.not_false]
  simp only [decode, negative]
  split_ifs <;> simp

/-- The format of two bytes counts. -/
theorem counts_binary16 : binary16.Counts := ⟨by decide, by decide⟩

/-- The short format with the wide exponent counts. -/
theorem counts_bfloat16 : bfloat16.Counts := ⟨by decide, by decide⟩

/-- The format of four bytes counts. -/
theorem counts_binary32 : binary32.Counts := ⟨by decide, by decide⟩

/-- The format of eight bytes counts. -/
theorem counts_binary64 : binary64.Counts := ⟨by decide, by decide⟩

end Format

namespace Scalar

variable {count other : Nat}

/-- Up to the limit, the scalar of a count denotes it. -/
theorem denotes_ofNat (small : count ≤ Format.binary64.limit) :
    (ofNat count).value.Denotes count :=
  Format.counts_binary64.denotes_word small

/-- One is the scalar of the count one. -/
theorem one_eq : one = ofNat 1 := by decide +kernel

/-- A count times one is the count. -/
theorem ofNat_mul_one (small : count ≤ Format.binary64.limit) :
    ofNat count * one = ofNat count := by
  have unit : one.value.Denotes 1 := one_eq ▸ denotes_ofNat (by decide)
  have product := Format.counts_binary64.encode_eq ((denotes_ofNat small).mul unit)
  rw [Nat.mul_one] at product
  exact congrArg mk product

/-- Scalars are equal exactly if their values compare as equal. -/
theorem beq_iff {left right : Scalar} :
    left.beq right ↔ left.value.compare? right.value = some .eq := by
  rw [beq, beq_iff_eq]

/-- Scalars that hold natural numbers are equal when the numbers are. -/
theorem beq_ofNat (small : count ≤ Format.binary64.limit)
    (otherSmall : other ≤ Format.binary64.limit) :
    (ofNat count).beq (ofNat other) ↔ count = other :=
  beq_iff.trans ((denotes_ofNat small).compare?_eq (denotes_ofNat otherSmall))

end Scalar

end CollectiveBench.Numeric
