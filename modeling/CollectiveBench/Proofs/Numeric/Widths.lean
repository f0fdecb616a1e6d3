import CollectiveBench.Proofs.Numeric.Integers
import CollectiveBench.Proofs.Numeric.Counting

/-!
# Words that fit

Whatever is stored and whatever is reduced, the word has no more bits than its type. A rounded word
of a format is a magnitude below the sign bit, with the sign bit or without it. One that is no
number is written below the sign bit too, since it is put together of fields that are, and only
those of formats with a fraction tell it from infinity. So a scalar fits the type it is stored as
(`ElementType.encode_lt`), and words of a type reduce to a word of the type
(`ElementType.combine_lt`).
-/

namespace CollectiveBench

open Numeric

namespace Numeric

namespace Format

variable {format source target : Format}

/-- Number of bits of a word. -/
def width (format : Format) : Nat := format.fractionBits + format.exponentBits + 1

/-- The sign is the top bit of a word. -/
theorem powerOfTwo_width (format : Format) : powerOfTwo format.width = 2 * format.signUnit :=
  powerOfTwo_succ _

/-- A magnitude with a sign fits the word. -/
theorem withSign_lt {magnitude : Nat} (below : magnitude < format.signUnit) (negative : Bool) :
    format.withSign negative magnitude < powerOfTwo format.width := by
  rw [powerOfTwo_width, withSign]
  split <;> omega

/-- What is no number is written below the sign bit, because the top bit of the fraction is not that
of the exponent. -/
theorem Counts.quietNaN_lt (counts : format.Counts) : format.quietNaN < format.signUnit := by
  have lower : powerOfTwo (format.fractionBits - 1) < powerOfTwo format.fractionBits :=
    Nat.pow_lt_pow_right Nat.one_lt_two (Nat.sub_lt counts.fraction Nat.one_pos)
  calc format.quietNaN
      < (powerOfTwo format.exponentBits - 1) * powerOfTwo format.fractionBits +
          powerOfTwo format.fractionBits := Nat.add_lt_add_left lower _
    _ = powerOfTwo format.exponentBits * powerOfTwo format.fractionBits := by
        rw [← Nat.succ_mul, Nat.succ_eq_add_one, Nat.sub_add_cancel (powerOfTwo_pos _)]
    _ = format.signUnit := by rw [signUnit, Nat.add_comm, powerOfTwo_add]

/-- Values are stored in words of the format. -/
theorem Counts.encode_lt (counts : format.Counts) (value : Value) :
    format.encode value < powerOfTwo format.width := by
  cases value with
  | nan =>
    have below := counts.quietNaN_lt
    rw [encode, powerOfTwo_width]
    omega
  | infinite negative => exact withSign_lt format.infinity_lt negative
  | finite negative significand exponent =>
    exact withSign_lt (Nat.lt_of_le_of_lt (format.magnitudeOf_le _ _ _) format.infinity_lt) negative

/-- A fraction that is carried to another width fits there. -/
theorem carried_lt {fraction : Nat} (fits : fraction < powerOfTwo source.fractionBits) :
    (fraction <<< (target.fractionBits - source.fractionBits))
      >>> (source.fractionBits - target.fractionBits) < powerOfTwo target.fractionBits := by
  rw [Nat.shiftLeft_eq, Nat.shiftRight_eq_div_pow]
  change _ * powerOfTwo _ / powerOfTwo _ < _
  rw [Nat.div_lt_iff_lt_mul (powerOfTwo_pos _), ← powerOfTwo_add]
  have widths : target.fractionBits + (source.fractionBits - target.fractionBits) =
      source.fractionBits + (target.fractionBits - source.fractionBits) := by omega
  rw [widths, powerOfTwo_add]
  exact Nat.mul_lt_mul_of_pos_right fits (powerOfTwo_pos _)

/-- What is no number is carried over into a word of the target. -/
theorem Counts.carryNaN_lt (counts : target.Counts) (source : Format) (word : Nat) :
    source.carryNaN target word < powerOfTwo target.width := by
  have fraction : word % powerOfTwo source.fractionBits < powerOfTwo source.fractionBits :=
    Nat.mod_lt _ (powerOfTwo_pos _)
  refine withSign_lt (Nat.or_lt_two_pow counts.quietNaN_lt ?_) _
  exact Nat.lt_of_lt_of_le (carried_lt fraction) (powerOfTwo_le (Nat.le_add_right _ _))

/-- Words are converted to words of the target. -/
theorem Counts.convert_lt (counts : target.Counts) (source : Format) (word : Nat) :
    source.convert target word < powerOfTwo target.width := by
  rw [convert]
  split
  · exact counts.carryNaN_lt source word
  · exact counts.encode_lt _

end Format

/-- The cut of a value lies within the bounds, if these are around zero. -/
theorem Value.truncate_bounds (value : Value) {least greatest : Int} (lower : least ≤ 0)
    (upper : 0 ≤ greatest) :
    least ≤ value.truncate least greatest ∧ value.truncate least greatest ≤ greatest := by
  cases value with
  | nan => exact ⟨lower, upper⟩
  | infinite negative => cases negative <;> simp [truncate] <;> omega
  | finite negative significand exponent => simp only [truncate]; omega

/-- The scalar is a word of 64 bits, as all are that are read or computed. -/
def Scalar.Fits (scalar : Scalar) : Prop := scalar.word < powerOfTwo 64

instance (scalar : Scalar) : Decidable scalar.Fits := inferInstanceAs (Decidable (_ < _))

end Numeric

/-- The word of an integer has its bits. -/
theorem wordOf_lt (bits : Nat) (number : Int) : wordOf bits number < powerOfTwo bits := by
  have some := powerOfTwo_pos bits
  have below := Int.emod_lt_of_pos number (Int.natCast_pos.mpr some)
  rw [wordOf]
  omega

namespace ElementType

variable {type : ElementType} {format : Format} {reduction : Reduction} {left right : Nat}

/-- Floating-point words are combined to a word of their format. -/
theorem combineFloat_lt (counts : format.Counts) (leftFits : left < powerOfTwo format.width)
    (rightFits : right < powerOfTwo format.width) (reduction : Reduction) :
    combineFloat format reduction left right < powerOfTwo format.width := by
  cases reduction
  case sum | prod => exact counts.encode_lt _
  case min =>
    rw [combineFloat, Format.minimum]
    split <;> assumption
  case max =>
    rw [combineFloat, Format.maximum]
    split <;> assumption

/-- A scalar fits the type that it is stored as, however it is narrowed to two bytes. -/
theorem encode_lt [Halves] (type : ElementType) {scalar : Scalar} (fits : scalar.Fits) :
    type.encode scalar < powerOfTwo type.bits := by
  cases type
  case f32 => exact Format.counts_binary32.convert_lt _ _
  case f64 => exact fits
  case f16 => exact (Halves.narrow .binary16 scalar.word).toNat_lt
  case bf16 => exact (Halves.narrow .bfloat16 scalar.word).toNat_lt
  case i32 => exact wordOf_lt 32 _
  case i64 => exact wordOf_lt 64 _
  case u8 =>
    have bounds := scalar.value.truncate_bounds (Int.le_refl 0) (show (0 : Int) ≤ 255 by decide)
    show (scalar.value.truncate 0 255).toNat < 256
    omega
  case bool =>
    rw [encode]
    split <;> decide

/-- A narrow format stores the word that its own conversion gives, if that is how two bytes are
narrowed. -/
theorem encode_narrow (floats : type.format? = some format) (narrow : type ≠ .f64)
    (scalar : Scalar) : type.encode scalar = Format.binary64.convert format scalar.word := by
  cases type <;> cases floats
  case f32 => rfl
  case f64 => exact absurd rfl narrow
  case f16 => exact UInt16.toNat_ofNat_of_lt (Format.counts_binary16.convert_lt _ _)
  case bf16 => exact UInt16.toNat_ofNat_of_lt (Format.counts_bfloat16.convert_lt _ _)

/-- Words of a type are reduced to a word of the type. -/
theorem combine_lt (type : ElementType) (reduction : Reduction)
    (leftFits : left < powerOfTwo type.bits) (rightFits : right < powerOfTwo type.bits) :
    type.combine reduction left right < powerOfTwo type.bits := by
  cases type
  case f32 => exact combineFloat_lt Format.counts_binary32 leftFits rightFits reduction
  case f64 => exact combineFloat_lt Format.counts_binary64 leftFits rightFits reduction
  case f16 => exact Format.counts_binary16.convert_lt _ _
  case bf16 => exact Format.counts_bfloat16.convert_lt _ _
  case i32 | i64 => exact combineSigned_lt leftFits rightFits reduction
  case u8 => exact combineByte_lt leftFits rightFits reduction
  case bool => exact Nat.lt_trans (combineBool_lt reduction left right) (by decide)

end ElementType

end CollectiveBench
