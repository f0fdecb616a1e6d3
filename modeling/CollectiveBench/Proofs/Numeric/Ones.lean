import CollectiveBench.Proofs.Numeric.Widths

/-!
# Sums of ones

Every type adds ones in its own way. A floating-point format counts up to its limit and stays
there; an integer wraps around at its width; a truth value stays true. What a scalar is stored as
is another matter: integers stop at the ends of their range. The two agree up to a number that
depends on the type (`ElementType.Sums`), and for no other number but those where a byte comes
around to its last value.
-/

namespace CollectiveBench

open Numeric

namespace ElementType

/-- One and `more` further ones, added from left to right. -/
def onePlus (type : ElementType) : Nat → Nat
  | 0 => type.encode .one
  | more + 1 => type.combine .sum (type.onePlus more) (type.encode .one)

/-- The ones that a type adds up to `number` make the element that `number` is stored as. -/
def Sums (type : ElementType) (number : Nat) : Prop :=
  match type with
  | .f32 => number ≤ Format.binary32.limit + 1
  | .f64 => number ≤ Format.binary64.limit + 1
  | .f16 => number ≤ Format.binary16.limit + 1
  | .bf16 => number ≤ Format.bfloat16.limit + 1
  | .i32 => number < powerOfTwo 31
  | .i64 => number < powerOfTwo 63
  | .u8 => number < 256 ∨ number % 256 = 255
  | .bool => True

/-! ## Floating-point types -/

section

variable {type : ElementType} {format : Format} {count : Nat}

/-- Every format of elements counts. -/
theorem counts_of_format? (floats : type.format? = some format) : format.Counts := by
  cases type <;> cases floats
  · exact Format.counts_binary32
  · exact Format.counts_binary64
  · exact Format.counts_binary16
  · exact Format.counts_bfloat16

/-- The limit of a two-byte format is far below that of the format it is reduced in. -/
theorem combineHalf_word (counts : format.Counts) (narrow : format.limit < Format.binary32.limit)
    (small : count ≤ format.limit) :
    combineHalf format .sum (format.word count) (format.word 1) = format.word (count + 1) := by
  have one : 1 ≤ format.limit := powerOfTwo_pos _
  rw [combineHalf, Format.convert_of_denotes (counts.denotes_word small) Format.counts_binary32,
    Format.convert_of_denotes (counts.denotes_word one) Format.counts_binary32, combineFloat,
    Format.counts_binary32.add_word (by omega) (by decide)]
  exact Format.convert_of_denotes (Format.counts_binary32.denotes_word (by omega)) counts

/-- Adding one to the word of a count gives the word of the next count. -/
theorem combine_word (floats : type.format? = some format) (small : count ≤ format.limit) :
    type.combine .sum (format.word count) (format.word 1) = format.word (count + 1) := by
  have one : 1 ≤ format.limit := powerOfTwo_pos _
  cases type <;> cases floats
  · exact Format.counts_binary32.add_word small one
  · exact Format.counts_binary64.add_word small one
  · exact combineHalf_word Format.counts_binary16 (by decide) small
  · exact combineHalf_word Format.counts_bfloat16 (by decide) small

/-- A count is stored as its word in the format of the type. -/
theorem encode_ofNat (floats : type.format? = some format)
    (small : count ≤ Format.binary64.limit) : type.encode (.ofNat count) = format.word count := by
  by_cases wide : type = .f64
  · subst wide
    cases floats
    rfl
  · rw [encode_narrow floats wide]
    exact Format.convert_of_denotes (Scalar.denotes_ofNat small) (counts_of_format? floats)

/-- A number that a format holds is read as the scalar of that number. -/
theorem denotes_decode (floats : type.format? = some format) {word : Nat}
    (denotes : (format.decode word).Denotes count) (small : count ≤ Format.binary64.limit) :
    (type.decode word).value.Denotes count := by
  have converted (format : Format) (denotes : (format.decode word).Denotes count) :
      (Format.binary64.decode (format.convert .binary64 word)).Denotes count := by
    rw [Format.convert_of_denotes denotes Format.counts_binary64]
    exact Format.counts_binary64.denotes_word small
  cases type <;> cases floats
  · exact converted _ denotes
  · exact denotes
  · exact converted _ denotes
  · exact converted _ denotes

/-- A word that is infinite in the format is infinite as an element. -/
theorem infinite_decode (floats : type.format? = some format) {word : Nat}
    (infinite : format.decode word = .infinite false) :
    (type.decode word).value = .infinite false := by
  have converted (format : Format) (infinite : format.decode word = .infinite false) :
      Format.binary64.decode (format.convert .binary64 word) = .infinite false := by
    simp only [Format.convert, infinite]
    exact Format.binary64.decode_infinity
  cases type <;> cases floats
  · exact converted _ infinite
  · exact infinite
  · exact converted _ infinite
  · exact converted _ infinite

/-- A format counts by ones up to its limit and stays there. -/
theorem onePlus_float (floats : type.format? = some format) (more : Nat) :
    type.onePlus more = format.word (min (more + 1) format.limit) := by
  have one : 1 ≤ format.limit := powerOfTwo_pos _
  have unit : type.encode .one = format.word 1 :=
    Scalar.one_eq ▸ encode_ofNat floats (by decide)
  induction more with
  | zero => rw [onePlus, unit, Nat.min_eq_left one]
  | succ more inductionHypothesis =>
    have small : min (more + 1) format.limit ≤ format.limit := Nat.min_le_right _ _
    rw [onePlus, inductionHypothesis, unit, combine_word floats small,
      ← (counts_of_format? floats).word_min (Nat.succ_le_succ small)]
    congr 1
    omega

/-- The count of a format is the stored number up to one more than the limit. -/
theorem beq_onePlus_float (floats : type.format? = some format) {number : Nat}
    (positive : 0 < number) (small : 2 * number ≤ Format.binary64.limit) :
    (type.decode (format.word (min number format.limit))).beq
      (type.decode (format.word number)) ↔ number ≤ format.limit + 1 := by
  have counts := counts_of_format? floats
  have some : 0 < format.limit := powerOfTwo_pos _
  have within : min number format.limit ≤ format.limit := Nat.min_le_right _ _
  have counted := denotes_decode floats (counts.denotes_word within) (by omega)
  rw [Scalar.beq_iff]
  rcases Nat.lt_or_ge (format.limit + 1) number with beyond | inside
  · refine iff_of_false (fun same => ?_) (Nat.not_le.mpr beyond)
    rcases counts.decode_word positive with denotes | ⟨infinite, _⟩
    · have stored := denotes_decode floats denotes
        (Nat.le_trans (format.rounded_le positive) small)
      have above := Format.limit_lt_rounded beyond
      have equal := (counted.compare?_eq stored).mp same
      omega
    · refine counted.compare?_ne (by omega) ?_ same
      rw [infinite_decode floats infinite]
      simp
  · refine iff_of_true ?_ inside
    rw [counts.word_min inside] at counted ⊢
    exact (counted.compare?_eq counted).mpr rfl

end

/-! ## Integers and truth values -/

/-- Ones that wrap around at a unit are counted modulo the unit. -/
theorem onePlus_wrap {type : ElementType} (unit : Nat) (wide : 1 < unit)
    (one : type.encode .one = 1)
    (wraps : ∀ left right, type.combine .sum left right = (left + right) % unit) (more : Nat) :
    type.onePlus more = (more + 1) % unit := by
  induction more with
  | zero => rw [onePlus, one, Nat.mod_eq_of_lt wide]
  | succ more inductionHypothesis =>
    rw [onePlus, one, wraps, inductionHypothesis, Nat.mod_add_mod]

/-- A sum of true values is true. -/
theorem onePlus_bool (more : Nat) : ElementType.bool.onePlus more = 1 := by
  induction more with
  | zero => decide +kernel
  | succ more inductionHypothesis =>
    rw [onePlus, inductionHypothesis]
    decide +kernel

/-- A natural number is the same scalar as an integer. -/
theorem ofInt_natCast (count : Nat) : Scalar.ofInt count = .ofNat count := by
  rw [Scalar.ofInt, Value.ofInt, decide_eq_false (by omega), Int.natAbs_natCast]
  rfl

/-- The word of a natural number in a signed integer stops at the largest one. -/
theorem clampedWord_ofNat {bits count : Nat} (small : count ≤ Format.binary64.limit) :
    clampedWord (bits + 1) (.ofNat count) = min count (powerOfTwo bits - 1) := by
  have some := powerOfTwo_pos bits
  have double := powerOfTwo_succ bits
  have held : max (-(powerOfTwo bits : Int)) (min (powerOfTwo bits - 1) count) =
      (min count (powerOfTwo bits - 1) : Nat) := by omega
  rw [clampedWord, (Scalar.denotes_ofNat small).truncate_eq, Nat.add_sub_cancel, held, wordOf,
    ← Int.natCast_emod, Int.toNat_natCast, Nat.mod_eq_of_lt (by omega)]

/-- A word without the top bit stands for itself. -/
theorem signedWord_of_lt {bits word : Nat} (below : word < powerOfTwo bits) :
    signedWord (bits + 1) word = word := by
  rw [signedWord, Nat.add_sub_cancel, if_pos below]

/-- A natural number that is stored as a signed integer stops at the largest one. -/
theorem cast_ofNat_signed {bits count : Nat} (small : count ≤ Format.binary64.limit) :
    Scalar.ofInt (signedWord (bits + 1) (clampedWord (bits + 1) (.ofNat count))) =
      .ofNat (min count (powerOfTwo bits - 1)) := by
  have some := powerOfTwo_pos bits
  have stored : min count (powerOfTwo bits - 1) < powerOfTwo bits := by omega
  rw [clampedWord_ofNat small, signedWord_of_lt stored, ofInt_natCast]

/-- A natural number that is stored as a byte stops at 255. -/
theorem cast_ofNat_byte {count : Nat} (small : count ≤ Format.binary64.limit) :
    ElementType.u8.cast (.ofNat count) = .ofNat (min count 255) := by
  have held : max (0 : Int) (min 255 count) = (min count 255 : Nat) := by omega
  simp only [cast, encode, decode, (Scalar.denotes_ofNat small).truncate_eq, held,
    Int.toNat_natCast]

/-- A scalar of a negative integer is no positive number. -/
theorem beq_negative {number : Int} (negative : number < 0) {count : Nat} (positive : 0 < count)
    (small : count ≤ Format.binary64.limit) : ¬ (Scalar.ofInt number).beq (.ofNat count) := by
  rw [Scalar.beq_iff]
  intro same
  refine (Scalar.denotes_ofNat small).compare?_ne positive ?_ (Value.compare?_swap same)
  rw [Scalar.ofInt, Scalar.ofValue, Value.ofInt, Scalar.value, decide_eq_true negative]
  exact Format.binary64.decode_withSign_ne
    (Nat.lt_of_le_of_lt (Format.binary64.magnitudeOf_le _ 1 0) Format.binary64.infinity_lt)

/-- The count of a signed integer is the stored number within its range, and turns negative beyond
it. -/
theorem beq_onePlus_signed {bits number : Nat} (wide : 1 < powerOfTwo bits)
    (small : number ≤ Format.binary64.limit) (inside : number < powerOfTwo (bits + 1)) :
    (Scalar.ofInt (signedWord (bits + 1) (number % powerOfTwo (bits + 1)))).beq
      (.ofInt (signedWord (bits + 1) (clampedWord (bits + 1) (.ofNat number)))) ↔
      number < powerOfTwo bits := by
  rw [Nat.mod_eq_of_lt inside, cast_ofNat_signed small]
  rcases Nat.lt_or_ge number (powerOfTwo bits) with within | beyond
  · rw [signedWord_of_lt within, ofInt_natCast, Nat.min_eq_left (by omega)]
    exact iff_of_true ((Scalar.beq_ofNat small small).mpr rfl) within
  · rw [signedWord, Nat.add_sub_cancel, if_neg (Nat.not_lt.mpr beyond)]
    refine iff_of_false (beq_negative ?_ ?_ ?_) (Nat.not_lt.mpr beyond)
    all_goals omega

/-- The ones that a type adds up to a number make the element that the number is stored as exactly
for the numbers that `Sums` says. -/
theorem beq_onePlus (type : ElementType) {more : Nat} (small : more + 1 < powerOfTwo 32) :
    (type.decode (type.onePlus more)).beq
      (type.cast (if type = .bool then .one else .ofNat (more + 1) * .one)) ↔
      type.Sums (more + 1) := by
  have limit : Format.binary64.limit = 9007199254740992 := by decide
  have size : powerOfTwo 32 = 4294967296 := by decide
  have exact64 : more + 1 ≤ Format.binary64.limit := by omega
  rw [Scalar.ofNat_mul_one exact64]
  have floating {format : Format} (floats : type.format? = some format) :
      (type.decode (type.onePlus more)).beq (type.cast (.ofNat (more + 1))) ↔
        more + 1 ≤ format.limit + 1 := by
    rw [onePlus_float floats, cast, encode_ofNat floats exact64]
    exact beq_onePlus_float floats (Nat.succ_pos more) (by omega)
  cases type with
  | f32 => exact floating rfl
  | f64 => exact floating rfl
  | f16 => exact floating rfl
  | bf16 => exact floating rfl
  | i32 =>
    rw [onePlus_wrap (powerOfTwo 32) (by decide) (by decide +kernel) fun _ _ => rfl]
    exact beq_onePlus_signed (by decide) exact64 small
  | i64 =>
    rw [onePlus_wrap (powerOfTwo 64) (by decide) (by decide +kernel) fun _ _ => rfl]
    exact beq_onePlus_signed (by decide) exact64 (Nat.lt_trans small (by decide))
  | u8 =>
    rw [onePlus_wrap 256 (by decide) (by decide +kernel) fun _ _ => rfl]
    show (Scalar.ofNat ((more + 1) % 256)).beq (ElementType.u8.cast (.ofNat (more + 1))) ↔ _
    rw [cast_ofNat_byte exact64, Scalar.beq_ofNat (by omega) (by omega), Sums]
    omega
  | bool =>
    rw [onePlus_bool, if_pos rfl]
    exact iff_of_true (by decide +kernel) trivial

end ElementType

end CollectiveBench
