import CollectiveBench.Proofs.Delivery.Sums
import CollectiveBench.Proofs.Numeric.BelowOne

/-!
# Stale destinations

Before a validated run everything that must be overwritten is set to a number that was drawn between
zero and one, and so a destination that nothing was written to should fail the check. It does unless
the type of its elements makes of the number what it makes of the expected one
(`ElementType.beq_stale_iff`). No integer does, since it cuts the number to zero, and the widest
format keeps the number as it is. The narrower formats round a number that is close to one, and a
truth value is true for any number but zero, which is nearly every draw.

How numbers are narrowed to formats of two bytes is left open, as long as one stays one and no other
number crosses it (`ElementType.KeepsOne`). Rounding to the nearest word does that, and then the
border is known for these formats, too (`ElementType.takesForOne_iff_isNearOne`).
-/

namespace CollectiveBench

open Numeric

namespace ElementType

/-- The type takes a number between zero and one for one. -/
def TakesForOne [Halves] (type : ElementType) (draw : Scalar) : Prop :=
  match type with
  | .f32 => (Scalar.nearOne 25).le draw
  | .f16 => (ElementType.f16.cast draw).beq .one
  | .bf16 => (ElementType.bf16.cast draw).beq .one
  | .bool => ¬ draw.beq .zero
  | .f64 | .i32 | .i64 | .u8 => False

instance [Halves] (type : ElementType) (draw : Scalar) : Decidable (type.TakesForOne draw) :=
  match type with
  | .f32 | .f16 | .bf16 => inferInstanceAs (Decidable (_ = true))
  | .bool => inferInstanceAs (Decidable (¬ _ = true))
  | .f64 | .i32 | .i64 | .u8 => inferInstanceAs (Decidable False)

/-- What is stored keeps its side of one: one is stored as it is, a number between zero and one as
such a number or as one, and a count of two or more as two or more. -/
structure KeepsOne [Halves] (type : ElementType) : Prop where
  one : type.cast .one = .one
  fraction : ∀ (draw : Scalar) (significand places : Nat),
    draw.value.IsFraction significand places →
    (type.cast draw).value.Denotes 1 ∨
      ∃ significand places, (type.cast draw).value.IsFraction significand places
  several : ∀ count, 2 ≤ count → 2 * count ≤ Format.binary64.limit →
    (∃ number, (type.cast (.ofNat count)).value.Denotes number ∧ 2 ≤ number) ∨
      (type.cast (.ofNat count)).value = .infinite false

/-- The number is so close to one that the nearest number of the type is one. -/
def IsNearOne (type : ElementType) (draw : Scalar) : Prop :=
  match type with
  | .f32 => (Scalar.nearOne 25).le draw
  | .f16 => (Scalar.nearOne 12).le draw
  | .bf16 => (Scalar.nearOne 9).le draw
  | _ => False

variable {type : ElementType} {format : Format} {draw : Scalar} {significand places count : Nat}

/-! ## Floating-point types -/

/-- A narrow format has a border near to one. -/
theorem isNearOne_iff (floats : type.format? = some format) (narrow : type ≠ .f64)
    (fraction : draw.value.IsFraction significand places) :
    type.IsNearOne draw ↔ NearOne (format.fractionBits + 2) significand places := by
  cases type <;> cases floats
  case f64 => exact absurd rfl narrow
  all_goals
    exact Scalar.nearOne_le_iff fraction (by decide) (by decide) (by decide +kernel)

/-- A number below one is stored by rounding its value. -/
theorem encode_fraction (floats : type.format? = some format) (narrow : type ≠ .f64)
    (fraction : draw.value.IsFraction significand places) :
    type.encode draw = format.encode draw.value :=
  (encode_narrow floats narrow draw).trans fraction.convert

/-- A number that is not close to one is read back as a number below one. -/
theorem cast_fraction (floats : type.format? = some format)
    (fraction : draw.value.IsFraction significand places) (distinct : ¬ type.IsNearOne draw) :
    ∃ significand places, (type.cast draw).value.IsFraction significand places := by
  by_cases wide : type = .f64
  · subst wide
    exact ⟨significand, places, fraction⟩
  · have far := mt (isNearOne_iff floats wide fraction).mpr distinct
    obtain ⟨part, unit, stored, apart⟩ :=
      (fraction.encode (counts_of_format? floats)).2 far
    rw [← encode_fraction floats wide fraction] at stored
    -- Reading widens the number, and the wide format tells it from one as well.
    have widened : (type.cast draw).value =
        Format.binary64.decode (Format.binary64.encode (format.decode (type.encode draw))) := by
      cases type <;> cases floats
      case f64 => exact absurd rfl wide
      all_goals exact congrArg Format.binary64.decode stored.convert
    have wider : format.fractionBits ≤ Format.binary64.fractionBits := by
      cases type <;> cases floats <;> decide
    obtain ⟨part, unit, read, _⟩ := (stored.encode Format.counts_binary64).2
      fun near => apart (near.mono (Nat.add_le_add_right wider 2))
    exact ⟨part, unit, widened ▸ read⟩

/-- A number that is close to one is read back as one. -/
theorem cast_eq_one (floats : type.format? = some format)
    (fraction : draw.value.IsFraction significand places) (taken : type.IsNearOne draw) :
    type.cast draw = type.cast (.ofNat 1) := by
  have narrow : type ≠ .f64 := by
    rintro rfl
    exact taken
  have near := (isNearOne_iff floats narrow fraction).mp taken
  rw [cast, cast, encode_ofNat floats (by decide), encode_fraction floats narrow fraction,
    (fraction.encode (counts_of_format? floats)).1 near]

/-- A natural number is read back as one that is positive if it is, and as more than one if it is
more; or as infinity. -/
theorem cast_ofNat_float (floats : type.format? = some format) (positive : 0 < count)
    (small : 2 * count ≤ Format.binary64.limit) :
    (∃ number, (type.cast (.ofNat count)).value.Denotes number ∧ 0 < number ∧
      (2 ≤ count → 2 ≤ number)) ∨ (type.cast (.ofNat count)).value = .infinite false := by
  have counts := counts_of_format? floats
  have double : format.limit = 2 * powerOfTwo format.fractionBits := powerOfTwo_succ _
  have unit := powerOfTwo_pos format.fractionBits
  rw [cast, encode_ofNat floats (by omega)]
  rcases Nat.lt_or_ge (format.limit + 1) count with beyond | inside
  · rcases counts.decode_word positive with denotes | ⟨infinite, _⟩
    · have above := Format.limit_lt_rounded beyond
      exact .inl ⟨_, denotes_decode floats denotes
        (Nat.le_trans (format.rounded_le positive) small), by omega, by omega⟩
    · exact .inr (infinite_decode floats infinite)
  · rw [← counts.word_min inside]
    exact .inl ⟨_, denotes_decode floats (counts.denotes_word (Nat.min_le_right _ _)) (by omega),
      by omega, by omega⟩

/-- One is a number that every format holds. -/
theorem denotes_cast_one (floats : type.format? = some format) :
    (type.cast (.ofNat 1)).value.Denotes 1 := by
  rw [cast, encode_ofNat floats (by decide)]
  exact denotes_decode floats
    ((counts_of_format? floats).denotes_word (powerOfTwo_pos _)) (by decide)

/-- Rounding to the nearest word keeps one. -/
theorem keepsOne_nearest (floats : type.format? = some format) : type.KeepsOne where
  one := by cases type <;> cases floats <;> decide +kernel
  fraction draw significand places fraction := by
    by_cases near : type.IsNearOne draw
    · rw [cast_eq_one floats fraction near]
      exact .inl (denotes_cast_one floats)
    · exact .inr (cast_fraction floats fraction near)
  several count several small := by
    rcases cast_ofNat_float floats (by omega) small with ⟨number, denotes, _, more⟩ | infinite
    · exact .inl ⟨number, denotes, more several⟩
    · exact .inr infinite

/-- A number between zero and one is no other number than those. -/
theorem not_beq_one_of_fraction (fraction : draw.value.IsFraction significand places) :
    ¬ draw.beq .one := by
  rw [Scalar.beq_iff, Scalar.one_eq]
  exact fraction.compare?_ne (Scalar.denotes_ofNat (by decide)) Nat.one_pos

/-- With rounding to the nearest word, numbers close to one are those that are read back as one. -/
theorem beq_one_iff_isNearOne (floats : type.format? = some format)
    (fraction : draw.value.IsFraction significand places) :
    (type.cast draw).beq .one ↔ type.IsNearOne draw := by
  by_cases near : type.IsNearOne draw
  · have one : type.cast (.ofNat 1) = .one := Scalar.one_eq ▸ (keepsOne_nearest floats).one
    rw [cast_eq_one floats fraction near, one]
    exact iff_of_true (by decide +kernel) near
  · obtain ⟨part, unit, below⟩ := cast_fraction floats fraction near
    exact iff_of_false (not_beq_one_of_fraction below) near

/-- With rounding to the nearest word, numbers close to one are those that are taken for it. -/
theorem takesForOne_iff_isNearOne (floats : type.format? = some format)
    (fraction : draw.value.IsFraction significand places) :
    type.TakesForOne draw ↔ type.IsNearOne draw := by
  have rounds := beq_one_iff_isNearOne floats fraction
  cases type <;> cases floats
  case f16 | bf16 => exact rounds
  all_goals rfl

/-- A number below one is read back as what a positive number is exactly if both are read back as
one. -/
theorem beq_stale_float [Halves] (keeps : type.KeepsOne)
    (fraction : draw.value.IsFraction significand places) (positive : 0 < count)
    (small : 2 * count ≤ Format.binary64.limit) :
    (type.cast draw).beq (type.cast (.ofNat count)) ↔ (type.cast draw).beq .one ∧ count = 1 := by
  by_cases single : count = 1
  · rw [single, ← Scalar.one_eq, keeps.one, and_iff_left rfl]
  · refine iff_of_false (fun same => ?_) fun both => single both.2
    rw [Scalar.beq_iff] at same
    rcases keeps.several count (by omega) small with ⟨number, denotes, several⟩ | infinite <;>
      rcases keeps.fraction draw significand places fraction with one | ⟨part, unit, below⟩
    · have equal := (one.compare?_eq denotes).mp same
      omega
    · exact below.compare?_ne denotes (by omega) same
    · rw [infinite] at same
      exact one.compare?_ne Nat.one_pos (by simp) same
    · rw [infinite] at same
      exact below.compare?_infinite false same

/-! ## Integers and truth values -/

/-- A signed integer cuts a number below one to zero. -/
theorem clampedWord_fraction (fraction : draw.value.IsFraction significand places) (bits : Nat) :
    clampedWord (bits + 1) draw = 0 := by
  have some := powerOfTwo_pos bits
  have cut : max (-(powerOfTwo bits : Int)) (min (powerOfTwo bits - 1) 0) = 0 := by omega
  rw [clampedWord, fraction.truncate_eq, Nat.add_sub_cancel, cut]
  exact Nat.zero_mod _

/-- A zero is no positive number, whatever a signed integer makes of that. -/
theorem beq_stale_signed (fraction : draw.value.IsFraction significand places) {bits : Nat}
    (wide : 1 < powerOfTwo bits) (positive : 0 < count)
    (small : count ≤ Format.binary64.limit) :
    ¬ (Scalar.ofInt (signedWord (bits + 1) (clampedWord (bits + 1) draw))).beq
      (.ofInt (signedWord (bits + 1) (clampedWord (bits + 1) (.ofNat count)))) := by
  have zero : Scalar.ofInt (signedWord (bits + 1) (clampedWord (bits + 1) draw)) = .ofNat 0 := by
    rw [clampedWord_fraction fraction, signedWord_of_lt (powerOfTwo_pos bits), ofInt_natCast]
  rw [zero, cast_ofNat_signed small, Scalar.beq_ofNat (Nat.zero_le _) (by omega)]
  omega

/-- A number between zero and one is read back as what a positive number is exactly if its type
takes it for one, and the number is one or the type knows no other. -/
theorem beq_stale_iff [Halves] (type : ElementType)
    (keeps : type = .f16 ∨ type = .bf16 → type.KeepsOne) (lower : Scalar.zero.le draw)
    (upper : draw.lt .one) (positive : 0 < count) (small : count < powerOfTwo 32) :
    (type.cast draw).beq (type.cast (.ofNat count)) ↔
      type.TakesForOne draw ∧ (type = .bool ∨ count = 1) := by
  have limit : Format.binary64.limit = 9007199254740992 := by decide
  have size : powerOfTwo 32 = 4294967296 := by decide
  have exact64 : count ≤ Format.binary64.limit := by omega
  obtain ⟨significand, places, fraction⟩ := Scalar.exists_fraction lower upper
  have floating (keeps : type.KeepsOne) (other : type ≠ .bool)
      (taken : (type.cast draw).beq .one ↔ type.TakesForOne draw) :
      (type.cast draw).beq (type.cast (.ofNat count)) ↔
        type.TakesForOne draw ∧ (type = .bool ∨ count = 1) := by
    rw [beq_stale_float keeps fraction positive (by omega), taken, or_iff_right other]
  cases type with
  -- Four and eight bytes are not narrowed to two, so the rounding to the nearest word is theirs.
  | f32 =>
    obtain ⟨one, below, several⟩ : @KeepsOne .nearest .f32 := keepsOne_nearest rfl
    have border : (@cast .nearest .f32 draw).beq .one ↔ IsNearOne .f32 draw :=
      beq_one_iff_isNearOne rfl fraction
    exact floating ⟨one, below, several⟩ nofun border
  | f64 =>
    obtain ⟨one, below, several⟩ : @KeepsOne .nearest .f64 := keepsOne_nearest rfl
    have border : (@cast .nearest .f64 draw).beq .one ↔ IsNearOne .f64 draw :=
      beq_one_iff_isNearOne rfl fraction
    exact floating ⟨one, below, several⟩ nofun border
  | f16 => exact floating (keeps (.inl rfl)) nofun Iff.rfl
  | bf16 => exact floating (keeps (.inr rfl)) nofun Iff.rfl
  | i32 => exact iff_of_false (beq_stale_signed fraction (by decide) positive exact64) And.left
  | i64 => exact iff_of_false (beq_stale_signed fraction (by decide) positive exact64) And.left
  | u8 =>
    have zero : ElementType.u8.cast draw = .ofNat 0 := by
      simp only [cast, encode, decode, fraction.truncate_eq]
      rfl
    have counted : ElementType.u8.cast (.ofNat count) = .ofNat (min count 255) :=
      cast_ofNat_byte exact64
    refine iff_of_false ?_ And.left
    rw [zero, counted, Scalar.beq_ofNat (Nat.zero_le _) (by omega)]
    omega
  | bool =>
    have true : ElementType.bool.cast (.ofNat count) = .one := by
      have something : (Scalar.ofNat count).beq .zero = false := by
        rw [Bool.eq_false_iff]
        exact fun same => Nat.ne_of_gt positive
          ((Scalar.beq_ofNat exact64 (Nat.zero_le _)).mp same)
      simp [cast, encode, decode, something]
    rw [true]
    by_cases nothing : draw.beq .zero
    · have false : ElementType.bool.cast draw = .zero := by simp [cast, encode, decode, nothing]
      rw [false]
      exact iff_of_false (by decide +kernel) fun both => both.1 nothing
    · have holds : ElementType.bool.cast draw = .one := by simp [cast, encode, decode, nothing]
      rw [holds]
      exact iff_of_true (by decide +kernel) ⟨nothing, .inl rfl⟩

end ElementType

/-! ## Checking -/

namespace Checker

variable {buffers : Buffers} {rank root worldSize : Nat} {stale : Scalar}

/-- A destination that is to be filled from elsewhere is reset to the other value. -/
theorem destination_reset_outside [Halves] (checker : Checker)
    (outside : buffers.output.isSome ∨ onlyRootSends buffers.operation ∧ rank ≠ root) :
    (checker.reset buffers rank root stale).destination =
      buffers.destination.map (·.fill stale) := by
  obtain ⟨operation, input, output, inSplit, outSplit⟩ := buffers
  cases output with
  | some staged => rfl
  | none =>
    have apart : onlyRootSends operation ∧ rank ≠ root := by simpa using outside
    simp [reset, Buffers.destination, apart]

/-- A validated result is expected to be a number: the number of ranks for a reduction of numbers,
and one for everything else. -/
theorem expected_ones (operation : Operation) (type : ElementType) (rank root : Nat)
    {worldSize : Nat} (small : worldSize < powerOfTwo 32) :
    Checker.expected ⟨.one⟩ operation type rank root worldSize =
      .ofNat (if isReduced operation rank root ∧ type ≠ .bool then worldSize else 1) := by
  have limit : powerOfTwo 32 ≤ Format.binary64.limit := by decide
  rw [expected]
  split
  · exact Scalar.ofNat_mul_one (by omega)
  · exact Scalar.one_eq

/-- A destination to be filled from elsewhere that a run of several ranks leaves as it was reset
passes the check, where it is to be checked, exactly if it has no elements, or if the type takes the
stale number for one and one is what is expected. Of the conversion to two bytes it takes only that
numbers keep their side of one. -/
theorem stale_passes_iff [Halves] {returned : Call} {type : ElementType}
    (keeps : type = .f16 ∨ type = .bf16 → type.KeepsOne)
    (types : ∀ tensor ∈ buffers.destination.tensors, tensor.type = type)
    (outside : buffers.output.isSome ∨
      onlyRootSends buffers.operation ∧ rank ≠ returned.root)
    (lower : Scalar.zero.le stale) (upper : stale.lt .one) (several : 2 ≤ worldSize)
    (small : worldSize < powerOfTwo 32)
    (untouched : returned.buffers.destination =
      (Checker.reset ⟨.one⟩ buffers rank returned.root stale).destination)
    (checked : shouldCheck returned rank) (sizeBytes : Nat) :
    Checker.check ⟨.one⟩ returned rank worldSize sizeBytes = .ok () ↔
      (∀ tensor ∈ buffers.destination.tensors, tensor.count = 0) ∨
        type.TakesForOne stale ∧
          (type = .bool ∨ isReduced returned.operation rank returned.root = false) := by
  rw [destination_reset_outside _ outside] at untouched
  have holds : returned.buffers.destination.Holds (type.encode stale) := by
    rw [untouched]
    exact Staged.holds_fill types stale
  have sameTypes : ∀ tensor ∈ returned.buffers.destination.tensors, tensor.type = type := by
    rw [untouched, Staged.tensors_map, List.forall_mem_map]
    exact types
  have empty : (∀ tensor ∈ returned.buffers.destination.tensors, tensor.count = 0) ↔
      ∀ tensor ∈ buffers.destination.tensors, tensor.count = 0 := by
    rw [untouched, Staged.tensors_map, List.forall_mem_map]
    simp only [Tensor.fill, Tensor.full, Tensor.count, List.length_replicate]
  have positive : 0 < if isReduced returned.operation rank returned.root ∧ type ≠ .bool then
      worldSize else 1 := by split <;> omega
  have bounded : (if isReduced returned.operation rank returned.root ∧ type ≠ .bool then
      worldSize else 1) < powerOfTwo 32 := by split <;> omega
  have read := type.beq_stale_iff keeps lower upper positive bounded
  rw [check_holds_iff sameTypes holds, checked, empty, expected_ones _ _ _ _ small]
  simp only [Bool.true_eq_false, false_or]
  refine or_congr_right (read.trans (and_congr_right fun _ => ?_))
  by_cases truth : type = .bool
  · simp [truth]
  · cases isReduced returned.operation rank returned.root with
    | true =>
      simp only [truth, ne_eq, not_false_eq_true, and_self, if_true, false_or, Bool.true_eq_false,
        iff_false]
      omega
    | false => simp [truth]

/-- A rank that is not the root of a broadcast of two elements, and that nothing was written to.
With a half as its stale number it fails. With the least number whose nearest number of two bytes is
one it passes. -/
theorem stale_passes_iff_broadcast :
    let buffers : Buffers := { operation := .broadcast, input := .single (.zeros 2 .f16) }
    let returned (stale : Scalar) : Call := { buffers := Checker.reset ⟨.one⟩ buffers 1 0 stale }
    let half : Scalar := .ofValue (.finite false 1 (-1))
    let near : Scalar := .nearOne 12
    Scalar.zero.le half ∧ half.lt .one ∧
      Checker.check ⟨.one⟩ (returned half) 1 2 4 ≠ .ok () ∧
      Scalar.zero.le near ∧ near.lt .one ∧
      Checker.check ⟨.one⟩ (returned near) 1 2 4 = .ok () := by
  intro buffers returned half near
  have types : ∀ tensor ∈ buffers.destination.tensors, tensor.type = .f16 := by decide
  have outside : buffers.output.isSome ∨ onlyRootSends buffers.operation ∧ 1 ≠ 0 :=
    .inr ⟨by decide, by decide⟩
  have bounds : (Scalar.zero.le half ∧ half.lt .one) ∧ Scalar.zero.le near ∧ near.lt .one := by
    decide +kernel
  have keeps : ElementType.f16.KeepsOne := ElementType.keepsOne_nearest rfl
  have passes (stale : Scalar) (lower : Scalar.zero.le stale) (upper : stale.lt .one) :
      Checker.check ⟨.one⟩ (returned stale) 1 2 4 = .ok () ↔
        (∀ tensor ∈ buffers.destination.tensors, tensor.count = 0) ∨
          ElementType.f16.TakesForOne stale ∧
            (ElementType.f16 = .bool ∨ isReduced .broadcast 1 0 = false) :=
    stale_passes_iff (fun _ => keeps) types outside lower upper (by decide) (by decide) rfl rfl 4
  refine ⟨bounds.1.1, bounds.1.2, mt (passes half bounds.1.1 bounds.1.2).mp ?_,
    bounds.2.1, bounds.2.2, (passes near bounds.2.1 bounds.2.2).mpr ?_⟩
  · decide +kernel
  · decide +kernel

/-- A truth value makes of a half what it makes of one, so nobody notices that nothing was written
to a rank that is not the root of a broadcast. -/
theorem stale_truth_passes :
    let buffers : Buffers := { operation := .broadcast, input := .single (.zeros 1 .bool) }
    let half : Scalar := .ofValue (.finite false 1 (-1))
    let returned : Call := { buffers := Checker.reset ⟨.one⟩ buffers 1 0 half }
    Scalar.zero.le half ∧ half.lt .one ∧ onlyRootSends buffers.operation ∧ 1 ≠ returned.root ∧
      shouldCheck returned 1 ∧ (∀ tensor ∈ buffers.destination.tensors, tensor.count = 1) ∧
      Checker.check ⟨.one⟩ returned 1 2 1 = .ok () := by
  decide +kernel

end Checker

end CollectiveBench
