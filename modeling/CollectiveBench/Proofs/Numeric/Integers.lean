import Mathlib
import CollectiveBench.Element

/-!
# Words as integers

The words of the integer types stand for integers, and those of truth values for zero and one.
Reducing words one after the other, each time within the width of the type, gives the word of what
the integers reduce to exactly (`ElementType.exact_concat`): a sum or a product is wrapped around as
if once at the end, and a minimum or a maximum is one of the integers themselves. The exact
reduction is a function of the integers, whatever their order (`ElementType.exact_perm`).
-/

namespace CollectiveBench

/-! ## Exact reductions -/

/-- The exact reduction of integers, of which sums and products are wrapped around. -/
def exactInteger (wrap : Int → Int) (reduction : Reduction) (numbers : List Int) : Option Int :=
  match reduction with
  | .sum => some (wrap numbers.sum)
  | .prod => some (wrap numbers.prod)
  | .min => numbers.min?
  | .max => numbers.max?

/-- The reduction of truth values, written as zeros and ones: a sum or a maximum is true if one of
them is, a product or a minimum if all are. -/
def exactTruth (reduction : Reduction) (numbers : List Int) : Int :=
  match reduction with
  | .sum | .max => if 1 ∈ numbers then 1 else 0
  | .prod | .min => if 0 ∈ numbers then 0 else 1

namespace ElementType

/-- The integer that a word stands for. -/
def integer (type : ElementType) (word : Nat) : Int :=
  match type with
  | .i32 => signedWord 32 word
  | .i64 => signedWord 64 word
  | _ => word

/-- The word is one that an element may be. A truth value is stored as zero or one. -/
def IsProper (type : ElementType) (word : Nat) : Prop :=
  match type with
  | .bool => word < 2
  | _ => word < powerOfTwo type.bits

instance (type : ElementType) (word : Nat) : Decidable (type.IsProper word) :=
  match type with
  | .bool => inferInstanceAs (Decidable (word < 2))
  | .f32 | .f64 | .f16 | .bf16 | .i32 | .i64 | .u8 =>
    inferInstanceAs (Decidable (word < powerOfTwo _))

/-- The exact reduction of what words of a type stand for. Signed integers wrap around into a range
on both sides of zero, bytes into one from zero on. Floating-point numbers have none. -/
def exact (type : ElementType) (reduction : Reduction) (numbers : List Int) : Option Int :=
  match type with
  | .i32 => exactInteger (·.bmod (powerOfTwo 32)) reduction numbers
  | .i64 => exactInteger (·.bmod (powerOfTwo 64)) reduction numbers
  | .u8 => exactInteger (· % 256) reduction numbers
  | .bool => some (exactTruth reduction numbers)
  | .f32 | .f64 | .f16 | .bf16 => none

/-- Three bytes exceed their range together, and the greatest signed integer is below zero only when
one is added. -/
example : ElementType.u8.exact .sum [200, 100, 9] = some 53 ∧
    ElementType.i32.exact .sum [2147483647, 1] = some (-2147483648) ∧
    ElementType.i32.exact .max [2147483647, -1] = some 2147483647 := by decide +kernel

end ElementType

/-! ## The order of integers -/

/-- The exact result for integers does not depend on their order. -/
theorem exactInteger_perm {numbers others : List Int} (order : numbers.Perm others)
    (wrap : Int → Int) (reduction : Reduction) :
    exactInteger wrap reduction numbers = exactInteger wrap reduction others := by
  have same (number : Int) : number ∈ numbers ↔ number ∈ others := order.mem_iff
  cases reduction with
  | sum => rw [exactInteger, exactInteger, order.sum_eq]
  | prod => rw [exactInteger, exactInteger, order.prod_eq]
  | min =>
    refine Option.ext fun least => ?_
    simp only [exactInteger, List.min?_eq_some_iff, same]
  | max =>
    refine Option.ext fun greatest => ?_
    simp only [exactInteger, List.max?_eq_some_iff, same]

/-- The exact result for truth values does not depend on their order. -/
theorem exactTruth_perm {numbers others : List Int} (order : numbers.Perm others)
    (reduction : Reduction) : exactTruth reduction numbers = exactTruth reduction others := by
  cases reduction <;> simp only [exactTruth, order.mem_iff]

/-- The exact reduction does not depend on the order. -/
theorem ElementType.exact_perm (type : ElementType) (reduction : Reduction)
    {numbers others : List Int} (order : numbers.Perm others) :
    type.exact reduction numbers = type.exact reduction others := by
  cases type <;> simp only [exact, exactInteger_perm order, exactTruth_perm order]

/-! ## One integer more -/

/-- The reduction of two integers. -/
def combineIntegers (wrap : Int → Int) (reduction : Reduction) (left right : Int) : Int :=
  match reduction with
  | .sum => wrap (left + right)
  | .prod => wrap (left * right)
  | .min => min left right
  | .max => max left right

/-- Wrapping around at every step is wrapping around once. -/
structure Wraps (wrap : Int → Int) : Prop where
  add : ∀ left right, wrap (wrap left + right) = wrap (left + right)
  mul : ∀ left right, wrap (wrap left * right) = wrap (left * right)

/-- The balanced remainder wraps. -/
theorem wraps_bmod (modulus : Nat) : Wraps (·.bmod modulus) where
  add _ _ := Int.bmod_add_bmod
  mul _ _ := Int.bmod_mul_bmod

/-- The remainder wraps. -/
theorem wraps_emod (modulus : Int) : Wraps (· % modulus) where
  add left right := Int.emod_add_emod left modulus right
  mul left right := by rw [Int.mul_emod, Int.emod_emod, ← Int.mul_emod]

/-- An integer by itself is reduced to itself. -/
theorem exactInteger_singleton {wrap : Int → Int} {number : Int} (within : wrap number = number)
    (reduction : Reduction) : exactInteger wrap reduction [number] = some number := by
  cases reduction <;> simp [exactInteger, within]

/-- One integer more is reduced with what the others reduce to. -/
theorem exactInteger_concat {wrap : Int → Int} (wraps : Wraps wrap) {reduction : Reduction}
    {numbers : List Int} {so : Int} (reduced : exactInteger wrap reduction numbers = some so)
    (next : Int) :
    exactInteger wrap reduction (numbers ++ [next]) =
      some (combineIntegers wrap reduction so next) := by
  cases reduction with
  | sum =>
    obtain rfl := Option.some.inj reduced
    simp [exactInteger, combineIntegers, wraps.add]
  | prod =>
    obtain rfl := Option.some.inj reduced
    simp [exactInteger, combineIntegers, wraps.mul]
  | min =>
    obtain ⟨member, least⟩ := List.min?_eq_some_iff.mp reduced
    refine List.min?_eq_some_iff.mpr ⟨?_, ?_⟩
    · rcases min_choice so next with here | here <;> simp [combineIntegers, here, member]
    · intro number listed
      rcases List.mem_append.mp listed with earlier | last
      · exact (min_le_left so next).trans (least number earlier)
      · exact List.mem_singleton.mp last ▸ min_le_right so next
  | max =>
    obtain ⟨member, greatest⟩ := List.max?_eq_some_iff.mp reduced
    refine List.max?_eq_some_iff.mpr ⟨?_, ?_⟩
    · rcases max_choice so next with here | here <;> simp [combineIntegers, here, member]
    · intro number listed
      rcases List.mem_append.mp listed with earlier | last
      · exact (greatest number earlier).trans (le_max_left so next)
      · exact List.mem_singleton.mp last ▸ le_max_right so next

/-! ## One word more -/

/-- A word read with its sign is the remainder of the word that lies on both sides of zero. -/
theorem signedWord_eq_bmod {bits word : Nat} (proper : word < powerOfTwo (bits + 1)) :
    signedWord (bits + 1) word = (word : Int).bmod (powerOfTwo (bits + 1)) := by
  have twice := powerOfTwo_succ bits
  have remainder : (word : Int) % (powerOfTwo (bits + 1) : Nat) = word :=
    Int.emod_eq_of_lt (by omega) (by omega)
  rw [signedWord, Int.bmod_def, remainder, Nat.add_sub_cancel]
  split <;> split <;> omega

/-- Different words stand for different integers. -/
theorem signedWord_injective {bits left right : Nat} (leftProper : left < powerOfTwo (bits + 1))
    (rightProper : right < powerOfTwo (bits + 1))
    (same : signedWord (bits + 1) left = signedWord (bits + 1) right) : left = right := by
  have twice := powerOfTwo_succ bits
  rw [signedWord, signedWord, Nat.add_sub_cancel] at same
  split at same <;> split at same <;> omega

/-- Signed words are combined as the integers that they stand for, wrapped. -/
theorem signedWord_combine {bits left right : Nat} (leftProper : left < powerOfTwo (bits + 1))
    (rightProper : right < powerOfTwo (bits + 1)) (reduction : Reduction) :
    signedWord (bits + 1) (ElementType.combineSigned (bits + 1) reduction left right) =
      combineIntegers (·.bmod (powerOfTwo (bits + 1))) reduction (signedWord (bits + 1) left)
        (signedWord (bits + 1) right) := by
  have wrapped (word : Nat) : signedWord (bits + 1) (word % powerOfTwo (bits + 1)) =
      (word : Int).bmod (powerOfTwo (bits + 1)) := by
    rw [signedWord_eq_bmod (Nat.mod_lt _ (powerOfTwo_pos _)), Int.natCast_mod, Int.emod_bmod]
  cases reduction with
  | sum =>
    rw [ElementType.combineSigned, combineIntegers, wrapped, signedWord_eq_bmod leftProper,
      signedWord_eq_bmod rightProper, Int.bmod_add_bmod, Int.add_bmod_bmod, Int.natCast_add]
  | prod =>
    rw [ElementType.combineSigned, combineIntegers, wrapped, signedWord_eq_bmod leftProper,
      signedWord_eq_bmod rightProper, Int.bmod_mul_bmod, Int.mul_bmod_bmod, Int.natCast_mul]
  | min =>
    rw [ElementType.combineSigned, combineIntegers, min_def]
    split <;> rfl
  | max =>
    rw [ElementType.combineSigned, combineIntegers, max_def]
    split <;> rfl

/-- Signed words are combined to a word of their bits. -/
theorem combineSigned_lt {bits left right : Nat} (leftProper : left < powerOfTwo bits)
    (rightProper : right < powerOfTwo bits) (reduction : Reduction) :
    ElementType.combineSigned bits reduction left right < powerOfTwo bits := by
  cases reduction
  case sum | prod => exact Nat.mod_lt _ (powerOfTwo_pos bits)
  all_goals
    rw [ElementType.combineSigned]
    split <;> assumption

/-- Bytes are combined to a byte. -/
theorem combineByte_lt {left right : Nat} (leftProper : left < 256) (rightProper : right < 256)
    (reduction : Reduction) : ElementType.combineByte reduction left right < 256 := by
  cases reduction <;> simp only [ElementType.combineByte] <;> omega

/-- Truth values are combined to a truth value. -/
theorem combineBool_lt (reduction : Reduction) (left right : Nat) :
    ElementType.combineBool reduction left right < 2 := by
  cases reduction <;> rw [ElementType.combineBool] <;> split <;> decide

/-- Bytes are combined as the integers that they stand for, wrapped. -/
theorem natCast_combineByte (reduction : Reduction) (left right : Nat) :
    (ElementType.combineByte reduction left right : Int) =
      combineIntegers (· % 256) reduction left right := by
  cases reduction <;> simp [ElementType.combineByte, combineIntegers]

/-- One truth value more. -/
theorem exactTruth_concat {reduction : Reduction} {numbers : List Int} {so next : Nat}
    (soProper : so < 2) (nextProper : next < 2) (reduced : exactTruth reduction numbers = so) :
    exactTruth reduction (numbers ++ [(next : Int)]) =
      ElementType.combineBool reduction so next := by
  have known : (so = 0 ∨ so = 1) ∧ (next = 0 ∨ next = 1) := by omega
  cases reduction <;> rcases known with ⟨rfl | rfl, rfl | rfl⟩ <;>
    simp_all [exactTruth, ElementType.combineBool]

namespace ElementType

variable {type : ElementType} {reduction : Reduction}

/-- Proper words that stand for one integer are equal. -/
theorem integer_injective {left right : Nat} (leftProper : type.IsProper left)
    (rightProper : type.IsProper right) (same : type.integer left = type.integer right) :
    left = right := by
  cases type
  case i32 => exact signedWord_injective leftProper rightProper same
  case i64 => exact signedWord_injective leftProper rightProper same
  all_goals exact Int.ofNat_inj.mp same

/-- Words of a type are reduced to a word of the type. -/
theorem isProper_combine (integral : type.isFloat = false) {left right : Nat}
    (leftProper : type.IsProper left) (rightProper : type.IsProper right) :
    type.IsProper (type.combine reduction left right) := by
  cases type
  case i32 | i64 => exact combineSigned_lt leftProper rightProper reduction
  case u8 => exact combineByte_lt leftProper rightProper reduction
  case bool => exact combineBool_lt reduction left right
  all_goals cases integral

/-- A word by itself is reduced to what it stands for. -/
theorem exact_singleton (integral : type.isFloat = false) (reduction : Reduction) {word : Nat}
    (proper : type.IsProper word) :
    type.exact reduction [type.integer word] = some (type.integer word) := by
  have signed {bits : Nat} (proper : word < powerOfTwo (bits + 1)) :
      exactInteger (·.bmod (powerOfTwo (bits + 1))) reduction [signedWord (bits + 1) word] =
        some (signedWord (bits + 1) word) := by
    apply exactInteger_singleton
    rw [signedWord_eq_bmod proper, Int.bmod_bmod]
  have byte (proper : word < 256) :
      exactInteger (· % 256) reduction [(word : Int)] = some (word : Int) := by
    apply exactInteger_singleton
    exact Int.emod_eq_of_lt (Int.natCast_nonneg word) (Int.ofNat_lt.mpr proper)
  cases type
  case i32 => exact signed proper
  case i64 => exact signed proper
  case u8 => exact byte proper
  case bool =>
    have known : word = 0 ∨ word = 1 := by
      have bound : word < 2 := proper
      omega
    rcases known with rfl | rfl <;> cases reduction <;> rfl
  all_goals cases integral

/-- One word more is reduced, within the width of the type, to the word of the exact reduction. -/
theorem exact_concat (integral : type.isFloat = false) {numbers : List Int} {so next : Nat}
    (soProper : type.IsProper so) (nextProper : type.IsProper next)
    (reduced : type.exact reduction numbers = some (type.integer so)) :
    type.exact reduction (numbers ++ [type.integer next]) =
      some (type.integer (type.combine reduction so next)) := by
  cases type
  case i32 =>
    exact (exactInteger_concat (wraps_bmod _) reduced _).trans
      (congrArg some (signedWord_combine soProper nextProper reduction).symm)
  case i64 =>
    exact (exactInteger_concat (wraps_bmod _) reduced _).trans
      (congrArg some (signedWord_combine soProper nextProper reduction).symm)
  case u8 =>
    exact (exactInteger_concat (wraps_emod 256) reduced _).trans
      (congrArg some (natCast_combineByte reduction so next).symm)
  case bool =>
    exact congrArg some (exactTruth_concat soProper nextProper (Option.some.inj reduced))
  all_goals cases integral

end ElementType

end CollectiveBench
