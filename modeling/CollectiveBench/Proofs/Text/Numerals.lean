import CollectiveBench.Text.Numeral

/-!
# Numerals

A numeral is one or more decimal digits and spells their value in base ten. A count is a numeral
that may have a plus sign before it, and exactly the counts below its bound are what the reader of
unsigned numbers takes (`unsigned?_eq_some_iff`). An integer may have a minus sign instead, and the
reader of signed numbers takes those within its range (`signed?_eq_some_iff`). Each number has a
numeral.
-/

namespace CollectiveBench.Text

/-- A character has a value as a digit exactly when it is a decimal digit. -/
theorem digit?_eq (character : Char) :
    digit? character =
      if character.isDigit then some (character.toNat - '0'.toNat) else none := by
  have same : ('0' ≤ character ∧ character ≤ '9') ↔ character.isDigit = true := by
    simp [Char.isDigit, Char.le_def]
  simp only [digit?, same]

/-- Digits continue a number as their value in base ten says. -/
theorem continueDigits?_eq (leading : Nat) (characters : List Char)
    (digital : ∀ character ∈ characters, character.isDigit = true) :
    continueDigits? leading characters = some (Nat.ofDigitChars 10 characters leading) := by
  induction characters generalizing leading with
  | nil => rfl
  | cons character rest inductionHypothesis =>
    have first : character.isDigit = true := digital character (by simp)
    have others : ∀ other ∈ rest, other.isDigit = true := by
      intro other member
      exact digital other (by simp [member])
    simp only [continueDigits?, digit?_eq, first, if_true, Nat.ofDigitChars_cons,
      inductionHypothesis _ others]

/-- Every character of a numeral is a digit. -/
theorem isDigit_of_mem_digits {number : Nat} {character : Char}
    (member : character ∈ digits number) : character.isDigit = true :=
  Nat.isDigit_of_mem_toDigits (by decide) (by decide) member

/-- A numeral begins with a digit. -/
theorem isDigit_of_digits_eq_cons {number : Nat} {first : Char} {rest : List Char}
    (written : digits number = first :: rest) : first.isDigit = true := by
  have member : first ∈ digits number := by
    rw [written]
    exact List.mem_cons_self
  exact isDigit_of_mem_digits member

/-- A numeral has a digit. -/
theorem digits_ne_nil (number : Nat) : digits number ≠ [] := Nat.toDigits_ne_nil

/-- A numeral spells its number. -/
theorem digits?_digits (number : Nat) : digits? (digits number) = some number := by
  have spelled : continueDigits? 0 (digits number) = some number := by
    rw [continueDigits?_eq 0 _ fun _ => isDigit_of_mem_digits]
    exact congrArg some Nat.ofDigitChars_ten_toDigits
  cases written : digits number with
  | nil => exact absurd written (digits_ne_nil number)
  | cons first rest =>
    rw [written] at spelled
    exact spelled

/-- Only the numeral of zero begins with a zero. -/
theorem head?_digits {number : Nat} (zero : (digits number).head? = some '0') : number = 0 := by
  induction number using Nat.strongRecOn with
  | ind number inductionHypothesis =>
    by_cases small : number < 10
    · rw [digits, Nat.toDigits_of_lt_base small] at zero
      simpa using zero
    · -- The numeral of a tenth of the number stands in front, and that is not zero.
      have large : 10 ≤ number := Nat.le_of_not_lt small
      have split : digits number = digits (number / 10) ++ [(number % 10).digitChar] :=
        Nat.toDigits_of_base_le (by decide) large
      cases leading : digits (number / 10) with
      | nil => exact absurd leading (digits_ne_nil _)
      | cons first rest =>
        rw [split, leading] at zero
        have tenth : number / 10 = 0 :=
          inductionHypothesis (number / 10) (by omega) (by rw [leading]; exact zero)
        omega

/-- One or more decimal digits, and the number that they spell. -/
structure IsNumeral (characters : List Char) (number : Nat) : Prop where
  some : characters ≠ []
  digital : ∀ character ∈ characters, character.isDigit = true
  value : Nat.ofDigitChars 10 characters 0 = number

/-- A numeral that may have a plus sign before it. -/
inductive IsCount : List Char → Nat → Prop where
  | unsigned {digits : List Char} {number : Nat} (numeral : IsNumeral digits number) :
    IsCount digits number
  | signed {digits : List Char} {number : Nat} (numeral : IsNumeral digits number) :
    IsCount ('+' :: digits) number

/-- Only digits continue a number. -/
theorem continueDigits?_eq_some_iff {leading number : Nat} {characters : List Char} :
    continueDigits? leading characters = some number ↔
      (∀ character ∈ characters, character.isDigit = true) ∧
        Nat.ofDigitChars 10 characters leading = number := by
  constructor
  · intro spelled
    have digital : ∀ character ∈ characters, character.isDigit = true := by
      induction characters generalizing leading with
      | nil => simp
      | cons first rest inductionHypothesis =>
        rw [continueDigits?, digit?_eq] at spelled
        by_cases digit : first.isDigit = true
        · rw [if_pos digit] at spelled
          exact List.forall_mem_cons.mpr ⟨digit, inductionHypothesis spelled⟩
        · rw [if_neg digit] at spelled
          cases spelled
    rw [continueDigits?_eq leading characters digital] at spelled
    exact ⟨digital, Option.some.inj spelled⟩
  · rintro ⟨digital, rfl⟩
    exact continueDigits?_eq leading characters digital

/-- Digits are read exactly as the numeral that they are. -/
theorem digits?_eq_some_iff {characters : List Char} {number : Nat} :
    digits? characters = some number ↔ IsNumeral characters number := by
  cases characters with
  | nil => exact ⟨nofun, fun numeral => absurd rfl numeral.some⟩
  | cons first rest =>
    rw [digits?, continueDigits?_eq_some_iff]
    · exact ⟨fun ⟨digital, value⟩ => ⟨by simp, digital, value⟩,
        fun numeral => ⟨numeral.digital, numeral.value⟩⟩
    · simp

/-- What is read as an unsigned number are the counts below the bound. -/
theorem unsigned?_eq_some_iff {bound number : Nat} {characters : List Char} :
    unsigned? bound characters = some number ↔ IsCount characters number ∧ number < bound := by
  have plus (rest : List Char) : ¬ IsNumeral ('+' :: rest) number := fun numeral =>
    absurd (numeral.digital '+' List.mem_cons_self) (by decide)
  unfold unsigned?
  rw [Option.filter_eq_some_iff, decide_eq_true_eq]
  refine and_congr_left fun _ => ?_
  split
  next rest =>
    rw [digits?_eq_some_iff]
    refine ⟨.signed, fun count => ?_⟩
    cases count with
    | unsigned numeral => exact absurd numeral (plus rest)
    | signed numeral => exact numeral
  next unsigned =>
    rw [digits?_eq_some_iff]
    refine ⟨.unsigned, fun count => ?_⟩
    cases count with
    | unsigned numeral => exact numeral
    | signed _ => exact absurd rfl (unsigned _)

/-- A numeral that may have a sign before it. -/
inductive IsInteger : List Char → Int → Prop where
  | count {characters : List Char} {number : Nat} (count : IsCount characters number) :
    IsInteger characters number
  | negative {digits : List Char} {number : Nat} (numeral : IsNumeral digits number) :
    IsInteger ('-' :: digits) (-number)

/-- What is read as a signed number are the integers within the range. -/
theorem signed?_eq_some_iff {bits : Nat} {characters : List Char} {number : Int} :
    signed? bits characters = some number ↔
      IsInteger characters number ∧ -(powerOfTwo bits : Int) ≤ number ∧
        number < powerOfTwo bits := by
  have minus (rest : List Char) (magnitude : Nat) : ¬ IsNumeral ('-' :: rest) magnitude :=
    fun numeral => absurd (numeral.digital '-' List.mem_cons_self) (by decide)
  have plus (rest : List Char) (magnitude : Nat) : ¬ IsNumeral ('+' :: rest) magnitude :=
    fun numeral => absurd (numeral.digital '+' List.mem_cons_self) (by decide)
  unfold signed?
  rw [Option.filter_eq_some_iff, Bool.and_eq_true, decide_eq_true_eq, decide_eq_true_eq]
  refine and_congr_left fun _ => ?_
  split
  next rest =>
    rw [Option.map_eq_some_iff]
    constructor
    · rintro ⟨magnitude, spelled, rfl⟩
      exact .count (.signed (digits?_eq_some_iff.mp spelled))
    · rintro (⟨numeral | numeral⟩ | -)
      · exact absurd numeral (plus rest _)
      · exact ⟨_, digits?_eq_some_iff.mpr numeral, rfl⟩
  next rest =>
    rw [Option.map_eq_some_iff]
    constructor
    · rintro ⟨magnitude, spelled, rfl⟩
      exact .negative (digits?_eq_some_iff.mp spelled)
    · rintro (⟨numeral | -⟩ | numeral)
      · exact absurd numeral (minus rest _)
      · exact ⟨_, digits?_eq_some_iff.mpr numeral, rfl⟩
  next unsigned positive =>
    rw [Option.map_eq_some_iff]
    constructor
    · rintro ⟨magnitude, spelled, rfl⟩
      exact .count (.unsigned (digits?_eq_some_iff.mp spelled))
    · rintro (⟨numeral | -⟩ | -)
      · exact ⟨_, digits?_eq_some_iff.mpr numeral, rfl⟩
      · exact absurd rfl (unsigned _)
      · exact absurd rfl (positive _)

/-- A signed number that fits has room in one bit more. -/
theorem signed?_succ {bits : Nat} {characters : List Char} {number : Int}
    (spelled : signed? bits characters = some number) :
    signed? (bits + 1) characters = some number := by
  unfold signed? at spelled ⊢
  rw [Option.filter_eq_some_iff] at spelled ⊢
  refine ⟨spelled.1, ?_⟩
  have within := spelled.2
  rw [Bool.and_eq_true, decide_eq_true_eq, decide_eq_true_eq] at within ⊢
  have twice := powerOfTwo_succ bits
  omega

/-- The digits of a number are a numeral. -/
theorem isNumeral_digits (number : Nat) : IsNumeral (digits number) number :=
  digits?_eq_some_iff.mp (digits?_digits number)

/-- A count has a digit, and but for its sign nothing else. -/
theorem IsCount.characters {characters : List Char} {number : Nat}
    (count : IsCount characters number) :
    characters ≠ [] ∧ ∀ character ∈ characters, character.isDigit = true ∨ character = '+' := by
  cases count with
  | unsigned numeral =>
    exact ⟨numeral.some, fun character listed => .inl (numeral.digital _ listed)⟩
  | signed numeral =>
    refine ⟨by simp, List.forall_mem_cons.mpr ⟨.inr rfl, fun character listed => ?_⟩⟩
    exact .inl (numeral.digital character listed)

end CollectiveBench.Text
