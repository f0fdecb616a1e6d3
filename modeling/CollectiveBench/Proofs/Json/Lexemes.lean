import CollectiveBench.Json.Reader
import CollectiveBench.Proofs.Text.Numerals

/-!
# Numbers and strings are read back

A reader that meets a numeral takes all of it, provided that no digit, point or exponent
follows. A string is read back character by character: the escape of a character gives the
unit of that character, and no character that needs writing with an escape is half of a
surrogate pair, so the units of a written text always make a text.
-/

namespace CollectiveBench

namespace Json

/-! ### Numbers -/

/-- What follows does not continue a number. -/
def EndsNumber (rest : List Char) : Prop :=
  ∀ character ∈ rest.head?, isDigit character = false ∧ character ≠ '.' ∧ character ≠ 'e' ∧
    character ≠ 'E'

/-- The end of the text ends a number. -/
theorem endsNumber_nil : EndsNumber [] := by
  intro character member
  cases member

/-- A comma ends a number, and so does a closing bracket. -/
theorem endsNumber_cons {character : Char} {rest : List Char}
    (closing : character = ',' ∨ character = ']' ∨ character = '\x7d') :
    EndsNumber (character :: rest) := by
  intro first member
  obtain rfl : character = first := Option.some.inj member
  rcases closing with rfl | rfl | rfl <;> decide

/-- The reader takes a character for a digit exactly when it is one. -/
theorem isDigit_eq (character : Char) : isDigit character = character.isDigit := by
  simp only [isDigit, Text.digit?_eq]
  cases character.isDigit <;> rfl

/-- A run of digits is read to its end. -/
theorem readDigits_append (digits rest : List Char) (inhabited : digits ≠ [])
    (digital : ∀ character ∈ digits, isDigit character = true) (ends : EndsNumber rest) :
    readDigits (digits ++ rest) = some (digits, rest) := by
  have stops : rest.takeWhile isDigit = [] ∧ rest.dropWhile isDigit = rest := by
    cases rest with
    | nil => exact ⟨rfl, rfl⟩
    | cons first others =>
      have stop : isDigit first = false := (ends first rfl).1
      exact ⟨by simp [stop], by simp [stop]⟩
  have taken : (digits ++ rest).takeWhile isDigit = digits := by
    rw [List.takeWhile_append_of_pos digital, stops.1, List.append_nil]
  have left : (digits ++ rest).dropWhile isDigit = rest := by
    rw [List.dropWhile_append_of_pos digital, stops.2]
  unfold readDigits
  rw [taken, left]
  cases digits with
  | nil => exact absurd rfl inhabited
  | cons first others => rfl

/-- A numeral is an integer part: it has no leading zero. -/
theorem readInteger_digits (number : Nat) (rest : List Char) (ends : EndsNumber rest) :
    readInteger (Text.digits number ++ rest) = some (Text.digits number, rest) := by
  have all : ∀ character ∈ Text.digits number, isDigit character = true := by
    intro character member
    rw [isDigit_eq]
    exact Text.isDigit_of_mem_digits member
  by_cases zero : number = 0
  · subst zero
    have written : Text.digits 0 = ['0'] := rfl
    rw [written]
    cases rest with
    | nil => rfl
    | cons first others =>
      have stop : isDigit first = false := (ends first rfl).1
      simp [readInteger, stop]
  · have read : readDigits (Text.digits number ++ rest) = some (Text.digits number, rest) :=
      readDigits_append _ _ (Text.digits_ne_nil number) all ends
    cases written : Text.digits number with
    | nil => exact absurd written (Text.digits_ne_nil number)
    | cons first others =>
      have leading : first ≠ '0' := by
        rintro rfl
        exact zero (Text.head?_digits (by rw [written]; rfl))
      rw [written] at read
      simpa [readInteger, leading] using read

/-- A numeral is read back as a number, whatever follows that does not continue it. -/
theorem readNumber_digits (number : Nat) (rest : List Char) (ends : EndsNumber rest) :
    readNumber (Text.digits number ++ rest) = some (Text.digits number, rest) := by
  have integer : readInteger (Text.digits number ++ rest) = some (Text.digits number, rest) :=
    readInteger_digits number rest ends
  have fraction : readFraction rest = some ([], rest) := by
    cases rest with
    | nil => rfl
    | cons first others =>
      have point : first ≠ '.' := (ends first rfl).2.1
      simp [readFraction, point]
  have exponent : readExponent rest = some ([], rest) := by
    cases rest with
    | nil => rfl
    | cons first others =>
      obtain ⟨_, _, small, capital⟩ := ends first rfl
      simp [readExponent, small, capital]
  cases written : Text.digits number with
  | nil => exact absurd written (Text.digits_ne_nil number)
  | cons first others =>
    have unsigned : first ≠ '-' := by
      rintro rfl
      exact absurd (Text.isDigit_of_digits_eq_cons written) (by decide)
    rw [written, List.cons_append] at integer
    simp [readNumber, unsigned, integer, fraction, exponent]

/-! ### Strings -/

/-- The escapes that give a unit: a letter, or four hexadecimal digits. -/
inductive Escape (unit : Nat) : List Char → Prop where
  | letter {letter : Char} (known : shortEscape? letter = some unit) :
      Escape unit ['\\', letter]
  | digits {a b c d : Char} (spelled : hexUnit? a b c d = some unit) :
      Escape unit ['\\', 'u', a, b, c, d]

/-- An escape is read as the unit that it gives. -/
theorem Escape.read {unit : Nat} {text : List Char} (escape : Escape unit text)
    (rest : List Char) :
    readPieces (text ++ rest) =
      (readPieces rest).map fun (pieces, rest) => (.escaped unit :: pieces, rest) := by
  cases escape with
  | @letter letter known =>
    have other : letter ≠ 'u' := by
      rintro rfl
      cases (show none = some unit from known)
    cases following : readPieces rest <;> simp [readPieces, known, other, following]
  | digits spelled =>
    cases following : readPieces rest <;> simp [readPieces, spelled, following]

/-- Two hexadecimal digits spell a control character. -/
theorem hexUnit?_control :
    ∀ unit < 0x20, hexUnit? '0' '0' (hexDigit (unit / 16)) (hexDigit (unit % 16)) = some unit := by
  decide

/-- The piece that a character is written as. -/
def pieceOf (character : Char) : Piece :=
  if writeCharacter character = [character] then .plain character
  else .escaped character.toNat

/-- A character is written as itself or with an escape. The escaped ones are quotes,
backslashes and control characters, and the units of all of them are below the surrogates. -/
theorem writeCharacter_cases (character : Char) :
    (writeCharacter character = [character] ∧ character ≠ '"' ∧ character ≠ '\\' ∧
      ¬character.toNat < 0x20) ∨
    (writeCharacter character ≠ [character] ∧ character.toNat < 0x80 ∧
      Escape character.toNat (writeCharacter character)) := by
  unfold writeCharacter
  split
  case h_8 quote backslash _ _ _ _ _ =>
    split
    case isTrue control =>
      refine Or.inr ⟨by simp, by omega, .digits ?_⟩
      exact hexUnit?_control _ control
    case isFalse printable => exact Or.inl ⟨rfl, quote, backslash, printable⟩
  all_goals exact Or.inr ⟨by decide, by decide, .letter rfl⟩

/-- A written character is read as its piece. -/
theorem readPieces_writeCharacter (character : Char) (rest : List Char) :
    readPieces (writeCharacter character ++ rest) =
      (readPieces rest).map fun (pieces, rest) => (pieceOf character :: pieces, rest) := by
  obtain ⟨itself, quote, backslash, printable⟩ | ⟨escaped, _, escape⟩ :=
    writeCharacter_cases character
  · have piece : pieceOf character = .plain character := if_pos itself
    rw [itself, piece]
    cases following : readPieces rest <;> simp [readPieces, backslash, printable, following]
  · have piece : pieceOf character = .escaped character.toNat := if_neg escaped
    rw [piece]
    exact escape.read rest

/-- The piece of a character adds that character to the text of what follows. -/
theorem pieceText?_pieceOf (character : Char) (pieces : List Piece) :
    pieceText? (pieceOf character :: pieces) = (pieceText? pieces).map (character :: ·) := by
  obtain ⟨itself, _⟩ | ⟨escaped, low, _⟩ := writeCharacter_cases character
  · have piece : pieceOf character = .plain character := if_pos itself
    rw [piece]
    rfl
  · have piece : pieceOf character = .escaped character.toNat := if_neg escaped
    have single : isHigh character.toNat = false ∧ isLow character.toNat = false := by
      constructor
      · simp only [isHigh, Bool.and_eq_false_iff, decide_eq_false_iff_not]
        omega
      · simp only [isLow, Bool.and_eq_false_iff, decide_eq_false_iff_not]
        omega
    rw [piece]
    -- Only an escape that follows could have been the other half of a pair.
    rcases pieces with _ | ⟨plain | unit, others⟩ <;>
      simp [pieceText?, single]

/-- A written text is read back up to its closing quote. -/
theorem readString_flatMap (text rest : List Char) :
    readString (text.flatMap writeCharacter ++ '"' :: rest) = some (some text, rest) := by
  have pieces : readPieces (text.flatMap writeCharacter ++ '"' :: rest) =
      some (text.map pieceOf, rest) := by
    induction text with
    | nil => rfl
    | cons character others inductionHypothesis =>
      rw [List.flatMap_cons, List.append_assoc, readPieces_writeCharacter, inductionHypothesis]
      rfl
  have spelled : pieceText? (text.map pieceOf) = some text := by
    clear pieces
    induction text with
    | nil => rfl
    | cons character others inductionHypothesis =>
      rw [List.map_cons, pieceText?_pieceOf, inductionHypothesis]
      rfl
  simp [readString, pieces, spelled]

end Json

end CollectiveBench
