import CollectiveBench.Json.Printer
import CollectiveBench.Proofs.Json.Lexemes

/-!
# Compact texts are read back

Reading the compact text of a value gives the value again, for every value whose numbers are
numerals and whose strings have texts. The induction is on the value. Inside it the items of
an array, and the fields of an object, are read one after another; the reader never makes
more than two nested calls for a character, so a bound of twice the length of the text, and
a little more, is never reached.
-/

namespace CollectiveBench.Json

/-- The values that writing makes. -/
inductive Written : Json → Prop where
  | null : Written .null
  | bool (value : Bool) : Written (.bool value)
  | count (number : Nat) : Written (.count number)
  | string (text : List Char) : Written (.string (some text))
  | array (items : List Json) (each : ∀ item ∈ items, Written item) : Written (.array items)
  | object (fields : List (Option (List Char) × Json))
      (named : ∀ field ∈ fields, field.1.isSome = true)
      (each : ∀ field ∈ fields, Written field.2) : Written (.object fields)

/-- A text that begins with none of the blanks is left as it is. -/
theorem skipSpace_cons {first : Char} (rest : List Char) (visible : isSpace first = false) :
    skipSpace (first :: rest) = first :: rest := by
  simp [skipSpace, visible]

/-- A digit is not a blank, nor is it any other character that is not a digit. -/
theorem ne_of_isDigit {digit other : Char} (digital : digit.isDigit = true)
    (different : other.isDigit = false) : digit ≠ other := by
  rintro rfl
  exact absurd (digital.symm.trans different) (by decide)

/-- A digit is not a blank. -/
theorem isSpace_digit {digit : Char} (digital : digit.isDigit = true) :
    isSpace digit = false := by
  have space : digit ≠ ' ' := ne_of_isDigit digital (by decide)
  have tab : digit ≠ '\t' := ne_of_isDigit digital (by decide)
  have line : digit ≠ '\n' := ne_of_isDigit digital (by decide)
  have carriage : digit ≠ '\r' := ne_of_isDigit digital (by decide)
  simp [isSpace, space, tab, line, carriage]

/-- The compact text of a value begins neither with a blank nor with a closing bracket. -/
theorem Written.begins {value : Json} (written : value.Written) :
    ∃ first rest, value.compact = first :: rest ∧ isSpace first = false ∧ first ≠ ']' := by
  cases written with
  | null => exact ⟨'n', _, by rw [compact]; rfl, rfl, by decide⟩
  | bool value => 
    cases value
    · exact ⟨'f', _, by rw [compact]; rfl, rfl, by decide⟩
    · exact ⟨'t', _, by rw [compact]; rfl, rfl, by decide⟩
  | count number =>
    cases digits : Text.digits number with
    | nil => exact absurd digits (Text.digits_ne_nil number)
    | cons first rest =>
      have digit : first.isDigit = true := Text.isDigit_of_digits_eq_cons digits
      exact ⟨first, rest, by rw [Json.count, compact, digits], isSpace_digit digit,
        ne_of_isDigit digit (by decide)⟩
  | string text => exact ⟨'"', _, by rw [compact]; rfl, rfl, by decide⟩
  | array items each => exact ⟨'[', _, by rw [compact]; rfl, rfl, by decide⟩
  | object fields named each => exact ⟨'\x7b', _, by rw [compact]; rfl, rfl, by decide⟩

/-- A digit begins a number. -/
theorem readValue_digit (fuel : Nat) {first : Char} (rest : List Char)
    (digit : first.isDigit = true) :
    readValue (fuel + 1) (first :: rest) =
      (readNumber (first :: rest)).map fun (lexeme, rest) => (.number lexeme, rest) := by
  have null : first ≠ 'n' := ne_of_isDigit digit (by decide)
  have true : first ≠ 't' := ne_of_isDigit digit (by decide)
  have false : first ≠ 'f' := ne_of_isDigit digit (by decide)
  have string : first ≠ '"' := ne_of_isDigit digit (by decide)
  have array : first ≠ '[' := ne_of_isDigit digit (by decide)
  have object : first ≠ '\x7b' := ne_of_isDigit digit (by decide)
  simp [readValue, skipSpace_cons rest (isSpace_digit digit), null, true, false, string, array,
    object]

/-- An opening bracket that no closing one follows begins the items of an array. -/
theorem readValue_items (fuel : Nat) {first : Char} (rest : List Char)
    (visible : isSpace first = false) (opening : first ≠ ']') :
    readValue (fuel + 1) ('[' :: first :: rest) =
      (readItems fuel (first :: rest)).map fun (items, rest) => (.array items, rest) := by
  simp only [readValue, skipSpace_cons _ (show isSpace '[' = false from rfl),
    skipSpace_cons rest visible]
  split
  case h_1 closing => exact absurd (List.cons.inj closing).1 opening
  case h_2 => rfl

/-- An opening brace and a quote begin the fields of an object. -/
theorem readValue_fields (fuel : Nat) (rest : List Char) :
    readValue (fuel + 1) ('\x7b' :: '"' :: rest) =
      (readFields fuel ('"' :: rest)).map fun (fields, rest) => (.object fields, rest) := by
  simp [readValue, skipSpace_cons, isSpace]

/-! ### Items and fields -/

/-- A single text stands without a separator. -/
theorem separated_singleton (separator text : List Char) : separated separator [text] = text := by
  simp [separated]

/-- Between two texts stands the separator. -/
theorem separated_cons_cons (separator text next : List Char) (others : List (List Char)) :
    separated separator (text :: next :: others) =
      text ++ (separator ++ separated separator (next :: others)) := by
  simp [separated]

/-- The compact text of a field. -/
def compactField (field : Option (List Char) × Json) : List Char :=
  writeText (field.1.getD []) ++ ':' :: field.2.compact

/-- The items of an array are written each for itself. -/
theorem compactItems_eq (items : List Json) : compactItems items = items.map compact := by
  induction items with
  | nil => rw [compactItems, List.map_nil]
  | cons item rest inductionHypothesis =>
    rw [compactItems, inductionHypothesis, List.map_cons]

/-- The fields of an object are written each for itself. -/
theorem compactFields_eq (fields : List (Option (List Char) × Json)) :
    compactFields fields = fields.map compactField := by
  induction fields with
  | nil => rw [compactFields, List.map_nil]
  | cons field rest inductionHypothesis =>
    rw [compactFields, inductionHypothesis, List.map_cons, compactField]

/-- Twice the length of its compact text, and one more, is enough to read a value back,
whatever follows that does not continue a number. -/
def ReadsBack (value : Json) : Prop :=
  ∀ fuel rest, 2 * value.compact.length ≤ fuel → EndsNumber rest →
    readValue (fuel + 1) (value.compact ++ rest) = some (value, rest)

/-- The last item is read up to the closing bracket. -/
theorem readItems_last (item : Json) (readable : ReadsBack item) (fuel : Nat) (rest : List Char)
    (enough : 2 * item.compact.length ≤ fuel) :
    readItems (fuel + 2) (item.compact ++ ']' :: rest) = some ([item], rest) := by
  have read := readable fuel (']' :: rest) enough (endsNumber_cons (by simp))
  rw [readItems, read]
  simp [skipSpace_cons, isSpace]

/-- An item before others is read up to the comma, and the others follow. -/
theorem readItems_next (item : Json) (readable : ReadsBack item) (fuel : Nat)
    {others : List Char} {items : List Json} {rest : List Char}
    (enough : 2 * item.compact.length ≤ fuel)
    (left : readItems (fuel + 1) others = some (items, rest)) :
    readItems (fuel + 2) (item.compact ++ ',' :: others) = some (item :: items, rest) := by
  have read := readable fuel (',' :: others) enough (endsNumber_cons (by simp))
  rw [readItems, read]
  simp [skipSpace_cons, isSpace, left]

/-- The items of an array are read back one after another. -/
theorem readItems_separated (items : List Json) (inhabited : items ≠ [])
    (each : ∀ item ∈ items, ReadsBack item) (fuel : Nat) (rest : List Char)
    (enough : 2 * (separated [','] (items.map compact)).length + 2 ≤ fuel) :
    readItems fuel (separated [','] (items.map compact) ++ ']' :: rest) = some (items, rest) := by
  induction items generalizing fuel with
  | nil => exact absurd rfl inhabited
  | cons item others inductionHypothesis =>
    obtain ⟨fuel, rfl⟩ : ∃ less, fuel = less + 2 := ⟨fuel - 2, by omega⟩
    have readable : ReadsBack item := each item (by simp)
    cases others with
    | nil =>
      simp only [List.map_cons, List.map_nil, separated_singleton] at enough ⊢
      exact readItems_last item readable fuel rest (by omega)
    | cons next remaining =>
      have split : separated [','] ((item :: next :: remaining).map compact) =
          item.compact ++ ',' :: separated [','] ((next :: remaining).map compact) :=
        separated_cons_cons _ _ _ _
      rw [split, List.length_append, List.length_cons] at enough
      have left : readItems (fuel + 1)
          (separated [','] ((next :: remaining).map compact) ++ ']' :: rest) =
          some (next :: remaining, rest) :=
        inductionHypothesis (by simp) (fun other member => each other (by simp [member]))
          (fuel + 1) (by omega)
      rw [split, List.append_assoc, List.cons_append]
      exact readItems_next item readable fuel (by omega) left

/-- A field is written as its key between quotes, a colon and its value. -/
theorem compactField_append (key : List Char) (value : Json) (rest : List Char) :
    compactField (some key, value) ++ rest =
      '"' :: (key.flatMap writeCharacter ++ '"' :: ':' :: (value.compact ++ rest)) := by
  simp [compactField, writeText]

/-- The text of a field is longer than that of its value. -/
theorem length_lt_compactField (key : Option (List Char)) (value : Json) :
    value.compact.length < (compactField (key, value)).length := by
  simp only [compactField, List.length_append, List.length_cons]
  omega

/-- The last field is read up to the closing brace. -/
theorem readFields_last (key : List Char) (value : Json) (readable : ReadsBack value)
    (fuel : Nat) (rest : List Char) (enough : 2 * (compactField (some key, value)).length ≤ fuel) :
    readFields (fuel + 2) (compactField (some key, value) ++ '\x7d' :: rest) =
      some ([(some key, value)], rest) := by
  have shorter := length_lt_compactField (some key) value
  have named := readString_flatMap key (':' :: (value.compact ++ '\x7d' :: rest))
  have read := readable fuel ('\x7d' :: rest) (by omega) (endsNumber_cons (by simp))
  rw [compactField_append, readFields]
  simp [skipSpace_cons, isSpace, named, read]

/-- A field before others is read up to the comma, and the others follow. -/
theorem readFields_next (key : List Char) (value : Json) (readable : ReadsBack value)
    (fuel : Nat) {others : List Char} {fields : List (Option (List Char) × Json)}
    {rest : List Char} (enough : 2 * (compactField (some key, value)).length ≤ fuel)
    (left : readFields (fuel + 1) others = some (fields, rest)) :
    readFields (fuel + 2) (compactField (some key, value) ++ ',' :: others) =
      some ((some key, value) :: fields, rest) := by
  have shorter := length_lt_compactField (some key) value
  have named := readString_flatMap key (':' :: (value.compact ++ ',' :: others))
  have read := readable fuel (',' :: others) (by omega) (endsNumber_cons (by simp))
  rw [compactField_append, readFields]
  simp [skipSpace_cons, isSpace, named, read, left]

/-- The fields of an object are read back one after another. -/
theorem readFields_separated (fields : List (Option (List Char) × Json)) (inhabited : fields ≠ [])
    (named : ∀ field ∈ fields, field.1.isSome = true) (each : ∀ field ∈ fields, ReadsBack field.2)
    (fuel : Nat) (rest : List Char)
    (enough : 2 * (separated [','] (fields.map compactField)).length + 2 ≤ fuel) :
    readFields fuel (separated [','] (fields.map compactField) ++ '\x7d' :: rest) =
      some (fields, rest) := by
  induction fields generalizing fuel with
  | nil => exact absurd rfl inhabited
  | cons field others inductionHypothesis =>
    obtain ⟨fuel, rfl⟩ : ∃ less, fuel = less + 2 := ⟨fuel - 2, by omega⟩
    have readable : ReadsBack field.2 := each field (by simp)
    obtain ⟨_ | key, value⟩ := field
    · exact absurd (named (none, value) (by simp)) (by simp)
    cases others with
    | nil =>
      simp only [List.map_cons, List.map_nil, separated_singleton] at enough ⊢
      exact readFields_last key value readable fuel rest (by omega)
    | cons next remaining =>
      have split : separated [','] (((some key, value) :: next :: remaining).map compactField) =
          compactField (some key, value) ++
            ',' :: separated [','] ((next :: remaining).map compactField) :=
        separated_cons_cons _ _ _ _
      rw [split, List.length_append, List.length_cons] at enough
      have left : readFields (fuel + 1)
          (separated [','] ((next :: remaining).map compactField) ++ '\x7d' :: rest) =
          some (next :: remaining, rest) :=
        inductionHypothesis (by simp) (fun other member => named other (by simp [member]))
          (fun other member => each other (by simp [member])) (fuel + 1) (by omega)
      rw [split, List.append_assoc, List.cons_append]
      exact readFields_next key value readable fuel (by omega) left

/-! ### Values -/

/-- The separated texts begin as the first of them begins. -/
theorem separated_begins (separator : List Char) {text others : List Char} {first : Char}
    (begins : text = first :: others) (remaining : List (List Char)) :
    ∃ rest, separated separator (text :: remaining) = first :: rest := by
  subst begins
  cases remaining with
  | nil => exact ⟨others, separated_singleton _ _⟩
  | cons next last => exact ⟨_, separated_cons_cons _ _ _ _⟩

/-- A numeral is read back as a number. -/
theorem readsBack_count (number : Nat) : ReadsBack (Json.count number) := by
  intro fuel rest _ ends
  simp only [Json.count, compact]
  have read : readNumber (Text.digits number ++ rest) = some (Text.digits number, rest) :=
    readNumber_digits number rest ends
  cases digits : Text.digits number with
  | nil => exact absurd digits (Text.digits_ne_nil number)
  | cons first others =>
    have digit : first.isDigit = true := Text.isDigit_of_digits_eq_cons digits
    rw [digits, List.cons_append] at read
    rw [List.cons_append]
    rw [readValue_digit fuel _ digit, read]
    rfl

/-- An array is read back when its items are. -/
theorem readsBack_array (items : List Json) (written : ∀ item ∈ items, item.Written)
    (each : ∀ item ∈ items, ReadsBack item) : ReadsBack (.array items) := by
  intro fuel rest enough ends
  simp only [compact, compactItems_eq, List.length_append, List.length_cons] at enough ⊢
  cases items with
  | nil => simp [readValue, skipSpace, isSpace, separated]
  | cons item others =>
    have read : readItems fuel (separated [','] ((item :: others).map compact) ++ ']' :: rest) =
        some (item :: others, rest) :=
      readItems_separated _ (by simp) each fuel rest (by omega)
    -- The text between the brackets does not begin with a closing bracket.
    obtain ⟨first, last, begins, visible, opening⟩ := (written item (by simp)).begins
    obtain ⟨body, split⟩ := separated_begins [','] begins (others.map compact)
    rw [List.map_cons, split] at read ⊢
    simp only [List.cons_append, List.append_assoc, List.nil_append] at read ⊢
    rw [readValue_items fuel _ visible opening, read]
    rfl

/-- An object is read back when the values of its fields are. -/
theorem readsBack_object (fields : List (Option (List Char) × Json))
    (named : ∀ field ∈ fields, field.1.isSome = true)
    (each : ∀ field ∈ fields, ReadsBack field.2) : ReadsBack (.object fields) := by
  intro fuel rest enough ends
  simp only [compact, compactFields_eq, List.length_append, List.length_cons] at enough ⊢
  cases fields with
  | nil => simp [readValue, skipSpace, isSpace, separated]
  | cons field others =>
    have read : readFields fuel
        (separated [','] ((field :: others).map compactField) ++ '\x7d' :: rest) =
        some (field :: others, rest) :=
      readFields_separated _ (by simp) named each fuel rest (by omega)
    have begins : compactField field = '"' :: ((field.1.getD []).flatMap writeCharacter ++
        '"' :: ':' :: field.2.compact) := by
      simp [compactField, writeText]
    obtain ⟨body, split⟩ := separated_begins [','] begins (others.map compactField)
    rw [List.map_cons, split] at read ⊢
    simp only [List.cons_append, List.append_assoc, List.nil_append] at read ⊢
    rw [readValue_fields, read]
    rfl

/-- Every value that writing makes is read back. -/
theorem Written.readsBack {value : Json} (written : value.Written) : ReadsBack value := by
  induction written with
  | null =>
    intro fuel rest _ _
    simp [compact, readValue, skipSpace_cons, isSpace]
  | bool value =>
    intro fuel rest _ _
    cases value <;> simp [compact, readValue, skipSpace_cons, isSpace]
  | count number => exact readsBack_count number
  | string text =>
    intro fuel rest _ _
    simp [compact, readValue, skipSpace_cons, isSpace, writeText, readString_flatMap]
  | array items written inductionHypothesis =>
    exact readsBack_array items written inductionHypothesis
  | object fields named each inductionHypothesis =>
    exact readsBack_object fields named inductionHypothesis

/-- The compact text of a value that writing makes is the text of that value. -/
theorem parse?_compact {value : Json} (written : value.Written) :
    parse? value.compact = some value := by
  have read : readValue (2 * value.compact.length + 2) (value.compact ++ []) = some (value, []) :=
    written.readsBack _ [] (by omega) endsNumber_nil
  rw [List.append_nil] at read
  unfold parse?
  rw [read]
  rfl

end CollectiveBench.Json
