import CollectiveBench.Text.Numeral

/-!
# JSON values

A value keeps what its text fixes and no more. A number is its lexeme, since descriptors tell
`1` from `1.0`; an object keeps the order and the repetitions of its fields. A string whose
escapes name half of a surrogate pair is well formed but has no text, so the text is
optional.
-/

namespace CollectiveBench

/-- A JSON value. -/
inductive Json where
  | null
  | bool (value : Bool)
  | number (lexeme : List Char)
  | string (text? : Option (List Char))
  | array (items : List Json)
  | object (fields : List (Option (List Char) × Json))
deriving Repr, Inhabited

namespace Json

/-- A string with a text. -/
def text (text : String) : Json := .string (some text.toList)

/-- A natural number. -/
def count (number : Nat) : Json := .number (Text.digits number)

/-- A field with a text for its key. -/
def field (key : String) (value : Json) : Option (List Char) × Json := (some key.toList, value)

/-- The natural number below `bound` that the value is. The lexeme has digits only: no
sign, no point and no exponent. -/
def count? (bound : Nat) : Json → Option Nat
  | .number lexeme => (Text.digits? lexeme).filter (· < bound)
  | _ => none

/-- The text that the value is. -/
def text? : Json → Option String
  | .string (some text) => some (String.ofList text)
  | _ => none

/-- The name of an enumeration's member: a string, or an object whose only field has that
key and holds nothing. -/
def tag? : Json → Option String
  | .string (some text) => some (String.ofList text)
  | .object [(some key, .null)] => some (String.ofList key)
  | _ => none

/-- What `read` makes of a value, where `null` stands for nothing. -/
def optional? {α : Type} (read : Json → Option α) : Json → Option (Option α)
  | .null => some none
  | value => (read value).map some

/-- The list of what `read` makes of the items of an array. -/
def list? {α : Type} (read : Json → Option α) : Json → Option (List α)
  | .array items => items.mapM read
  | _ => none

end Json

end CollectiveBench
