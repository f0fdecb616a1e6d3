import CollectiveBench.Json.Escape

/-!
# Writing JSON

Values are written compactly, or with every item and field on a line of its own, indented by
two spaces for each level. A string without a text does not arise from writing; it is
written as an empty one.
-/

namespace CollectiveBench.Json

/-- Texts with commas between them. -/
def separated (separator : List Char) (texts : List (List Char)) : List Char :=
  (texts.intersperse separator).flatten

mutual

/-- The value without any white space. -/
def compact : Json → List Char
  | .null => "null".toList
  | .bool true => "true".toList
  | .bool false => "false".toList
  | .number lexeme => lexeme
  | .string text => writeText (text.getD [])
  | .array items => '[' :: separated [','] (compactItems items) ++ [']']
  | .object fields => '\x7b' :: separated [','] (compactFields fields) ++ ['\x7d']

/-- The items without any white space. -/
def compactItems : List Json → List (List Char)
  | [] => []
  | item :: rest => compact item :: compactItems rest

/-- The fields without any white space. -/
def compactFields : List (Option (List Char) × Json) → List (List Char)
  | [] => []
  | (key, value) :: rest =>
    (writeText (key.getD []) ++ ':' :: compact value) :: compactFields rest

end

/-- A line break and the indentation of a level. -/
def newLine (level : Nat) : List Char := '\n' :: List.replicate (2 * level) ' '

mutual

/-- The value with one item or field a line, at a level of nesting. -/
def pretty (level : Nat) : Json → List Char
  | .array [] => "[]".toList
  | .array items =>
    '[' :: newLine (level + 1)
      ++ separated (',' :: newLine (level + 1)) (prettyItems (level + 1) items)
      ++ newLine level ++ [']']
  | .object [] => ['\x7b', '\x7d']
  | .object fields =>
    '\x7b' :: newLine (level + 1)
      ++ separated (',' :: newLine (level + 1)) (prettyFields (level + 1) fields)
      ++ newLine level ++ ['\x7d']
  | value => compact value

/-- The items of an array, each at the level of the items. -/
def prettyItems (level : Nat) : List Json → List (List Char)
  | [] => []
  | item :: rest => pretty level item :: prettyItems level rest

/-- The fields of an object, each at the level of the fields. -/
def prettyFields (level : Nat) : List (Option (List Char) × Json) → List (List Char)
  | [] => []
  | (key, value) :: rest =>
    (writeText (key.getD []) ++ ':' :: ' ' :: pretty level value) :: prettyFields level rest

end

end CollectiveBench.Json
