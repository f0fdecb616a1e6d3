/-!
# Fields of a text

Lists are written with a separator between their items. Cutting a text at a separator gives
one field more than there are separators, so an empty text has one empty field.
-/

namespace CollectiveBench.Text

/-- The fields between the separators. -/
def splitOn (separator : Char) : List Char → List (List Char)
  | [] => [[]]
  | character :: rest =>
    if character = separator then [] :: splitOn separator rest
    else
      match splitOn separator rest with
      | [] => [[character]]
      | field :: fields => (character :: field) :: fields

/-- What stands before and after the first separator, if there is one. -/
def splitOnce (separator : Char) : List Char → Option (List Char × List Char)
  | [] => none
  | character :: rest =>
    if character = separator then some ([], rest)
    else (splitOnce separator rest).map fun (before, after) => (character :: before, after)

/-- There is always a field. -/
theorem splitOn_ne_nil (separator : Char) (text : List Char) : splitOn separator text ≠ [] := by
  cases text with
  | nil => simp [splitOn]
  | cons character rest => simp only [splitOn]; split <;> (try split) <;> simp

end CollectiveBench.Text
