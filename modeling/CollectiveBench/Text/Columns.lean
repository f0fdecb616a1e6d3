/-!
# Columns

Cells of a table are padded with spaces to a width that counts characters. A text that is
wider than its column is kept whole.
-/

namespace CollectiveBench.Text

/-- `text` at the right end of a column. -/
def alignRight (width : Nat) (text : String) : String :=
  String.ofList (List.replicate (width - text.length) ' ') ++ text

/-- `text` at the left end of a column. -/
def alignLeft (width : Nat) (text : String) : String :=
  text ++ String.ofList (List.replicate (width - text.length) ' ')

/-- Texts between square brackets, separated by commas. -/
def bracketed (separator : String) (texts : List String) : String :=
  "[" ++ separator.intercalate texts ++ "]"

end CollectiveBench.Text
