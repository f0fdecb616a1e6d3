import CollectiveBench.Text.Shown

/-!
# Quoted texts

A text from outside is shown between quotes with everything escaped that would not show:
quotes and backslashes, the usual control characters by letter, and all other characters
without a shape of their own by code point.
-/

namespace CollectiveBench.Text

/-- How a character is shown between quotes. -/
def quotedCharacter (character : Char) : List Char :=
  match character with
  | '"' => ['\\', '"']
  | '\\' => ['\\', '\\']
  | '\n' => ['\\', 'n']
  | '\r' => ['\\', 'r']
  | '\t' => ['\\', 't']
  | '\x00' => ['\\', '0']
  | _ =>
    if isShown character then [character]
    else ['\\', 'u', '\x7b'] ++ Nat.toDigits 16 character.toNat ++ ['\x7d']

/-- A text between quotes. -/
def quoted (text : String) : String :=
  String.ofList ('"' :: text.toList.flatMap quotedCharacter ++ ['"'])

end CollectiveBench.Text
