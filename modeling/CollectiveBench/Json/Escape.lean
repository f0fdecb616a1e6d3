import CollectiveBench.Json.Basic
import CollectiveBench.Text.Hexadecimal

/-!
# JSON strings

Between its quotes a string is written as pieces: a character that stands for itself, or an
escape that gives one UTF-16 unit. The text of the pieces exists when every unit of a
surrogate pair stands beside its other half; writing escapes quotes, backslashes and control
characters only.
-/

namespace CollectiveBench.Json

/-- A piece of a written string. -/
inductive Piece where
  | plain (character : Char)
  | escaped (unit : Nat)
deriving DecidableEq, Repr

/-- The unit that four hexadecimal digits spell. -/
def hexUnit? (a b c d : Char) : Option Nat := Text.hexNumber? [a, b, c, d]

/-- The unit that an escape of one letter gives. -/
def shortEscape? : Char → Option Nat
  | '"' => some 0x22
  | '\\' => some 0x5c
  | '/' => some 0x2f
  | 'b' => some 0x08
  | 'f' => some 0x0c
  | 'n' => some 0x0a
  | 'r' => some 0x0d
  | 't' => some 0x09
  | _ => none

/-- The pieces up to the closing quote, and what follows it. Control characters must be
escaped. -/
def readPieces : List Char → Option (List Piece × List Char)
  | [] => none
  | '"' :: rest => some ([], rest)
  | '\\' :: 'u' :: a :: b :: c :: d :: rest => do
    let unit ← hexUnit? a b c d
    let (pieces, rest) ← readPieces rest
    return (.escaped unit :: pieces, rest)
  | '\\' :: letter :: rest => do
    let unit ← shortEscape? letter
    let (pieces, rest) ← readPieces rest
    return (.escaped unit :: pieces, rest)
  | character :: rest =>
    if character = '\\' ∨ character.toNat < 0x20 then none
    else do
      let (pieces, rest) ← readPieces rest
      return (.plain character :: pieces, rest)

/-- Whether a unit is the first half of a surrogate pair. -/
def isHigh (unit : Nat) : Bool := 0xd800 ≤ unit && unit < 0xdc00

/-- Whether a unit is the second half of a surrogate pair. -/
def isLow (unit : Nat) : Bool := 0xdc00 ≤ unit && unit < 0xe000

/-- The text of the pieces. -/
def pieceText? : List Piece → Option (List Char)
  | [] => some []
  | .plain character :: rest => (pieceText? rest).map (character :: ·)
  | .escaped high :: .escaped low :: rest =>
    if isHigh high then
      if isLow low then
        (pieceText? rest).map
          (Char.ofNat (0x10000 + (high - 0xd800) * 0x400 + (low - 0xdc00)) :: ·)
      else none
    else if isLow high then none
    else (pieceText? (.escaped low :: rest)).map (Char.ofNat high :: ·)
  | .escaped unit :: rest =>
    if isHigh unit || isLow unit then none
    else (pieceText? rest).map (Char.ofNat unit :: ·)

/-- The lower-case hexadecimal digit of a number below sixteen. -/
def hexDigit (number : Nat) : Char := Nat.digitChar number

/-- How a character is written inside a string. -/
def writeCharacter (character : Char) : List Char :=
  match character with
  | '"' => ['\\', '"']
  | '\\' => ['\\', '\\']
  | '\x08' => ['\\', 'b']
  | '\x0c' => ['\\', 'f']
  | '\n' => ['\\', 'n']
  | '\r' => ['\\', 'r']
  | '\t' => ['\\', 't']
  | _ =>
    if character.toNat < 0x20 then
      ['\\', 'u', '0', '0', hexDigit (character.toNat / 16), hexDigit (character.toNat % 16)]
    else [character]

/-- A text between quotes. -/
def writeText (text : List Char) : List Char :=
  '"' :: text.flatMap writeCharacter ++ ['"']

end CollectiveBench.Json
