import CollectiveBench.Natural

/-!
# Decimal numerals

Numbers in texts are ASCII digits with an optional sign in front. A numeral that stands for
a number outside of the wanted range is refused like any other text, so the readers take the
range as an argument.
-/

namespace CollectiveBench.Text

/-- The value of an ASCII digit. -/
def digit? (character : Char) : Option Nat :=
  if '0' ≤ character ∧ character ≤ '9' then some (character.toNat - '0'.toNat) else none

/-- The number spelled by digits that follow the number `leading`. -/
def continueDigits? (leading : Nat) : List Char → Option Nat
  | [] => some leading
  | character :: rest =>
    match digit? character with
    | some digit => continueDigits? (10 * leading + digit) rest
    | none => none

/-- The number spelled by one or more digits. -/
def digits? : List Char → Option Nat
  | [] => none
  | characters => continueDigits? 0 characters

/-- A number below `bound`, written with digits and an optional plus sign. -/
def unsigned? (bound : Nat) (characters : List Char) : Option Nat :=
  let spelled := match characters with
    | '+' :: rest => digits? rest
    | _ => digits? characters
  spelled.filter (· < bound)

/-- A number from `-2 ^ bits` to `2 ^ bits - 1`, written with digits and an optional sign. -/
def signed? (bits : Nat) (characters : List Char) : Option Int :=
  let spelled := match characters with
    | '+' :: rest => (digits? rest).map Int.ofNat
    | '-' :: rest => (digits? rest).map fun magnitude => -Int.ofNat magnitude
    | _ => (digits? characters).map Int.ofNat
  spelled.filter fun number => -(powerOfTwo bits : Int) ≤ number && number < powerOfTwo bits

/-- Number of values of a 32-bit count. -/
def bound32 : Nat := powerOfTwo 32

/-- Number of values of a 64-bit count. -/
def bound64 : Nat := powerOfTwo 64

/-- The digits of a natural number. -/
def digits (number : Nat) : List Char := Nat.toDigits 10 number

end CollectiveBench.Text
