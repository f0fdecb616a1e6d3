/-!
# Hexadecimal digits

Words and bytes are shown with hexadecimal digits in lower case, the most significant digit
first. Capitals are read as well.
-/

namespace CollectiveBench.Text

/-- The value of a hexadecimal digit. -/
def hexDigit? (character : Char) : Option Nat :=
  if '0' ≤ character ∧ character ≤ '9' then some (character.toNat - '0'.toNat)
  else if 'a' ≤ character ∧ character ≤ 'f' then some (character.toNat - 'a'.toNat + 10)
  else if 'A' ≤ character ∧ character ≤ 'F' then some (character.toNat - 'A'.toNat + 10)
  else none

/-- The number that hexadecimal digits spell. -/
def hexNumber? (digits : List Char) : Option Nat :=
  digits.foldlM (fun number character => do return 16 * number + (← hexDigit? character)) 0

/-- The last `width` hexadecimal digits of a number. -/
def hexDigits (width number : Nat) : String :=
  String.ofList ((List.range width).reverse.map fun place =>
    Nat.digitChar ((number >>> (4 * place)) % 16))

/-- Two digits for each byte. -/
def hexBytes (bytes : List UInt8) : String :=
  String.join (bytes.map fun byte => hexDigits 2 byte.toNat)

/-- The bytes that pairs of digits spell. -/
def hexBytes? : List Char → Option (List UInt8)
  | [] => some []
  | [_] => none
  | high :: low :: rest => do
    return UInt8.ofNat (← hexNumber? [high, low]) :: (← hexBytes? rest)

end CollectiveBench.Text
