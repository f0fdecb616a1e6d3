import CollectiveBench.Numeric.Shortest

/-!
# Written scalars

Scalars are written in three ways. Messages show the shortest digits, the larger ones of two
equally near, and never an exponent. Report files show the shortest digits, the even ones of
two equally near, with at least one place after the point, and an exponent outside of
`1e-5 ≤ |x| < 1e16`. Tables show a fixed number of places of the exact value, a half going to
the even digit.
-/

namespace CollectiveBench.Numeric

/-- `count` zeros. -/
def zeros (count : Nat) : String := String.ofList (List.replicate count '0')

/-- `digits` with `places` of them after the point, padded with zeros on the left. -/
def pointed (digits places : Nat) : String :=
  let text := (Nat.toDigits 10 digits)
  let text := List.replicate (places + 1 - text.length) '0' ++ text
  let whole := text.length - places
  if places = 0 then String.ofList text
  else String.ofList (text.take whole ++ '.' :: text.drop whole)

/-- All digits of a decimal, without an exponent. -/
def Decimal.positional (decimal : Decimal) : String :=
  pointed (decimal.digits * powerOfTen decimal.exponent.toNat) (-decimal.exponent).toNat

/-- One digit before the point, the others after it, and a signed exponent. -/
def Decimal.scientific (decimal : Decimal) : String :=
  let places := Decimal.digitCount decimal.digits - 1
  let exponent := decimal.exponent + places
  pointed decimal.digits places ++ "e" ++ (if exponent < 0 then "-" else "+")
    ++ toString exponent.natAbs

/-- A minus sign for what is negative. -/
def minus (negative : Bool) : String := if negative then "-" else ""

namespace Scalar

/-- The shortest digits, without an exponent and without a point where none is needed. -/
def plain (scalar : Scalar) : String :=
  match scalar.value with
  | .nan => "NaN"
  | .infinite negative => minus negative ++ "inf"
  | .finite negative significand exponent =>
    minus negative ++
      if significand = 0 then "0"
      else (Decimal.shortest roundQuotientUp significand exponent).positional

/-- The form of a number in a report file, where what is not finite becomes `null`. -/
def json (scalar : Scalar) : String :=
  match scalar.value with
  | .nan => "null"
  | .infinite _ => "null"
  | .finite negative significand exponent =>
    minus negative ++
      if significand = 0 then "0.0" else
        let decimal := Decimal.shortest roundQuotient significand exponent
        let leading := decimal.exponent + Decimal.digitCount decimal.digits
        if leading < -4 ∨ 16 < leading then decimal.scientific
        else if 0 ≤ decimal.exponent then decimal.positional ++ ".0"
        else decimal.positional

/-- The exact value rounded to `places` digits after the point. -/
def fixed (places : Nat) (scalar : Scalar) : String :=
  match scalar.value with
  | .nan => "NaN"
  | .infinite negative => minus negative ++ "inf"
  | .finite negative significand exponent =>
    minus negative ++ pointed
      (roundQuotient (significand * powerOfTwo exponent.toNat * powerOfTen places)
        (powerOfTwo (-exponent).toNat))
      places

/-- A whole number needs no point in a message and one place in a report file. -/
example : (ofNat 1).plain = "1" ∧ (ofNat 1).json = "1.0" ∧ (one / ofNat 8).fixed 2 = "0.12" := by
  decide +kernel

end Scalar

end CollectiveBench.Numeric
