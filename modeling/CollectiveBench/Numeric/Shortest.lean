import CollectiveBench.Numeric.Scalar

/-!
# Shortest decimal digits

A scalar is printed with the fewest digits that read back as the same scalar. The numbers
that read back form an interval around it, whose ends belong to it when the significand is
even. For one digit, two digits and so on the search looks at the two multiples of the digit
grid next to the scalar; the first grid with a multiple inside the interval wins, and of two
the nearer. When both are equally near, the caller's way of rounding a quotient decides.
Seventeen digits always suffice. All comparisons are exact.
-/

namespace CollectiveBench.Numeric

/-- The number `digits * 10 ^ exponent`. -/
structure Decimal where
  digits : Nat
  exponent : Int
deriving DecidableEq, Repr

namespace Decimal

/-- How many decimal digits a natural number has; zero has one. -/
def digitCount (number : Nat) : Nat := (Nat.toDigits 10 number).length

/-- Trailing zeros move into the exponent. The fuel bounds the number of digits. -/
def stripZeros : Nat → Decimal → Decimal
  | 0, decimal => decimal
  | fuel + 1, decimal =>
    if decimal.digits % 10 = 0 then
      stripZeros fuel ⟨decimal.digits / 10, decimal.exponent + 1⟩
    else decimal

/-- The exponent `p` with `10 ^ (p - 1) ≤ numerator / denominator < 10 ^ p`, for a positive
quotient. -/
def leadingExponent (numerator denominator : Nat) : Int :=
  if denominator ≤ numerator then digitCount (numerator / denominator)
  else
    let places := digitCount (denominator / numerator)
    if denominator ≤ numerator * powerOfTen (places - 1) then 2 - (places : Int)
    else 1 - (places : Int)

/-- An interval of positive numbers around `middle`, all over one `denominator`. -/
structure Interval where
  low : Nat
  middle : Nat
  high : Nat
  denominator : Nat
  closed : Bool

/-- The multiple of `10 ^ exponent` next to the middle that lies in the interval; of two
the one that `round` makes of the quotient. -/
def onGrid? (round : Nat → Nat → Nat) (interval : Interval) (exponent : Int) : Option Nat :=
  let step := interval.denominator * powerOfTen exponent.toNat
  let scale := powerOfTen (-exponent).toNat
  let inside (count : Nat) : Bool :=
    let reading := count * step
    if interval.closed then interval.low * scale ≤ reading ∧ reading ≤ interval.high * scale
    else interval.low * scale < reading ∧ reading < interval.high * scale
  let below := interval.middle * scale / step
  let nearest := round (interval.middle * scale) step
  if inside nearest then some nearest
  else if inside below then some below
  else if inside (below + 1) then some (below + 1)
  else none

/-- The numbers that read back as the positive scalar `significand * 2 ^ exponent`. The gap
below a power of two is half as wide as the gap above, unless the scalar is among the
smallest. -/
def readingInterval (significand : Nat) (exponent : Int) : Interval :=
  let narrow := significand = powerOfTwo Format.binary64.fractionBits ∧
    Format.binary64.leastExponent < exponent
  let scale := powerOfTwo (exponent - 2).toNat
  { low := (4 * significand - if narrow then 1 else 2) * scale
    middle := 4 * significand * scale
    high := (4 * significand + 2) * scale
    denominator := powerOfTwo (2 - exponent).toNat
    closed := significand % 2 = 0 }

/-- The shortest decimal that reads back as the positive scalar `significand * 2 ^ exponent`.
Of two equally short ones `round` decides. -/
def shortest (round : Nat → Nat → Nat) (significand : Nat) (exponent : Int) : Decimal :=
  let interval := readingInterval significand exponent
  let leading := leadingExponent interval.middle interval.denominator
  let found := (List.range 17).findSome? fun (count : Nat) =>
    let grid := leading - (count + 1)
    (onGrid? round interval grid).map fun digits => Decimal.mk digits grid
  match found with
  | some decimal => stripZeros 20 decimal
  | none => ⟨significand, exponent⟩

/-- The smallest positive scalar needs one digit, a third sixteen. -/
example : shortest roundQuotient 1 (-1074) = ⟨5, -324⟩ ∧
    shortest roundQuotient 0x15555555555555 (-54) = ⟨3333333333333333, -16⟩ ∧
    shortest roundQuotient 0x13333333333334 (-54) = ⟨30000000000000004, -17⟩ := by decide +kernel

/-- A quarter above a whole number of fifty bits is as near to two tenths as to three. -/
example : shortest roundQuotient 0x10000000000001 (-2) = ⟨11258999068426242, -1⟩ ∧
    shortest roundQuotientUp 0x10000000000001 (-2) = ⟨11258999068426243, -1⟩ := by decide +kernel

end Decimal

end CollectiveBench.Numeric
