import CollectiveBench.Numeric.Rounding
import CollectiveBench.Numeric.Value

/-!
# Binary floating-point formats

A format is two widths. Its words hold a sign bit, a biased exponent and a fraction, in
this order from the top. `decode` gives the exact value of a word and `encode` the word
nearest to a value, ties going to the even fraction. All four float element types of a
benchmark are instances, so nothing about rounding is said per type.

Adjacent magnitudes of a format have adjacent words. The encoder relies on it: the word of
a rounded significand is the significand added to its binade's base, and a carry out of the
fraction runs into the exponent field, which is what rounding up to a power of two means.
-/

namespace CollectiveBench.Numeric

/-- Widths of the two fields below the sign bit. -/
structure Format where
  fractionBits : Nat
  exponentBits : Nat
deriving DecidableEq, Repr

namespace Format

/-- The two-byte format of half-precision numbers. -/
def binary16 : Format := ⟨10, 5⟩

/-- The two-byte format with the exponent range of `binary32`. -/
def bfloat16 : Format := ⟨7, 8⟩

/-- The four-byte format. -/
def binary32 : Format := ⟨23, 8⟩

/-- The eight-byte format. -/
def binary64 : Format := ⟨52, 11⟩

/-- Number of words that share a sign. -/
def signUnit (format : Format) : Nat := powerOfTwo (format.fractionBits + format.exponentBits)

/-- The word of positive infinity: all exponent bits and no fraction. -/
def infinity (format : Format) : Nat :=
  (powerOfTwo format.exponentBits - 1) * powerOfTwo format.fractionBits

/-- The one word written for a value that is no number: infinity with the top fraction bit. -/
def quietNaN (format : Format) : Nat :=
  format.infinity + powerOfTwo (format.fractionBits - 1)

/-- Exponent of the last place of the smallest numbers of the format. -/
def leastExponent (format : Format) : Int :=
  2 - powerOfTwo (format.exponentBits - 1) - format.fractionBits

/-- The exact value of a word. -/
def decode (format : Format) (word : Nat) : Value :=
  let negative := word.testBit (format.fractionBits + format.exponentBits)
  let exponent := (word >>> format.fractionBits) % powerOfTwo format.exponentBits
  let fraction := word % powerOfTwo format.fractionBits
  if exponent + 1 = powerOfTwo format.exponentBits then
    if fraction = 0 then .infinite negative else .nan
  else if exponent = 0 then .finite negative fraction format.leastExponent
  else
    .finite negative (powerOfTwo format.fractionBits + fraction)
      (format.leastExponent + exponent - 1)

/-- The word of the magnitude nearest to `numerator / denominator * 2 ^ exponent`. Anything
beyond the largest finite magnitude's rounding range is infinity. -/
def magnitudeOf (format : Format) (numerator denominator : Nat) (exponent : Int) : Nat :=
  if numerator = 0 then 0 else
    let least := format.leastExponent
    let place :=
      max least (exponent + quotientLog2 numerator denominator - format.fractionBits)
    let significand := roundQuotient (numerator * powerOfTwo (exponent - place).toNat)
      (denominator * powerOfTwo (place - exponent).toNat)
    min format.infinity
      ((place - least).toNat * powerOfTwo format.fractionBits + significand)

/-- A magnitude's word with the sign bit that `negative` says. -/
def withSign (format : Format) (negative : Bool) (magnitude : Nat) : Nat :=
  if negative then format.signUnit + magnitude else magnitude

/-- The word nearest to a value. -/
def encode (format : Format) : Value → Nat
  | .nan => format.quietNaN
  | .infinite negative => format.withSign negative format.infinity
  | .finite negative significand exponent =>
    format.withSign negative (format.magnitudeOf significand 1 exponent)

/-- Whether the word stands for no number. -/
def isNaN (format : Format) (word : Nat) : Bool := (format.decode word).isNaN

/-- The sum of two words, rounded once. -/
def add (format : Format) (left right : Nat) : Nat :=
  format.encode ((format.decode left).add (format.decode right))

/-- The product of two words, rounded once. -/
def mul (format : Format) (left right : Nat) : Nat :=
  format.encode ((format.decode left).mul (format.decode right))

/-- The smaller of two words; one that is no number loses against any number. -/
def minimum (format : Format) (left right : Nat) : Nat :=
  if (format.decode left).keepsMinimum (format.decode right) then left else right

/-- The larger of two words; one that is no number loses against any number. -/
def maximum (format : Format) (left right : Nat) : Nat :=
  if (format.decode left).keepsMaximum (format.decode right) then left else right

/-- A word that is no number, taken over from another format. It keeps its sign and the top
of its fraction, and the top fraction bit is set. -/
def carryNaN (source target : Format) (word : Nat) : Nat :=
  let fraction := word % powerOfTwo source.fractionBits
  let carried :=
    (fraction <<< (target.fractionBits - source.fractionBits))
      >>> (source.fractionBits - target.fractionBits)
  target.withSign (word.testBit (source.fractionBits + source.exponentBits))
    (target.quietNaN ||| carried)

/-- The word of one format that is nearest to a word of another. -/
def convert (source target : Format) (word : Nat) : Nat :=
  match source.decode word with
  | .nan => source.carryNaN target word
  | value => target.encode value

/-- `1`, `65504` and the smallest positive number in two bytes, and the first number that
rounds to infinity. -/
example : binary16.encode (.ofNat 1) = 0x3c00 ∧ binary16.encode (.ofNat 65504) = 0x7bff ∧
    binary16.encode (.finite false 1 (-24)) = 1 ∧ binary16.encode (.ofNat 65520) = 0x7c00 := by
  decide +kernel

/-- What is no number keeps its sign in a narrower format. -/
example : binary64.convert binary16 0xfff8000000000001 = 0xfe00 ∧
    binary32.convert binary64 0x7fc00001 = 0x7ff8000020000000 := by decide +kernel

/-- A tie goes to the even fraction, and a carry out of the fraction raises the exponent. -/
example : binary16.encode (.ofNat 2049) = 0x6800 ∧ binary16.encode (.ofNat 4095) = 0x6c00 := by
  decide +kernel

end Format

end CollectiveBench.Numeric
