import CollectiveBench.Numeric.Scalar
import CollectiveBench.Reduction

/-!
# Elements as words

An element is stored as a word: the number whose base-256 digits are its bytes, least
significant first. Its type says which scalar the word stands for (`decode`), which word a
scalar is stored as (`encode`) and how two words are reduced to one (`combine`).

Storing never fails. Floating-point types round, integers drop the fraction and stop at the
ends of their range, and a truth value is set by anything but zero. Integer sums and
products wrap around at the width of the type.
-/

namespace CollectiveBench

open Numeric

/-- How words of eight bytes are narrowed to a format of two bytes. What becomes of a number between
two words of the format is left open: some hardware rounds it in two steps. -/
class Halves where
  narrow : Format → Nat → UInt16

/-- The nearest word, ties going to the even fraction. -/
instance Halves.nearest : Halves :=
  ⟨fun format word => .ofNat (Format.binary64.convert format word)⟩

/-- The integer that a word of `bits` bits stands for when its top bit is the sign. -/
def signedWord (bits word : Nat) : Int :=
  if word < powerOfTwo (bits - 1) then word else (word : Int) - powerOfTwo bits

/-- The word of `bits` bits that stands for an integer modulo `2 ^ bits`. -/
def wordOf (bits : Nat) (number : Int) : Nat := (number % powerOfTwo bits).toNat

/-- The word of `bits` bits of the integer part of a scalar, held within the signed range. -/
def clampedWord (bits : Nat) (scalar : Scalar) : Nat :=
  wordOf bits (scalar.value.truncate (-powerOfTwo (bits - 1)) (powerOfTwo (bits - 1) - 1))

namespace ElementType

/-- The number of bits of one element. -/
def bits (type : ElementType) : Nat := 8 * type.size

/-- The scalar that a word stands for. -/
def decode (type : ElementType) (word : Nat) : Scalar :=
  match type with
  | .f32 => ⟨Format.binary32.convert .binary64 word⟩
  | .f64 => ⟨word⟩
  | .f16 => ⟨Format.binary16.convert .binary64 word⟩
  | .bf16 => ⟨Format.bfloat16.convert .binary64 word⟩
  | .i32 => .ofInt (signedWord 32 word)
  | .i64 => .ofInt (signedWord 64 word)
  | .u8 => .ofNat word
  | .bool => if word = 0 then .zero else .one

/-- The word that a scalar is stored as. -/
def encode [Halves] (type : ElementType) (scalar : Scalar) : Nat :=
  match type with
  | .f32 => Format.binary64.convert .binary32 scalar.word
  | .f64 => scalar.word
  | .f16 => (Halves.narrow .binary16 scalar.word).toNat
  | .bf16 => (Halves.narrow .bfloat16 scalar.word).toNat
  | .i32 => clampedWord 32 scalar
  | .i64 => clampedWord 64 scalar
  | .u8 => (scalar.value.truncate 0 255).toNat
  | .bool => if scalar.beq .zero then 0 else 1

/-- The scalar that is read back where `scalar` was stored. -/
def cast [Halves] (type : ElementType) (scalar : Scalar) : Scalar :=
  type.decode (type.encode scalar)

/-- The word with all that is no number made one word. -/
def canonicalWord (type : ElementType) (word : Nat) : Nat :=
  match type.format? with
  | some format => if format.isNaN word then format.quietNaN else word
  | none => word

/-- The reduction of two words of one floating-point format. -/
def combineFloat (format : Format) (reduction : Reduction) (left right : Nat) : Nat :=
  match reduction with
  | .sum => format.add left right
  | .prod => format.mul left right
  | .min => format.minimum left right
  | .max => format.maximum left right

/-- The reduction of two words of a two-byte format: both are widened to four bytes, reduced
there and rounded back. -/
def combineHalf (format : Format) (reduction : Reduction) (left right : Nat) : Nat :=
  Format.binary32.convert format
    (combineFloat .binary32 reduction (format.convert .binary32 left)
      (format.convert .binary32 right))

/-- The reduction of two words of a signed integer of `bits` bits. -/
def combineSigned (bits : Nat) (reduction : Reduction) (left right : Nat) : Nat :=
  match reduction with
  | .sum => (left + right) % powerOfTwo bits
  | .prod => left * right % powerOfTwo bits
  | .min => if signedWord bits left ≤ signedWord bits right then left else right
  | .max => if signedWord bits left ≤ signedWord bits right then right else left

/-- The reduction of two unsigned bytes. -/
def combineByte (reduction : Reduction) (left right : Nat) : Nat :=
  match reduction with
  | .sum => (left + right) % 256
  | .prod => left * right % 256
  | .min => min left right
  | .max => max left right

/-- The reduction of two truth values. A sum or maximum is true when one of them is, a
product or minimum when both are, so a sum over true inputs stays true. -/
def combineBool (reduction : Reduction) (left right : Nat) : Nat :=
  match reduction with
  | .sum | .max => if left ≠ 0 ∨ right ≠ 0 then 1 else 0
  | .prod | .min => if left ≠ 0 ∧ right ≠ 0 then 1 else 0

/-- The reduction of two words of a type. -/
def combine (type : ElementType) (reduction : Reduction) (left right : Nat) : Nat :=
  match type with
  | .f32 => combineFloat .binary32 reduction left right
  | .f64 => combineFloat .binary64 reduction left right
  | .f16 => combineHalf .binary16 reduction left right
  | .bf16 => combineHalf .bfloat16 reduction left right
  | .i32 => combineSigned 32 reduction left right
  | .i64 => combineSigned 64 reduction left right
  | .u8 => combineByte reduction left right
  | .bool => combineBool reduction left right

/-- A stored byte stops at 255, and a sum of bytes wraps there. -/
example : ElementType.u8.encode (.ofNat 300) = 255 ∧
    ElementType.u8.combine .sum 255 1 = 0 := by decide +kernel

end ElementType

end CollectiveBench
