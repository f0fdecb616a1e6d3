import CollectiveBench.Numeric.Format

/-!
# Scalars

A scalar is a 64-bit floating-point number, kept as its word. Initial values, latencies,
bandwidths and every element that is read out of a tensor are scalars. Two scalars are equal
as terms when their words agree; `Scalar.beq` is the comparison of numbers, under which the
two zeros are equal and a scalar that is no number differs from itself.
-/

namespace CollectiveBench.Numeric

/-- A 64-bit floating-point number as its word. -/
structure Scalar where
  word : Nat
deriving DecidableEq, Repr, Inhabited

namespace Scalar

/-- The exact value of a scalar. -/
def value (scalar : Scalar) : Value := Format.binary64.decode scalar.word

/-- The scalar nearest to a value. -/
def ofValue (value : Value) : Scalar := ⟨Format.binary64.encode value⟩

/-- The scalar nearest to a natural number. -/
def ofNat (count : Nat) : Scalar := ofValue (.ofNat count)

/-- The scalar nearest to an integer. -/
def ofInt (number : Int) : Scalar := ofValue (.ofInt number)

/-- Positive zero. -/
def zero : Scalar := ⟨0⟩

/-- The number one. -/
def one : Scalar := ⟨0x3ff0000000000000⟩

/-- Positive infinity. -/
def infinity : Scalar := ⟨Format.binary64.infinity⟩

/-- Negative infinity. -/
def negInfinity : Scalar := ⟨Format.binary64.withSign true Format.binary64.infinity⟩

/-- The scalar written for no number. -/
def nan : Scalar := ⟨Format.binary64.quietNaN⟩

/-- Whether the scalar is no number. -/
def isNaN (scalar : Scalar) : Bool := scalar.value.isNaN

/-- The rounded sum. -/
def add (left right : Scalar) : Scalar := ⟨Format.binary64.add left.word right.word⟩

/-- The rounded product. -/
def mul (left right : Scalar) : Scalar := ⟨Format.binary64.mul left.word right.word⟩

/-- The rounded quotient. A nonzero number over zero is an infinity. -/
def div (left right : Scalar) : Scalar :=
  match left.value, right.value with
  | .nan, _ => nan
  | _, .nan => nan
  | .infinite _, .infinite _ => nan
  | .infinite a, .finite b .. => ofValue (.infinite (a != b))
  | .finite a .., .infinite b => ofValue (.finite (a != b) 0 0)
  | .finite a m e, .finite b n f =>
    if n = 0 then
      if m = 0 then nan else ofValue (.infinite (a != b))
    else ⟨Format.binary64.withSign (a != b) (Format.binary64.magnitudeOf m n (e - f))⟩

instance : Add Scalar := ⟨add⟩
instance : Mul Scalar := ⟨mul⟩
instance : Div Scalar := ⟨div⟩

/-- Equality of numbers. -/
def beq (left right : Scalar) : Bool := left.value.compare? right.value == some .eq

/-- The order of numbers; false when either is no number. -/
def lt (left right : Scalar) : Bool := left.value.compare? right.value == some .lt

/-- Less or equal; false when either is no number. -/
def le (left right : Scalar) : Bool := left.lt right || left.beq right

/-- The smaller number; one that is no number loses against any number. -/
def minimum (left right : Scalar) : Scalar := ⟨Format.binary64.minimum left.word right.word⟩

/-- The larger number; one that is no number loses against any number. -/
def maximum (left right : Scalar) : Scalar := ⟨Format.binary64.maximum left.word right.word⟩

/-- The word of a scalar is the word of its value's nearest scalar when they agree already. -/
example : (ofNat 1 = one) ∧ (ofNat 3 / ofNat 2).word = 0x3ff8000000000000 ∧
    (one / ofNat 3).word = 0x3fd5555555555555 := by decide +kernel

/-- Any scalar that is a number equals itself. -/
theorem beq_self (scalar : Scalar) (isNumber : scalar.isNaN = false) :
    scalar.beq scalar = true := by
  simp [beq, Value.compare?_self scalar.value isNumber]

end Scalar

end CollectiveBench.Numeric
