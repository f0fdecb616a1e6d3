import CollectiveBench.Numeric.Rounding

/-!
# Exact values of floating-point words

A word of a binary format stands for a dyadic number, an infinity or no number at all.
Sums, products and comparisons are taken on these values without any rounding, so that
rounding happens in one place only: when a value is written back into a format.
-/

namespace CollectiveBench.Numeric

/-- What a floating-point word stands for. A finite value is
`± significand * 2 ^ exponent`; zero keeps its sign. -/
inductive Value where
  | nan
  | infinite (negative : Bool)
  | finite (negative : Bool) (significand : Nat) (exponent : Int)
deriving DecidableEq, Repr

/-- `magnitude` with the sign that `negative` says. -/
def signed (negative : Bool) (magnitude : Nat) : Int :=
  if negative then -(magnitude : Int) else magnitude

namespace Value

/-- The natural number `count` as a value. -/
def ofNat (count : Nat) : Value := .finite false count 0

/-- The integer `number` as a value; zero is positive. -/
def ofInt (number : Int) : Value := .finite (number < 0) number.natAbs 0

/-- Whether the value is no number. -/
def isNaN : Value → Bool
  | .nan => true
  | _ => false

/-- The signed significand of a finite value once its exponent is lowered to `floor`. -/
def scaled (negative : Bool) (significand : Nat) (exponent floor : Int) : Int :=
  signed negative (significand * powerOfTwo (exponent - floor).toNat)

/-- The exact sum. Opposite infinities have none, and a sum that cancels to zero is
positive unless both terms carry a minus sign. -/
def add : Value → Value → Value
  | .nan, _ => .nan
  | _, .nan => .nan
  | .infinite left, .infinite right => if left = right then .infinite left else .nan
  | .infinite left, .finite .. => .infinite left
  | .finite .., .infinite right => .infinite right
  | .finite left m e, .finite right n f =>
    let floor := min e f
    let total := scaled left m e floor + scaled right n f floor
    if total = 0 then .finite (left && right) 0 floor
    else .finite (total < 0) total.natAbs floor

/-- The exact product. An infinity times zero has none. -/
def mul : Value → Value → Value
  | .nan, _ => .nan
  | _, .nan => .nan
  | .infinite left, .infinite right => .infinite (left != right)
  | .infinite left, .finite right n _ => if n = 0 then .nan else .infinite (left != right)
  | .finite left m _, .infinite right => if m = 0 then .nan else .infinite (left != right)
  | .finite left m e, .finite right n f => .finite (left != right) (m * n) (e + f)

/-- The order of two numbers; `none` when one of them is no number. Both zeros are equal. -/
def compare? : Value → Value → Option Ordering
  | .nan, _ => none
  | _, .nan => none
  | .infinite left, .infinite right => some (compare (signed left 1) (signed right 1))
  | .infinite left, .finite .. => some (if left then .lt else .gt)
  | .finite .., .infinite right => some (if right then .gt else .lt)
  | .finite left m e, .finite right n f =>
    let floor := min e f
    some (compare (scaled left m e floor) (scaled right n f floor))

/-- Whether a maximum keeps its left operand. One that is no number loses against any
number. -/
def keepsMaximum (left right : Value) : Bool :=
  match left.compare? right with
  | none => right.isNaN
  | some order => order != .lt

/-- Whether a minimum keeps its left operand. -/
def keepsMinimum (left right : Value) : Bool :=
  match left.compare? right with
  | none => right.isNaN
  | some order => order != .gt

/-- The integer part, cut toward zero and held within `least` and `greatest`. What is no
number becomes zero. -/
def truncate (least greatest : Int) : Value → Int
  | .nan => 0
  | .infinite negative => if negative then least else greatest
  | .finite negative significand exponent =>
    let magnitude := significand * powerOfTwo exponent.toNat / powerOfTwo (-exponent).toNat
    max least (min greatest (signed negative magnitude))

/-- The nearest integer, a half going away from zero, held within `least` and `greatest`. -/
def roundAway (least greatest : Int) : Value → Int
  | .nan => 0
  | .infinite negative => if negative then least else greatest
  | .finite negative significand exponent =>
    let magnitude :=
      roundQuotientUp (significand * powerOfTwo exponent.toNat) (powerOfTwo (-exponent).toNat)
    max least (min greatest (signed negative magnitude))

/-- Any number equals itself. -/
theorem compare?_self (value : Value) (isNumber : value.isNaN = false) :
    value.compare? value = some .eq := by
  cases value with
  | nan => simp [isNaN] at isNumber
  | infinite negative => simp [compare?]
  | finite negative significand exponent => simp [compare?]

end Value

end CollectiveBench.Numeric
