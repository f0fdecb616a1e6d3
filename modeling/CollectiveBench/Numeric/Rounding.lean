import CollectiveBench.Natural

/-!
# Rounding a quotient to the nearest integer

Every inexact step of the library, from a tensor element squeezed into two bytes to a
printed column with three decimals, rounds one quotient of natural numbers to the nearest
integer. What happens to an exact half is stated once here: arithmetic and tables send it to
the even neighbour, messages and counts of faulty ranks to the larger one.
-/

namespace CollectiveBench.Numeric

/-- The integer nearest to `numerator / denominator`; a quotient halfway between two
integers goes to the even one. -/
def roundQuotient (numerator denominator : Nat) : Nat :=
  let quotient := numerator / denominator
  let excess := 2 * (numerator % denominator)
  if excess < denominator ∨ (excess = denominator ∧ quotient % 2 = 0) then quotient
  else quotient + 1

/-- The integer nearest to `numerator / denominator`; a quotient halfway between two
integers goes to the larger one. -/
def roundQuotientUp (numerator denominator : Nat) : Nat :=
  (2 * numerator + denominator) / (2 * denominator)

/-- The floor of the binary logarithm of a positive quotient. The logarithms of the two
parts fix it up to one, and one exact comparison decides which. -/
def quotientLog2 (numerator denominator : Nat) : Int :=
  let estimate : Int := (Nat.log2 numerator : Int) - (Nat.log2 denominator : Int)
  if denominator * powerOfTwo estimate.toNat ≤ numerator * powerOfTwo (-estimate).toNat then
    estimate
  else
    estimate - 1

/-- A multiple of the denominator is rounded exactly. -/
theorem roundQuotient_mul (count denominator : Nat) (positive : 0 < denominator) :
    roundQuotient (count * denominator) denominator = count := by
  simp [roundQuotient, Nat.mul_div_cancel _ positive, positive]

/-- A denominator of one rounds nothing. -/
@[simp] theorem roundQuotient_one (count : Nat) : roundQuotient count 1 = count := by
  simpa using roundQuotient_mul count 1 (by decide)

end CollectiveBench.Numeric
