/-!
# Powers and totals of natural numbers

Sizes of binary fields, places of decimal digits and element counts are natural numbers, and
all of them are built from three functions. They are those of the natural numbers alone, not
the power and the sum of whatever algebraic structure a module happens to import, so a
definition that uses them means one term everywhere.
-/

namespace CollectiveBench

/-- Two to a power. -/
def powerOfTwo (exponent : Nat) : Nat := Nat.pow 2 exponent

/-- Ten to a power. -/
def powerOfTen (exponent : Nat) : Nat := Nat.pow 10 exponent

/-- The sum of some counts. -/
def total (counts : List Nat) : Nat := counts.foldr (· + ·) 0

/-- A field one bit wider holds twice as many numbers. -/
theorem powerOfTwo_succ (exponent : Nat) : powerOfTwo (exponent + 1) = 2 * powerOfTwo exponent :=
  Nat.mul_comm _ 2

/-- A power of two is never zero, so it may divide. -/
theorem powerOfTwo_pos (exponent : Nat) : 0 < powerOfTwo exponent :=
  Nat.pow_pos (by decide)

/-- Nothing sums up to zero. -/
@[simp] theorem total_nil : total [] = 0 := rfl

/-- A sum begins with its first count. -/
@[simp] theorem total_cons (count : Nat) (counts : List Nat) :
    total (count :: counts) = count + total counts := rfl

end CollectiveBench
