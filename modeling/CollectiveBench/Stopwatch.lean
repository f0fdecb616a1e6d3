import CollectiveBench.Error
import CollectiveBench.Natural

/-!
# Stopwatch

A stopwatch sums up measured intervals. Its time is a whole number of nanoseconds, and its
seconds fit in 64 bits; an interval that would leave this range is refused.
-/

namespace CollectiveBench

open Numeric

/-- Summed intervals. -/
structure Stopwatch where
  nanoseconds : Nat := 0
  intervals : Nat := 0
deriving DecidableEq, Repr

namespace Stopwatch

/-- Nanoseconds of a second. -/
def second : Nat := 1000000000

/-- The stopwatch after a further interval. -/
def add (stopwatch : Stopwatch) (nanoseconds : Nat) : Outcome Stopwatch :=
  let total := stopwatch.nanoseconds + nanoseconds
  if total / second < powerOfTwo 64 then .ok ⟨total, stopwatch.intervals + 1⟩
  else .error (.defect .clockOverflow)

/-- Elapsed nanoseconds as a scalar. -/
def elapsedNs (stopwatch : Stopwatch) : Scalar := .ofNat stopwatch.nanoseconds

/-- Elapsed microseconds as a scalar. -/
def elapsedUs (stopwatch : Stopwatch) : Scalar := stopwatch.elapsedNs / .ofNat 1000

end Stopwatch

end CollectiveBench
