import CollectiveBench.Numeric.Scalar
import CollectiveBench.Operation

/-!
# Bandwidths

The algorithmic bandwidth is the message size over the average time of an iteration; bytes
per nanosecond are gigabytes per second. The bus bandwidth multiplies it by the share of the
message that crosses the bus, which depends on the operation and the number of ranks.
-/

namespace CollectiveBench.Bandwidth

open Numeric

/-- Average nanoseconds of an iteration, and gigabytes per second. Without iterations or
without time both are zero. -/
def algorithmic (elapsedNs : Scalar) (sizeBytes iterations : Nat) : Scalar × Scalar :=
  let average := if iterations = 0 then .zero else elapsedNs / .ofNat iterations
  (average, if average.beq .zero then .zero else .ofNat sizeBytes / average)

/-- The share of a message that crosses the bus, for operations that have one. Without ranks
it is the whole message. -/
def busFactor (operation : Operation) (worldSize : Nat) : Option Scalar :=
  match operation with
  | .barrier | .wait | .noop => none
  | .allReduce =>
    some (if worldSize = 0 then .one
      else .ofNat (2 * (worldSize - 1)) / .ofNat worldSize)
  | _ =>
    some (if operation.isSplit ∧ worldSize ≠ 0 then .ofNat (worldSize - 1) / .ofNat worldSize
      else .one)

/-- The bus bandwidth. Operations without a factor keep the algorithmic bandwidth and say
so. -/
def bus (operation : Operation) (algorithmic : Scalar) (worldSize : Nat) :
    Scalar × List Notice :=
  match busFactor operation worldSize with
  | some factor => (algorithmic * factor, [])
  | none => (algorithmic, [⟨.error, "no bus bandwidth factor for this collective"⟩])

end CollectiveBench.Bandwidth
