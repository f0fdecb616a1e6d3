import CollectiveBench.Call

/-!
# Tampering

A run can be rehearsed with results that were tampered with on purpose, to see whether
validation notices and whether all ranks then stop together. A corruption overwrites one
element of what an operation delivered to one rank. Collected latencies can be replaced as
well, so that a report does not depend on the clock.
-/

namespace CollectiveBench

open Numeric

/-- An element of a result that is overwritten, after a number of results of the same
operation were spared. -/
structure Corruption where
  rank : Nat
  operation : Operation
  spared : Nat
  /-- The position of the element, counted over all tensors of the destination. -/
  index : Nat
  value : Scalar
deriving DecidableEq, Repr

/-- What is tampered with in a run. -/
structure Tampering where
  corruptions : List Corruption := []
  /-- What collected latencies are replaced by, if there are as many of them. -/
  latencies : Option (List Scalar) := none
deriving DecidableEq, Repr

/-- The tensors with one element overwritten, whose position is counted over all of them. A
position after the last element overwrites nothing. -/
def overwrite [Halves] (value : Scalar) : Nat → List Tensor → List Tensor
  | _, [] => []
  | index, tensor :: rest =>
    match tensor.set index value with
    | .ok changed => changed :: rest
    | .error _ => tensor :: overwrite value (index - tensor.count) rest

/-- The buffer with one element overwritten. -/
def Staged.overwrite [Halves] (index : Nat) (value : Scalar) : Staged → Staged
  | .single tensor => .single ((tensor.set index value).toOption.getD tensor)
  | .list tensors => .list (CollectiveBench.overwrite value index tensors)

namespace Corruption

/-- The result of a rank's `number`-th call of an operation after a corruption. -/
def apply [Halves] (corruption : Corruption) (number : Nat) (destination : Staged) : Staged :=
  if corruption.spared < number then destination.overwrite corruption.index corruption.value
  else destination

end Corruption

namespace Tampering

/-- The corruption that counts for a rank and an operation; of several the first. -/
def corruption? (tampering : Tampering) (rank : Nat) (operation : Operation) :
    Option Corruption :=
  tampering.corruptions.find? fun corruption =>
    corruption.rank = rank ∧ corruption.operation = operation

/-- What collected latencies become. -/
def replaceLatencies (tampering : Tampering) (operation : Operation) (destination : Staged) :
    Staged :=
  match tampering.latencies, destination with
  | some latencies, .single tensor =>
    if operation = .allGatherBase ∧ tensor.type = .f64 ∧ tensor.count = latencies.length then
      .single (.ofValues latencies .f64)
    else destination
  | _, _ => destination

/-- A rank's `number`-th call of an operation, as it comes back to the rank. -/
def apply [Halves] (tampering : Tampering) (rank number : Nat) (call : Call) : Call :=
  let destination := call.buffers.destination
  let corrupted :=
    ((tampering.corruption? rank call.operation).map (·.apply number destination)).getD
      destination
  let delivered := tampering.replaceLatencies call.operation corrupted
  { call with buffers := call.buffers.withDestination delivered }

end Tampering

end CollectiveBench
