import CollectiveBench.Operation
import CollectiveBench.Reduction
import CollectiveBench.Tensor.Staged

/-!
# Calls

A call is what a rank issues: the buffers that were staged for an operation, and who takes
part. It owns its buffers. Once the operation is done the rank gets the call back with the
destination filled in, and nothing else about it has changed.
-/

namespace CollectiveBench

/-- Buffers staged for an operation. Without an output the operation works in place and its
input is the destination. -/
structure Buffers where
  operation : Operation
  input : Staged := .empty
  output : Option Staged := none
  inSplit : Option (List Nat) := none
  outSplit : Option (List Nat) := none
deriving DecidableEq, Repr, Inhabited

namespace Buffers

/-- Whether the operation works in place. -/
def isInPlace (buffers : Buffers) : Bool := buffers.output.isNone

/-- The buffer that the result is written into. -/
def destination (buffers : Buffers) : Staged := buffers.output.getD buffers.input

/-- The buffers with another content of the destination. -/
def withDestination (buffers : Buffers) (destination : Staged) : Buffers :=
  match buffers.output with
  | some _ => { buffers with output := some destination }
  | none => { buffers with input := destination }

/-- Takes over the tensors of earlier buffers and keeps the splits. -/
def reuseFrom (buffers previous : Buffers) : Buffers :=
  { buffers with input := previous.input, output := previous.output }

/-- What was written is what the destination holds. -/
@[simp] theorem destination_withDestination (buffers : Buffers) (destination : Staged) :
    (buffers.withDestination destination).destination = destination := by
  cases output : buffers.output <;> simp [withDestination, Buffers.destination, output]

end Buffers

/-- An operation on buffers, with the ranks that play a part in it. Ranks are positions in
the group. -/
structure Call where
  buffers : Buffers
  /-- The root of a rooted operation, and the sender of a multicast. -/
  root : Nat := 0
  /-- The senders of an incast or of point-to-point messages. -/
  sources : List Nat := []
  /-- The receivers of a multicast or of point-to-point messages. -/
  destinations : List Nat := []
  group : Nat := 0
  reduction : Reduction := .sum
deriving DecidableEq, Repr, Inhabited

namespace Call

/-- The operation that the buffers were staged for. -/
def operation (call : Call) : Operation := call.buffers.operation

/-- Whether a rank is a receiver. An empty list of receivers means everyone. -/
def isDestination (call : Call) (rank : Nat) : Bool :=
  call.destinations.isEmpty || call.destinations.contains rank

/-- The barrier of a group. -/
def barrier (group : Nat) : Call := { buffers := { operation := .barrier }, group }

/-- The root and all senders and receivers exist in a group of the given size, and messages
from point to point have as many receivers as senders. -/
def checkPeers (call : Call) (rank groupSize : Nat) : Outcome Unit :=
  if call.operation.isRooted && groupSize ≤ call.root then
    .error (.invalidRank call.root groupSize)
  else
    match (call.sources ++ call.destinations).find? (groupSize ≤ ·) with
    | some peer => .error (.invalidRank peer groupSize)
    | none =>
      if (call.operation = .pt2pt ∨ call.operation = .recv)
          ∧ call.sources.length ≠ call.destinations.length then
        .error (.collectiveFailed call.operation.name rank
          (toString call.sources.length ++ " source ranks paired with "
            ++ toString call.destinations.length ++ " destination ranks"))
      else .ok ()

end Call

end CollectiveBench
