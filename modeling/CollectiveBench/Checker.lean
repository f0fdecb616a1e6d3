import CollectiveBench.Call

/-!
# Checking results

A validated run fills its inputs with one known value. Moving data must then deliver that
value, and a sum over all ranks must deliver it as often as there are ranks. The checker
resets buffers before such a run, so that nothing stale can pass, and afterwards looks for
the first element that differs from what its type makes of the expected value.
-/

namespace CollectiveBench

open Numeric

/-- Checks runs whose inputs hold `initial`. -/
structure Checker where
  initial : Scalar
deriving DecidableEq, Repr

namespace Checker

/-- Whether only the root has something to send. -/
def onlyRootSends (operation : Operation) : Bool :=
  operation = .broadcast || operation = .multicast

/-- Buffers before a validated run at a rank. Senders hold the initial value, all other
tensors the value `other`. -/
def reset [Halves] (checker : Checker) (buffers : Buffers) (rank root : Nat) (other : Scalar) :
    Buffers :=
  let input :=
    if onlyRootSends buffers.operation ∧ rank ≠ root then other else checker.initial
  { buffers with
    input := buffers.input.map (·.fill input)
    output := buffers.output.map fun output => output.map (·.fill other) }

/-- Whether the result at a rank is a reduction over all ranks. -/
def isReduced (operation : Operation) (rank root : Nat) : Bool :=
  match operation with
  | .allReduce | .reduceScatter | .reduceScatterBase => true
  | .reduce => rank = root
  | _ => false

/-- What every element of the destination must hold. A reduction of truth values stays
true. -/
def expected (checker : Checker) (operation : Operation) (type : ElementType)
    (rank root worldSize : Nat) : Scalar :=
  if isReduced operation rank root ∧ type ≠ .bool then .ofNat worldSize * checker.initial
  else checker.initial

/-- Whether the destination of a rank holds a result. -/
def shouldCheck (call : Call) (rank : Nat) : Bool :=
  match call.operation with
  | .incast | .reduce | .gather => rank = call.root
  | .multicast | .pt2pt => call.destinations.contains rank
  | .barrier | .wait | .noop => false
  | _ => true

/-- The first value that differs from `expected`, with its position. -/
def firstMismatch (expected : Scalar) (start : Nat) : List Scalar → Option (Nat × Scalar)
  | [] => none
  | value :: rest =>
    if value.beq expected then firstMismatch expected (start + 1) rest else some (start, value)

/-- The first value of a list of tensors that differs from `expected`, with the positions of
the tensor and of the value in it. -/
def firstFault (expected : Scalar) (start : Nat) : List Tensor → Option (Nat × Nat × Scalar)
  | [] => none
  | tensor :: rest =>
    match firstMismatch expected 0 tensor.values with
    | some (index, value) => some (start, index, value)
    | none => firstFault expected (start + 1) rest

/-- How the place of an element is written. -/
def location (inList : Bool) (tensor index : Nat) : String :=
  (if inList then "[" ++ toString tensor ++ "]" else "") ++ "[" ++ toString index ++ "]"

/-- Checks the destination of a call that is done. -/
def check [Halves] (checker : Checker) (call : Call) (rank worldSize sizeBytes : Nat) :
    Outcome Unit :=
  let destination := call.buffers.destination
  if shouldCheck call rank then
    match destination.tensors with
    | [] => .ok ()
    | first :: rest =>
      let expected :=
        first.type.cast (checker.expected call.operation first.type rank call.root worldSize)
      match firstFault expected 0 (first :: rest) with
      | none => .ok ()
      | some (tensor, index, actual) =>
        .error (.validationFailed sizeBytes call.operation.name
          (location destination.isList tensor index) actual expected)
  else .ok ()

end Checker

end CollectiveBench
