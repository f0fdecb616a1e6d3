import CollectiveBench.Call

/-!
# Delivery

When every member of a group has contributed to a round, each member computes on its own
what it receives. The contributions stand in the order of the group's ranks, so neither the
order of arrival nor the rank that finishes the round shows in a result.

`payload` says what a member receives and `accept` puts it into the destination. Buffers
that do not fit give an error and leave no trace.
-/

namespace CollectiveBench

/-- What one member brings to a round. -/
structure Contribution where
  operation : Operation
  input : Staged
  inSplit : Option (List Nat)
deriving DecidableEq, Repr

/-- The part of a call that the other members see. -/
def Call.contribution (call : Call) : Contribution :=
  ⟨call.operation, call.buffers.input, call.buffers.inSplit⟩

/-- What a member receives. -/
inductive Payload where
  | nothing
  | one (tensor : Tensor)
  | many (parts : List Tensor)
deriving DecidableEq, Repr

/-- The contribution of a rank. -/
def contributionOf (all : List Contribution) (rank : Nat) : Outcome Contribution :=
  match all[rank]? with
  | some contribution => .ok contribution
  | none => .error (.defect (.indexOutOfRange rank all.length))

/-- All parts joined in order; their type is that of the first. -/
def joinParts (parts : List Tensor) : Outcome Tensor :=
  Tensor.concat parts ((parts.head?.map Tensor.type).getD .f32)

/-- The tensors that `fetch` finds in the contributions, reduced from left to right. -/
def reduceAll {α : Type} (fetch : α → Outcome Tensor) (reduction : Reduction) :
    List α → Outcome Tensor
  | [] => .error (.configuration "reduction over an empty group")
  | first :: rest => do
    rest.foldlM (fun total next => do total.reduceWith (← fetch next) reduction) (← fetch first)

/-- The block of a contribution that its split assigns to rank `me`. -/
def blockFor [Arithmetic] (name : String) (me size : Nat) (contribution : Contribution) :
    Outcome Tensor := do
  match contribution.inSplit.filter (·.length = size) with
  | none => .error (.collectiveFailed name me "peer sent no usable split")
  | some split =>
    match split[me]? with
    | none => .error (.defect (.indexOutOfRange me split.length))
    | some length => do
      let start ← Arithmetic.word (total (split.take me))
      (← contribution.input.expectSingle name).slice start length

/-- The sender that point-to-point messages pair with rank `me`; the last pair counts. -/
def senderTo (me : Nat) (sources destinations : List Nat) : Option Nat :=
  ((sources.zip destinations).filter (·.2 = me)).getLast?.map (·.1)

/-- What the member of rank `me` receives in a round of one operation. -/
def payload [Arithmetic] (call : Call) (me : Nat) (all : List Contribution) : Outcome Payload := do
  let name := call.operation.name
  let single (contribution : Contribution) := contribution.input.expectSingle name
  let part (contribution : Contribution) := contribution.input.part name me
  match call.operation with
  | .allReduce => return .one (← reduceAll single call.reduction all)
  | .reduce =>
    if me = call.root then return .one (← reduceAll single call.reduction all)
    else return .nothing
  | .broadcast => return .one (← single (← contributionOf all call.root))
  | .multicast =>
    if me ≠ call.root ∧ call.isDestination me then
      return .one (← single (← contributionOf all call.root))
    else return .nothing
  | .allToAll => return .many (← all.mapM part)
  | .allToAllv => return .one (← joinParts (← all.mapM (blockFor name me all.length)))
  | .allGather => return .many (← all.mapM single)
  | .gather => if me = call.root then return .many (← all.mapM single) else return .nothing
  | .allGatherBase => return .one (← joinParts (← all.mapM single))
  | .reduceScatter => return .one (← reduceAll part call.reduction all)
  | .reduceScatterBase =>
    let chunk := (← call.buffers.destination.expectSingle name).count
    let parts ← all.mapM fun contribution => do
      let input ← single contribution
      input.slice (← Arithmetic.word (me * chunk)) chunk
    return .one (← reduceAll .ok call.reduction parts)
  | .scatter => return .one (← part (← contributionOf all call.root))
  | .incast =>
    if me = call.root then
      return .many (← call.sources.mapM fun source => do single (← contributionOf all source))
    else return .nothing
  | .pt2pt | .recv =>
    match senderTo me call.sources call.destinations with
    | some source => return .one (← single (← contributionOf all source))
    | none => return .nothing
  | .barrier | .wait | .noop => return .nothing

/-- The destination after a payload was copied into it. A list takes as many parts as it has
tensors, and each part must fit its tensor. -/
def Staged.accept (name : String) (destination : Staged) : Payload → Outcome Staged
  | .nothing => .ok destination
  | .one tensor =>
    match destination with
    | .single target => do return .single (← target.copyFrom tensor)
    | .list _ => .error (.configuration (name ++ " expects a single output tensor"))
  | .many parts =>
    match destination with
    | .single _ => .error (.bufferSizeMismatch parts.length 1)
    | .list targets =>
      if targets.length ≠ parts.length then
        .error (.bufferSizeMismatch parts.length targets.length)
      else do
        return .list (← (targets.zip parts).mapM fun (target, part) => target.copyFrom part)

/-- The call as the member of rank `me` gets it back from a complete round. -/
def deliver [Arithmetic] (call : Call) (me : Nat) (all : List Contribution) : Outcome Call := do
  match ← payload call me all with
  | .nothing => return call
  | received =>
    let destination ← call.buffers.destination.accept call.operation.name received
    return { call with buffers := call.buffers.withDestination destination }

/-- The answer to a call whose round is complete. Members that issued different operations
all fail; each names the first operation that differs from its own. -/
def conclude [Arithmetic] (call : Call) (rank me : Nat) (all : List Contribution) : Outcome Call :=
  match all.find? (·.operation ≠ call.operation) with
  | some other =>
    .error (.collectiveFailed call.operation.name rank
      ("peer issued " ++ other.operation.name ++ " in the same round"))
  | none => deliver call me all

end CollectiveBench
