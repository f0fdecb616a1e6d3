import CollectiveBench.Descriptor
import CollectiveBench.Device
import CollectiveBench.Params
import CollectiveBench.World.Groups

/-!
# Staging

Staging turns a descriptor into buffers of the shapes that its operation needs. First the
operation is resolved, the group found and the element counts checked; this decides
everything (`Plan`). Only then tensors are allocated as the operation's `Layout` says, so a
refused descriptor allocates nothing. Without allocation a plan gives empty buffers that
later take over the tensors of earlier ones.
-/

namespace CollectiveBench

open Numeric

/-- The shape of a buffer. -/
inductive Extent where
  | single (count : Nat)
  | list (parts count : Nat)
deriving DecidableEq, Repr

/-- Elements of a buffer of a shape. -/
def Extent.total : Extent → Nat
  | .single count => count
  | .list parts count => parts * count

/-- Tensors of a buffer of a shape. -/
def Extent.tensors : Extent → Nat
  | .single _ => 1
  | .list parts _ => parts

/-- The shapes of an operation's buffers. Without an output it works in place. -/
structure Layout where
  input : Extent
  output : Option Extent
deriving DecidableEq, Repr

namespace Layout

/-- The shapes for `worldSize` ranks and `sources` senders, from the element counts of a
descriptor. -/
def of (operation : Operation) (inCount outCount worldSize sources : Nat) : Layout :=
  match operation with
  | .allToAllv | .pt2pt => ⟨.single inCount, some (.single outCount)⟩
  | .allToAll =>
    ⟨.list worldSize (inCount / worldSize), some (.list worldSize (outCount / worldSize))⟩
  | .allGather | .gather =>
    ⟨.single (inCount / worldSize), some (.list worldSize (inCount / worldSize))⟩
  | .allGatherBase =>
    ⟨.single (inCount / worldSize), some (.single (inCount / worldSize * worldSize))⟩
  | .incast => ⟨.single inCount, some (.list sources outCount)⟩
  | .reduceScatter | .scatter =>
    ⟨.list worldSize (outCount / worldSize), some (.single (outCount / worldSize))⟩
  | .reduceScatterBase => ⟨.single outCount, some (.single (outCount / worldSize))⟩
  | _ => ⟨.single inCount, none⟩

/-- The shape of the buffer that receives the result. -/
def destination (layout : Layout) : Extent := layout.output.getD layout.input

end Layout

/-- Elements that the destination of an operation holds in all. An operation in place
reports its input. -/
def expectedElements (operation : Operation) (inCount outCount worldSize sources : Nat) : Nat :=
  if worldSize = 0 ∨ operation.isSyncOnly then 0
  else
    match operation with
    | .allToAllv | .pt2pt => outCount
    | .allToAll => outCount / worldSize * worldSize
    | .allGather | .gather | .allGatherBase => inCount / worldSize * worldSize
    | .incast => outCount * sources
    | .reduceScatter | .scatter | .reduceScatterBase => outCount / worldSize
    | _ => inCount

/-- A count that must be divided among the ranks. -/
def checkDivisible (operation : Operation) (count worldSize : Nat) : Outcome Unit :=
  if count % worldSize = 0 then .ok ()
  else .error (.indivisibleCount count worldSize operation.name)

/-- A count that a split divides among the ranks, or that must be divided evenly. -/
def checkSplits [Arithmetic] (operation : Operation) (split : Option (List Nat))
    (count worldSize : Nat) : Outcome Unit :=
  match split with
  | none => checkDivisible operation count worldSize
  | some split =>
    if split.length ≠ worldSize then .error (.splitMismatch operation.name split count worldSize)
    else do
      let sum ← Arithmetic.word (total split)
      if sum = count then .ok ()
      else .error (.splitMismatch operation.name split count worldSize)

/-- Checks the element counts of an operation. -/
def checkCounts [Arithmetic] (operation : Operation) (inCount outCount worldSize : Nat)
    (inSplit outSplit : Option (List Nat)) : Outcome Unit :=
  match operation with
  | .allToAllv => do
    checkSplits operation inSplit inCount worldSize
    checkSplits operation outSplit outCount worldSize
  | .allToAll => do
    checkDivisible operation inCount worldSize
    checkDivisible operation outCount worldSize
  | .allGather | .gather | .allGatherBase => checkDivisible operation inCount worldSize
  | .reduceScatter | .scatter | .reduceScatterBase =>
    checkDivisible operation outCount worldSize
  | _ => .ok ()

/-- Equal shares of a count. -/
def evenSplit (count worldSize : Nat) : List Nat :=
  List.replicate worldSize (count / worldSize)

/-- Everything that staging decides before it allocates. Operations that only synchronise
have no layout. -/
structure Plan where
  operation : Operation
  layout : Option Layout := none
  type : ElementType
  /-- Divides random values; the square of the elements received. -/
  scale : Scalar := .zero
  inSplit : Option (List Nat) := none
  outSplit : Option (List Nat) := none
deriving DecidableEq, Repr

namespace Plan

/-- The name to resolve: the descriptor's, else the first of the parameters. -/
def nameOf (params : Params) (descriptor : Descriptor) : String :=
  descriptor.name.getD (params.collectives.head?.getD "")

/-- The plan for a descriptor. -/
def make [Arithmetic] (supported : List Operation) (world : World) (params : Params)
    (descriptor : Descriptor) : Outcome Plan := do
  let operation ← Operation.resolve supported (nameOf params descriptor)
  let type := descriptor.type.getD params.type
  if operation.isSyncOnly then return { operation, type }
  let worldSize ← world.groupSize (descriptor.group.getD World.defaultGroup)
  if worldSize = 0 then throw (.invalidWorldSize 0)
  let inCount := descriptor.inElements
  let outCount := descriptor.outElements
  let inSplit := descriptor.inSplit <|> params.inSplit
  let outSplit := descriptor.outSplit <|> params.outSplit
  checkCounts operation inCount outCount worldSize inSplit outSplit
  let splits := operation = .allToAllv
  return {
    operation, type
    layout := some (.of operation inCount outCount worldSize params.sources.length)
    scale := .ofNat outCount * .ofNat outCount
    inSplit := if splits then some (inSplit.getD (evenSplit inCount worldSize)) else none
    outSplit := if splits then some (outSplit.getD (evenSplit outCount worldSize)) else none }

/-- Buffers without tensors. -/
def unallocated (plan : Plan) : Buffers where
  operation := plan.operation
  output := (plan.layout.bind Layout.output).map fun _ => .empty
  inSplit := plan.inSplit
  outSplit := plan.outSplit

/-- What the inputs of a run hold: a known value when results are validated, random values
otherwise. -/
def inputFilling (plan : Plan) (params : Params) : Device.Filling :=
  if params.validate then .ones params.initial else .random plan.scale

end Plan

/-- The shape that a new buffer has if it is to have a shape. -/
def Extent.held [Arithmetic] (filling : Device.Filling) (type : ElementType) :
    Extent → Outcome Extent
  | .single count => do return .single (← filling.held type count)
  | .list 0 count => return .list 0 count
  | .list parts count => do return .list parts (← filling.held type count)

/-- The plan with the shapes that its buffers have. -/
def Plan.held [Arithmetic] (plan : Plan) (params : Params) : Outcome Plan :=
  match plan.layout with
  | none => return plan
  | some layout => do
    let input ← layout.input.held (plan.inputFilling params) plan.type
    match layout.output with
    | none => return { plan with layout := some ⟨input, none⟩ }
    | some output =>
      let output ← output.held (.random plan.scale) plan.type
      return { plan with layout := some ⟨input, some output⟩ }

/-- A buffer of a shape. -/
def Device.allocate [Halves] (device : Device) (filling : Filling) (type : ElementType) :
    Extent → Staged × Device
  | .single count =>
    let (tensor, device) := device.filled filling type count
    (.single tensor, device)
  | .list parts count =>
    let (tensors, device) := device.filledList filling type count parts
    (.list tensors, device)

/-- Buffers with the tensors of the layout. The input is allocated first. -/
def Plan.allocate [Halves] (plan : Plan) (params : Params) (device : Device) : Buffers × Device :=
  match plan.layout with
  | none => (plan.unallocated, device)
  | some layout =>
    let (input, device) := device.allocate (plan.inputFilling params) plan.type layout.input
    match layout.output with
    | none => ({ plan.unallocated with input }, device)
    | some output =>
      let (output, device) := device.allocate (.random plan.scale) plan.type output
      ({ plan.unallocated with input, output := some output }, device)

/-- Buffers for a descriptor, with or without tensors, and the device afterwards. -/
def stage [Arithmetic] [Halves] (supported : List Operation) (world : World) (params : Params)
    (descriptor : Descriptor) (allocate : Bool) (device : Device) : Outcome Buffers × Device :=
  match Plan.make supported world params descriptor with
  | .error error => (.error error, device)
  | .ok plan =>
    if allocate then
      match plan.held params with
      | .error error => (.error error, device)
      | .ok plan =>
        let (buffers, device) := plan.allocate params device
        (.ok buffers, device)
    else (.ok plan.unallocated, device)

end CollectiveBench
