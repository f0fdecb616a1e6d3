import CollectiveBench.Arithmetic
import CollectiveBench.Call
import CollectiveBench.Descriptor
import CollectiveBench.Params
import CollectiveBench.World.Groups

/-!
# Items of work

An item is one operation at one message size. All ranks share the item; what differs from
rank to rank are the splits of an uneven exchange. The message size is rounded down to whole
elements, and to a multiple of the number of ranks where the message is cut into one chunk
per rank, so an item never moves more bytes than its size says.
-/

namespace CollectiveBench

/-- One operation at one message size. -/
structure Item where
  operation : Operation
  sizeBytes : Nat
deriving DecidableEq, Repr

namespace Item

/-- Elements of a message. -/
def elements (item : Item) (params : Params) (worldSize : Nat) : Nat :=
  let elements := item.sizeBytes / params.type.size
  if item.operation.isSplit ∧ 0 < worldSize then elements / worldSize * worldSize
  else elements

/-- The splits of an uneven exchange as a rank sees them. All ranks share the configured
split, so a split on one side determines the other: a rank exchanges with every peer as many
elements as the split says for the rank itself. A split of a wrong length is left for staging
to refuse. -/
def splits (params : Params) (worldSize rank : Nat) : Option (List Nat) × Option (List Nat) :=
  let opposite (split : List Nat) : Option (List Nat) :=
    if split.length = worldSize then (split[rank]?).map (List.replicate worldSize ·) else none
  match params.inSplit, params.outSplit with
  | some inSplit, none => (some inSplit, opposite inSplit)
  | none, some outSplit => (opposite outSplit, some outSplit)
  | inSplit, outSplit => (inSplit, outSplit)

/-- Nothing is lost of the sums of the splits that a rank sees. -/
def checkSums [Arithmetic] (item : Item) (params : Params) (worldSize rank : Nat) : Outcome Unit :=
  if item.operation = .allToAllv then do
    let (inSplit, outSplit) := splits params worldSize rank
    let _ ← inSplit.mapM fun split => Arithmetic.word (total split)
    let _ ← outSplit.mapM fun split => Arithmetic.word (total split)
    return ()
  else return ()

/-- The descriptor of a rank for an item. The splits of an uneven exchange determine its
element counts. -/
def descriptor [Arithmetic] (item : Item) (params : Params) (worldSize rank : Nat) : Descriptor :=
  let count := item.elements params worldSize
  let plain := { Descriptor.of item.operation.name count count params.type with
    root := some params.root
    group := some World.defaultGroup
    worldSize := some worldSize }
  if item.operation = .allToAllv then
    let (inSplit, outSplit) := splits params worldSize rank
    { plain with
      inSplit, outSplit
      inCount := some ((inSplit.map fun split => Arithmetic.held (total split)).getD count)
      outCount := some ((outSplit.map fun split => Arithmetic.held (total split)).getD count) }
  else plain

/-- Bytes that a rank contributes. -/
def bytes [Arithmetic] (item : Item) (params : Params) (worldSize rank : Nat) : Nat :=
  Arithmetic.held ((item.descriptor params worldSize rank).inElements * params.type.size)

/-- The senders and the receivers of an operation: as configured, else everyone but the root
for incasts and multicasts, and from the first rank to the last for single messages. -/
def peers (params : Params) (worldSize : Nat) (operation : Operation) : List Nat × List Nat :=
  let others := (List.range worldSize).filter (· ≠ params.root)
  match operation with
  | .incast =>
    if params.sources.isEmpty then (others, []) else (params.sources, params.destinations)
  | .multicast =>
    if params.destinations.isEmpty then ([], others)
    else (params.sources, params.destinations)
  | .pt2pt | .recv =>
    if params.sources.isEmpty ∧ params.destinations.isEmpty then ([0], [worldSize - 1])
    else (params.sources, params.destinations)
  | _ => (params.sources, params.destinations)

/-- The parameters under which an item is staged: the senders of its operation count. -/
def stagingParams (item : Item) (params : Params) (worldSize : Nat) : Params :=
  { params with sources := (peers params worldSize item.operation).1 }

/-- The call of an item on some buffers. -/
def callOn (item : Item) (params : Params) (worldSize : Nat) (buffers : Buffers) : Call :=
  let (sources, destinations) := peers params worldSize item.operation
  { buffers, sources, destinations
    root := params.root
    group := World.defaultGroup
    reduction := params.reduction }

end Item

end CollectiveBench
