import CollectiveBench.Json.Printer
import CollectiveBench.Json.Reader
import CollectiveBench.Operation
import CollectiveBench.Reduction

/-!
# Descriptors

A descriptor names one collective to stage: the operation as the caller spelled it, the
element counts of a rank, and whatever else differs from the defaults. Its exchange form is a
JSON object. Writing puts the fields in a fixed order and leaves out what is unset, apart
from the name. Reading takes the fields in any order, skips fields it does not know, and
holds `null` and absence for the same; it also takes an array of all fields in their order.
-/

namespace CollectiveBench

/-- One collective to stage. -/
structure Descriptor where
  name : Option String := none
  sequence : Nat
  request : Option Nat := none
  inCount : Option Nat := none
  outCount : Option Nat := none
  type : Option ElementType := none
  inSplit : Option (List Nat) := none
  outSplit : Option (List Nat) := none
  startTime : Option Nat := none
  group : Option Nat := none
  worldSize : Option Nat := none
  root : Option Nat := none
deriving DecidableEq, Repr

namespace Descriptor

/-- The descriptor of an operation on the given numbers of elements. -/
def of (name : String) (inCount outCount : Nat) (type : ElementType) : Descriptor :=
  { name := some name, sequence := 0, inCount := some inCount, outCount := some outCount,
    type := some type }

/-- Elements that a rank contributes; none when unset. -/
def inElements (descriptor : Descriptor) : Nat := descriptor.inCount.getD 0

/-- Elements that a rank receives; none when unset. -/
def outElements (descriptor : Descriptor) : Nat := descriptor.outCount.getD 0

/-- The keys in the order of the fields. -/
def keys : List String :=
  ["comms", "seqnum", "req", "in_msg_size", "out_msg_size", "dtype", "in_split", "out_split",
   "startTime_ns", "pg_id", "world_size", "root"]

/-- A field that is written when it is set. -/
def optionalField {α : Type} (key : String) (write : α → Json) (value : Option α) :
    List (Option (List Char) × Json) :=
  (value.map fun value => Json.field key (write value)).toList

/-- The object that a descriptor is written as. -/
def toJson (descriptor : Descriptor) : Json :=
  let counts (numbers : List Nat) : Json := .array (numbers.map Json.count)
  .object
    ([Json.field "comms" (match descriptor.name with
        | some name => Json.text name
        | none => .null),
      Json.field "seqnum" (Json.count descriptor.sequence)]
    ++ optionalField "req" Json.count descriptor.request
    ++ optionalField "in_msg_size" Json.count descriptor.inCount
    ++ optionalField "out_msg_size" Json.count descriptor.outCount
    ++ optionalField "dtype" (fun type => Json.text type.tag) descriptor.type
    ++ optionalField "in_split" counts descriptor.inSplit
    ++ optionalField "out_split" counts descriptor.outSplit
    ++ optionalField "startTime_ns" Json.count descriptor.startTime
    ++ optionalField "pg_id" Json.count descriptor.group
    ++ optionalField "world_size" Json.count descriptor.worldSize
    ++ optionalField "root" Json.count descriptor.root)

/-- The member of an enumeration that a JSON value names. -/
def member? {α : Type} (ofTag? : String → Option α) (value : Json) : Option α :=
  value.tag?.bind ofTag?

/-- The descriptor whose fields are the values that `get` finds for their keys. -/
def ofFields? (get : String → Json) : Option Descriptor := do
  let count := Json.optional? (Json.count? Text.bound64)
  let rank := Json.optional? (Json.count? Text.bound32)
  let counts := Json.optional? (Json.list? (Json.count? Text.bound64))
  return {
    name := ← Json.optional? Json.text? (get "comms")
    sequence := ← Json.count? Text.bound64 (get "seqnum")
    request := ← count (get "req")
    inCount := ← count (get "in_msg_size")
    outCount := ← count (get "out_msg_size")
    type := ← Json.optional? (member? ElementType.ofTag?) (get "dtype")
    inSplit := ← counts (get "in_split")
    outSplit := ← counts (get "out_split")
    startTime := ← count (get "startTime_ns")
    group := ← rank (get "pg_id")
    worldSize := ← rank (get "world_size")
    root := ← rank (get "root") }

/-- The value of a key, which is `null` where the key is absent. -/
def fieldValue (fields : List (String × Json)) (key : String) : Json :=
  (fields.lookup key).getD .null

/-- Whether one of the descriptor's keys occurs twice. -/
def repeatsKey (fields : List (String × Json)) : Bool :=
  keys.any fun key => 1 < fields.countP fun field => field.1 == key

/-- The fields of an object whose keys all have a text. -/
def namedFields? (fields : List (Option (List Char) × Json)) : Option (List (String × Json)) :=
  fields.mapM fun (key, value) => key.map fun key => (String.ofList key, value)

/-- The descriptor that a JSON value stands for. -/
def ofJson? : Json → Option Descriptor
  | .array items =>
    if items.length = keys.length then ofFields? (fieldValue (keys.zip items)) else none
  | .object fields =>
    match namedFields? fields with
    | some fields => if repeatsKey fields then none else ofFields? (fieldValue fields)
    | none => none
  | _ => none

/-- The written form of a descriptor. -/
def write (descriptor : Descriptor) : String := String.ofList descriptor.toJson.compact

/-- The descriptor that a text is the written form of. -/
def read? (text : String) : Option Descriptor := (Json.parse? text.toList).bind ofJson?

/-- Reading the written form of a descriptor gives it back. -/
example : read? (write { (of "all_reduce" 8 8 .f32) with inSplit := some [] }) =
    some { (of "all_reduce" 8 8 .f32) with inSplit := some [] } := by decide +kernel

end Descriptor

/-- The member of an enumeration that a text names as a JSON value. -/
def readMember? {α : Type} (ofTag? : String → Option α) (text : String) : Option α :=
  (Json.parse? text.toList).bind (Descriptor.member? ofTag?)

/-- The JSON string that names a member of an enumeration. -/
def writeMember (tag : String) : String := String.ofList (Json.text tag).compact

end CollectiveBench
