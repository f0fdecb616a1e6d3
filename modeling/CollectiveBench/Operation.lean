import CollectiveBench.Error

/-!
# Collective operations

The eighteen operations that can be measured, their names, and the properties that decide
how buffers are staged and who takes part.

A name is read without regard to case and to everything but ASCII letters: `All-Reduce`,
`allreduce` and `all_reduce` are one spelling. What is left of a name is looked up in a
table, whose entries differ, so no entry hides another.
-/

namespace CollectiveBench

/-- An operation that the ranks of a group carry out together. -/
inductive Operation where
  | allToAll | allToAllv | allReduce | broadcast | gather | allGather | allGatherBase | reduce
  | reduceScatter | reduceScatterBase | scatter | barrier | incast | multicast | pt2pt | recv
  | wait | noop
deriving DecidableEq, Repr, Inhabited

namespace Operation

/-- All operations. -/
def all : List Operation :=
  [.allToAll, .allToAllv, .allReduce, .broadcast, .gather, .allGather, .allGatherBase, .reduce,
   .reduceScatter, .reduceScatterBase, .scatter, .barrier, .incast, .multicast, .pt2pt, .recv,
   .wait, .noop]

/-- The name of an operation. -/
def name : Operation → String
  | .allToAll => "all_to_all"
  | .allToAllv => "all_to_allv"
  | .allReduce => "all_reduce"
  | .broadcast => "broadcast"
  | .gather => "gather"
  | .allGather => "all_gather"
  | .allGatherBase => "all_gather_base"
  | .reduce => "reduce"
  | .reduceScatter => "reduce_scatter"
  | .reduceScatterBase => "reduce_scatter_base"
  | .scatter => "scatter"
  | .barrier => "barrier"
  | .incast => "incast"
  | .multicast => "multicast"
  | .pt2pt => "pt2pt"
  | .recv => "recv"
  | .wait => "wait"
  | .noop => "noop"

/-- The operation with exactly this name. -/
def ofTag? (text : String) : Option Operation := all.find? (·.name = text)

/-- Squashed spellings and what they stand for. -/
def spellings : List (List Char × Operation) :=
  [("alltoall".toList, .allToAll), ("alltoallv".toList, .allToAllv),
   ("alltoallbase".toList, .allToAllv), ("allreduce".toList, .allReduce),
   ("allgather".toList, .allGather), ("allgatherbase".toList, .allGatherBase),
   ("reducescatter".toList, .reduceScatter), ("reducescatterbase".toList, .reduceScatterBase),
   ("recvanysource".toList, .recv), ("broadcast".toList, .broadcast),
   ("gather".toList, .gather), ("reduce".toList, .reduce), ("scatter".toList, .scatter),
   ("barrier".toList, .barrier), ("incast".toList, .incast),
   ("multicast".toList, .multicast), ("ptpt".toList, .pt2pt), ("recv".toList, .recv),
   ("wait".toList, .wait), ("noop".toList, .noop)]

/-- The ASCII letters of a name, in lower case. -/
def squash (name : List Char) : List Char := (name.filter Char.isAlpha).map Char.toLower

/-- The operation that a name stands for. -/
def ofName? (name : String) : Option Operation := spellings.lookup (squash name.toList)

/-- The operation that a name stands for, if it is among the `supported` ones. Unknown and
unsupported names fail alike. -/
def resolve (supported : List Operation) (name : String) : Outcome Operation :=
  match ofName? name with
  | some operation =>
    if operation ∈ supported then .ok operation
    else .error (.unsupportedCollective name (supported.map Operation.name))
  | none => .error (.unsupportedCollective name (supported.map Operation.name))

/-- Operations that only synchronise and stage no buffers. -/
def isSyncOnly : Operation → Bool
  | .barrier | .wait => true
  | _ => false

/-- Operations with a root. -/
def isRooted : Operation → Bool
  | .broadcast | .reduce | .gather | .scatter | .incast | .multicast => true
  | _ => false

/-- Operations that combine elements of several ranks. -/
def isReduction : Operation → Bool
  | .allReduce | .reduce | .reduceScatter | .reduceScatterBase => true
  | _ => false

/-- Operations whose message is cut into one chunk per rank. -/
def isSplit : Operation → Bool
  | .allToAll | .allToAllv | .allGather | .allGatherBase | .gather | .reduceScatter
  | .reduceScatterBase | .scatter => true
  | _ => false

/-- The name of an operation is one of its spellings. -/
theorem ofName?_name (operation : Operation) : ofName? operation.name = some operation := by
  cases operation <;> decide

/-- An operation is resolved from its own name where it is supported. -/
theorem resolve_name {supported : List Operation} {operation : Operation}
    (known : operation ∈ supported) : resolve supported operation.name = .ok operation := by
  simp only [resolve, ofName?_name, known, if_true]

end Operation

end CollectiveBench
