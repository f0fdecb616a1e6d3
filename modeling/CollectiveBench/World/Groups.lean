import CollectiveBench.Error

/-!
# Process groups

A world has a number of ranks and a list of groups. Group zero spans the world; the others
list ranks in an order of their own, which numbers the members within the group. A list may
name ranks that do not exist or one rank twice; a rank's number is the first place where the
list names it.
-/

namespace CollectiveBench

/-- The ranks, their groups, and how long a member waits for the others. -/
structure World where
  size : Nat
  groups : List (List Nat)
  timeoutMs : Nat
deriving DecidableEq, Repr

namespace World

/-- Milliseconds that a member waits when nothing else is said. -/
def defaultTimeoutMs : Nat := 30000

/-- A world in which the given lists are the groups after group zero. -/
def create (size : Nat) (subgroups : List (List Nat)) (timeoutMs : Nat) : World :=
  ⟨size, List.range size :: subgroups, timeoutMs⟩

/-- The group that spans the world. -/
def defaultGroup : Nat := 0

/-- The ranks of a group. -/
def group (world : World) (group : Nat) : Outcome (List Nat) :=
  match world.groups[group]? with
  | some ranks => .ok ranks
  | none => .error (.unknownGroup group)

/-- The number of members of a group. -/
def groupSize (world : World) (group : Nat) : Outcome Nat :=
  (world.group group).map List.length

/-- The number of a rank within a group. -/
def positionIn (ranks : List Nat) (rank : Nat) : Option Nat := ranks.idxOf? rank

/-- Whether a rank can take part in a world. -/
def checkRank (world : World) (rank : Nat) : Outcome Unit :=
  if world.size = 0 then .error (.invalidWorldSize 0)
  else if world.size ≤ rank then .error (.invalidRank rank world.size)
  else .ok ()

end World

end CollectiveBench
