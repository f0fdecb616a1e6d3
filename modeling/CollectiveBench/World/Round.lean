import CollectiveBench.World.Delivery

/-!
# Rounds

A round is a collective in flight. It belongs to a group and to a sequence number, and has a
slot for each rank of the group. A member fills its slot once and then waits; the member that
fills the last slot completes the round. The table holds the rounds that are open.
-/

namespace CollectiveBench

/-- Names a round. -/
structure RoundKey where
  group : Nat
  sequence : Nat
deriving DecidableEq, Repr

/-- A round that is not complete. -/
structure Round where
  slots : List (Option Contribution)
  /-- How many members have arrived. -/
  arrived : Nat
  /-- Tickets of the calls that wait, in the order of arrival. -/
  waiters : List Nat
deriving DecidableEq, Repr

namespace Round

/-- A round of a group in which nobody has arrived. -/
def empty (size : Nat) : Round := ⟨List.replicate size none, 0, []⟩

/-- The round after a member put its contribution into a slot and began to wait. -/
def fill (round : Round) (position ticket : Nat) (contribution : Contribution) : Round :=
  ⟨round.slots.set position (some contribution), round.arrived + 1, round.waiters ++ [ticket]⟩

/-- The contributions that have been made, in the order of the ranks. -/
def contributions (round : Round) : List Contribution := round.slots.filterMap id

end Round

/-- The open rounds. -/
abbrev Rounds := List (RoundKey × Round)

namespace Rounds

/-- The open round of a key. -/
def find? (rounds : Rounds) (key : RoundKey) : Option Round := rounds.lookup key

/-- The table without the round of a key. -/
def erase (rounds : Rounds) (key : RoundKey) : Rounds := rounds.filter (·.1 ≠ key)

/-- The table with a round in the place of any earlier one of its key. -/
def insert (rounds : Rounds) (key : RoundKey) (round : Round) : Rounds :=
  (key, round) :: rounds.erase key

/-- What becomes of a contribution. -/
inductive Deposit where
  /-- The slot was filled before; the table is as it was. -/
  | refused
  /-- The round waits for further members. -/
  | waiting (rounds : Rounds)
  /-- The round is complete and has left the table. -/
  | complete (rounds : Rounds) (waiters : List Nat) (delivered : List Contribution)

/-- Puts a contribution into the slot `position` of a round. The first contribution opens the
round, with `size` slots; the last one completes it. -/
def deposit (rounds : Rounds) (key : RoundKey) (size position ticket : Nat)
    (contribution : Contribution) : Outcome Deposit :=
  let round := (rounds.find? key).getD (.empty size)
  match round.slots[position]? with
  | none => .error (.defect (.indexOutOfRange position round.slots.length))
  | some (some _) => .ok .refused
  | some none =>
    let filled := round.fill position ticket contribution
    if filled.arrived = size then
      .ok (.complete (rounds.erase key) filled.waiters filled.contributions)
    else .ok (.waiting (rounds.insert key filled))

end Rounds

end CollectiveBench
