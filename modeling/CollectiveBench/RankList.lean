import CollectiveBench.Error
import CollectiveBench.Text.Blank
import CollectiveBench.Text.Fields
import CollectiveBench.Text.Numeral

/-!
# Rank lists and split lists

Ranks are written one by one with commas between them, or as an inclusive range with a
colon. Every rank must exist, and the list that is read names each rank once. Splits are
element counts with commas between them.
-/

namespace CollectiveBench

open Text

/-- The rank that a field spells. -/
def readRank? (field : List Char) : Option Nat := unsigned? bound32 (trim field)

/-- The ranks that a text without outer blanks spells. -/
def readRanks? (worldSize : Nat) (text : List Char) : Option (List Nat) :=
  match splitOnce ':' text with
  | some (first, last) => do
    let first ← readRank? first
    let last ← readRank? last
    if first ≤ last ∧ last < worldSize then
      return (List.range (last + 1 - first)).map (first + ·)
    else none
  | none => do
    let ranks ← (splitOn ',' text).mapM readRank?
    if ranks.all (· < worldSize) then return ranks.eraseDups else none

/-- The ranks that a text spells; a blank text spells none. The `name` of the list is for the
error. -/
def readRankList (name : String) (worldSize : Nat) (text : String) : Outcome (List Nat) :=
  match trim text.toList with
  | [] => .ok []
  | trimmed =>
    match readRanks? worldSize trimmed with
    | some ranks => .ok ranks
    | none => .error (.invalidRankList name text)

/-- The split that a text spells, or nothing for a blank text. An error names the field at
fault. -/
def readSplit (text : String) : Outcome (Option (List Nat)) :=
  match trim text.toList with
  | [] => .ok none
  | trimmed => do
    let counts ← (splitOn ',' trimmed).mapM fun field =>
      match unsigned? bound64 (trim field) with
      | some count => .ok count
      | none => .error (.invalidSize (String.ofList field))
    return some counts

/-- Repeats are dropped and a range includes both ends. -/
example : (readRankList "src_ranks" 4 " 3, 1,3").toOption = some [3, 1] ∧
    (readRankList "src_ranks" 4 "0:2").toOption = some [0, 1, 2] := by decide +kernel

end CollectiveBench
