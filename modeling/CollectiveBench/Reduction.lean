import CollectiveBench.Error

/-!
# Reductions

A reduction says how the elements that several ranks contribute become one element.
-/

namespace CollectiveBench

/-- How elements from several ranks become one. -/
inductive Reduction where
  | sum | prod | min | max
deriving DecidableEq, Repr, Inhabited

namespace Reduction

/-- All reductions. -/
def all : List Reduction := [.sum, .prod, .min, .max]

/-- The name of a reduction. -/
def name : Reduction → String
  | .sum => "sum"
  | .prod => "prod"
  | .min => "min"
  | .max => "max"

/-- The reduction with a given name. -/
def ofTag? (text : String) : Option Reduction := all.find? (·.name = text)

/-- The reduction with a given spelling; case does not matter and a product has two
spellings. -/
def read (text : String) : Outcome Reduction :=
  let lower := String.ofList (text.toList.map Char.toLower)
  match if lower = "product" then some .prod else ofTag? lower with
  | some reduction => .ok reduction
  | none => .error (.configuration ("unknown reduce op: " ++ lower))

end Reduction

end CollectiveBench
