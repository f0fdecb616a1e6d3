import CollectiveBench.Tensor.Basic

/-!
# Staged buffers

What a rank hands to a collective is one tensor, or a list with one tensor for each peer. An
empty list stands for no buffer at all.
-/

namespace CollectiveBench

open Numeric

/-- One tensor or a list of tensors. -/
inductive Staged where
  | single (tensor : Tensor)
  | list (tensors : List Tensor)
deriving DecidableEq, Repr

namespace Staged

/-- No buffer. -/
def empty : Staged := .list []

instance : Inhabited Staged := ⟨empty⟩

/-- The tensors in order. -/
def tensors : Staged → List Tensor
  | .single tensor => [tensor]
  | .list tensors => tensors

/-- The buffer with every tensor changed. -/
def map (change : Tensor → Tensor) : Staged → Staged
  | .single tensor => .single (change tensor)
  | .list tensors => .list (tensors.map change)

/-- The number of elements of all tensors. -/
def count (staged : Staged) : Nat := total (staged.tensors.map Tensor.count)

/-- Whether the buffer is a list. -/
def isList : Staged → Bool
  | .single _ => false
  | .list _ => true

/-- Whether there is no tensor at all. -/
def isUnstaged : Staged → Bool
  | .single _ => false
  | .list tensors => tensors.isEmpty

/-- The tensor of a buffer that must be a single one. -/
def expectSingle (operation : String) : Staged → Outcome Tensor
  | .single tensor => .ok tensor
  | .list _ =>
    .error (.configuration (operation ++ " expects a single staged tensor, got a list"))

/-- The tensor at a position of a buffer that must be a list. -/
def part (operation : String) (index : Nat) : Staged → Outcome Tensor
  | .list tensors =>
    match tensors[index]? with
    | some tensor => .ok tensor
    | none => .error (.bufferSizeMismatch (index + 1) tensors.length)
  | .single _ =>
    .error (.configuration
      (operation ++ " expects a staged tensor list, got a single tensor"))

/-- The last element of the last tensor that has one. Reading it makes sure that a buffer
has been computed. -/
def flush (staged : Staged) : Option Scalar :=
  (staged.tensors.reverse.find? (!·.isEmpty)).bind Tensor.last?

end Staged

end CollectiveBench
