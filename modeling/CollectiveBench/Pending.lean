import CollectiveBench.Call

/-!
# Outstanding requests

A call that need not be waited for at once becomes a request with a number. Numbers grow and
are never given twice, also after everything was waited for. Waiting consumes a request;
waiting for all consumes them in the order of their numbers, whatever becomes of them, and
gives the first error, else the call of the last request.
-/

namespace CollectiveBench

/-- Outstanding requests, in ascending order of their numbers. -/
structure Pending (α : Type) where
  handles : List (Nat × α) := []
  next : Nat := 0
deriving Repr

namespace Pending

variable {α : Type}

/-- Tracks a further request and gives its number. -/
def track (pending : Pending α) (handle : α) : Nat × Pending α :=
  (pending.next, ⟨pending.handles ++ [(pending.next, handle)], pending.next + 1⟩)

/-- Waits for one request. -/
def wait (finish : α → Outcome Call) (pending : Pending α) (request : Nat) :
    Outcome Call × Pending α :=
  match pending.handles.lookup request with
  | some handle =>
    (finish handle, { pending with handles := pending.handles.filter (·.1 ≠ request) })
  | none => (.error (.unknownRequest request), pending)

/-- The first error among outcomes, else the last call; `found` is the last call so far. -/
def settle (found : Option Call) : List (Outcome Call) → Outcome (Option Call)
  | [] => .ok found
  | .error error :: _ => .error error
  | .ok call :: rest => settle (some call) rest

/-- Waits for all requests. -/
def waitAll (finish : α → Outcome Call) (pending : Pending α) :
    Outcome (Option Call) × Pending α :=
  (settle none (pending.handles.map fun handle => finish handle.2),
    { pending with handles := [] })

end Pending

end CollectiveBench
