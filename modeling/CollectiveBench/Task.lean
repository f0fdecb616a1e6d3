import CollectiveBench.Call

/-!
# Tasks

A task runs on its own until it ends with a call, with an error or by crashing. It may have to
pass a gate first, which someone opens later. A task that nobody waits for any more is
aborted, so that it cannot write into buffers that have moved on; one that has passed its
gate by then is complete.
-/

namespace CollectiveBench

/-- How a task ends. -/
inductive Ending where
  | returned (call : Call)
  | failed (error : Error)
  | crashed (reason : String)
deriving DecidableEq, Repr

/-- What waiting for a task gives. -/
def Ending.outcome : Ending → Outcome Call
  | .returned call => .ok call
  | .failed error => .error error
  | .crashed reason => .error (.taskFailed ("collective task panicked: " ++ reason))

/-- How far a task has come. -/
inductive TaskStatus where
  | running | completed | aborted
deriving DecidableEq, Repr

/-- The word for a status. -/
def TaskStatus.name : TaskStatus → String
  | .running => "running"
  | .completed => "completed"
  | .aborted => "aborted"

/-- A task, with the gate that it has to pass. -/
structure Task where
  gate : Option String
  ending : Ending
  status : TaskStatus
deriving DecidableEq, Repr

/-- The tasks that were started, by number, and the gates that were opened. -/
structure TaskBoard where
  tasks : List Task := []
  opened : List String := []
deriving DecidableEq, Repr

namespace Task

/-- The task after a gate was opened. -/
def pass (gate : String) (task : Task) : Task :=
  if task.status = .running ∧ task.gate = some gate then { task with status := .completed }
  else task

/-- The task after everyone lost interest in it. -/
def abort (task : Task) : Task :=
  if task.status = .running then { task with status := .aborted } else task

end Task

namespace TaskBoard

/-- Starts a task and gives its number. -/
def start (board : TaskBoard) (gate : Option String) (ending : Ending) : Nat × TaskBoard :=
  let status := if gate.all board.opened.contains then .completed else .running
  (board.tasks.length, { board with tasks := board.tasks ++ [⟨gate, ending, status⟩] })

/-- Opens a gate; the tasks that run behind it end. -/
def openGate (board : TaskBoard) (gate : String) : TaskBoard :=
  { tasks := board.tasks.map (·.pass gate), opened := gate :: board.opened }

/-- Aborts a task if it still runs. -/
def drop (board : TaskBoard) (number : Nat) : TaskBoard :=
  { board with tasks := board.tasks.modify number Task.abort }

/-- What waiting for a task gives. A task that was never started gives nothing. -/
def outcome (board : TaskBoard) (number : Nat) : Outcome Call :=
  match board.tasks[number]? with
  | some task => task.ending.outcome
  | none => .error (.defect .crashed)

/-- How far a task has come. -/
def status? (board : TaskBoard) (number : Nat) : Option TaskStatus :=
  board.tasks[number]?.map Task.status

end TaskBoard

end CollectiveBench
