import CollectiveBench.Run.Item

/-!
# Agendas

What the ranks do in a run is fixed before the run begins: an agenda, the same for all ranks.
For each item it stages buffers, warms up, meets the other ranks, measures, collects the
latencies of all ranks and, if results are validated, repeats the operation once on known
values and agrees with the other ranks on the outcome.
-/

namespace CollectiveBench

/-- A step of an agenda. -/
inductive Action where
  /-- Joins the world. -/
  | join
  /-- Prepares the workload. -/
  | prepare
  /-- Tells what is odd about the sizes of an operation. -/
  | tell (notices : List Notice)
  /-- Stages buffers for an item and makes a call of them. -/
  | stage (item : Item)
  /-- Issues copies of the call and waits for all of them; the last one is kept. -/
  | call (copies : Nat)
  /-- Waits until the device is done. -/
  | complete
  /-- Waits until all ranks have arrived. -/
  | barrier
  /-- Makes the stream of the collectives the current one. -/
  | enterStream
  /-- Restores the stream from before. -/
  | leaveStream
  /-- Stages buffers for a further iteration. -/
  | restage (item : Item)
  /-- Starts the clock of an iteration. -/
  | startClock
  /-- Stops it and keeps the interval. -/
  | stopClock
  /-- Runs the workload. -/
  | compute
  /-- Collects the latencies of all ranks. -/
  | gather (item : Item)
  /-- Stages buffers with known values. -/
  | stageCheck (item : Item)
  /-- Checks the result of the call. -/
  | inspect (item : Item)
  /-- Tells the other ranks the outcome of the check and learns theirs. -/
  | agree
  /-- Fails if the check failed, here or elsewhere. -/
  | conclude (item : Item)
  /-- Adds a measurement to the report. -/
  | report (item : Item)
  /-- Gives memory back. -/
  | clear
deriving DecidableEq, Repr

namespace Agenda

/-- Calls of an iteration. -/
def callsPerIteration (params : Params) : Nat := max params.callsPerIteration 1

/-- One measured iteration. Calls that are waited for one by one stand before the workload;
calls that are under way together are waited for after it. -/
def iteration (params : Params) (item : Item) : List Action :=
  let count := callsPerIteration params
  [.restage item, .startClock]
    ++ (if params.blocking then List.replicate count (.call 1) ++ [.compute]
      else [.compute, .call count])
    ++ [.complete, .stopClock]

/-- The validated run of an item. -/
def validation (item : Item) : List Action :=
  [.stageCheck item, .call 1, .complete, .inspect item, .agree, .conclude item]

/-- All that is done for an item. -/
def ofItem (params : Params) (item : Item) : List Action :=
  [.stage item] ++ List.replicate params.warmups (.call 1)
    ++ [.complete, .barrier, .enterStream]
    ++ (List.replicate params.iterations (iteration params item)).flatten
    ++ [.leaveStream, .gather item]
    ++ (if params.validate then validation item else [])
    ++ [.report item]

/-- All that is done for an operation, given its sizes and what is odd about them. -/
def ofSweep (params : Params) (operation : Operation) (sizes : List Nat × List Notice) :
    List Action :=
  .tell sizes.2 :: sizes.1.flatMap fun size => ofItem params ⟨operation, size⟩

/-- The agenda of a run. -/
def ofSweeps (params : Params) (sweeps : List (Operation × (List Nat × List Notice))) :
    List Action :=
  [.join, .prepare] ++ sweeps.flatMap (fun (operation, sizes) => ofSweep params operation sizes)
    ++ [.clear]

end Agenda

end CollectiveBench
