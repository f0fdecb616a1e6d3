import CollectiveBench.Run.Participant
import CollectiveBench.World.Exchange

/-!
# Ensembles

The ranks of a run go through the agenda together, one action after the other. For every
action each rank first does what it can do alone; then all issue their calls, in turns, and
time passes only when nobody can go on; then each takes its answers. A rank that completes a
round is the first to go on, and so the turns rotate whenever a round has been completed.
-/

namespace CollectiveBench

/-- The ranks of a run with what they share. -/
structure Ensemble where
  exchange : Exchange
  /-- In the order of the ranks. -/
  participants : List Participant
  /-- The order in which the ranks issue their calls. -/
  turns : List Nat

namespace Ensemble

/-- The ranks before a run, each with the same notices. -/
def create (bench : Bench) (notices : List Notice) (source : Source := .counter) : Ensemble :=
  let ranks := List.range bench.worldSize
  { exchange := .create bench.world ranks
    participants := ranks.map fun rank => .create bench rank notices source
    turns := ranks }

/-- The order of turns after a completed round: the last one goes first. -/
def rotate (turns : List Nat) : List Nat := turns.getLast?.toList ++ turns.dropLast

/-- The calls of all ranks in the order of the turns, each with its rank. -/
def collect (turns : List Nat) (asked : List (List Call)) : List (Nat × Call) :=
  turns.flatMap fun rank => (asked.getD rank []).map (rank, ·)

/-- The first half of an action, for a rank that has not failed. -/
def askOne [Arithmetic] [Halves] (bench : Bench) (now : Nat → Nat) (action : Action)
    (participant : Participant) : Participant × List Call :=
  if participant.failure.isSome then (participant, [])
  else participant.ask bench (now participant.rank) action

/-- The second half of an action, for a rank that has not failed. -/
def takeOne [Halves] (bench : Bench) (action : Action) (answers : List (Nat × Outcome Call))
    (participant : Participant) : Participant :=
  if participant.failure.isSome then participant
  else
    participant.take bench action
      ((answers.filter (·.1 = participant.rank)).map (·.2))

/-- One action of all ranks. Each rank has a clock of its own, which shows `now`. -/
def step [Arithmetic] [Halves] (bench : Bench) (now : Nat → Nat) (ensemble : Ensemble)
    (action : Action) : Ensemble :=
  let asked := ensemble.participants.map (askOne bench now action)
  let calls := collect ensemble.turns (asked.map (·.2))
  let (exchange, outcomes) := ensemble.exchange.perform 0 calls
  let answers := (calls.map (·.1)).zip outcomes
  { exchange
    participants := asked.map fun (participant, _) => takeOne bench action answers participant
    turns :=
      if calls.any (!·.2.operation matches .noop | .wait) then rotate ensemble.turns
      else ensemble.turns }

/-- A run on clocks that stand still. -/
def run [Arithmetic] [Halves] (bench : Bench) (agenda : List Action) (ensemble : Ensemble) :
    Ensemble :=
  agenda.foldl (step bench fun _ => 0) ensemble

/-- The report of every rank. -/
def results (bench : Bench) (ensemble : Ensemble) : List (Outcome Report) :=
  ensemble.participants.map (·.result bench)

/-- What the ranks have to say, one rank after the other. -/
def notices (ensemble : Ensemble) : List Notice :=
  ensemble.participants.flatMap Participant.notices

end Ensemble

end CollectiveBench
