import CollectiveBench.Run.Ensemble

/-!
# Crowds

The ranks of a run are tasks of their own. Each goes through the agenda by itself: it begins an
action, issues the calls of the action one by one, and goes on once all of them are answered. Which
rank moves next is left open, and so is what its clock shows then. A crowd is the ranks as they
stand at some moment, together with what they share; an ensemble is the crowd whose ranks keep step.

Time passes when no rank can move. Then the first deadline takes effect.
-/

namespace CollectiveBench

/-- A rank on its way through an agenda. -/
structure Runner where
  participant : Participant
  /-- How many actions lie behind it. -/
  done : Nat := 0
  /-- In the middle of an action: the tickets of the calls that were issued for it, and the calls
  that are still to be issued. -/
  busy : Option (List Nat × List Call) := none

/-- The ranks of a run, wherever each of them has come to. -/
structure Crowd where
  exchange : Exchange
  /-- In the order of the ranks. -/
  runners : List Runner
  /-- All answers that were given so far. -/
  answers : List Answer := []
  /-- The time that deadlines are compared with. -/
  time : Nat := 0

/-- What can happen to a crowd. -/
inductive Move where
  /-- A rank does what it can do alone for its next action. -/
  | begin (rank : Nat)
  /-- A rank issues the next one of its calls. -/
  | issue (rank : Nat)
  /-- A rank goes on with the answers to its calls. -/
  | take (rank : Nat)
  /-- Time passes until the first deadline. -/
  | pass
deriving DecidableEq, Repr

namespace Runner

/-- The runner in the middle of its next action, of which it has done what it can do alone. A rank
that failed begins no action. What the clock of a rank shows may depend on how far it has come. -/
def begin? [Arithmetic] [Halves] (bench : Bench) (agenda : List Action) (clock : Nat → Nat → Nat)
    (runner : Runner) : Option Runner :=
  if runner.busy.isSome ∨ runner.participant.failure.isSome then none
  else
    (agenda[runner.done]?).map fun action =>
      let now := clock runner.done runner.participant.rank
      let (participant, calls) := runner.participant.ask bench now action
      { runner with participant, busy := some ([], calls) }

/-- The outcomes that tickets were answered with. -/
def outcomesOf (answers : List Answer) (tickets : List Nat) : List (Outcome Call) :=
  tickets.filterMap fun ticket => (answers.find? (·.ticket = ticket)).map Answer.outcome

/-- The runner after its action, if it has no more calls to issue and those that it issued are all
answered. -/
def take? [Halves] (bench : Bench) (agenda : List Action) (answers : List Answer)
    (runner : Runner) : Option Runner :=
  match runner.busy, agenda[runner.done]? with
  | some (tickets, []), some action =>
    if tickets.all fun ticket => answers.any (·.ticket = ticket) then
      some {
        participant :=
          if runner.participant.failure.isSome then runner.participant
          else runner.participant.take bench action (outcomesOf answers tickets)
        done := runner.done + 1 }
    else none
  | _, _ => none

/-- The runner that issued its next call and got a ticket for it, with the call. -/
def issue? (ticket : Nat) (runner : Runner) : Option (Call × Runner) :=
  match runner.busy with
  | some (tickets, call :: calls) =>
    some (call, { runner with busy := some (tickets ++ [ticket], calls) })
  | _ => none

end Runner

namespace Crowd

/-- The ranks of an ensemble before any of them begins. -/
def ofEnsemble (ensemble : Ensemble) : Crowd where
  exchange := ensemble.exchange
  runners := ensemble.participants.map fun participant => { participant }

/-- The ranks as they stand, in the order of their ranks. -/
def ensemble (crowd : Crowd) : Ensemble where
  exchange := crowd.exchange
  participants := crowd.runners.map Runner.participant
  turns := crowd.runners.map (·.participant.rank)

variable [Arithmetic] [Halves] (bench : Bench) (agenda : List Action) (clock : Nat → Nat → Nat)

/-- The crowd after the move of one rank, if the rank can make it. -/
def moveOne? (crowd : Crowd) (move : Move) : Option Crowd :=
  match move with
  | .begin rank =>
    (crowd.runners[rank]?.bind (·.begin? bench agenda clock)).map fun next =>
      { crowd with runners := crowd.runners.set rank next }
  | .issue rank =>
    (crowd.runners[rank]?.bind (·.issue? crowd.exchange.nextTicket)).map fun (call, next) =>
      let (exchange, answers) := crowd.exchange.issue crowd.time rank call
      { crowd with
        exchange
        answers := crowd.answers ++ answers
        runners := crowd.runners.set rank next }
  | .take rank =>
    (crowd.runners[rank]?.bind (·.take? bench agenda crowd.answers)).map fun next =>
      { crowd with runners := crowd.runners.set rank next }
  | .pass => none

/-- No rank can move. -/
def isStuck (crowd : Crowd) : Bool :=
  (List.range crowd.runners.length).all fun rank =>
    [Move.begin rank, .issue rank, .take rank].all fun move =>
      (crowd.moveOne? bench agenda clock move).isNone

/-- The crowd after a move. Time passes only if no rank can move and somebody waits. -/
def move? (crowd : Crowd) (move : Move) : Option Crowd :=
  match move with
  | .pass =>
    if crowd.isStuck bench agenda clock then
      (Exchange.firstDue crowd.exchange.waiting).map fun due =>
        let (exchange, answers) := crowd.exchange.expire due
        { crowd with
          exchange
          answers := crowd.answers ++ answers
          time := max crowd.time due.deadline }
    else none
  | move => crowd.moveOne? bench agenda clock move

/-- What becomes of a crowd, one move after the other. -/
inductive Walk : Crowd → Crowd → Prop where
  | stay (crowd : Crowd) : Walk crowd crowd
  | step {crowd next last : Crowd} (move : Move)
      (moved : crowd.move? bench agenda clock move = some next) (onward : Walk next last) :
      Walk crowd last

/-- Nothing can happen to the crowd any more. -/
def Ended (crowd : Crowd) : Prop := ∀ move, crowd.move? bench agenda clock move = none

end Crowd

end CollectiveBench
