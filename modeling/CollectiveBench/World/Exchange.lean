import CollectiveBench.World.Groups
import CollectiveBench.World.Round

/-!
# The exchange

The exchange is the state that the ranks of a world share: the open rounds, the calls that
wait in them, and for every endpoint the number of its next round in each group. Two things
happen to it. A call is issued, which answers it at once or makes it wait, and possibly
answers everyone who waits in the same round. Or the clock reaches a deadline, which
abandons the round of the call that has waited longest. Without any time to wait the deadline
is reached as soon as the call has to wait.

A call takes a sequence number only once nothing about it can be refused any more, so a
refused call leaves the exchange as it was. A sequence number is spent even if its round
fails; all members spend theirs, and so the following rounds meet again.
-/

namespace CollectiveBench

/-- One rank's side of the exchange. Several endpoints may stand for the same rank. -/
structure Endpoint where
  rank : Nat
  /-- The sequence number of the next round, by group. -/
  sequences : List Nat
deriving DecidableEq, Repr

/-- A call that waits for its round. -/
structure Waiting where
  ticket : Nat
  rank : Nat
  position : Nat
  key : RoundKey
  deadline : Nat
  call : Call
deriving Repr

/-- The answer to an issued call, which its ticket names. -/
structure Answer where
  ticket : Nat
  outcome : Outcome Call

/-- What the ranks of a world share. -/
structure Exchange where
  world : World
  endpoints : List Endpoint
  rounds : Rounds
  /-- In the order of arrival. -/
  waiting : List Waiting
  nextTicket : Nat

namespace Endpoint

/-- An endpoint that has not taken part in any round. -/
def create (world : World) (rank : Nat) : Endpoint :=
  ⟨rank, List.replicate world.groups.length 0⟩

/-- The sequence number of the next round in a group. -/
def next (endpoint : Endpoint) (group : Nat) : Nat := endpoint.sequences.getD group 0

/-- The endpoint after a sequence number of a group was taken. -/
def advance (endpoint : Endpoint) (group : Nat) : Endpoint :=
  { endpoint with sequences := endpoint.sequences.set group (endpoint.next group + 1) }

end Endpoint

/-- A place in a group. -/
structure Seat where
  position : Nat
  groupSize : Nat
deriving DecidableEq, Repr

/-- The seat that a call asks for, or none if the call has nothing to wait for. Fails for an
unknown group, for a rank outside of its group and for peers that do not exist. -/
def World.seatFor (world : World) (rank : Nat) (call : Call) : Outcome (Option Seat) :=
  if call.operation = .noop ∨ call.operation = .wait then .ok none
  else do
    let ranks ← world.group call.group
    match World.positionIn ranks rank with
    | none => .error (.invalidRank rank ranks.length)
    | some position =>
      call.checkPeers rank ranks.length
      return some ⟨position, ranks.length⟩

namespace Exchange

/-- An exchange in which nothing has happened, with one endpoint for each of `ranks`. -/
def create (world : World) (ranks : List Nat) : Exchange :=
  ⟨world, ranks.map (Endpoint.create world), [], [], 0⟩

/-- The answers to the waiting calls of a complete round. -/
def concludeAll [Arithmetic] (tickets : List Nat) (waiting : List Waiting)
    (all : List Contribution) :
    List Answer :=
  (waiting.filter (tickets.contains ·.ticket)).map fun entry =>
    ⟨entry.ticket, conclude entry.call entry.rank entry.position all⟩

/-- The exchange after the deadline of `due` passed. Its call times out, the round of its key leaves
the table, and the calls that wait in this round are abandoned with it. The call may have stopped
waiting before, and the round may be another one by then. -/
def expire (exchange : Exchange) (due : Waiting) : Exchange × List Answer :=
  let abandoned :=
    (((exchange.rounds.find? due.key).map Round.waiters).getD []).filter (· ≠ due.ticket)
  let leaves (entry : Waiting) := entry.ticket == due.ticket || abandoned.contains entry.ticket
  let timedOut : Answer :=
    ⟨due.ticket, .error (.collectiveTimeout due.call.operation.name due.key.sequence
      exchange.world.timeoutMs)⟩
  let others := (exchange.waiting.filter (abandoned.contains ·.ticket)).map fun entry =>
    (⟨entry.ticket, .error (.collectiveFailed entry.call.operation.name entry.rank
      "round abandoned")⟩ : Answer)
  ({ exchange with
      rounds := exchange.rounds.erase due.key
      waiting := exchange.waiting.filter (!leaves ·) },
    timedOut :: others)

/-- Takes a seat: draws a sequence number and deposits the call's contribution. A call that
has to wait and may not wait at all times out on the spot. -/
def enter [Arithmetic] (exchange : Exchange) (now index : Nat) (endpoint : Endpoint) (seat : Seat)
    (call : Call) : Exchange × List Answer :=
  let ticket := exchange.nextTicket
  let key : RoundKey := ⟨call.group, endpoint.next call.group⟩
  let entry : Waiting :=
    ⟨ticket, endpoint.rank, seat.position, key, now + exchange.world.timeoutMs, call⟩
  let exchange := { exchange with
    endpoints := exchange.endpoints.set index (endpoint.advance call.group)
    nextTicket := ticket + 1 }
  match exchange.rounds.deposit key seat.groupSize seat.position ticket call.contribution with
  | .error error => (exchange, [⟨ticket, .error error⟩])
  | .ok .refused =>
    (exchange, [⟨ticket, .error (.collectiveFailed call.operation.name endpoint.rank
      ("rank contributed twice to round " ++ toString key.sequence))⟩])
  | .ok (.waiting rounds) =>
    let exchange := { exchange with rounds, waiting := exchange.waiting ++ [entry] }
    if exchange.world.timeoutMs = 0 then exchange.expire entry else (exchange, [])
  | .ok (.complete rounds tickets delivered) =>
    ({ exchange with
        rounds, waiting := exchange.waiting.filter (!tickets.contains ·.ticket) },
      concludeAll tickets (exchange.waiting ++ [entry]) delivered)

/-- The exchange after the endpoint of an index issued a call at the time `now`, and the
answers that this brought about. -/
def issue [Arithmetic] (exchange : Exchange) (now index : Nat) (call : Call) :
    Exchange × List Answer :=
  let answered (outcome : Outcome Call) : Exchange × List Answer :=
    ({ exchange with nextTicket := exchange.nextTicket + 1 }, [⟨exchange.nextTicket, outcome⟩])
  match exchange.endpoints[index]? with
  | none => answered (.error (.defect (.indexOutOfRange index exchange.endpoints.length)))
  | some endpoint =>
    match exchange.world.seatFor endpoint.rank call with
    | .error error => answered (.error error)
    | .ok none => answered (.ok call)
    | .ok (some seat) => exchange.enter now index endpoint seat call

/-- The waiting call whose deadline comes first; of equal deadlines the one that arrived
first. -/
def firstDue (waiting : List Waiting) : Option Waiting :=
  waiting.foldl (fun found entry =>
    match found with
    | some best => if entry.deadline < best.deadline then some entry else some best
    | none => some entry) none

/-- Lets deadlines pass that lie before the time `now`. The fuel bounds how many. -/
def expireBefore (now : Option Nat) : Nat → Exchange → Exchange × List Answer
  | 0, exchange => (exchange, [])
  | fuel + 1, exchange =>
    match firstDue exchange.waiting with
    | none => (exchange, [])
    | some due =>
      if now.any (· ≤ due.deadline) then (exchange, [])
      else
        let (exchange, answers) := exchange.expire due
        let (exchange, later) := expireBefore now fuel exchange
        (exchange, answers ++ later)

/-- Lets the clock run to the time `now`, or for good. -/
def advance (exchange : Exchange) (now : Option Nat) : Exchange × List Answer :=
  expireBefore now exchange.waiting.length exchange

/-- Issues calls one after the other with `pause` milliseconds between them, the first one at
the time `now`. -/
def issueAll [Arithmetic] (pause now : Nat) : Exchange → List (Nat × Call) → Exchange × List Answer
  | exchange, [] => (exchange, [])
  | exchange, (index, call) :: rest =>
    let (exchange, due) := exchange.advance (some now)
    let (exchange, answers) := exchange.issue now index call
    let (exchange, later) := issueAll pause (now + pause) exchange rest
    (exchange, due ++ answers ++ later)

/-- Issues calls with pauses between them, waits until each has its answer, and gives the
answers in the order of the calls. -/
def perform [Arithmetic] (exchange : Exchange) (pause : Nat) (calls : List (Nat × Call)) :
    Exchange × List (Outcome Call) :=
  let first := exchange.nextTicket
  let (exchange, early) := issueAll pause 0 exchange calls
  let (exchange, late) := exchange.advance none
  let answers := early ++ late
  (exchange, (List.range calls.length).map fun offset =>
    match answers.find? (·.ticket = first + offset) with
    | some answer => answer.outcome
    | none => .error (.defect .crashed))

end Exchange

end CollectiveBench
