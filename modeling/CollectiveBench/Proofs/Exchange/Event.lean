import CollectiveBench.Proofs.Exchange.OpenRound

/-!
# Events of an exchange

Two things happen to an exchange: an endpoint issues a call, or the deadline of a waiting call
takes effect. `Exchange.apply` does either with the functions of the exchange. What the answers
do not show is said beside it: `arrival?` is the call that takes a seat, with its place and its
round, and `departures` are the calls that leave their round, each with its fate. A call that is
handed a list of contributions computes its answer from that list alone; all other fates have an
error for an answer.

`departures` speaks of the waiting calls and never of the table of rounds. That the answers of
the exchange are those of the departures is proved where the invariant of the table is.
-/

namespace CollectiveBench

/-- The ranks of a group, none if the group is unknown. -/
def World.members (world : World) (group : Nat) : List Nat := world.groups[group]?.getD []

/-- Something that happens to an exchange. -/
inductive Event where
  /-- The endpoint of an index issues a call. -/
  | issue (now index : Nat) (call : Call)
  /-- The deadline of the waiting call with this ticket takes effect. -/
  | expire (now ticket : Nat)
deriving DecidableEq, Repr

/-- When an event happens. -/
def Event.time : Event → Nat
  | .issue now _ _ => now
  | .expire now _ => now

/-- How a call leaves its round. -/
inductive Fate where
  /-- It got the contributions of all members. -/
  | handed (all : List Contribution)
  /-- Its deadline passed first. -/
  | timedOut
  /-- The deadline of another call in its round passed. -/
  | abandoned
  /-- Its slot was taken. -/
  | refused
deriving DecidableEq, Repr

/-- A call that leaves its round. -/
structure Departure where
  entry : Waiting
  fate : Fate

/-- The answer to a call that leaves its round. -/
def Departure.answer [Arithmetic] (timeoutMs : Nat) (departure : Departure) : Answer :=
  let entry := departure.entry
  let name := entry.call.operation.name
  ⟨entry.ticket,
    match departure.fate with
    | .handed all => conclude entry.call entry.rank entry.position all
    | .timedOut => .error (.collectiveTimeout name entry.key.sequence timeoutMs)
    | .abandoned => .error (.collectiveFailed name entry.rank "round abandoned")
    | .refused => .error (.collectiveFailed name entry.rank
        ("rank contributed twice to round " ++ toString entry.key.sequence))⟩

namespace Exchange

/-- The exchange after an event, and the answers that it brought about. -/
def apply [Arithmetic] (exchange : Exchange) : Event → Exchange × List Answer
  | .issue now index call => exchange.issue now index call
  | .expire _ ticket =>
    match exchange.waiting.find? (·.ticket = ticket) with
    | some due => exchange.expire due
    | none => (exchange, [])

/-- The call that takes a seat when an event happens, with its place and its round. -/
def arrival? (exchange : Exchange) : Event → Option Waiting
  | .issue now index call =>
    match exchange.endpoints[index]? with
    | none => none
    | some endpoint =>
      match exchange.world.seatFor endpoint.rank call with
      | .ok (some seat) =>
        some ⟨exchange.nextTicket, endpoint.rank, seat.position,
          ⟨call.group, endpoint.next call.group⟩, now + exchange.world.timeoutMs, call⟩
      | _ => none
  | .expire _ _ => none

/-- The answer to a call that takes no seat. -/
def immediate (exchange : Exchange) (index : Nat) (call : Call) : Outcome Call :=
  match exchange.endpoints[index]? with
  | none => .error (.defect (.indexOutOfRange index exchange.endpoints.length))
  | some endpoint => (exchange.world.seatFor endpoint.rank call).map fun _ => call

/-- The calls that wait in the round of a key, in the order of their arrival. -/
def depositors (exchange : Exchange) (key : RoundKey) : List Waiting :=
  exchange.waiting.filter (·.key = key)

/-- How many members the rounds of a key have. -/
def roundSize (exchange : Exchange) (key : RoundKey) : Nat :=
  (exchange.world.members key.group).length

/-- What the members of a round are handed when these calls complete it. -/
def lineUp (exchange : Exchange) (key : RoundKey) (entries : List Waiting) : List Contribution :=
  (Round.ofWaiting (exchange.roundSize key) entries).contributions

/-- The calls that leave their round when an event happens. -/
def departures (exchange : Exchange) (event : Event) : List Departure :=
  match event with
  | .issue _ _ _ =>
    match exchange.arrival? event with
    | none => []
    | some entry =>
      let earlier := exchange.depositors entry.key
      let everyone := earlier ++ [entry]
      if earlier.any (·.position = entry.position) then [⟨entry, .refused⟩]
      else if everyone.length = exchange.roundSize entry.key then
        everyone.map (⟨·, .handed (exchange.lineUp entry.key everyone)⟩)
      else if exchange.world.timeoutMs = 0 then
        ⟨entry, .timedOut⟩ :: earlier.map (⟨·, .abandoned⟩)
      else []
  | .expire _ ticket =>
    match exchange.waiting.find? (·.ticket = ticket) with
    | none => []
    | some due =>
      ⟨due, .timedOut⟩ ::
        ((exchange.depositors due.key).filter (·.ticket ≠ due.ticket)).map (⟨·, .abandoned⟩)

/-- The exchange after a sequence number and a ticket were drawn for an arriving call. -/
def draw (exchange : Exchange) (index : Nat) (entry : Waiting) : Exchange :=
  { exchange with
    endpoints := exchange.endpoints.modify index (·.advance entry.key.group)
    nextTicket := exchange.nextTicket + 1 }

/-- The exchange after a call began to wait in its round. -/
def join (exchange : Exchange) (entry : Waiting) : Exchange :=
  { exchange with
    rounds := exchange.rounds.insert entry.key
      (.ofWaiting (exchange.roundSize entry.key) (exchange.depositors entry.key ++ [entry]))
    waiting := exchange.waiting ++ [entry] }

/-- The exchange after a round left the table and all who wait in it with it. -/
def close (exchange : Exchange) (key : RoundKey) : Exchange :=
  { exchange with
    rounds := exchange.rounds.erase key
    waiting := exchange.waiting.filter (·.key ≠ key) }

variable (exchange : Exchange) (index : Nat) (entry : Waiting) (key : RoundKey)

/-- Drawing a number lets nobody wait. -/
@[simp] theorem draw_waiting : (exchange.draw index entry).waiting = exchange.waiting := rfl

/-- Drawing a number deposits nothing. -/
@[simp] theorem draw_depositors :
    (exchange.draw index entry).depositors key = exchange.depositors key := rfl

/-- Joining a round draws no number. -/
@[simp] theorem join_endpoints : (exchange.join entry).endpoints = exchange.endpoints := rfl

/-- The joined round is the one of those that waited for it and the newcomer. -/
@[simp] theorem join_rounds : (exchange.join entry).rounds = exchange.rounds.insert entry.key
    (.ofWaiting (exchange.roundSize entry.key) (exchange.depositors entry.key ++ [entry])) := rfl

/-- Who joins waits behind all others. -/
@[simp] theorem join_waiting : (exchange.join entry).waiting = exchange.waiting ++ [entry] := rfl

/-- Joining leaves the sizes of rounds. -/
@[simp] theorem join_roundSize :
    (exchange.join entry).roundSize key = exchange.roundSize key := rfl

/-- Closing a round draws no number. -/
@[simp] theorem close_endpoints : (exchange.close key).endpoints = exchange.endpoints := rfl

/-- A closed round is no longer there. -/
@[simp] theorem close_rounds :
    (exchange.close key).rounds = exchange.rounds.erase key := rfl

/-- Nobody waits for a closed round. -/
@[simp] theorem close_waiting :
    (exchange.close key).waiting = exchange.waiting.filter (·.key ≠ key) := rfl

end Exchange

end CollectiveBench
