import CollectiveBench.Bandwidth
import CollectiveBench.Checker
import CollectiveBench.Pending
import CollectiveBench.Run.Bench
import CollectiveBench.Run.Report
import CollectiveBench.Run.Workload
import CollectiveBench.Staging
import CollectiveBench.Stopwatch

/-!
# Participants

A participant is one rank in a run. Every action of the agenda has two halves. In the first
the participant does what it can do alone and asks for the calls that it needs the other
ranks for (`ask`); in the second it takes the answers (`take`). A participant that fails
leaves the stream of the collectives and does nothing from then on.
-/

namespace CollectiveBench

open Numeric

/-- What a participant measures of an item. -/
structure Reading where
  stopwatch : Stopwatch := {}
  /-- When the present interval began. -/
  started : Nat := 0
  algorithmic : Scalar := .zero
  bus : Scalar := .zero
  latency : Latency := ⟨.zero, .zero, .zero⟩
deriving DecidableEq, Repr

/-- One rank in a run. -/
structure Participant where
  rank : Nat
  device : Device
  /-- For the values of tensors that a validated run must overwrite. -/
  generator : Generator
  /-- The stream of the collectives. -/
  stream : Nat
  /-- Held while that stream is the current one. -/
  guard : Option StreamGuard := none
  workload : Option Workload := none
  call : Call := .barrier World.defaultGroup
  /-- The operations of all calls that were issued. -/
  issued : List Operation := []
  reading : Reading := {}
  /-- Why the last check failed. -/
  fault : Option Error := none
  /-- How many ranks reported a failed check. -/
  faulty : Nat := 0
  measurements : List Measurement := []
  notices : List Notice := []
  /-- Why the participant stopped. -/
  failure : Option Error := none

namespace Participant

/-- A participant before a run. -/
def create (bench : Bench) (rank : Nat) (notices : List Notice) (source : Source := .counter) :
    Participant :=
  let device := Device.create bench.params.seed rank source
  let (stream, streams) := device.streams.create
  { rank, stream, notices
    device := { device with streams }
    generator := .ofSeed (bench.params.seed ^^^ (rank * powerOfTwo 17)) source }

/-- Leaves the stream of the collectives if it was entered. -/
def leaveStream (participant : Participant) : Participant :=
  match participant.guard with
  | none => participant
  | some guard =>
    { participant with
      guard := none
      device := { participant.device with
        streams := participant.device.streams.leave guard } }

/-- Makes the stream of the collectives the current one. -/
def enterStream (participant : Participant) : Participant :=
  let (guard, streams) := participant.device.streams.enter (some participant.stream)
  { participant with
    guard := some guard
    device := { participant.device with streams } }

/-- The participant after it failed. -/
def fail (participant : Participant) (error : Error) : Participant :=
  { participant.leaveStream with failure := some error }

/-- Goes on with the value of an outcome, or fails. -/
def attempt {α : Type} (participant : Participant) (outcome : Outcome α)
    (proceed : α → Participant) : Participant :=
  match outcome with
  | .ok value => proceed value
  | .error error => participant.fail error

/-- The participant with a further request in its trace. -/
def note (participant : Participant) (request : Request) : Participant :=
  { participant with device := participant.device.note request }

/-- The participant with further notices. -/
def tell (participant : Participant) (notices : List Notice) : Participant :=
  { participant with notices := participant.notices ++ notices }

/-! ## What a participant does alone -/

/-- Stages buffers for an item, whose splits are summed up first. -/
def stageItem [Arithmetic] [Halves] (bench : Bench) (item : Item) (allocate : Bool)
    (participant : Participant)
    (proceed : Participant → Buffers → Participant) : Participant :=
  let params := bench.params
  participant.attempt (item.checkSums params bench.worldSize participant.rank) fun () =>
    let (outcome, device) := stage bench.supported bench.world
      (item.stagingParams params bench.worldSize)
      (item.descriptor params bench.worldSize participant.rank) allocate participant.device
    let participant := { participant with device }
    participant.attempt outcome (proceed participant)

/-- Makes a call of an item's buffers. -/
def adopt (bench : Bench) (item : Item) (participant : Participant) (buffers : Buffers) :
    Participant :=
  { participant with call := item.callOn bench.params bench.worldSize buffers }

/-- Stages buffers for a further iteration: new ones, or those of the iteration before. -/
def restage [Arithmetic] [Halves] (bench : Bench) (item : Item) (participant : Participant) :
    Participant :=
  let reuse := bench.params.reuse
  participant.stageItem bench item (!reuse) fun participant buffers =>
    let buffers := if reuse then buffers.reuseFrom participant.call.buffers else buffers
    { participant with call := { participant.call with buffers } }

/-- Stages buffers with known values, and values that must be overwritten in all others. -/
def stageCheck [Arithmetic] [Halves] (bench : Bench) (item : Item) (participant : Participant) :
    Participant :=
  participant.stageItem bench item true fun participant buffers =>
    let (other, generator) := participant.generator.unit
    let buffers := Checker.reset ⟨bench.params.initial⟩ buffers participant.rank
      bench.params.root other
    { participant with generator }.adopt bench item buffers

/-- Checks the result of the call. -/
def inspect [Halves] (bench : Bench) (item : Item) (participant : Participant) : Participant :=
  match Checker.check ⟨bench.params.initial⟩ participant.call participant.rank bench.worldSize
      item.sizeBytes with
  | .ok () => { participant with fault := none }
  | .error error => { participant with fault := some error }

/-- Fails if the check failed, here or elsewhere. -/
def conclude (item : Item) (participant : Participant) : Participant :=
  match participant.fault with
  | some error => participant.fail error
  | none =>
    if 0 < participant.faulty then
      participant.fail (.peerValidationFailed item.sizeBytes item.operation.name)
    else participant

/-- Stops the clock of an iteration. -/
def stopClock (now : Nat) (participant : Participant) : Participant :=
  let reading := participant.reading
  participant.attempt (reading.stopwatch.add (now - reading.started)) fun stopwatch =>
    { participant with reading := { reading with stopwatch } }

/-- Nothing is lost of the bytes that the participant contributes. -/
def checkBytes [Arithmetic] (bench : Bench) (item : Item) (participant : Participant) :
    Outcome Unit := do
  let descriptor := item.descriptor bench.params bench.worldSize participant.rank
  let _ ← Arithmetic.word (descriptor.inElements * bench.params.type.size)
  return ()

/-- Nothing is lost of the bytes and the calls that bandwidths are computed from. -/
def checkTotals [Arithmetic] (bench : Bench) (item : Item) (participant : Participant) :
    Outcome Unit := do
  participant.checkBytes bench item
  let _ ← Arithmetic.word (bench.params.iterations * Agenda.callsPerIteration bench.params)
  return ()

/-- Turns the measured intervals into bandwidths and gives the average microseconds of a
call. -/
def evaluate [Arithmetic] (bench : Bench) (item : Item) (participant : Participant) :
    Scalar × Participant :=
  let params := bench.params
  let reading := participant.reading
  let (average, algorithmic) := Bandwidth.algorithmic reading.stopwatch.elapsedNs
    (item.bytes params bench.worldSize participant.rank)
    (Arithmetic.held (params.iterations * Agenda.callsPerIteration params))
  let (bus, notices) := Bandwidth.bus item.operation algorithmic bench.worldSize
  (average / .ofNat 1000,
    { participant with reading := { reading with algorithmic, bus } }.tell notices)

/-- Runs the workload if there is one. -/
def compute [Arithmetic] [Halves] (participant : Participant) : Participant :=
  match participant.workload with
  | none => participant
  | some workload =>
    let (outcome, device) := workload.run participant.device
    let participant := { participant with device }
    participant.attempt outcome fun () => participant

/-- Adds the measurement of an item. -/
def report [Arithmetic] (bench : Bench) (item : Item) (participant : Participant) : Participant :=
  let params := bench.params
  let reading := participant.reading
  let descriptor := item.descriptor params bench.worldSize participant.rank
  { participant with measurements := participant.measurements ++ [{
      operation := item.operation
      sizeBytes := item.bytes params bench.worldSize participant.rank
      elements := descriptor.inElements
      type := params.type
      iterations := params.iterations
      latency := reading.latency
      algorithmic := reading.algorithmic
      bus := reading.bus
      validated := if params.validate then some true else none }] }

/-! ## What a participant asks for -/

/-- Issues calls. -/
def issue (participant : Participant) (calls : List Call) : Participant × List Call :=
  (calls.foldl (fun participant call =>
    { participant.note (.collective call) with
      issued := call.operation :: participant.issued }) participant, calls)

/-- The call that collects the latencies of all ranks. -/
def latencyCall (worldSize : Nat) (microseconds : Scalar) : Call :=
  { buffers := {
      operation := .allGatherBase
      input := .single (.ofValues [microseconds] .f64)
      output := some (.single (.zeros worldSize .f64)) }
    group := World.defaultGroup }

/-- The call that counts the ranks whose check failed. -/
def verdictCall (failed : Bool) : Call :=
  { buffers := {
      operation := .allReduce
      input := .single (.ofValues [if failed then .one else .zero] .f64) }
    group := World.defaultGroup }

/-- The first half of an action: what the participant does alone, and the calls that it then
waits for. -/
def ask [Arithmetic] [Halves] (bench : Bench) (now : Nat) (action : Action)
    (participant : Participant) :
    Participant × List Call :=
  match action with
  | .join =>
    let participant := participant.note .start
    (participant.attempt (bench.world.checkRank participant.rank) fun () => participant, [])
  | .prepare =>
    (participant.attempt (Workload.measure bench.params) fun measured =>
      let (workload, device) :=
        Workload.prepare bench.params participant.rank measured participant.device
      { participant with workload, device }, [])
  | .tell notices => (participant.tell notices, [])
  | .stage item =>
    (participant.stageItem bench item true fun participant buffers =>
      { participant with reading := {} }.adopt bench item buffers, [])
  | .call copies => participant.issue (List.replicate copies participant.call)
  | .complete => (participant.note .complete, [])
  | .barrier => participant.issue [.barrier World.defaultGroup]
  | .enterStream => (participant.enterStream, [])
  | .leaveStream => (participant.leaveStream, [])
  | .restage item => (participant.restage bench item, [])
  | .startClock =>
    ({ participant with reading := { participant.reading with started := now } }, [])
  | .stopClock => (participant.stopClock now, [])
  | .compute => (participant.compute, [])
  | .gather item =>
    match participant.checkTotals bench item with
    | .error error => (participant.fail error, [])
    | .ok () =>
      let (microseconds, participant) := participant.evaluate bench item
      participant.issue [latencyCall bench.worldSize microseconds]
  | .stageCheck item => (participant.stageCheck bench item, [])
  | .inspect item => (participant.inspect bench item, [])
  | .agree => participant.issue [verdictCall participant.fault.isSome]
  | .conclude item => (participant.conclude item, [])
  | .report item =>
    (participant.attempt (participant.checkBytes bench item) fun () =>
      participant.report bench item, [])
  | .clear => (participant.note .clear, [])

/-! ## What a participant makes of the answers -/

/-- The answers to the last calls as they come back to the participant. -/
def deliveries [Halves] (bench : Bench) (participant : Participant)
    (answers : List (Outcome Call)) :
    List (Outcome Call) :=
  answers.mapIdx fun index answer => answer.map fun call =>
    let later := answers.length - (index + 1)
    let number := (participant.issued.drop later).count call.operation
    bench.tampering.apply participant.rank number call

/-- Goes on with the last of the answers, or fails with the first error among them. Without
any answer nothing happens. -/
def receive [Halves] (bench : Bench) (answers : List (Outcome Call)) (participant : Participant)
    (proceed : Call → Participant) : Participant :=
  match Pending.settle none (participant.deliveries bench answers) with
  | .error error => participant.fail error
  | .ok none => participant
  | .ok (some call) => proceed call

/-- The second half of an action: what the participant does with the answers to its calls. -/
def take [Halves] (bench : Bench) (action : Action) (answers : List (Outcome Call))
    (participant : Participant) : Participant :=
  match action with
  | .call _ => participant.receive bench answers fun call => { participant with call }
  | .barrier => participant.receive bench answers fun _ => participant
  | .gather _ => participant.receive bench answers fun call =>
    participant.attempt (call.buffers.destination.expectSingle "latency gather") fun samples =>
      { participant with reading := { participant.reading with
          latency := .ofSamples samples.values } }
  | .agree => participant.receive bench answers fun call =>
    participant.attempt (do (← call.buffers.destination.expectSingle "validation status").get 0)
      fun count => { participant with
        faulty := (count.value.roundAway 0 (powerOfTwo 64 - 1)).toNat }
  | _ => participant

/-- The report of a participant that came to the end of the agenda. -/
def result (bench : Bench) (participant : Participant) : Outcome Report :=
  match participant.failure with
  | some error => .error error
  | none => .ok {
      backend := bench.backend
      worldSize := bench.worldSize
      blocking := bench.params.blocking
      bitwidth := bench.bitwidth.1
      measurements := participant.measurements }

end Participant

end CollectiveBench
