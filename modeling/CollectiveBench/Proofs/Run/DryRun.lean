import CollectiveBench.Proofs.Run.Items
import CollectiveBench.Proofs.Run.Lockstep
import CollectiveBench.Proofs.Run.Workloads

/-!
# Dry runs

A dry run measures no iteration and validates no result. What is left of the agenda of an item is
staging, warming up, meeting at a barrier and collecting the latencies of all ranks. Each of these
actions keeps the ranks in lockstep: the calls of an item suit the terms of the item, and the calls
that a run needs for itself suit terms of their own. So the ranks come to the end of the agenda, and
each of them has measured every item (`Leads.agenda`).
-/

namespace CollectiveBench

variable [Arithmetic] {bench : Bench} {item : Item} {done : List Item} {staged : Option Item}
  {participant : Participant} {action : Action} {now : Nat} {after : Participant → Prop}

/-- What is asked of a bench: a dry run that nobody tampers with, splits that can be followed, ranks
that exist, time to wait for them, and a workload that there is room for. -/
structure Bench.IsDry (bench : Bench) : Prop where
  spans : bench.world.members World.defaultGroup = List.range bench.worldSize
  patient : 0 < bench.world.timeoutMs
  honest : bench.tampering = {}
  divides : bench.params.Divides bench.worldSize
  names : bench.params.Names bench.worldSize
  idle : bench.params.iterations = 0
  unchecked : bench.params.validate = false
  workload : Workload.Fits bench.params

/-- What is asked of an item: the backend supports its operation, messages from point to point have
as many receivers as senders, and the item fits at every rank. -/
structure Bench.Serves (bench : Bench) (item : Item) : Prop where
  known : item.operation ∈ bench.supported
  paired : item.operation = .pt2pt ∨ item.operation = .recv →
    bench.params.sources.length = bench.params.destinations.length
  fits : ∀ rank < bench.worldSize, item.Fits bench.params bench.worldSize rank

/-- What a rank's row says of an item in a dry run. -/
structure Bench.Measures (bench : Bench) (rank : Nat) (item : Item) (measurement : Measurement) :
    Prop where
  operation : measurement.operation = item.operation
  elements : measurement.elements =
    (item.descriptor bench.params bench.worldSize rank).inElements
  sizeBytes : measurement.sizeBytes = measurement.elements * bench.params.type.size
  type : measurement.type = bench.params.type
  unchecked : measurement.validated = none

/-- Actions that touch neither the call nor the measurements, and that need no other rank. -/
def Action.isQuiet : Action → Bool
  | .join | .prepare | .tell _ | .complete | .enterStream | .leaveStream | .clear => true
  | _ => false

/-- Quiet actions after which a participant is as it was in everything that decides about its
future. -/
def Action.isIdle : Action → Bool
  | .prepare => false
  | action => action.isQuiet

/-! ## The calls that a run needs for itself -/

/-- The terms of the barrier of a world. -/
def Terms.barrier (size : Nat) : Terms := { ranks := List.range size, operation := .barrier }

/-- The terms under which latencies are collected. -/
def Terms.latencies (size : Nat) : Terms :=
  { ranks := List.range size, operation := .allGatherBase, type := .f64, count := size }

omit [Arithmetic] in
/-- Everyone contributes one latency, and everyone has room for one of each rank. -/
theorem Terms.layout_latencies {size : Nat} (inhabited : 0 < size) (rank : Nat) :
    (latencies size).layout rank = ⟨.single 1, some (.single size)⟩ := by
  have share : size / size = 1 := Nat.div_self inhabited
  simp [latencies, layout, Layout.of, share]

/-- Nobody contributes anything at a barrier. -/
theorem Terms.held_barrier (size : Nat) : (barrier size).Held := by
  intro rank _
  have nothing : ((barrier size).layout rank).input.part = 0 := rfl
  rw [nothing, Nat.zero_mul]
  exact .inr (by decide)

/-- A latency takes eight bytes. -/
theorem Terms.held_latencies (size : Nat) : (latencies size).Held := by
  intro rank listed
  have inhabited : 0 < size := Nat.zero_lt_of_lt (List.mem_range.mp listed)
  rw [layout_latencies inhabited]
  change Arithmetic.Holds 8
  exact .inr (by decide)

omit [Arithmetic] in
/-- The call of a barrier suits it. -/
theorem Call.suits_barrier {size rank : Nat} :
    (barrier World.defaultGroup).Suits (.barrier size) rank :=
  Buffers.Suits.call ⟨rfl, by simp [Terms.barrier, Operation.isSyncOnly], by simp [Terms.barrier]⟩
    rfl (by simp [Terms.barrier, Operation.isRooted]) (by simp [barrier]) (by simp [Terms.barrier])

namespace Participant

omit [Arithmetic] in
/-- The call with the latency of a rank suits the exchange of latencies. -/
theorem suits_latencyCall {size rank : Nat} (inhabited : 0 < size) (microseconds : Numeric.Scalar) :
    (latencyCall size microseconds).Suits (.latencies size) rank := by
  refine Buffers.Suits.call ⟨rfl, fun _ => ?_, by simp [Terms.latencies]⟩ rfl
    (by simp [Terms.latencies, Operation.isRooted]) (by simp [latencyCall])
    (by simp [Terms.latencies])
  rw [Terms.layout_latencies inhabited]
  exact ⟨⟨rfl, rfl⟩, .some ⟨rfl, List.length_replicate⟩⟩

/-! ## Progress -/

/-- How far a participant has come: the items that it has measured, and perhaps one that its call
is for. -/
structure Progress (bench : Bench) (done : List Item) (staged : Option Item)
    (participant : Participant) : Prop where
  measured : List.Forall₂ (bench.Measures participant.rank) done participant.measurements
  call : ∀ item, staged = some item →
    participant.call.Suits (item.terms bench.params bench.worldSize) participant.rank ∧
      participant.call.group = World.defaultGroup

/-- A participant that is the same as another one in everything that its progress and its failure
depend on. -/
structure Keeps (before after : Participant) : Prop where
  rank : after.rank = before.rank
  failure : after.failure = before.failure
  call : after.call = before.call
  measurements : after.measurements = before.measurements

/-- A participant has come as far as one that it keeps to. -/
theorem Progress.keep {other : Participant} (progress : participant.Progress bench done staged)
    (keeps : participant.Keeps other) : other.Progress bench done staged where
  measured := by
    rw [keeps.rank, keeps.measurements]
    exact progress.measured
  call := by
    rw [keeps.rank, keeps.call]
    exact progress.call

/-! ## What a participant does alone -/

/-- A rank of the world joins it without more than a note. -/
theorem ask_join [Halves] (inside : participant.rank < bench.worldSize) (now : Nat) :
    participant.ask bench now .join = (participant.note .start, []) := by
  have joined : bench.world.checkRank participant.rank = .ok () := by
    have inhabited : bench.world.size ≠ 0 := Nat.ne_of_gt (Nat.zero_lt_of_lt inside)
    have within : ¬ bench.world.size ≤ participant.rank := Nat.not_le.mpr inside
    rw [World.checkRank, if_neg inhabited, if_neg within]
  simp only [ask, attempt, note, joined]

/-- A rank of the world does an idle action alone, and it resembles itself before. -/
theorem resembles_idle [Halves] (idle : action.isIdle) (inside : participant.rank < bench.worldSize)
    (now : Nat) :
    (participant.ask bench now action).2 = [] ∧
      participant.Resembles (participant.ask bench now action).1 ∧
      (participant.ask bench now action).1.measurements = participant.measurements := by
  cases action
  case join =>
    rw [ask_join inside]
    exact ⟨rfl, ⟨rfl, rfl, rfl, rfl, rfl, rfl, rfl⟩, rfl⟩
  case leaveStream =>
    refine ⟨rfl, ?_⟩
    change participant.Resembles participant.leaveStream ∧ _
    rw [leaveStream]
    split <;> exact ⟨⟨rfl, rfl, rfl, rfl, rfl, rfl, rfl⟩, by simp [ask, leaveStream, *]⟩
  case tell | complete | enterStream | clear =>
    exact ⟨rfl, ⟨rfl, rfl, rfl, rfl, rfl, rfl, rfl⟩, rfl⟩
  all_goals cases idle

/-- A rank of the world does a quiet action alone, and keeps what matters. -/
theorem keeps_quiet [Halves] (fits : Workload.Fits bench.params) (quiet : action.isQuiet)
    (inside : participant.rank < bench.worldSize) (now : Nat) :
    (participant.ask bench now action).2 = [] ∧
      participant.Keeps (participant.ask bench now action).1 := by
  by_cases prepares : action = .prepare
  · subst prepares
    rw [ask_prepare _ _ _ fits]
    exact ⟨rfl, rfl, rfl, rfl, rfl⟩
  · have idle : action.isIdle := by
      cases action <;> first | exact quiet | exact absurd rfl prepares
    obtain ⟨asks, resembles, measured⟩ := resembles_idle idle inside now
    exact ⟨asks, resembles.rank, resembles.failure, resembles.call, measured⟩

/-- A quiet action is done alone and leads no further. -/
theorem alone_quiet [Halves] (dry : bench.IsDry) (quiet : action.isQuiet)
    (inside : participant.rank < bench.worldSize)
    (sound : participant.failure = none) (progress : participant.Progress bench done staged) :
    participant.Alone bench now action (Progress bench done staged) := by
  obtain ⟨asks, keeps⟩ := keeps_quiet dry.workload quiet inside now
  exact ⟨asks, keeps.failure.trans sound, progress.keep keeps⟩

/-- A rank stages an item without the others. -/
theorem alone_stage [Halves] (dry : bench.IsDry) (serves : bench.Serves item)
    (inside : participant.rank < bench.worldSize) (sound : participant.failure = none)
    (progress : participant.Progress bench done staged) :
    participant.Alone bench now (.stage item) (Progress bench done (some item)) := by
  obtain ⟨buffers, made, suits⟩ := item.gives_stage serves.known dry.spans dry.divides inside
    participant.device
  have asked : ∃ other, participant.ask bench now (.stage item) = (other, []) ∧
      other.rank = participant.rank ∧ other.failure = participant.failure ∧
      other.measurements = participant.measurements ∧
      other.call = item.callOn bench.params bench.worldSize buffers := by
    refine ⟨_, rfl, ?_⟩
    simp only [stageItem_of_fits _ _ (serves.fits _ inside), made, attempt, adopt, and_self]
  obtain ⟨other, same, rank, failure, measurements, call⟩ := asked
  have fits := item.suits_callOn suits dry.names serves.paired
  refine ⟨by rw [same], by rw [same, failure, sound], ?_⟩
  rw [same]
  constructor
  · rw [rank, measurements]
    exact progress.measured
  · rintro _ ⟨⟩
    rw [rank, call]
    exact ⟨fits, rfl⟩

/-- A rank adds its measurement of an item without the others. -/
theorem alone_report [Halves] (dry : bench.IsDry) (serves : bench.Serves item)
    (inside : participant.rank < bench.worldSize) (sound : participant.failure = none)
    (progress : participant.Progress bench done staged) :
    participant.Alone bench now (.report item) (Progress bench (done ++ [item]) none) := by
  have fits := serves.fits _ inside
  have asked := ask_report now fits
  have bytes := Arithmetic.held_of_holds (fits.room.mono (Nat.le_max_left _ _)).holds
  refine ⟨by rw [asked], by rw [asked]; exact sound, ?_⟩
  rw [asked]
  refine ⟨List.rel_append progress.measured (.cons ?_ .nil), by simp⟩
  exact ⟨rfl, rfl, bytes, rfl, by simp [dry.unchecked]⟩

/-! ## What participants do together -/

/-- A rank issues the call of its item and goes on with the call that comes back. -/
theorem joins_call [Halves] (dry : bench.IsDry) (sound : participant.failure = none)
    (progress : participant.Progress bench done (some item)) :
    participant.Joins bench now (.call 1) (item.terms bench.params bench.worldSize)
      (Progress bench done (some item)) participant.call := by
  obtain ⟨suits, group⟩ := progress.call item rfl
  refine ⟨rfl, group, suits, fun returned suiting here => ?_⟩
  rw [take, receive_one dry.honest]
  refine ⟨sound, progress.measured, ?_⟩
  rintro _ ⟨⟩
  exact ⟨suiting, here⟩

/-- A rank meets the others at the barrier. -/
theorem joins_barrier [Halves] (honest : bench.tampering = {}) (sound : participant.failure = none)
    (keeps : ∀ other, participant.Resembles other →
      other.measurements = participant.measurements → after other) :
    participant.Joins bench now .barrier (.barrier bench.worldSize) after
      (.barrier World.defaultGroup) := by
  refine ⟨rfl, rfl, Call.suits_barrier, fun returned _ _ => ?_⟩
  rw [take, receive_one honest]
  exact ⟨sound, keeps _ (participant.resembles_issue _) rfl⟩

/-- A rank collects the latencies of all ranks, which come back as one tensor. -/
theorem joins_gather [Halves] (honest : bench.tampering = {})
    (inside : participant.rank < bench.worldSize)
    (fits : item.Fits bench.params bench.worldSize participant.rank)
    (counted : Arithmetic.Holds (bench.params.iterations * Agenda.callsPerIteration bench.params))
    (sound : participant.failure = none)
    (keeps : ∀ other, participant.Resembles other →
      other.measurements = participant.measurements → after other) :
    participant.Joins bench now (.gather item) (.latencies bench.worldSize) after
      (latencyCall bench.worldSize (participant.evaluate bench item).1) := by
  have inhabited : 0 < bench.worldSize := Nat.zero_lt_of_lt inside
  have asked := ask_gather now fits counted
  refine ⟨by rw [asked]; rfl, rfl, suits_latencyCall inhabited _, fun returned suiting _ => ?_⟩
  rw [asked]
  have fits := (suiting.buffers.shapes rfl).destination
  rw [Terms.layout_latencies inhabited] at fits
  obtain ⟨samples, single, _⟩ := fits.gives_single "latency gather"
  rw [take, receive_one honest, attempt, single]
  exact ⟨sound, keeps _ ⟨rfl, rfl, rfl, rfl, rfl, rfl, rfl⟩ rfl⟩

/-- Where a participant resembles one that has come so far and measured as much, it has come as far
itself. -/
theorem Progress.resemble {other : Participant} (progress : participant.Progress bench done staged)
    (resembles : participant.Resembles other)
    (measured : other.measurements = participant.measurements) :
    other.Progress bench done staged :=
  progress.keep ⟨resembles.rank, resembles.failure, resembles.call, measured⟩

end Participant

namespace Leads

open Participant

/-- Quiet actions leave all ranks where they are. -/
theorem quiet [Halves] (dry : bench.IsDry) (quiet : action.isQuiet) :
    Leads bench (Progress bench done staged) [action] (Progress bench done staged) :=
  alone dry.spans dry.patient fun _ _ inside sound progress =>
    alone_quiet dry quiet inside sound progress

/-- A dry run of an item ends with its measurement on every rank. -/
theorem ofItem [Halves] (dry : bench.IsDry) (serves : bench.Serves item) :
    Leads bench (Progress bench done none) (Agenda.ofItem bench.params item)
      (Progress bench (done ++ [item]) none) := by
  have counted : Arithmetic.Holds
      (bench.params.iterations * Agenda.callsPerIteration bench.params) := by
    rw [dry.idle, Nat.zero_mul]
    exact .inr (by decide)
  have staging : Leads bench (Progress bench done none) [.stage item]
      (Progress bench done (some item)) :=
    alone dry.spans dry.patient fun _ _ inside sound progress =>
      alone_stage dry serves inside sound progress
  have warming : Leads bench (Progress bench done (some item)) [.call 1]
      (Progress bench done (some item)) :=
    together dry.spans dry.patient rfl (item.terms_held dry.divides serves.fits)
      fun _ _ _ sound progress => ⟨_, joins_call dry sound progress⟩
  have meeting : Leads bench (Progress bench done (some item)) [.barrier]
      (Progress bench done (some item)) :=
    together dry.spans dry.patient rfl (Terms.held_barrier _) fun _ _ _ sound progress =>
      ⟨_, joins_barrier dry.honest sound fun _ => progress.resemble⟩
  have gathering : Leads bench (Progress bench done (some item)) [.gather item]
      (Progress bench done (some item)) :=
    together dry.spans dry.patient rfl (Terms.held_latencies _) fun _ _ inside sound progress =>
      ⟨_, joins_gather dry.honest inside (serves.fits _ inside) counted sound
        fun _ => progress.resemble⟩
  have reporting : Leads bench (Progress bench done (some item)) [.report item]
      (Progress bench (done ++ [item]) none) :=
    alone dry.spans dry.patient fun _ _ inside sound progress =>
      alone_report dry serves inside sound progress
  rw [Agenda.ofItem, dry.idle, dry.unchecked]
  have warm := staging.append (warming.replicate bench.params.warmups)
  have entered : Leads bench (Progress bench done (some item)) [.complete, .barrier, .enterStream]
      (Progress bench done (some item)) := (quiet dry rfl).cons (meeting.cons (quiet dry rfl))
  have gathered : Leads bench (Progress bench done (some item)) [.leaveStream, .gather item]
      (Progress bench done (some item)) := (quiet dry rfl).cons gathering
  exact ((((warm.append entered).append nil).append gathered).append nil).append reporting

/-- A dry run of an operation at some sizes ends with a measurement for each size. -/
theorem ofSweep [Halves] (dry : bench.IsDry) {operation : Operation}
    (sizes : List Nat × List Notice)
    (serves : ∀ size ∈ sizes.1, bench.Serves ⟨operation, size⟩) :
    Leads bench (Progress bench done none) (Agenda.ofSweep bench.params operation sizes)
      (Progress bench (done ++ sizes.1.map fun size => ⟨operation, size⟩) none) := by
  have each : ∀ size ∈ sizes.1, ∀ done, Leads bench (Progress bench done none)
      (Agenda.ofItem bench.params ⟨operation, size⟩)
      (Progress bench (done ++ [⟨operation, size⟩]) none) :=
    fun size listed done => ofItem dry (serves size listed)
  rw [List.map_eq_flatMap]
  exact (quiet dry rfl).cons (flatMap each done)

end Leads

/-- The items of a run: every operation at every size of its sweep, in order. -/
def Bench.items (bench : Bench) (operations : List Operation) : List Item :=
  operations.flatMap fun operation => (bench.sizes operation).1.map fun size => ⟨operation, size⟩

omit [Arithmetic] in
/-- An item of a run is one of its operations at a size of the operation's sweep. -/
theorem Bench.mem_items (bench : Bench) {operations : List Operation} :
    item ∈ bench.items operations ↔
      item.operation ∈ operations ∧ item.sizeBytes ∈ (bench.sizes item.operation).1 := by
  obtain ⟨operation, size⟩ := item
  simp [items]

/-- No sum, count or tensor of a run is too large for the build. -/
structure Bench.Fits (bench : Bench) (operations : List Operation) : Prop where
  workload : Workload.Fits bench.params
  counted : Arithmetic.Holds (bench.params.iterations * Agenda.callsPerIteration bench.params)
  items : ∀ item ∈ bench.items operations, ∀ rank < bench.worldSize,
    item.Fits bench.params bench.worldSize rank

instance (bench : Bench) (operations : List Operation) : Decidable (bench.Fits operations) :=
  decidable_of_iff
    (Workload.Fits bench.params ∧
      Arithmetic.Holds (bench.params.iterations * Agenda.callsPerIteration bench.params) ∧
      ∀ item ∈ bench.items operations, ∀ rank < bench.worldSize,
        item.Fits bench.params bench.worldSize rank)
    ⟨fun fits => ⟨fits.1, fits.2.1, fits.2.2⟩, fun fits =>
      ⟨fits.workload, fits.counted, fits.items⟩⟩

/-- A dry run ends with a measurement of every item. -/
theorem Leads.agenda [Halves] (dry : bench.IsDry) {operations : List Operation}
    (serves : ∀ item ∈ bench.items operations, bench.Serves item) :
    Leads bench (Participant.Progress bench [] none) (bench.agenda operations)
      (Participant.Progress bench (bench.items operations) none) := by
  have each : ∀ operation ∈ operations, ∀ done, Leads bench (Participant.Progress bench done none)
      (Agenda.ofSweep bench.params operation (bench.sizes operation))
      (Participant.Progress bench
        (done ++ (bench.sizes operation).1.map fun size => ⟨operation, size⟩) none) :=
    fun operation listed done => ofSweep dry _ fun size swept =>
      serves _ (bench.mem_items.mpr ⟨listed, swept⟩)
  have begun : Leads bench (Participant.Progress bench [] none) [.join, .prepare]
      (Participant.Progress bench [] none) := (quiet dry rfl).cons (quiet dry rfl)
  rw [Bench.agenda, Agenda.ofSweeps, List.flatMap_map]
  exact (begun.append (flatMap each [])).append (quiet dry rfl)

namespace Ensemble

/-- Before a run the ranks are in lockstep and have measured nothing. -/
theorem lockstep_create (bench : Bench)
    (spans : bench.world.members World.defaultGroup = List.range bench.worldSize)
    (notices : List Notice) (source : Source) :
    (create bench notices source).Lockstep bench (Participant.Progress bench [] none) :=
  lockstep_of_create spans notices source fun _ _ => ⟨.nil, by simp⟩

/-- Ranks in lockstep all have a report, and a rank's report holds its measurements. -/
theorem Lockstep.results_eq {ensemble : Ensemble}
    (lockstep : ensemble.Lockstep bench (Participant.Progress bench done none)) :
    ∃ reports : List Report, ensemble.results bench = reports.map .ok ∧
      reports.length = bench.worldSize ∧
      ∀ rank report, reports[rank]? = some report →
        List.Forall₂ (bench.Measures rank) done report.measurements := by
  let report (participant : Participant) : Report :=
    { backend := bench.backend
      worldSize := bench.worldSize
      blocking := bench.params.blocking
      bitwidth := bench.bitwidth.1
      measurements := participant.measurements }
  refine ⟨ensemble.participants.map report, ?_, ?_, ?_⟩
  · rw [results, List.map_map]
    refine List.map_congr_left fun participant present => ?_
    rw [Participant.result, (lockstep.each participant present).1]
    rfl
  · have length := congrArg List.length lockstep.ranks
    simpa using length
  · intro rank found located
    rw [List.getElem?_map, Option.map_eq_some_iff] at located
    obtain ⟨participant, place, rfl⟩ := located
    obtain ⟨rfl, _⟩ := lockstep.rank_eq place
    exact (lockstep.each participant (List.mem_of_getElem? place)).2.measured

end Ensemble

end CollectiveBench
