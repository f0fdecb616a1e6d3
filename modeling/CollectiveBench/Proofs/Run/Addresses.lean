import CollectiveBench.Proofs.CommandLine
import CollectiveBench.Proofs.Exchange.Refusals
import CollectiveBench.Proofs.Run.OwnWork
import CollectiveBench.Proofs.Run.Restaging
import CollectiveBench.Proofs.Run.Steadiness

/-!
# Whom the calls of a run name

What a command line names is checked once, against a world whose size may come from three places;
what it leaves open is filled in for each operation; and the world later takes every rank that a
call names for granted or refuses it. Between these lies the run, in which a rank holds one call,
gets it back from the world, and puts new buffers into it.

`Ensemble.Abides` is what every step keeps of the run: each rank that goes on holds a call whose
peers are those of its operation, and no rank has stopped for a peer. Buffers are staged anew for
the item that is staged (`Agenda.Stages`), and what comes back is the call that was issued but for
its contents (`World.MayAnswer`), so the peers stay those of the operation. Then they are known to
exist, and of all ranks that a call names only the root can be refused
(`Ensemble.only_root_refused`).
-/

namespace CollectiveBench

variable {bench : Bench} {params : Params} {size : Nat} {item : Item} {action : Action}
  {now : Nat → Nat} {before after staged : Option Item} {ensemble : Ensemble}

/-! ## Calls -/

/-- The call belongs to no item: the ranks make it to meet, to collect latencies or to agree, and it
names nobody. -/
structure Call.IsHousekeeping (call : Call) : Prop where
  operation : call.operation = .barrier ∨ call.operation = .allGatherBase ∨
    call.operation = .allReduce
  sources : call.sources = []
  destinations : call.destinations = []

/-- Calls for housekeeping have no root. -/
theorem Call.IsHousekeeping.rootless {call : Call} (housekeeping : call.IsHousekeeping) :
    call.operation.isRooted = false := by
  rcases housekeeping.operation with same | same | same <;> rw [same] <;> rfl

/-- The root and the peers that the call names are those of its operation. -/
structure Call.NamesPeers (params : Params) (size : Nat) (call : Call) : Prop where
  root : call.root = params.root
  peers : (call.sources, call.destinations) = Item.peers params size call.operation

/-- The call goes to all ranks, and names the root and the peers of its operation if it belongs to
an item. -/
structure Call.Addressed (params : Params) (size : Nat) (call : Call) : Prop where
  group : call.group = World.defaultGroup
  names : call.NamesPeers params size ∨ call.IsHousekeeping

/-- The call is one that a rank holds while an item is staged. -/
structure Call.HeldFor (params : Params) (size : Nat) (staged : Option Item) (call : Call) :
    Prop where
  addressed : call.Addressed params size
  item : ∀ item, staged = some item → call.operation = item.operation ∧
    call.NamesPeers params size

namespace Call

variable {call returned : Call}

/-- A returned call names the peers that the call named. -/
theorem Alike.namesPeers (alike : call.Alike returned) (names : call.NamesPeers params size) :
    returned.NamesPeers params size where
  root := alike.root.trans names.root
  peers := by
    rw [alike.sources, alike.destinations, alike.operation]
    exact names.peers

/-- A returned call is addressed as the issued one. -/
theorem Alike.heldFor (alike : call.Alike returned) (held : call.HeldFor params size staged) :
    returned.HeldFor params size staged where
  addressed := by
    refine ⟨alike.group.trans held.addressed.group, held.addressed.names.imp alike.namesPeers ?_⟩
    intro housekeeping
    exact ⟨alike.operation ▸ housekeeping.operation, alike.sources.trans housekeeping.sources,
      alike.destinations.trans housekeeping.destinations⟩
  item := fun item chosen =>
    (held.item item chosen).imp alike.operation.trans alike.namesPeers

/-- A call of an item's buffers is one that is held while the item is staged. -/
theorem heldFor_callOn {buffers : Buffers} (own : buffers.operation = item.operation) :
    (item.callOn params size buffers).HeldFor params size (some item) := by
  have names : (item.callOn params size buffers).NamesPeers params size :=
    ⟨rfl, by rw [operation, Item.callOn, own]⟩
  refine ⟨⟨rfl, .inl names⟩, ?_⟩
  rintro _ ⟨⟩
  exact ⟨own, names⟩

/-- New buffers for the same operation change nobody who is named. -/
theorem HeldFor.withBuffers (held : call.HeldFor params size (some item)) {buffers : Buffers}
    (own : buffers.operation = item.operation) :
    ({ call with buffers } : Call).HeldFor params size (some item) := by
  obtain ⟨operation, names⟩ := held.item item rfl
  have still : ({ call with buffers } : Call).NamesPeers params size := by
    refine ⟨names.root, ?_⟩
    have same : ({ call with buffers } : Call).operation = call.operation :=
      own.trans operation.symm
    rw [same]
    exact names.peers
  refine ⟨⟨held.addressed.group, .inl still⟩, ?_⟩
  rintro _ ⟨⟩
  exact ⟨own, still⟩

end Call

/-! ## Ranks -/

/-- Own work refuses no rank. -/
theorem Error.OfOwnWork.not_refusesRank {error : Error} (own : error.OfOwnWork) :
    ¬ error.RefusesRank := by
  cases error with
  | invalidRank rank size => exact own.elim
  | _ => exact id

/-- The error refuses no rank, or it is the root that it refuses because there is none. -/
def Bench.SparesPeers (bench : Bench) (error : Error) : Prop :=
  error.RefusesRank → bench.worldSize ≤ bench.params.root ∧
    error = .invalidRank bench.params.root bench.worldSize

/-- An error that refuses no rank spares the peers. -/
theorem Bench.SparesPeers.of_not_refuses {error : Error} (free : ¬ error.RefusesRank) :
    bench.SparesPeers error := fun refuses => absurd refuses free

/-- Errors of the own work spare the peers. -/
theorem Error.OfOwnWork.sparesPeers {error : Error} (own : error.OfOwnWork) :
    bench.SparesPeers error := .of_not_refuses own.not_refusesRank

/-- What fails only at the own work spares the peers. -/
theorem FailsOnly.sparing {α : Type} {outcome : Outcome α}
    (own : FailsOnly outcome Error.OfOwnWork) : FailsOnly outcome bench.SparesPeers :=
  own.mono fun _ own => own.sparesPeers

/-- What is known of a rank while an item is staged: the call that it holds, as long as it has not
stopped, and what it may have stopped for. -/
structure Participant.Abides (bench : Bench) (staged : Option Item) (participant : Participant) :
    Prop where
  call : participant.failure = none →
    participant.call.HeldFor bench.params bench.worldSize staged
  fault : ∀ error, participant.fault = some error → error.OfOwnWork
  failure : ∀ error, participant.failure = some error → bench.SparesPeers error

/-! ## Outcomes that are settled -/

namespace Pending

variable (found : Option Call) (answers : List (Outcome Call))

/-- An error that is settled on is one of the answers. -/
theorem failsOnly_settle : FailsOnly (settle found answers) (.error · ∈ answers) := by
  induction answers generalizing found with
  | nil => exact failsOnly_ok found
  | cons answer rest inductionHypothesis =>
    cases answer with
    | error error => exact failsOnly_error List.mem_cons_self
    | ok call => exact (inductionHypothesis (some call)).mono fun _ => List.mem_cons_of_mem _

/-- A call that is settled on is one of the answers, unless it was there before. -/
theorem givesOnly_settle : GivesOnly (settle found answers) fun last =>
    ∀ call, last = some call → found = some call ∨ .ok call ∈ answers := by
  induction answers generalizing found with
  | nil => exact givesOnly_ok fun call => .inl
  | cons answer rest inductionHypothesis =>
    cases answer with
    | error error => exact givesOnly_error error
    | ok first =>
      intro last settled call chosen
      rcases inductionHypothesis (some first) last settled call chosen with same | later
      · exact .inr (Option.some.inj same ▸ List.mem_cons_self)
      · exact .inr (List.mem_cons_of_mem _ later)

end Pending

/-! ## Single ranks -/

namespace Participant

variable {participant other : Participant}

/-- A participant abides as long as its failure, its call and its fault stay. -/
theorem Abides.keep (abides : participant.Abides bench staged)
    (failure : other.failure = participant.failure) (call : other.call = participant.call)
    (fault : other.fault = participant.fault) : other.Abides bench staged where
  call := by
    rw [failure, call]
    exact abides.call
  fault := by
    rw [fault]
    exact abides.fault
  failure := by
    rw [failure]
    exact abides.failure

/-- A participant abides if one that it resembles does. -/
theorem Abides.resemble (abides : participant.Abides bench staged)
    (resembles : participant.Resembles other) : other.Abides bench staged :=
  abides.keep resembles.failure resembles.call resembles.fault

/-- A rank that stops holds no call any more. -/
theorem Abides.fail (abides : participant.Abides bench before) {error : Error}
    (spares : bench.SparesPeers error) : (participant.fail error).Abides bench after where
  call := by rintro ⟨⟩
  fault := by
    have same : (participant.fail error).fault = participant.fault := by
      rw [Participant.fail, leaveStream]
      split <;> rfl
    rw [same]
    exact abides.fault
  failure := by
    rintro _ ⟨⟩
    exact spares

/-- A step that spares the peers leads to where its value leads. -/
theorem Abides.attempt {α : Type} {outcome : Outcome α} {proceed : α → Participant}
    (abides : participant.Abides bench before) (fails : FailsOnly outcome bench.SparesPeers)
    (onward : ∀ value, outcome = .ok value → (proceed value).Abides bench after) :
    (participant.attempt outcome proceed).Abides bench after := by
  cases outcome with
  | ok value => exact onward value rfl
  | error error => exact abides.fail (fails error rfl)

/-- A rank goes on from staging with buffers of the item's operation. -/
theorem Abides.stageItem (abides : participant.Abides bench before) (item : Item) (allocate : Bool)
    {proceed : Participant → Buffers → Participant}
    (onward : ∀ (device : Device) (buffers : Buffers), buffers.operation = item.operation →
      (proceed { participant with device } buffers).Abides bench after) :
    (participant.stageItem bench item allocate proceed).Abides bench after := by
  obtain ⟨own, staged⟩ := item.stage_own bench participant.rank allocate participant.device
  rw [stageItem_of_fits _ _ (item.fits_exact _ _ _)]
  refine Abides.attempt (abides.keep rfl rfl rfl) own.sparing ?_
  exact fun buffers given => onward _ buffers (staged buffers given)

/-- A rank that makes a call of staged buffers holds it. -/
theorem Abides.adopt (abides : participant.Abides bench before) {buffers : Buffers}
    (own : buffers.operation = item.operation) :
    (participant.adopt bench item buffers).Abides bench (some item) where
  call := fun _ => Call.heldFor_callOn own
  fault := abides.fault
  failure := abides.failure

/-- Computing changes nothing that others are addressed by. -/
theorem Abides.compute (abides : participant.Abides bench staged) :
    participant.compute.Abides bench staged := by
  rw [Participant.compute]
  split
  · exact abides
  next workload _ =>
    refine Abides.attempt (abides.keep rfl rfl rfl) (workload.failsOnly_run _).sparing ?_
    exact fun _ _ => abides.keep rfl rfl rfl

/-- Checking the result changes nothing that others are addressed by. -/
theorem Abides.inspect (abides : participant.Abides bench staged) (item : Item) :
    (participant.inspect bench item).Abides bench staged := by
  have checked := Checker.failsOnly_check ⟨bench.params.initial⟩ participant.call
    participant.rank bench.worldSize item.sizeBytes
  rw [Participant.inspect]
  split
  · refine ⟨abides.call, ?_, abides.failure⟩
    rintro _ ⟨⟩
  next error failed =>
    refine ⟨abides.call, ?_, abides.failure⟩
    rintro _ ⟨⟩
    exact checked error failed

/-- The verdict changes nothing that others are addressed by. -/
theorem Abides.conclude (abides : participant.Abides bench staged) (item : Item) :
    (participant.conclude item).Abides bench staged := by
  rw [Participant.conclude]
  split
  next error failed => exact abides.fail (abides.fault error failed).sparesPeers
  · split
    · exact abides.fail (.of_not_refuses id)
    · exact abides

/-- An action that stages nothing leaves a rank as it must be. -/
theorem Abides.ask_plain (abides : participant.Abides bench staged) (plain : action.isPlain)
    (inside : participant.rank < bench.worldSize) (now : Nat) :
    (participant.ask bench now action).1.Abides bench staged := by
  by_cases idle : action.isIdle
  · exact abides.resemble (resembles_idle idle inside now).2.1
  cases action
  case call | barrier | agree => exact abides.resemble (participant.resembles_issue _)
  case gather item =>
    rw [ask_gather _ (item.fits_exact _ _ _) (.inl rfl)]
    refine Abides.resemble ?_ (resembles_issue _ _)
    exact abides.keep rfl rfl rfl
  case stopClock =>
    refine abides.attempt (Stopwatch.failsOnly_add _ _).sparing ?_
    exact fun stopwatch _ => abides.keep rfl rfl rfl
  case compute => exact abides.compute
  case inspect item => exact abides.inspect item
  case conclude item => exact abides.conclude item
  case prepare =>
    rw [ask_prepare _ _ _ (Workload.fits_exact _)]
    exact abides.keep rfl rfl rfl
  case report item =>
    rw [ask_report _ (item.fits_exact _ _ _)]
    exact abides.keep rfl rfl rfl
  case startClock => exact abides.keep rfl rfl rfl
  case stage | restage | stageCheck => cases plain
  all_goals exact absurd rfl idle

/-- An action leaves a rank as it must be, with what the action stages. -/
theorem Abides.ask (abides : participant.Abides bench before) (stages : action.Stages before after)
    (inside : participant.rank < bench.worldSize) (sound : participant.failure = none)
    (now : Nat) : (participant.ask bench now action).1.Abides bench after := by
  cases stages with
  | stage _ item =>
    change (participant.stageItem bench item true fun participant buffers =>
      { participant with reading := {} }.adopt bench item buffers).Abides bench (some item)
    refine abides.stageItem item true fun device buffers own => ?_
    let next : Participant := { participant with device, reading := {} }
    have nextAbides : next.Abides bench before := abides.keep rfl rfl rfl
    exact nextAbides.adopt own
  | stageCheck _ item =>
    change (participant.stageCheck bench item).Abides bench (some item)
    rw [stageCheck]
    refine abides.stageItem item true fun device buffers own => ?_
    let next : Participant :=
      { participant with device, generator := participant.generator.unit.2 }
    have nextAbides : next.Abides bench before := abides.keep rfl rfl rfl
    exact nextAbides.adopt own
  | restage item =>
    change (participant.restage bench item).Abides bench (some item)
    rw [restage]
    refine abides.stageItem item _ fun device buffers own => ?_
    refine ⟨fun _ => (abides.call sound).withBuffers ?_, abides.fault, abides.failure⟩
    split <;> exact own
  | plain _ plain => exact abides.ask_plain plain inside now

/-- A rank that has stopped is as it must be, whatever is staged. -/
theorem Abides.askOne (abides : participant.Abides bench before)
    (stages : action.Stages before after) (inside : participant.rank < bench.worldSize)
    (now : Nat → Nat) : (Ensemble.askOne bench now action participant).1.Abides bench after := by
  rw [Ensemble.askOne]
  split
  next stopped =>
    refine ⟨fun sound => ?_, abides.fault, abides.failure⟩
    rw [sound] at stopped
    cases stopped
  next sound => exact abides.ask stages inside (by simpa using sound) _

/-- What a rank asks for is addressed. -/
theorem Abides.addressed (abides : participant.Abides bench staged)
    (sound : participant.failure = none) (now : Nat) (action : Action) :
    ∀ call ∈ (participant.ask bench now action).2,
      call.Addressed bench.params bench.worldSize := by
  intro call asked
  cases action
  case call copies =>
    rw [List.eq_of_mem_replicate asked]
    exact (abides.call sound).addressed
  case barrier =>
    rw [List.mem_singleton.mp asked]
    exact ⟨rfl, .inr ⟨.inl rfl, rfl, rfl⟩⟩
  case gather item =>
    rw [ask_gather _ (item.fits_exact _ _ _) (.inl rfl)] at asked
    rw [List.mem_singleton.mp asked]
    exact ⟨rfl, .inr ⟨.inr (.inl rfl), rfl, rfl⟩⟩
  case agree =>
    rw [List.mem_singleton.mp asked]
    exact ⟨rfl, .inr ⟨.inr (.inr rfl), rfl, rfl⟩⟩
  all_goals cases asked

/-- A rank that asks for copies of a call holds that call. -/
theorem call_of_asked {copies now : Nat} {call : Call}
    (asked : call ∈ (participant.ask bench now (.call copies)).2) :
    call = (participant.ask bench now (.call copies)).1.call :=
  (List.eq_of_mem_replicate asked).trans (participant.resembles_issue _).call.symm

variable {answers : List (Outcome Call)}

/-- Answers that spare the peers lead to where the returned call leads. -/
theorem Abides.receive (abides : participant.Abides bench staged) (honest : bench.tampering = {})
    (spares : ∀ error, .error error ∈ answers → bench.SparesPeers error)
    {proceed : Call → Participant}
    (onward : ∀ call, .ok call ∈ answers → (proceed call).Abides bench staged) :
    (participant.receive bench answers proceed).Abides bench staged := by
  rw [Participant.receive, deliveries_eq honest]
  split
  next error failed => exact abides.fail (spares error (Pending.failsOnly_settle _ _ error failed))
  · exact abides
  next call settled =>
    refine onward call ((Pending.givesOnly_settle _ _ _ settled call rfl).resolve_left ?_)
    rintro ⟨⟩

/-- What a rank makes of the answers leaves it as it must be, if they spare its peers and the
calls among them are such that it may hold them. -/
theorem Abides.take (abides : participant.Abides bench staged) (honest : bench.tampering = {})
    (spares : ∀ error, .error error ∈ answers → bench.SparesPeers error)
    (back : ∀ copies, action = .call copies → ∀ returned, .ok returned ∈ answers →
      returned.HeldFor bench.params bench.worldSize staged) :
    (participant.take bench action answers).Abides bench staged := by
  cases action
  case call copies =>
    refine abides.receive honest spares fun returned given => ?_
    exact ⟨fun _ => back copies rfl returned given, abides.fault, abides.failure⟩
  case barrier => exact abides.receive honest spares fun _ _ => abides
  case gather =>
    refine abides.receive honest spares fun returned _ => abides.attempt ?_ fun samples _ => ?_
    · exact (Staged.faults_single _ _).refusesNoRank.mono fun _ free => .of_not_refuses free
    · exact abides.keep rfl rfl rfl
  case agree =>
    refine abides.receive honest spares fun returned _ => abides.attempt ?_ fun count _ => ?_
    · have status : FailsOnly (do
          (← returned.buffers.destination.expectSingle "validation status").get 0)
          (¬ ·.RefusesRank) := by
        refine (Staged.faults_single _ _).refusesNoRank.bind fun samples => ?_
        rw [Tensor.get]
        split
        · exact failsOnly_ok _
        · exact failsOnly_error id
      exact status.mono fun _ free => .of_not_refuses free
    · exact abides.keep rfl rfl rfl
  all_goals exact abides

end Participant

/-! ## All ranks -/

/-- What is asked of a bench: ranks that exist and are not tampered with, and peers among them. -/
structure Bench.HasPeers (bench : Bench) : Prop where
  spans : bench.world.members World.defaultGroup = List.range bench.worldSize
  honest : bench.tampering = {}
  peers : ∀ operation,
    AreRanks bench.worldSize (Item.peers bench.params bench.worldSize operation).1 ∧
      AreRanks bench.worldSize (Item.peers bench.params bench.worldSize operation).2

/-- A call that is addressed names different ranks that exist. -/
theorem Call.Addressed.areRanks {call : Call} (reach : bench.HasPeers)
    (addressed : call.Addressed bench.params bench.worldSize) :
    AreRanks bench.worldSize call.sources ∧ AreRanks bench.worldSize call.destinations := by
  rcases addressed.names with named | housekeeping
  · obtain ⟨sources, destinations⟩ := Prod.mk.inj named.peers
    rw [sources, destinations]
    exact reach.peers call.operation
  · rw [housekeeping.sources, housekeeping.destinations]
    exact ⟨.nil, .nil⟩

/-- A call that is addressed and needs a root needs that of the parameters. -/
theorem Call.Addressed.root {call : Call} (addressed : call.Addressed params size)
    (rooted : call.operation.isRooted = true) : call.root = params.root := by
  rcases addressed.names with named | housekeeping
  · exact named.root
  · cases housekeeping.rootless.symm.trans rooted

/-- Whether a rank is refused for a call that is addressed is decided by its root. -/
theorem Bench.HasPeers.refuses_iff (reach : bench.HasPeers) {rank : Nat}
    (inside : rank < bench.worldSize) {call : Call}
    (addressed : call.Addressed bench.params bench.worldSize) {error : Error}
    (refuses : error.RefusesRank) :
    bench.world.seatFor rank call = .error error ↔
      (call.operation.isRooted = true ∧ bench.worldSize ≤ bench.params.root) ∧
        error = .invalidRank bench.params.root bench.worldSize := by
  obtain ⟨sources, destinations⟩ := addressed.areRanks reach
  have members : bench.world.members call.group = List.range bench.worldSize := by
    rw [addressed.group, reach.spans]
  have count : (bench.world.members call.group).length = bench.worldSize := by
    rw [members, List.length_range]
  rw [World.refuses_iff (by rw [members]; exact List.mem_range.mpr inside) ?_ refuses, count]
  · constructor
    · rintro ⟨⟨rooted, missing⟩, rfl⟩
      rw [addressed.root rooted] at missing ⊢
      exact ⟨⟨rooted, missing⟩, rfl⟩
    · rintro ⟨⟨rooted, missing⟩, rfl⟩
      rw [addressed.root rooted]
      exact ⟨⟨rooted, missing⟩, rfl⟩
  · rw [count]
    exact List.forall_mem_append.mpr ⟨sources.inside, destinations.inside⟩

namespace Ensemble

/-- The calls that the ranks issue for an action, in the order of the turns. -/
def issued (bench : Bench) (now : Nat → Nat) (action : Action) (ensemble : Ensemble) :
    List (Nat × Call) :=
  collect ensemble.turns ((ensemble.participants.map (askOne bench now action)).map (·.2))

/-- What becomes of these calls, in the same order. -/
def outcomes (bench : Bench) (now : Nat → Nat) (action : Action) (ensemble : Ensemble) :
    List (Outcome Call) :=
  (ensemble.exchange.perform 0 (ensemble.issued bench now action)).2

/-- The exchange is at rest, and every rank is as it must be while an item is staged. -/
structure Abides (bench : Bench) (staged : Option Item) (ensemble : Ensemble) : Prop where
  rest : ensemble.exchange.AtRest
  world : ensemble.exchange.world = bench.world
  posts : ensemble.exchange.endpoints.length = bench.worldSize
  ranks : ensemble.participants.map Participant.rank = List.range bench.worldSize
  each : ∀ participant ∈ ensemble.participants, participant.Abides bench staged

/-- Before a run nothing is staged. -/
theorem abides_create (bench : Bench) (notices : List Notice) (source : Source) :
    (create bench notices source).Abides bench none where
  rest := Exchange.atRest_create bench.world
  world := rfl
  posts := by simp [create, Exchange.create, Bench.worldSize]
  ranks := by
    rw [create, List.map_map]
    exact List.map_id _
  each := by
    intro participant present
    obtain ⟨rank, _, rfl⟩ := List.mem_map.mp present
    refine ⟨fun _ => ⟨⟨rfl, .inr ⟨.inl rfl, rfl, rfl⟩⟩, ?_⟩, ?_, ?_⟩
    all_goals rintro _ ⟨⟩

/-- A call is issued by the participant of its rank, which has not failed. -/
theorem asked_of_issued (ranks : ensemble.participants.map Participant.rank = List.range size)
    {rank : Nat} {call : Call} (made : (rank, call) ∈ ensemble.issued bench now action) :
    ∃ participant ∈ ensemble.participants, participant.rank = rank ∧
      participant.failure = none ∧
        call ∈ (participant.ask bench (now participant.rank) action).2 := by
  obtain ⟨turn, _, made⟩ := List.mem_flatMap.mp made
  obtain ⟨_, asked, same⟩ := List.mem_map.mp made
  obtain ⟨rfl, rfl⟩ := Prod.mk.inj same
  rw [List.getD_eq_getElem?_getD, List.getElem?_map, List.getElem?_map] at asked
  cases located : ensemble.participants[turn]? with
  | none => simp [located] at asked
  | some participant =>
    refine ⟨participant, List.mem_of_getElem? located, (rank_eq_of_ranks ranks located).1, ?_⟩
    rw [located, Option.map_some, Option.map_some, Option.getD_some, askOne] at asked
    split at asked
    · cases asked
    next sound => exact ⟨by simpa using sound, asked⟩

/-- Each answer that a rank gets is the outcome of a call that it issued. -/
theorem issued_of_answer {rank : Nat} {answer : Outcome Call}
    (got : answer ∈ ((((ensemble.issued bench now action).map (·.1)).zip
      (ensemble.outcomes bench now action)).filter (·.1 = rank)).map (·.2)) :
    ∃ (place : Nat) (call : Call),
      (ensemble.issued bench now action)[place]? = some (rank, call) ∧
      (ensemble.outcomes bench now action)[place]? = some answer := by
  obtain ⟨⟨other, _⟩, kept, rfl⟩ := List.mem_map.mp got
  obtain ⟨listed, own⟩ := List.mem_filter.mp kept
  obtain rfl : other = rank := by simpa using own
  obtain ⟨place, located⟩ := List.getElem?_of_mem listed
  obtain ⟨made, given⟩ := List.getElem?_zip_eq_some.mp located
  rw [List.getElem?_map] at made
  obtain ⟨⟨_, call⟩, issued, rfl⟩ := Option.map_eq_some_iff.mp made
  exact ⟨place, call, issued, given⟩

/-- In a step every rank asks for its calls and takes the answers to them. -/
theorem participants_step (bench : Bench) (now : Nat → Nat) (action : Action)
    (ensemble : Ensemble) :
    (ensemble.step bench now action).participants =
      ensemble.participants.map fun participant => takeOne bench action
        (((ensemble.issued bench now action).map (·.1)).zip (ensemble.outcomes bench now action))
        (askOne bench now action participant).1 :=
  List.map_map

namespace Abides

variable {place rank : Nat} {call : Call} {last : Ensemble} {agenda : List Action}

/-- All calls of a step are addressed. -/
theorem addressed (abides : ensemble.Abides bench staged)
    (made : (rank, call) ∈ ensemble.issued bench now action) :
    rank < bench.worldSize ∧ call.Addressed bench.params bench.worldSize := by
  obtain ⟨participant, present, rfl, sound, asked⟩ := asked_of_issued abides.ranks made
  exact ⟨(getElem?_of_ranks abides.ranks present).2,
    (abides.each participant present).addressed sound _ action call asked⟩

/-- The outcome of a call of a step is an answer to it. -/
theorem mayAnswer (abides : ensemble.Abides bench staged)
    (made : (ensemble.issued bench now action)[place]? = some (rank, call))
    {outcome : Outcome Call} (given : (ensemble.outcomes bench now action)[place]? = some outcome) :
    bench.world.MayAnswer rank call outcome := by
  rw [← abides.world]
  refine abides.rest.mayAnswer (fun made listed => ?_) made given
  rw [abides.posts]
  exact (abides.addressed listed).1

/-- In a step a rank is refused exactly for calls that need the root, if there is no such rank, and
it is the root that is refused. -/
theorem refused_iff (abides : ensemble.Abides bench staged) (reach : bench.HasPeers)
    (made : (ensemble.issued bench now action)[place]? = some (rank, call)) {error : Error}
    (refuses : error.RefusesRank) :
    (ensemble.outcomes bench now action)[place]? = some (.error error) ↔
      (call.operation.isRooted = true ∧ bench.worldSize ≤ bench.params.root) ∧
        error = .invalidRank bench.params.root bench.worldSize := by
  obtain ⟨inside, addressed⟩ := abides.addressed (List.mem_of_getElem? made)
  rw [← reach.refuses_iff inside addressed refuses, ← abides.world]
  refine abides.rest.refused_iff (fun made listed => ?_) made refuses
  rw [abides.posts]
  exact (abides.addressed listed).1

/-- A step leaves the ranks as they must be, with what its action stages. -/
theorem step (abides : ensemble.Abides bench before) (reach : bench.HasPeers)
    (stages : action.Stages before after) (now : Nat → Nat) :
    (ensemble.step bench now action).Abides bench after := by
  obtain ⟨events, log, clock, performs⟩ :=
    abides.rest.perform 0 (ensemble.issued bench now action)
  have ledger := performs.history.ledger abides.rest
  refine ⟨performs.rest, ledger.world.trans abides.world, ledger.posts.trans abides.posts,
    (ranks_step bench now ensemble action).trans abides.ranks, ?_⟩
  rw [participants_step, List.forall_mem_map]
  intro participant present
  obtain ⟨located, inside⟩ := getElem?_of_ranks abides.ranks present
  have asking := (abides.each participant present).askOne stages inside now
  rw [takeOne, rank_askOne]
  split
  · exact asking
  next sound =>
    refine asking.take reach.honest (fun error got refuses => ?_) fun copies same returned got => ?_
    · obtain ⟨place, call, made, given⟩ := issued_of_answer got
      obtain ⟨⟨_, missing⟩, same⟩ := (abides.refused_iff reach made refuses).mp given
      exact ⟨missing, same⟩
    · subst same
      obtain ⟨place, call, made, given⟩ := issued_of_answer got
      have alike : call.Alike returned := (abides.mayAnswer made given).alike
      obtain ⟨other, listed, ranked, going, asked⟩ :=
        asked_of_issued abides.ranks (List.mem_of_getElem? made)
      -- No two participants have one rank.
      obtain rfl : other = participant := by
        have there := (getElem?_of_ranks abides.ranks listed).1
        rw [ranked, located] at there
        exact (Option.some.inj there).symm
      have held := asking.call (by simpa using sound)
      rw [Lockstep.askOne_eq going, ← Participant.call_of_asked asked] at held
      exact alike.heldFor held

/-- So does an agenda. -/
theorem follow (abides : ensemble.Abides bench before) (reach : bench.HasPeers)
    (stages : Agenda.Stages before agenda after) (follows : Follows bench agenda ensemble last) :
    last.Abides bench after := by
  induction follows generalizing before with
  | done =>
    cases stages
    exact abides
  | act now onward inductionHypothesis =>
    obtain _ | ⟨first, rest⟩ := stages
    exact inductionHypothesis (abides.step reach first now) rest

end Abides

/-- What a step of a run knows of ranks: its calls name different ranks that exist, as the operation
of each demands, and none of these is refused. Only calls that need the root are refused a rank, all
of them if there is no such rank and none otherwise; and a rank stops for no other rank either. -/
structure RefusesRootOnly (bench : Bench) (now : Nat → Nat) (action : Action)
    (ensemble : Ensemble) :
    Prop where
  addressed : ∀ made ∈ ensemble.issued bench now action,
    made.2.Addressed bench.params bench.worldSize ∧
      AreRanks bench.worldSize made.2.sources ∧ AreRanks bench.worldSize made.2.destinations
  refused : ∀ (place rank : Nat) (call : Call) (missing count : Nat),
    (ensemble.issued bench now action)[place]? = some (rank, call) →
      ((ensemble.outcomes bench now action)[place]? = some (.error (.invalidRank missing count)) ↔
        (call.operation.isRooted = true ∧ bench.worldSize ≤ bench.params.root) ∧
          missing = bench.params.root ∧ count = bench.worldSize)
  stopped : ∀ participant ∈ (ensemble.step bench now action).participants, ∀ missing count,
    participant.failure = some (.invalidRank missing count) →
      bench.worldSize ≤ bench.params.root ∧ missing = bench.params.root ∧ count = bench.worldSize

/-- So it is in every step that finds the ranks as they must be. -/
theorem Abides.refusesRootOnly (abides : ensemble.Abides bench before) (reach : bench.HasPeers)
    (stages : action.Stages before after) (now : Nat → Nat) :
    ensemble.RefusesRootOnly bench now action where
  addressed := by
    rintro ⟨rank, call⟩ made
    have addressed := (abides.addressed made).2
    exact ⟨addressed, addressed.areRanks reach⟩
  refused := by
    intro place rank call missing count made
    have refuses : (Error.invalidRank missing count).RefusesRank := trivial
    rw [abides.refused_iff reach made refuses, Error.invalidRank.injEq]
  stopped := by
    intro participant present missing count failed
    obtain ⟨beyond, same⟩ :=
      ((abides.step reach stages now).each participant present).failure _ failed trivial
    obtain ⟨rfl, rfl⟩ := Error.invalidRank.inj same
    exact ⟨beyond, rfl, rfl⟩

/-- Parameters that were read from a command line have a world of at least one rank: as many as the
command line asks for, else as many as the launcher started, else two. Configured or not, the
senders and the receivers of every operation are different ranks of that world, and in a run on it
they are those of the calls that are issued. So no call is ever refused a sender or a receiver; the
one rank that can be refused is the root. -/
theorem only_root_refused {text : List String} {arguments : Arguments} {launcher : Launcher}
    (read : Arguments.read text = .ok arguments)
    (made : arguments.params launcher = .ok params) :
    ∃ size, 0 < size ∧ params.launcher.worldSize = some size ∧
      (∀ value, arguments.lookup "world-size" = some value →
        Text.signed? 64 value.toList = some (size : Int)) ∧
      (arguments.lookup "world-size" = none → size = launcher.worldSize.getD 2) ∧
      (∀ operation, AreRanks size (Item.peers params size operation).1 ∧
        AreRanks size (Item.peers params size operation).2) ∧
      ∀ (environment : Environment) (bench : Bench) (timeoutMs : Nat),
        bench.params = params.withOverrides environment →
        bench.world = .create size [] timeoutMs → bench.tampering = {} →
        ∀ operations notices source done action rest ensemble now,
          bench.agenda operations = done ++ action :: rest →
          Follows bench done (create bench notices source) ensemble →
          ensemble.RefusesRootOnly bench now action := by
  obtain ⟨inhabited, launched, sources, destinations⟩ := Arguments.params_named made
  obtain ⟨given, fallback⟩ := Arguments.worldSize_of_read read launcher
  have peers (operation : Operation) := Item.areRanks_peers inhabited sources destinations operation
  refine ⟨_, inhabited, launched, given, fallback, peers, ?_⟩
  intro environment bench timeoutMs configured local_ honest operations notices source done action
    rest ensemble now planned follows
  have reach : bench.HasPeers := by
    refine ⟨?_, honest, fun operation => ?_⟩
    · rw [Bench.worldSize, local_]
      rfl
    · rw [Bench.worldSize, configured, local_]
      exact peers operation
  obtain ⟨after, stages⟩ := bench.stages_agenda operations
  rw [planned] at stages
  obtain ⟨between, first, onward⟩ := stages.split
  obtain _ | ⟨here, _⟩ := onward
  exact ((abides_create bench notices source).follow reach first follows).refusesRootOnly reach here
    now

/-- Three ranks of a launcher send to a root that does not exist. All of them are senders then, and
it is the root that each is refused. -/
theorem only_root_refused_beyond :
    let text := ["--collective=incast", "--root=5", "--b=8", "--e=8"]
    let launcher : Launcher := { worldSize := some 3 }
    let arguments := (Arguments.read text).toOption.getD []
    let params := (arguments.params launcher).toOption.getD {}
    let bench : Bench := { params, world := .create 3 [] 1000 }
    let done := [.join, .prepare, .tell [], .stage ⟨.incast, 8⟩]
    let ensemble := (create bench []).run bench done
    Arguments.read text = .ok arguments ∧ arguments.params launcher = .ok params ∧
      bench.agenda [.incast] = done ++ .call 1 :: (bench.agenda [.incast]).drop 5 ∧
      (ensemble.issued bench (fun _ => 0) (.call 1)).map (fun made => (made.1, made.2.sources)) =
        [(0, [0, 1, 2]), (1, [0, 1, 2]), (2, [0, 1, 2])] ∧
      ∀ place < 3,
        (ensemble.outcomes bench (fun _ => 0) (.call 1))[place]? =
          some (.error (.invalidRank 5 3)) := by
  intro text launcher arguments params bench done ensemble
  obtain ⟨read, made, launched, configured, planned, root⟩ :
      Arguments.read text = .ok arguments ∧ arguments.params launcher = .ok params ∧
        params.launcher.worldSize = some 3 ∧ bench.params = params.withOverrides [] ∧
        bench.agenda [.incast] = done ++ .call 1 :: (bench.agenda [.incast]).drop 5 ∧
        bench.params.root = 5 := by
    decide +kernel
  obtain ⟨issued, rooted⟩ : (ensemble.issued bench (fun _ => 0) (.call 1)).map
      (fun made => (made.1, made.2.sources)) = [(0, [0, 1, 2]), (1, [0, 1, 2]), (2, [0, 1, 2])] ∧
        ∀ made ∈ ensemble.issued bench (fun _ => 0) (.call 1),
          made.2.operation.isRooted = true := by
    decide +kernel
  obtain ⟨size, _, known, _, _, _, runs⟩ := only_root_refused read made
  obtain rfl : 3 = size := Option.some.inj (launched.symm.trans known)
  have step : ensemble.RefusesRootOnly bench (fun _ => 0) (.call 1) :=
    runs [] bench 1000 configured rfl rfl [.incast] [] .counter done (.call 1) _ ensemble _ planned
      (follows_run bench done _)
  refine ⟨read, made, planned, issued, fun place inside => ?_⟩
  have count : (ensemble.issued bench (fun _ => 0) (.call 1)).length = 3 := by
    simpa using congrArg List.length issued
  obtain ⟨⟨rank, call⟩, here⟩ : ∃ made,
    (ensemble.issued bench (fun _ => 0) (.call 1))[place]? = some made :=
    ⟨_, List.getElem?_eq_getElem (count ▸ inside)⟩
  refine (step.refused place rank call 5 3 here).mpr
    ⟨⟨rooted _ (List.mem_of_getElem? here), ?_⟩, root.symm, rfl⟩
  have absent : 3 ≤ 5 := by decide
  rwa [root]

end Ensemble

end CollectiveBench
