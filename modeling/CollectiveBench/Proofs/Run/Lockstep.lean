import CollectiveBench.Proofs.Delivery.Builds
import CollectiveBench.Proofs.Exchange.Copies
import CollectiveBench.Proofs.Exchange.StagedCalls
import CollectiveBench.Proofs.Run.Participants

/-!
# Ranks in lockstep

The ranks of a run are in lockstep when none has failed, they share an exchange in which all count
alike and nobody waits, and each has a property that a proof is about. They act in concert where all
issue equally many copies of their calls and are refused together or not at all
(`Ensemble.Concerted`). Then every call is answered with what a complete round brings, whatever the
turns, and each participant takes the step for itself (`Lockstep.step_concerted`).

`Ensemble.Goes` says of a whole agenda that every action of it is done in concert, as far as the
ranks come. `Leads` carries it from single actions to agendas that nobody fails in.
-/

namespace CollectiveBench

variable {bench : Bench} {holds after : Participant → Prop} {ensemble : Ensemble} {now : Nat → Nat}
  {action : Action}

/-- No rank has failed, all ranks meet in the exchange, and each has a property. -/
structure Ensemble.Lockstep (bench : Bench) (holds : Participant → Prop) (ensemble : Ensemble) :
    Prop where
  ready : ensemble.exchange.Ready World.defaultGroup
  world : ensemble.exchange.world = bench.world
  turns : ensemble.turns.Perm (List.range bench.worldSize)
  ranks : ensemble.participants.map Participant.rank = List.range bench.worldSize
  each : ∀ participant ∈ ensemble.participants, participant.failure = none ∧ holds participant

/-- The ranks issue equally many copies of their calls to the group of all, and they take a seat
together or not at all. -/
structure Ensemble.Concerted [Halves] [Arithmetic] (bench : Bench) (now : Nat → Nat)
    (action : Action) (copies : Nat)
    (made : Nat → Call) (ensemble : Ensemble) : Prop where
  here : ∀ participant ∈ ensemble.participants,
    (made participant.rank).group = World.defaultGroup
  alike : bench.world.Alike World.defaultGroup made
  asks : ∀ participant ∈ ensemble.participants,
    (participant.ask bench (now participant.rank) action).2 =
      List.replicate copies (made participant.rank)

/-- The participant does an action without the other ranks and does not fail. -/
structure Participant.Alone [Halves] [Arithmetic] (bench : Bench) (now : Nat) (action : Action)
    (after : Participant → Prop) (participant : Participant) : Prop where
  asks : (participant.ask bench now action).2 = []
  sound : (participant.ask bench now action).1.failure = none
  after : after (participant.ask bench now action).1

/-- The participant issues one call that suits the terms, and goes on from any such call. -/
structure Participant.Joins [Halves] [Arithmetic] (bench : Bench) (now : Nat) (action : Action)
    (terms : Terms)
    (after : Participant → Prop) (participant : Participant) (call : Call) : Prop where
  asks : (participant.ask bench now action).2 = [call]
  group : call.group = World.defaultGroup
  suits : call.Suits terms participant.rank
  onward : ∀ returned, returned.Suits terms participant.rank → returned.group = World.defaultGroup →
    ((participant.ask bench now action).1.take bench action [.ok returned]).failure = none ∧
      after ((participant.ask bench now action).1.take bench action [.ok returned])

/-- Calls that suit common terms take a seat together or not at all, and each is answered with a
call that suits the terms again. -/
theorem World.answers_of_suits [Arithmetic] {world : World} {group : Nat} {terms : Terms}
    {made : Nat → Call}
    (members : world.members group = terms.ranks) (held : terms.Held)
    (here : ∀ rank ∈ terms.ranks, (made rank).group = group)
    (suits : ∀ rank ∈ terms.ranks, (made rank).Suits terms rank) :
    world.Alike group made ∧ ∀ rank ∈ terms.ranks, Gives (world.answer group made rank)
      fun returned => returned.Suits terms rank ∧ returned.group = group := by
  rcases accepts_of_suits members here suits with accepted | free
  · refine ⟨.inl (members ▸ accepted), fun rank member => ?_⟩
    rw [answer_of_accepts (accepted rank member), members]
    refine (gives_conclude_of_held held suits member).mono ?_
    rintro _ ⟨suiting, _, rfl⟩
    exact ⟨suiting, here rank member⟩
  · have free (rank : Nat) (member : rank ∈ terms.ranks) :
        (made rank).operation = .noop ∨ (made rank).operation = .wait := by
      rwa [Call.operation, (suits rank member).buffers.operation]
    refine ⟨.inr fun rank member => ?_, fun rank member => ?_⟩
    · exact (answer_free (free rank (members ▸ member)) group).2
    · exact ⟨_, (answer_free (free rank member) group).1, suits rank member, here rank member⟩

/-- At a barrier all ranks take a seat. -/
theorem World.alike_barrier (world : World) (group : Nat) :
    world.Alike group fun _ => .barrier group := by
  refine .inl fun rank member => accepts_of_peers ⟨nofun, nofun⟩ ?_ member
  simp [Call.checkPeers, Call.barrier, Call.operation, Operation.isRooted]

namespace Ensemble

variable {copies : Nat} {made : Nat → Call}

/-- The order of turns after a completed round names the same ranks. -/
theorem rotate_perm (turns : List Nat) : (rotate turns).Perm turns := by
  rw [rotate]
  rcases List.eq_nil_or_concat turns with rfl | ⟨front, last, rfl⟩
  · exact .refl _
  · simpa using (List.perm_append_comm : ([last] ++ front).Perm (front ++ [last]))

/-- Where the participants stand in the order of their ranks, the rank of a participant is its
place. -/
theorem rank_eq_of_ranks {size : Nat}
    (ranks : ensemble.participants.map Participant.rank = List.range size)
    {participant : Participant} {place : Nat}
    (located : ensemble.participants[place]? = some participant) :
    participant.rank = place ∧ place < size := by
  have ranked : (ensemble.participants.map Participant.rank)[place]? =
      (List.range size)[place]? := congrArg (·[place]?) ranks
  rw [List.getElem?_map, located, Option.map_some, eq_comm, List.getElem?_eq_some_iff] at ranked
  obtain ⟨inside, same⟩ := ranked
  rw [List.getElem_range] at same
  exact ⟨same.symm, by simpa using inside⟩

/-- A participant stands at the place of its rank. -/
theorem getElem?_of_ranks {size : Nat}
    (ranks : ensemble.participants.map Participant.rank = List.range size)
    {participant : Participant} (present : participant ∈ ensemble.participants) :
    ensemble.participants[participant.rank]? = some participant ∧ participant.rank < size := by
  obtain ⟨place, located⟩ := List.getElem?_of_mem present
  obtain ⟨rfl, inside⟩ := rank_eq_of_ranks ranks located
  exact ⟨located, inside⟩

/-- Before a run the ranks are in lockstep. -/
theorem lockstep_of_create
    (spans : bench.world.members World.defaultGroup = List.range bench.worldSize)
    (notices : List Notice) (source : Source)
    (each : ∀ rank < bench.worldSize, holds (.create bench rank notices source)) :
    (create bench notices source).Lockstep bench holds where
  ready := {
    rest := Exchange.atRest_create bench.world
    distinct := by
      change (bench.world.members World.defaultGroup).Nodup
      rw [spans]
      exact List.nodup_range
    posts := by
      change ∀ rank ∈ bench.world.members World.defaultGroup, _
      rw [spans]
      intro rank listed
      simpa [create, Exchange.create] using listed
    inStep := Exchange.inStep_create _ _ _ }
  world := rfl
  turns := .refl _
  ranks := by
    rw [create, List.map_map]
    exact List.map_id _
  each := by
    intro participant present
    obtain ⟨rank, listed, rfl⟩ := List.mem_map.mp present
    exact ⟨rfl, each rank (List.mem_range.mp listed)⟩

/-! ## One action -/

/-- A first half of an action keeps the rank of a participant. -/
theorem rank_askOne [Halves] [Arithmetic] (bench : Bench) (now : Nat → Nat) (action : Action)
    (participant : Participant) :
    (askOne bench now action participant).1.rank = participant.rank := by
  rw [askOne]
  split
  · rfl
  · exact Participant.rank_ask bench _ action participant

/-- A step keeps the ranks of all participants. -/
theorem ranks_step [Halves] [Arithmetic] (bench : Bench) (now : Nat → Nat) (ensemble : Ensemble)
    (action : Action) :
    (ensemble.step bench now action).participants.map Participant.rank =
      ensemble.participants.map Participant.rank := by
  have taken (answers : List (Nat × Outcome Call)) (participant : Participant) :
      (takeOne bench action answers participant).rank = participant.rank := by
    rw [takeOne]
    split
    · rfl
    · exact Participant.rank_take bench action _ participant
  simp only [step, List.map_map]
  exact List.map_congr_left fun participant _ =>
    (taken _ _).trans (rank_askOne bench now action participant)

/-- The turns may rotate, but name the same ranks. -/
theorem turns_step [Halves] [Arithmetic] (bench : Bench) (now : Nat → Nat) (ensemble : Ensemble)
    (action : Action) :
    (ensemble.step bench now action).turns.Perm ensemble.turns := by
  simp only [Ensemble.step]
  split
  · exact rotate_perm _
  · exact .refl _

/-- What a step makes of ranks in lockstep: each participant takes it for itself, and the exchange
is ready for the next one. -/
structure Steps [Halves] [Arithmetic] (bench : Bench) (now : Nat → Nat) (ensemble : Ensemble)
    (action : Action)
    (next : Participant → Participant) : Prop where
  participants : (ensemble.step bench now action).participants = ensemble.participants.map next
  ready : (ensemble.step bench now action).exchange.Ready World.defaultGroup
  world : (ensemble.step bench now action).exchange.world = bench.world

/-- If all participants go on, they stay in lockstep. -/
theorem Steps.onward [Halves] [Arithmetic] {next : Participant → Participant}
    (steps : Steps bench now ensemble action next) (lockstep : ensemble.Lockstep bench holds)
    (each : ∀ participant ∈ ensemble.participants,
      (next participant).failure = none ∧ after (next participant)) :
    (ensemble.step bench now action).Lockstep bench after := by
  refine ⟨steps.ready, steps.world, (turns_step bench now ensemble action).trans lockstep.turns,
    (ranks_step bench now ensemble action).trans lockstep.ranks, ?_⟩
  rw [steps.participants, List.forall_mem_map]
  exact each

namespace Lockstep

/-- Ranks in lockstep may be said less about. -/
theorem mono (lockstep : ensemble.Lockstep bench holds)
    (weaken : ∀ participant, holds participant → after participant) :
    ensemble.Lockstep bench after where
  ready := lockstep.ready
  world := lockstep.world
  turns := lockstep.turns
  ranks := lockstep.ranks
  each participant present := (lockstep.each participant present).imp_right (weaken participant)

/-- The rank of a participant is its place. -/
theorem rank_eq (lockstep : ensemble.Lockstep bench holds) {participant : Participant} {place : Nat}
    (located : ensemble.participants[place]? = some participant) :
    participant.rank = place ∧ place < bench.worldSize :=
  rank_eq_of_ranks lockstep.ranks located

/-- In lockstep a participant stands at the place of its rank. -/
theorem getElem?_rank (lockstep : ensemble.Lockstep bench holds) {participant : Participant}
    (present : participant ∈ ensemble.participants) :
    ensemble.participants[participant.rank]? = some participant ∧
      participant.rank < bench.worldSize :=
  getElem?_of_ranks lockstep.ranks present

/-- Every rank of the world is the rank of a participant. -/
theorem exists_rank (lockstep : ensemble.Lockstep bench holds) {rank : Nat}
    (inside : rank < bench.worldSize) :
    ∃ participant ∈ ensemble.participants, participant.rank = rank :=
  List.mem_map.mp (lockstep.ranks ▸ List.mem_range.mpr inside)

/-- A function of the rank that gives for every participant what another one gives for the
participant itself. -/
theorem exists_byRank {α : Type} [Nonempty α] (lockstep : ensemble.Lockstep bench holds)
    (choice : Participant → α) :
    ∃ byRank : Nat → α, ∀ participant ∈ ensemble.participants,
      byRank participant.rank = choice participant := by
  refine ⟨fun rank => (ensemble.participants[rank]?.map choice).getD (Classical.arbitrary α),
    fun participant present => ?_⟩
  simp [(lockstep.getElem?_rank present).1]

/-- A rank that has not failed takes the first half of an action. -/
theorem askOne_eq [Halves] [Arithmetic] {participant : Participant}
    (sound : participant.failure = none) :
    askOne bench now action participant =
      participant.ask bench (now participant.rank) action := by
  simp [askOne, sound]

/-- What the ranks ask for in their turns, where each asks for copies of one call. -/
theorem collect_eq [Halves] [Arithmetic] (lockstep : ensemble.Lockstep bench holds)
    (asks : ∀ participant ∈ ensemble.participants,
      (participant.ask bench (now participant.rank) action).2 =
        List.replicate copies (made participant.rank)) :
    collect ensemble.turns ((ensemble.participants.map (askOne bench now action)).map (·.2)) =
      copiesOf made copies ensemble.turns := by
  rw [collect, copiesOf]
  refine List.flatMap_congr fun rank listed => ?_
  obtain ⟨participant, present, rfl⟩ :=
    lockstep.exists_rank (List.mem_range.mp (lockstep.turns.mem_iff.mp listed))
  rw [List.getD_eq_getElem?_getD, List.getElem?_map, List.getElem?_map,
    (lockstep.getElem?_rank present).1, Option.map_some, Option.map_some, Option.getD_some,
    askOne_eq (lockstep.each participant present).1, asks participant present, List.map_replicate]

/-- In a step in concert every participant gets for each copy of its call what a complete round
brings it, and the exchange is ready for the next step. -/
theorem step_concerted [Halves] [Arithmetic] (lockstep : ensemble.Lockstep bench holds)
    (spans : bench.world.members World.defaultGroup = List.range bench.worldSize)
    (patient : 0 < bench.world.timeoutMs)
    (concerted : ensemble.Concerted bench now action copies made) :
    Steps bench now ensemble action fun participant =>
      participant.next bench (now participant.rank) action
        (List.replicate copies (bench.world.answer World.defaultGroup made participant.rank)) := by
  have collected := lockstep.collect_eq concerted.asks
  have members : ensemble.exchange.world.members World.defaultGroup =
      List.range bench.worldSize := by rw [lockstep.world, spans]
  -- Whatever the order of turns is, the calls of a step are the copies of one call of each member.
  have copied : ensemble.exchange.world.Copied World.defaultGroup copies made
      (copiesOf made copies ensemble.turns) := by
    refine World.copied_copiesOf (fun rank member => ?_) lockstep.ready.distinct
      (members ▸ lockstep.turns) copies
    rw [members] at member
    obtain ⟨participant, present, rfl⟩ := lockstep.exists_rank (List.mem_range.mp member)
    exact concerted.here participant present
  obtain ⟨answers, ready, world⟩ := lockstep.ready.perform_copies copied
    (lockstep.world ▸ concerted.alike) (lockstep.world ▸ patient)
  have exchange : (ensemble.step bench now action).exchange =
      (ensemble.exchange.perform 0 (copiesOf made copies ensemble.turns)).1 := by
    simp only [Ensemble.step, collected]
  refine ⟨?_, exchange ▸ ready, exchange ▸ world.trans lockstep.world⟩
  simp only [Ensemble.step, collected]
  rw [List.map_map]
  refine List.map_congr_left fun participant present => ?_
  have member : participant.rank ∈ ensemble.exchange.world.members World.defaultGroup := by
    rw [members]
    exact List.mem_range.mpr (lockstep.getElem?_rank present).2
  rw [Function.comp, askOne_eq (lockstep.each participant present).1, takeOne,
    Participant.rank_ask, answers participant.rank member, lockstep.world]
  rfl

/-- A step for which nobody asks for anything is one in concert. -/
theorem concerted_quiet [Halves] [Arithmetic] (bench : Bench)
    (quiet : ∀ participant ∈ ensemble.participants,
      (participant.ask bench (now participant.rank) action).2 = []) :
    ensemble.Concerted bench now action 0 fun _ => .barrier World.defaultGroup :=
  ⟨fun _ _ => rfl, World.alike_barrier _ _, quiet⟩

/-- In such a step every participant does what it can do alone. -/
theorem step_quiet [Halves] [Arithmetic] (lockstep : ensemble.Lockstep bench holds)
    (spans : bench.world.members World.defaultGroup = List.range bench.worldSize)
    (patient : 0 < bench.world.timeoutMs)
    (quiet : ∀ participant ∈ ensemble.participants,
      (participant.ask bench (now participant.rank) action).2 = []) :
    Steps bench now ensemble action fun participant =>
      (participant.ask bench (now participant.rank) action).1 := by
  obtain ⟨participants, ready, world⟩ :=
    lockstep.step_concerted spans patient (concerted_quiet bench quiet)
  refine ⟨participants.trans (List.map_congr_left fun participant _ => ?_), ready, world⟩
  exact Participant.next_nil

/-- The calls of all ranks as a function of the rank, where each participant issues one. -/
theorem concerted_of_joins [Halves] [Arithmetic] (lockstep : ensemble.Lockstep bench holds)
    {terms : Terms}
    (spans : bench.world.members World.defaultGroup = List.range bench.worldSize)
    (everyone : terms.ranks = List.range bench.worldSize) (held : terms.Held)
    (joins : ∀ participant ∈ ensemble.participants, ∃ call,
      participant.Joins bench (now participant.rank) action terms after call) :
    ∃ made : Nat → Call, ensemble.Concerted bench now action 1 made ∧
      ∀ participant ∈ ensemble.participants,
        participant.Joins bench (now participant.rank) action terms after
            (made participant.rank) ∧
          Gives (bench.world.answer World.defaultGroup made participant.rank) fun returned =>
            returned.Suits terms participant.rank ∧ returned.group = World.defaultGroup := by
  choose! call own using joins
  have : Nonempty Call := ⟨.barrier World.defaultGroup⟩
  obtain ⟨made, same⟩ := lockstep.exists_byRank call
  have joining (participant : Participant) (present : participant ∈ ensemble.participants) :
      participant.Joins bench (now participant.rank) action terms after
        (made participant.rank) := by
    rw [same participant present]
    exact own participant present
  have each {property : Nat → Prop}
      (holds : ∀ participant ∈ ensemble.participants, property participant.rank) :
      ∀ rank ∈ terms.ranks, property rank := by
    intro rank member
    rw [everyone] at member
    obtain ⟨participant, present, rfl⟩ := lockstep.exists_rank (List.mem_range.mp member)
    exact holds participant present
  obtain ⟨alike, answers⟩ := World.answers_of_suits (spans.trans everyone.symm) held
    (each fun participant present => (joining participant present).group)
    (each fun participant present => (joining participant present).suits)
  refine ⟨made, ⟨fun participant present => (joining participant present).group, alike,
    fun participant present => (joining participant present).asks⟩,
    fun participant present => ⟨joining participant present, answers _ ?_⟩⟩
  rw [everyone]
  exact List.mem_range.mpr (lockstep.getElem?_rank present).2

end Lockstep

/-! ## Agendas -/

/-- The ranks go through an agenda from one state to another, whatever their clocks show at each
action. -/
inductive Follows [Halves] [Arithmetic] (bench : Bench) :
    List Action → Ensemble → Ensemble → Prop where
  | done (ensemble : Ensemble) : Follows bench [] ensemble ensemble
  | act {action : Action} {rest : List Action} {ensemble last : Ensemble} (now : Nat → Nat)
      (onward : Follows bench rest (ensemble.step bench now action) last) :
      Follows bench (action :: rest) ensemble last

/-- A run on clocks that stand still goes through the agenda. -/
theorem follows_run [Halves] [Arithmetic] (bench : Bench) (agenda : List Action)
    (ensemble : Ensemble) :
    Follows bench agenda ensemble (ensemble.run bench agenda) := by
  induction agenda generalizing ensemble with
  | nil => exact .done ensemble
  | cons action rest inductionHypothesis => exact .act (fun _ => 0) (inductionHypothesis _)

/-- The ranks stay the same through a run. -/
theorem Follows.ranks_eq [Halves] [Arithmetic] {agenda : List Action} {last : Ensemble}
    (follows : Follows bench agenda ensemble last) :
    last.participants.map Participant.rank = ensemble.participants.map Participant.rank := by
  induction follows with
  | done => rfl
  | act now _ inductionHypothesis => exact inductionHypothesis.trans (ranks_step bench now _ _)

/-- Whatever the clocks show of what they may, ranks in lockstep do every action of an agenda in
concert, until they stop or come to its end. -/
def Goes [Halves] [Arithmetic] (bench : Bench) (shows : (Nat → Nat) → Prop)
    (stops after : Ensemble → Prop) :
    List Action → Ensemble → Prop
  | [], ensemble => after ensemble
  | action :: rest, ensemble =>
    ensemble.Lockstep bench (fun _ => True) ∧ ∀ now, shows now →
      (∃ copies made, ensemble.Concerted bench now action copies made) ∧
        (stops (ensemble.step bench now action) ∨
          Goes bench shows stops after rest (ensemble.step bench now action))

variable {shows : (Nat → Nat) → Prop} {stops before between last : Ensemble → Prop}
  {first second : List Action}

/-- What goes to a state from where it goes on, goes all the way. -/
theorem Goes.append [Halves] [Arithmetic] (goes : Goes bench shows stops between first ensemble)
    (onward : ∀ reached, between reached → Goes bench shows stops last second reached) :
    Goes bench shows stops last (first ++ second) ensemble := by
  induction first generalizing ensemble with
  | nil => exact onward ensemble goes
  | cons action rest inductionHypothesis =>
    refine ⟨goes.1, fun now shown => ⟨(goes.2 now shown).1, ?_⟩⟩
    exact (goes.2 now shown).2.imp_right inductionHypothesis

/-- What goes on whatever the clocks show, and stops nowhere, goes on for some of them, or stops. -/
theorem Goes.weaken [Halves] [Arithmetic] {agenda : List Action}
    (goes : Goes bench (fun _ => True) (fun _ => False) last agenda ensemble)
    (shows : (Nat → Nat) → Prop) (stops : Ensemble → Prop) :
    Goes bench shows stops last agenda ensemble := by
  induction agenda generalizing ensemble with
  | nil => exact goes
  | cons action rest inductionHypothesis =>
    refine ⟨goes.1, fun now _ => ⟨(goes.2 now trivial).1, .inr ?_⟩⟩
    exact inductionHypothesis ((goes.2 now trivial).2.resolve_left id)

/-- Where nobody stops, the ranks come to the end of the agenda. -/
theorem Goes.reaches [Halves] [Arithmetic] {agenda : List Action} {reached : Ensemble}
    (goes : Goes bench (fun _ => True) (fun _ => False) last agenda ensemble)
    (follows : Follows bench agenda ensemble reached) : last reached := by
  induction follows with
  | done => exact goes
  | act now _ inductionHypothesis =>
    exact inductionHypothesis ((goes.2 now trivial).2.resolve_left id)

end Ensemble

/-- The agenda leads ranks in lockstep that have one property to ranks in lockstep that have
another. -/
def Leads [Halves] [Arithmetic] (bench : Bench) (holds : Participant → Prop) (agenda : List Action)
    (after : Participant → Prop) : Prop :=
  ∀ ensemble, Ensemble.Lockstep bench holds ensemble →
    ensemble.Goes bench (fun _ => True) (fun _ => False) (Ensemble.Lockstep bench after) agenda

namespace Leads

variable {between : Participant → Prop} {first second : List Action}

/-- No action leads nowhere. -/
theorem nil [Halves] [Arithmetic] : Leads bench holds [] holds := fun _ lockstep => lockstep

/-- Actions lead to where the second ones lead from where the first ones did. -/
theorem append [Halves] [Arithmetic] (before : Leads bench holds first between)
    (onward : Leads bench between second after) : Leads bench holds (first ++ second) after :=
  fun ensemble lockstep => (before ensemble lockstep).append onward

/-- An action leads to where the rest leads from there. -/
theorem cons [Halves] [Arithmetic] (before : Leads bench holds [action] between)
    (onward : Leads bench between second after) : Leads bench holds (action :: second) after :=
  before.append onward

/-- An action that every rank does alone. -/
theorem alone [Halves] [Arithmetic]
    (spans : bench.world.members World.defaultGroup = List.range bench.worldSize)
    (patient : 0 < bench.world.timeoutMs)
    (acts : ∀ now participant, participant.rank < bench.worldSize →
      participant.failure = none → holds participant → participant.Alone bench now action after) :
    Leads bench holds [action] after := by
  refine fun ensemble lockstep => ⟨lockstep.mono fun _ _ => trivial, fun now _ => ?_⟩
  have each (participant : Participant) (present : participant ∈ ensemble.participants) :
      participant.Alone bench (now participant.rank) action after :=
    acts _ participant (lockstep.getElem?_rank present).2 (lockstep.each participant present).1
      (lockstep.each participant present).2
  have quiet (participant : Participant) (present : participant ∈ ensemble.participants) :=
    (each participant present).asks
  refine ⟨⟨0, _, Ensemble.Lockstep.concerted_quiet bench quiet⟩, .inr ?_⟩
  exact (lockstep.step_quiet spans patient quiet).onward lockstep fun participant present =>
    ⟨(each participant present).sound, (each participant present).after⟩

/-- An action for which every rank issues one call, if the calls suit common terms. -/
theorem together [Halves] [Arithmetic] {terms : Terms}
    (spans : bench.world.members World.defaultGroup = List.range bench.worldSize)
    (patient : 0 < bench.world.timeoutMs) (everyone : terms.ranks = List.range bench.worldSize)
    (held : terms.Held)
    (joins : ∀ now participant, participant.rank < bench.worldSize → participant.failure = none →
      holds participant → ∃ call, participant.Joins bench now action terms after call) :
    Leads bench holds [action] after := by
  refine fun ensemble lockstep => ⟨lockstep.mono fun _ _ => trivial, fun now _ => ?_⟩
  obtain ⟨made, concerted, each⟩ := lockstep.concerted_of_joins spans everyone held
    fun participant present => joins (now participant.rank) participant
      (lockstep.getElem?_rank present).2 (lockstep.each participant present).1
      (lockstep.each participant present).2
  refine ⟨⟨1, made, concerted⟩, .inr ?_⟩
  refine (lockstep.step_concerted spans patient concerted).onward lockstep
    fun participant present => ?_
  obtain ⟨joining, returned, answer, suits, here⟩ := each participant present
  have asks : (participant.ask bench (now participant.rank) action).2 ≠ [] := by
    rw [joining.asks]
    exact List.cons_ne_nil _ _
  rw [answer, Participant.next_of_asks (lockstep.each participant present).1 asks]
  exact joining.onward returned suits here

/-- Actions that are repeated keep what one of them keeps. -/
theorem replicate [Halves] [Arithmetic] (keeps : Leads bench holds [action] holds) (count : Nat) :
    Leads bench holds (List.replicate count action) holds := by
  induction count with
  | zero => exact nil
  | succ count inductionHypothesis => exact keeps.cons inductionHypothesis

/-- Agendas for the entries of a list, each of which adds to what was done, do all of it. -/
theorem flatMap [Halves] [Arithmetic] {α β : Type} {entries : List α} {agenda : α → List Action}
    {adds : α → List β}
    {holds : List β → Participant → Prop}
    (each : ∀ entry ∈ entries, ∀ done,
      Leads bench (holds done) (agenda entry) (holds (done ++ adds entry))) (done : List β) :
    Leads bench (holds done) (entries.flatMap agenda) (holds (done ++ entries.flatMap adds)) := by
  induction entries generalizing done with
  | nil => simpa using nil
  | cons entry rest inductionHypothesis =>
    rw [List.flatMap_cons, List.flatMap_cons, ← List.append_assoc]
    exact (each entry List.mem_cons_self done).append
      (inductionHypothesis (fun other listed => each other (List.mem_cons_of_mem _ listed)) _)

end Leads

end CollectiveBench
