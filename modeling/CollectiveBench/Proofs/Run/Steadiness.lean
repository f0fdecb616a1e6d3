import CollectiveBench.Proofs.Run.DryRun
import CollectiveBench.Proofs.Run.Supplies
import CollectiveBench.Proofs.Run.Together
import CollectiveBench.Proofs.Run.Verdict
import CollectiveBench.Proofs.Run.Workloads

/-!
# Steady ranks

What becomes of a rank in a run is decided by little of its state: by its workload, by the buffers
of its call, by the intervals that it summed up, by the outcome of its check. A rank is steady if
these are as its item and its rank demand. The values that a call moves, and those that a workload
multiplies, do not matter. So each action that steady ranks take makes all of them steady again, or
it makes all of them give up.
-/

namespace CollectiveBench

variable [Halves] [Arithmetic] {bench : Bench} {item : Item} {participant : Participant}
  {action : Action}
  {now horizon : Nat} {staged : Option (Item × Nat)}

/-- What is asked of a bench: ranks that exist, time to wait for them, nobody who tampers with what
they exchange, clocks that do not show so much that the intervals of an item overflow, and words
that hold what a workload and all calls of an item count. -/
structure Bench.IsFair (bench : Bench) (horizon : Nat) : Prop where
  spans : bench.world.members World.defaultGroup = List.range bench.worldSize
  patient : 0 < bench.world.timeoutMs
  honest : bench.tampering = {}
  timely : bench.params.iterations * horizon ≤ powerOfTwo 64 * Stopwatch.second
  workload : Workload.Fits bench.params
  counted : Arithmetic.Holds (bench.params.iterations * Agenda.callsPerIteration bench.params)

/-- What is asked of an item: the backend supports its operation, the item fits at every rank, and
in an uneven exchange the splits for both sides match at all ranks or at none. -/
structure Bench.Settles (bench : Bench) (item : Item) : Prop where
  known : item.operation ∈ bench.supported
  fits : ∀ rank < bench.worldSize, item.Fits bench.params bench.worldSize rank
  concordant : item.operation = .allToAllv → bench.params.Covers bench.worldSize →
    bench.params.Concordant bench.worldSize

omit [Arithmetic] in
/-- A check fails for a wrong value only. -/
theorem Checker.failsOnly_check (checker : Checker) (call : Call)
    (rank worldSize sizeBytes : Nat) :
    FailsOnly (checker.check call rank worldSize sizeBytes) Error.OfOwnWork := by
  rw [check]
  dsimp only
  split
  · split
    · exact failsOnly_ok ()
    · split
      · exact failsOnly_ok ()
      · exact failsOnly_error trivial
  · exact failsOnly_ok ()

namespace Participant

/-- The participant is one of many that went through the same actions: with the workload that its
parameters demand, a call of the item that is staged, and no more time than so many intervals can
have taken. Its check did not fail because somebody waited in vain. -/
structure Steady (bench : Bench) (horizon : Nat) (staged : Option (Item × Nat))
    (participant : Participant) : Prop where
  equipped : participant.Equipped bench.params
  call : ∀ item count, staged = some (item, count) →
    item.IsCall bench participant.rank participant.call
  stopwatch : ∀ item count, staged = some (item, count) →
    participant.reading.stopwatch.nanoseconds ≤ count * horizon
  fault : ∀ error, participant.fault = some error → ¬ error.LeftWaiting

omit [Arithmetic] in
/-- A participant is as steady as one that it resembles. -/
theorem Steady.keep {other : Participant} (steady : participant.Steady bench horizon staged)
    (resembles : participant.Resembles other) : other.Steady bench horizon staged where
  equipped := by
    rw [Equipped, resembles.workload]
    exact steady.equipped
  call := by
    rw [resembles.rank, resembles.call]
    exact steady.call
  stopwatch := by
    rw [resembles.stopwatch]
    exact steady.stopwatch
  fault := by
    rw [resembles.fault]
    exact steady.fault

omit [Arithmetic] in
/-- Between items neither calls nor intervals matter. -/
theorem Steady.unstage (steady : participant.Steady bench horizon staged) :
    participant.Steady bench horizon none where
  equipped := steady.equipped
  call := nofun
  stopwatch := nofun
  fault := steady.fault

/-! ## Single participants -/

section Staging

variable (participant) (allocate : Bool) (proceed : Participant → Buffers → Participant)

/-- A participant goes on from the buffers that its plan decides. -/
theorem stageItem_planned (fits : item.Fits bench.params bench.worldSize participant.rank)
    {made : Plan} (planned : item.plan bench participant.rank = .ok made) :
    ∃ device, participant.stageItem bench item allocate proceed =
      proceed { participant with device }
        (if allocate then (made.allocate (item.stagingParams bench.params bench.worldSize)
          participant.device).1 else made.unallocated) := by
  have outcome := item.stage_eq bench participant.rank allocate participant.device
  rw [planned] at outcome
  rw [stageItem_of_fits _ _ fits]
  simp only [outcome, Except.map, attempt]
  exact ⟨_, rfl⟩

/-- A participant that comes to no plan gives up. -/
theorem stageItem_refused (fits : item.Fits bench.params bench.worldSize participant.rank)
    (refused : FailsAlone (item.plan bench participant.rank)) :
    (participant.stageItem bench item allocate proceed).GaveUp := by
  obtain ⟨error, refused, own⟩ := refused
  have outcome := item.stage_eq bench participant.rank allocate participant.device
  rw [refused] at outcome
  rw [stageItem_of_fits _ _ fits]
  simp only [outcome, Except.map]
  exact gaveUp_attempt ⟨error, rfl, own⟩ _

end Staging

/-- Staging an item makes a call of it and clears what was measured. -/
theorem steady_stage (fits : item.Fits bench.params bench.worldSize participant.rank) {made : Plan}
    (planned : item.plan bench participant.rank = .ok made)
    (sound : participant.failure = none) (steady : participant.Steady bench horizon staged) :
    let next := (participant.ask bench now (.stage item)).1
    next.failure = none ∧ next.Steady bench horizon (some (item, 0)) := by
  intro next
  obtain ⟨device, adopted⟩ := participant.stageItem_planned true
    (fun participant buffers => { participant with reading := {} }.adopt bench item buffers)
      fits planned
  rw [show next = _ from adopted]
  refine ⟨sound, steady.equipped, ?_, ?_, steady.fault⟩
  · rintro _ _ ⟨⟩
    exact ⟨_, ⟨made, planned, made.follows_allocate _ _⟩, rfl⟩
  · rintro _ _ ⟨⟩
    exact Nat.zero_le _

variable {count : Nat}

/-- Buffers for a further iteration, new or not, are as the item was planned. -/
theorem steady_restage (fits : item.Fits bench.params bench.worldSize participant.rank)
    (sound : participant.failure = none)
    (steady : participant.Steady bench horizon (some (item, count))) :
    let next := (participant.ask bench now (.restage item)).1
    next.failure = none ∧ next.Steady bench horizon (some (item, count)) := by
  intro next
  obtain ⟨buffers, ⟨made, planned, follows⟩, call⟩ := steady.call item count rfl
  obtain ⟨device, adopted⟩ := participant.stageItem_planned (!bench.params.reuse)
    (fun participant buffers => { participant with call := { participant.call with
      buffers := if bench.params.reuse then buffers.reuseFrom participant.call.buffers
        else buffers } }) fits planned
  rw [show next = _ from adopted]
  refine ⟨sound, steady.equipped, ?_, steady.stopwatch, steady.fault⟩
  rintro _ _ ⟨⟩
  refine ⟨_, ⟨made, planned, ?_⟩, by rw [call]; rfl⟩
  cases bench.params.reuse with
  | true => exact made.follows_reuseFrom follows
  | false => exact made.follows_allocate _ _

/-- Buffers for a check are as the item was planned, too. -/
theorem steady_stageCheck (fits : item.Fits bench.params bench.worldSize participant.rank)
    (sound : participant.failure = none)
    (steady : participant.Steady bench horizon (some (item, count))) :
    let next := (participant.ask bench now (.stageCheck item)).1
    next.failure = none ∧ next.Steady bench horizon (some (item, count)) := by
  intro next
  obtain ⟨_, ⟨made, planned, _⟩, _⟩ := steady.call item count rfl
  obtain ⟨device, adopted⟩ := participant.stageItem_planned true
    (fun participant buffers =>
      { participant with generator := participant.generator.unit.2 }.adopt bench item
        (Checker.reset ⟨bench.params.initial⟩ buffers participant.rank bench.params.root
          participant.generator.unit.1)) fits planned
  rw [show next = _ from adopted]
  refine ⟨sound, steady.equipped, ?_, steady.stopwatch, steady.fault⟩
  rintro _ _ ⟨⟩
  exact ⟨_, ⟨made, planned, made.follows_reset _ _ _ _ (made.follows_allocate _ _)⟩, rfl⟩

/-- Noting the outcome of a check. -/
theorem steady_inspect (sound : participant.failure = none)
    (steady : participant.Steady bench horizon staged) :
    let next := (participant.ask bench now (.inspect item)).1
    next.failure = none ∧ next.Steady bench horizon staged := by
  intro next
  have checked := Checker.failsOnly_check ⟨bench.params.initial⟩ participant.call participant.rank
    bench.worldSize item.sizeBytes
  rw [show next = participant.inspect bench item from rfl, inspect]
  split
  · refine ⟨sound, steady.equipped, steady.call, steady.stopwatch, ?_⟩
    rintro _ ⟨⟩
  next error failed =>
    refine ⟨sound, steady.equipped, steady.call, steady.stopwatch, ?_⟩
    rintro _ ⟨⟩
    exact (checked error failed).not_leftWaiting

/-- A further interval is added where the clock has not shown too much. -/
theorem steady_stopClock (fair : bench.IsFair horizon) (further : count < bench.params.iterations)
    (early : now < horizon) (sound : participant.failure = none)
    (steady : participant.Steady bench horizon (some (item, count))) :
    let next := (participant.ask bench now .stopClock).1
    next.failure = none ∧ next.Steady bench horizon (some (item, count + 1)) := by
  intro next
  have before := steady.stopwatch item count rfl
  have more : (count + 1) * horizon ≤ bench.params.iterations * horizon :=
    Nat.mul_le_mul_right _ further
  -- The intervals that were measured come to no more than the horizon each, and there are fewer
  -- than iterations.
  have within : participant.reading.stopwatch.nanoseconds + (now - participant.reading.started) <
      (count + 1) * horizon := by
    rw [Nat.succ_mul]
    omega
  have fits : (participant.reading.stopwatch.nanoseconds + (now - participant.reading.started)) /
      Stopwatch.second < powerOfTwo 64 := by
    rw [Nat.div_lt_iff_lt_mul (by decide)]
    exact Nat.lt_of_lt_of_le within (Nat.le_trans more fair.timely)
  have stopped : next = { participant with reading := { participant.reading with
      stopwatch := ⟨participant.reading.stopwatch.nanoseconds + (now - participant.reading.started),
        participant.reading.stopwatch.intervals + 1⟩ } } := by
    simp only [next, ask, stopClock, Stopwatch.add, if_pos fits, attempt]
  rw [stopped]
  refine ⟨sound, steady.equipped, ?_, ?_, steady.fault⟩
  · rintro _ _ ⟨⟩
    exact steady.call item count rfl
  · rintro _ _ ⟨⟩
    exact Nat.le_of_lt within

/-- What a participant makes of one answer to all copies of its call. -/
theorem next_call (honest : bench.tampering = {}) (sound : participant.failure = none) (more : Nat)
    (answer : Outcome Call) :
    participant.next bench now (.call (more + 1)) (List.replicate (more + 1) answer) =
      (participant.issue (List.replicate (more + 1) participant.call)).1.attempt answer fun call =>
        { (participant.issue (List.replicate (more + 1) participant.call)).1 with call } := by
  have asked : (participant.ask bench now (.call (more + 1))).1.failure = none :=
    (participant.resembles_issue _).failure.trans sound
  rw [next_of_sound asked, take, receive_copies honest]
  rfl

end Participant

/-! ## Actions of all ranks -/

/-- The clocks show less than a horizon. -/
def Ensemble.ShowsBelow (horizon : Nat) (now : Nat → Nat) : Prop := ∀ rank, now rank < horizon

/-- The ranks are in lockstep and steady. -/
def Ensemble.Steady (bench : Bench) (horizon : Nat) (staged : Option (Item × Nat)) :
    Ensemble → Prop :=
  Lockstep bench (Participant.Steady bench horizon staged)

namespace Advances

open Ensemble Participant

variable {holds after : Participant → Prop}

/-- Where no step can fail, the ranks advance. -/
theorem of_leads {agenda : List Action} (leads : Leads bench holds agenda after)
    (shows : (Nat → Nat) → Prop) :
    Advances bench shows (Lockstep bench holds) agenda (Lockstep bench after) :=
  fun ensemble lockstep => (leads ensemble lockstep).weaken shows Stopped

/-- An action that asks for nothing advances if all ranks go on or all of them give up. -/
theorem alone (fair : bench.IsFair horizon)
    (quiet : ∀ now (participant : Participant), (participant.ask bench now action).2 = [])
    (settles :
      (∀ now < horizon, ∀ participant : Participant, participant.rank < bench.worldSize →
        participant.failure = none → holds participant →
          (participant.ask bench now action).1.failure = none ∧
            after (participant.ask bench now action).1) ∨
      ∀ now, ∀ participant : Participant, participant.rank < bench.worldSize →
        participant.failure = none → holds participant →
          (participant.ask bench now action).1.GaveUp) :
    Advances bench (ShowsBelow horizon) (Lockstep bench holds) [action] (Lockstep bench after) := by
  refine single (fun _ lockstep => lockstep.mono fun _ _ => trivial)
    fun now ensemble early lockstep => ?_
  have silent (participant : Participant) (_ : participant ∈ ensemble.participants) :=
    quiet (now participant.rank) participant
  have steps := lockstep.step_quiet fair.spans fair.patient silent
  refine ⟨⟨0, _, Lockstep.concerted_quiet bench silent⟩, ?_⟩
  rcases settles with onward | stops
  · refine .inr (steps.onward lockstep fun participant present => ?_)
    obtain ⟨sound, held⟩ := lockstep.each participant present
    exact onward _ (early _) participant (lockstep.getElem?_rank present).2 sound held
  · refine .inl (steps.stopped fun participant present => ?_)
    obtain ⟨sound, held⟩ := lockstep.each participant present
    exact stops _ participant (lockstep.getElem?_rank present).2 sound held

variable (fair : bench.IsFair horizon)

include fair

/-- An idle action keeps whatever participants that resemble each other have in common. -/
theorem idly (idle : action.isIdle)
    (keeps : ∀ participant other, participant.Resembles other → holds participant → holds other)
    (shows : (Nat → Nat) → Prop) :
    Advances bench shows (Lockstep bench holds) [action] (Lockstep bench holds) := by
  refine of_leads (.alone fair.spans fair.patient fun now participant inside sound held => ?_) shows
  obtain ⟨asks, resembles, _⟩ := resembles_idle idle inside now
  exact ⟨asks, resembles.failure.trans sound, keeps participant _ resembles held⟩

/-- Idle actions leave all ranks steady. -/
theorem idle (still : action.isIdle) :
    Advances bench (ShowsBelow horizon) (Ensemble.Steady bench horizon staged) [action]
      (Ensemble.Steady bench horizon staged) :=
  idly fair still (fun _ _ resembles steady => steady.keep resembles) _

/-- A report leaves all ranks steady. -/
theorem report (settles : bench.Settles item) :
    Advances bench (ShowsBelow horizon) (Ensemble.Steady bench horizon staged) [.report item]
      (Ensemble.Steady bench horizon staged) := by
  refine alone fair (fun _ _ => rfl) (.inl fun now _ participant inside sound steady => ?_)
  rw [ask_report now (settles.fits _ inside)]
  exact ⟨sound, steady.keep ⟨rfl, rfl, rfl, rfl, rfl, rfl, rfl⟩⟩

variable {count : Nat}

/-- Calls of the item that is staged come back to all ranks or to none. -/
theorem call (settles : bench.Settles item) {copies : Nat} (positive : 0 < copies) :
    Advances bench (ShowsBelow horizon) (Ensemble.Steady bench horizon (some (item, count)))
      [.call copies] (Ensemble.Steady bench horizon (some (item, count))) := by
  obtain ⟨more, rfl⟩ := Nat.exists_eq_add_one_of_ne_zero (Nat.ne_of_gt positive)
  refine single (fun _ lockstep => lockstep.mono fun _ _ => trivial)
    fun now ensemble _ lockstep => ?_
  have : Nonempty Call := ⟨.barrier World.defaultGroup⟩
  obtain ⟨made, own⟩ := lockstep.exists_byRank Participant.call
  have issued : ∀ rank < bench.worldSize, item.IsCall bench rank (made rank) := by
    intro rank inside
    obtain ⟨participant, present, rfl⟩ := lockstep.exists_rank inside
    rw [own participant present]
    exact (lockstep.each participant present).2.call item count rfl
  have here : ∀ participant ∈ ensemble.participants,
      (made participant.rank).group = World.defaultGroup := by
    intro participant present
    have inside := (lockstep.getElem?_rank present).2
    exact ((issued _ inside).shape settles.known fair.spans inside).2.1
  obtain ⟨alike, answers⟩ :=
    Item.answers_alike settles.known fair.spans issued settles.fits settles.concordant
  have concerted : ensemble.Concerted bench now (.call (more + 1)) (more + 1) made :=
    ⟨here, alike, fun participant present => by rw [own participant present]; rfl⟩
  refine ⟨⟨_, _, concerted⟩, ?_⟩
  have steps := lockstep.step_concerted fair.spans fair.patient concerted
  rcases answers with back | refused
  · refine .inr (steps.onward lockstep fun participant present => ?_)
    obtain ⟨sound, steady⟩ := lockstep.each participant present
    obtain ⟨returned, answer, again⟩ := back _ (lockstep.getElem?_rank present).2
    have asked := participant.resembles_issue (List.replicate (more + 1) participant.call)
    obtain ⟨equipped, _, stopwatch, fault⟩ := steady.keep asked
    rw [next_call fair.honest sound, answer]
    refine ⟨asked.failure.trans sound, equipped, ?_, stopwatch, fault⟩
    rintro _ _ ⟨⟩
    rw [← asked.rank] at again
    exact again
  · refine .inl (steps.stopped fun participant present => ?_)
    rw [next_call fair.honest (lockstep.each participant present).1]
    exact gaveUp_attempt (refused _ (lockstep.getElem?_rank present).2) _

/-- What ranks prepare does not depend on the others. -/
theorem prepare :
    Advances bench (ShowsBelow horizon) (Lockstep bench fun participant => participant.fault = none)
      [.prepare] (Ensemble.Steady bench horizon none) := by
  refine alone fair (fun _ _ => rfl) (.inl fun now _ participant _ sound faultless => ?_)
  rw [ask_prepare _ _ _ fair.workload]
  refine ⟨sound, ⟨_, _, rfl⟩, nofun, nofun, ?_⟩
  intro error failed
  cases faultless.symm.trans failed

/-- An item is staged by all ranks or by none. -/
theorem stage (settles : bench.Settles item) :
    Advances bench (ShowsBelow horizon) (Ensemble.Steady bench horizon staged) [.stage item]
      (Ensemble.Steady bench horizon (some (item, 0))) := by
  refine alone fair (fun _ _ => rfl) ?_
  rcases item.plans_alike settles.known fair.spans with planned | refused
  · refine .inl fun now _ participant inside sound steady => ?_
    obtain ⟨made, planned⟩ := planned participant.rank inside
    exact steady_stage (settles.fits _ inside) planned sound steady
  · exact .inr fun now participant inside _ _ =>
      stageItem_refused participant true _ (settles.fits _ inside) (refused participant.rank inside)

/-- Staging anew leaves all ranks steady. -/
theorem restage (settles : bench.Settles item) :
    Advances bench (ShowsBelow horizon) (Ensemble.Steady bench horizon (some (item, count)))
      [.restage item] (Ensemble.Steady bench horizon (some (item, count))) :=
  alone fair (fun _ _ => rfl) (.inl fun _ _ _ inside sound steady =>
    steady_restage (settles.fits _ inside) sound steady)

/-- Starting the clock leaves all ranks steady. -/
theorem startClock :
    Advances bench (ShowsBelow horizon) (Ensemble.Steady bench horizon staged) [.startClock]
      (Ensemble.Steady bench horizon staged) :=
  alone fair (fun _ _ => rfl) (.inl fun _ _ _ _ sound steady =>
    ⟨sound, steady.equipped, steady.call, steady.stopwatch, steady.fault⟩)

/-- Stopping the clock adds one measured interval. -/
theorem stopClock (further : count < bench.params.iterations) :
    Advances bench (ShowsBelow horizon) (Ensemble.Steady bench horizon (some (item, count)))
      [.stopClock] (Ensemble.Steady bench horizon (some (item, count + 1))) :=
  alone fair (fun _ _ => rfl) (.inl fun _ early _ _ sound steady =>
    steady_stopClock fair further early sound steady)

/-- Computing leaves all ranks steady, or stops them alike. -/
theorem compute :
    Advances bench (ShowsBelow horizon) (Ensemble.Steady bench horizon staged) [.compute]
      (Ensemble.Steady bench horizon staged) := by
  refine alone fair (fun _ _ => rfl) ?_
  rcases compute_alike fair.workload with succeed | fail
  · refine .inl fun now _ participant _ sound steady => ?_
    have resembles := succeed participant steady.equipped
    exact ⟨resembles.failure.trans sound, steady.keep resembles⟩
  · exact .inr fun now participant _ _ steady => fail participant steady.equipped

/-- A barrier leaves all ranks steady. -/
theorem barrier :
    Advances bench (ShowsBelow horizon) (Ensemble.Steady bench horizon staged) [.barrier]
      (Ensemble.Steady bench horizon staged) :=
  of_leads (.together fair.spans fair.patient rfl (Terms.held_barrier _) fun _ _ _ sound steady =>
    ⟨_, joins_barrier fair.honest sound fun _ resembles _ => steady.keep resembles⟩) _

/-- Gathering the latencies leaves all ranks steady. -/
theorem gather (settles : bench.Settles item) :
    Advances bench (ShowsBelow horizon) (Ensemble.Steady bench horizon staged) [.gather item]
      (Ensemble.Steady bench horizon staged) :=
  of_leads (.together fair.spans fair.patient rfl (Terms.held_latencies _)
    fun _ _ inside sound steady => ⟨_, joins_gather fair.honest inside (settles.fits _ inside)
      fair.counted sound fun _ resembles _ => steady.keep resembles⟩) _

/-- Staging for the check leaves all ranks steady. -/
theorem stageCheck (settles : bench.Settles item) :
    Advances bench (ShowsBelow horizon) (Ensemble.Steady bench horizon (some (item, count)))
      [.stageCheck item] (Ensemble.Steady bench horizon (some (item, count))) :=
  alone fair (fun _ _ => rfl) (.inl fun _ _ _ inside sound steady =>
    steady_stageCheck (settles.fits _ inside) sound steady)

/-- Checking the results leaves all ranks steady. -/
theorem inspect :
    Advances bench (ShowsBelow horizon) (Ensemble.Steady bench horizon staged) [.inspect item]
      (Ensemble.Steady bench horizon staged) :=
  alone fair (fun _ _ => rfl) (.inl fun _ _ _ _ sound steady => steady_inspect sound steady)

/-- All ranks come to one verdict, and go on or stop by it. -/
theorem verdict :
    Advances bench (ShowsBelow horizon) (Ensemble.Steady bench horizon staged)
      [.agree, .conclude item] (Ensemble.Steady bench horizon staged) := by
  -- Between the two actions every rank knows how many ranks have found a fault, which is some
  -- exactly if one of them has.
  let Agreed (ensemble : Ensemble) : Prop := ∃ count,
    (0 < count ↔ ∃ participant ∈ ensemble.participants, participant.fault.isSome) ∧
      ensemble.Lockstep bench fun participant =>
        participant.faulty = count ∧ participant.Steady bench horizon staged
  have agree : Advances bench (ShowsBelow horizon) (Ensemble.Steady bench horizon staged) [.agree]
      Agreed := by
    refine single (fun _ lockstep => lockstep.mono fun _ _ => trivial)
      fun now ensemble _ lockstep => ?_
    obtain ⟨failed, _, concerted⟩ := lockstep.concerted_agree now
    obtain ⟨count, truthful, agreed, faults⟩ := lockstep.step_agree now fair.spans
      fair.patient fair.honest fun _ _ resembles steady => steady.keep resembles
    exact ⟨⟨_, _, concerted⟩,
      .inr ⟨count, truthful.trans (exists_fault_iff faults).symm, agreed⟩⟩
  have conclude : Advances bench (ShowsBelow horizon) Agreed [.conclude item]
      (Ensemble.Steady bench horizon staged) := by
    refine single (fun ensemble ⟨_, _, lockstep⟩ => lockstep.mono fun _ _ => trivial)
      fun now ensemble _ held => ?_
    obtain ⟨count, truthful, lockstep⟩ := held
    refine ⟨⟨0, _, Lockstep.concerted_quiet bench fun _ _ => rfl⟩, ?_⟩
    rcases lockstep.step_conclude now fair.spans fair.patient truthful item with
      ⟨_, onward⟩ | ⟨_, failures⟩
    · exact .inr onward
    · refine .inl fun participant present => ?_
      have failed := List.mem_map_of_mem (f := Participant.failure) present
      rw [failures] at failed
      obtain ⟨before, listed, same⟩ := List.mem_map.mp failed
      refine ⟨_, same.symm, ?_⟩
      cases fault : before.fault with
      | none => exact id
      | some error => exact (lockstep.each before listed).2.2.fault error fault
  exact agree.cons conclude

end Advances

end CollectiveBench
