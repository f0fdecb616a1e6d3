import CollectiveBench.Proofs.CommandLine
import CollectiveBench.Proofs.Run.Crowds
import CollectiveBench.Proofs.Run.Steadiness

/-!
# All ranks or none

No rank of a run is left waiting for one that has stopped. Every action of the agenda makes steady
ranks steady again or stops all of them, and ranks that go through it in their own time come to the
same. So a run ends with the reports of all ranks, or all ranks stop at one action, each for a
reason of its own (`Crowd.none_left_waiting`).

Splits that are given for both sides of an uneven exchange are the exception, and the checks before
a run do not compare them. They may fit what one rank receives and not what another one does
(`Ensemble.some_left_waiting`). Counts that a build cannot hold are another.
-/

namespace CollectiveBench

variable [Halves] [Arithmetic] {bench : Bench} {item : Item} {horizon count : Nat}

namespace Advances

open Ensemble Participant

variable (fair : bench.IsFair horizon)

include fair

variable (settles : bench.Settles item)

include settles

/-- One measured iteration. -/
theorem iteration (further : count < bench.params.iterations) :
    Advances bench (ShowsBelow horizon) (Ensemble.Steady bench horizon (some (item, count)))
      (Agenda.iteration bench.params item)
      (Ensemble.Steady bench horizon (some (item, count + 1))) := by
  have calls : Advances bench (ShowsBelow horizon)
      (Ensemble.Steady bench horizon (some (item, count)))
      (if bench.params.blocking then
        List.replicate (Agenda.callsPerIteration bench.params) (.call 1) ++ [.compute]
      else [.compute, .call (Agenda.callsPerIteration bench.params)])
      (Ensemble.Steady bench horizon (some (item, count))) := by
    split
    · refine append (keeps fun action listed => ?_) (compute fair)
      rw [List.eq_of_mem_replicate listed]
      exact call fair settles Nat.one_pos
    · exact (compute fair).cons
        (call fair settles (Nat.lt_of_lt_of_le Nat.one_pos (Nat.le_max_right _ _)))
  have before : Advances bench (ShowsBelow horizon)
      (Ensemble.Steady bench horizon (some (item, count))) [.restage item, .startClock]
      (Ensemble.Steady bench horizon (some (item, count))) :=
    (restage fair settles).cons (startClock fair)
  have after : Advances bench (ShowsBelow horizon)
      (Ensemble.Steady bench horizon (some (item, count))) [.complete, .stopClock]
      (Ensemble.Steady bench horizon (some (item, count + 1))) :=
    (idle fair rfl).cons (stopClock fair further)
  exact (before.append calls).append after

/-- All measured iterations. The induction is on their number, and the intervals are counted along.
-/
theorem iterations (number : Nat) (within : number ≤ bench.params.iterations) :
    Advances bench (ShowsBelow horizon) (Ensemble.Steady bench horizon (some (item, 0)))
      (List.replicate number (Agenda.iteration bench.params item)).flatten
      (Ensemble.Steady bench horizon (some (item, number))) := by
  induction number with
  | zero => exact nil
  | succ number inductionHypothesis =>
    rw [List.replicate_succ', List.flatten_append, List.flatten_singleton]
    exact (inductionHypothesis (Nat.le_of_succ_le within)).append (iteration fair settles within)

/-- The validated run of an item. -/
theorem validation :
    Advances bench (ShowsBelow horizon) (Ensemble.Steady bench horizon (some (item, count)))
      (Agenda.validation item) (Ensemble.Steady bench horizon (some (item, count))) :=
  (stageCheck fair settles).cons ((call fair settles Nat.one_pos).cons
    ((idle fair rfl).cons ((inspect fair).cons (verdict fair))))

/-- All that is done for an item. -/
theorem ofItem :
    Advances bench (ShowsBelow horizon) (Ensemble.Steady bench horizon none)
      (Agenda.ofItem bench.params item) (Ensemble.Steady bench horizon none) := by
  have warming : Advances bench (ShowsBelow horizon)
      (Ensemble.Steady bench horizon (some (item, 0)))
      (List.replicate bench.params.warmups (.call 1))
      (Ensemble.Steady bench horizon (some (item, 0))) := by
    refine keeps fun action listed => ?_
    rw [List.eq_of_mem_replicate listed]
    exact call fair settles Nat.one_pos
  have entering : Advances bench (ShowsBelow horizon)
      (Ensemble.Steady bench horizon (some (item, 0))) [.complete, .barrier, .enterStream]
      (Ensemble.Steady bench horizon (some (item, 0))) :=
    (idle fair rfl).cons ((barrier fair).cons (idle fair rfl))
  have measuring := iterations fair settles bench.params.iterations (Nat.le_refl _)
  have leaving : Advances bench (ShowsBelow horizon)
      (Ensemble.Steady bench horizon (some (item, bench.params.iterations)))
      [.leaveStream, .gather item]
      (Ensemble.Steady bench horizon (some (item, bench.params.iterations))) :=
    (idle fair rfl).cons (gather fair settles)
  have checking : Advances bench (ShowsBelow horizon)
      (Ensemble.Steady bench horizon (some (item, bench.params.iterations)))
      (if bench.params.validate then Agenda.validation item else [])
      (Ensemble.Steady bench horizon (some (item, bench.params.iterations))) := by
    split
    · exact validation fair settles
    · exact nil
  have reporting : Advances bench (ShowsBelow horizon)
      (Ensemble.Steady bench horizon (some (item, bench.params.iterations))) [.report item]
      (Ensemble.Steady bench horizon none) :=
    (report fair settles).mono (fun _ held => held) fun ensemble lockstep =>
      lockstep.mono fun _ steady => steady.unstage
  exact (((((stage fair settles).append warming).append entering).append measuring).append
    leaving).append checking |>.append reporting

omit settles

/-- All that is done for some operations, each with its sizes. -/
theorem agenda {operations : List Operation}
    (settles : ∀ item ∈ bench.items operations, bench.Settles item) :
    Advances bench (ShowsBelow horizon) (Lockstep bench fun participant => participant.fault = none)
      (bench.agenda operations) (Ensemble.Steady bench horizon none) := by
  have sweeps : Advances bench (ShowsBelow horizon) (Ensemble.Steady bench horizon none)
      ((operations.map fun operation => (operation, bench.sizes operation)).flatMap
        fun sweep => Agenda.ofSweep bench.params sweep.1 sweep.2)
      (Ensemble.Steady bench horizon none) := by
    rw [List.flatMap_map]
    refine flatMap fun operation listed => (idle fair rfl).cons (flatMap fun size swept => ?_)
    exact ofItem fair (settles _ (bench.mem_items.mpr ⟨listed, swept⟩))
  have begun : Advances bench (ShowsBelow horizon)
      (Lockstep bench fun participant => participant.fault = none) [.join, .prepare]
      (Ensemble.Steady bench horizon none) :=
    (idly fair rfl (fun _ _ resembles faultless => resembles.fault.trans faultless) _).cons
      (prepare fair)
  exact (begun.append sweeps).append (idle fair rfl)

end Advances

namespace Ensemble

variable {ensemble : Ensemble}

omit [Halves] [Arithmetic] in
/-- Ranks in lockstep all have a report. -/
theorem Lockstep.results_ok {holds : Participant → Prop}
    (lockstep : ensemble.Lockstep bench holds) :
    ∀ result ∈ ensemble.results bench, ∃ report, result = .ok report := by
  rw [results, List.forall_mem_map]
  intro participant present
  rw [Participant.result, (lockstep.each participant present).1]
  exact ⟨_, rfl⟩

omit [Halves] [Arithmetic] in
/-- Ranks that have stopped all have a reason of their own. -/
theorem Stopped.results_failsAlone (stopped : ensemble.Stopped) (bench : Bench) :
    ∀ result ∈ ensemble.results bench, FailsAlone result := by
  rw [results, List.forall_mem_map]
  intro participant present
  obtain ⟨error, failed, own⟩ := stopped participant present
  rw [Participant.result, failed]
  exact ⟨error, rfl, own⟩

end Ensemble

namespace Crowd

open Ensemble

/-- No rank is left waiting for one that has stopped, whichever rank moves next and whatever the
clocks show. No deadline ever takes effect, every run comes to an end, and there all ranks are
through with equally many actions: all have a report, or all stopped for reasons of their own, none
because it waited in vain. Every order of the moves comes to the same results. The parameters must
pass their checks, and no count be too large for the build. Only where an uneven exchange is asked
for with splits for both sides, each with an entry for every rank, it takes that the two match at
all ranks or at none. -/
theorem none_left_waiting (checked : bench.params.check.1 = .ok ())
    (spans : bench.world.members World.defaultGroup = List.range bench.worldSize)
    (everything : bench.supported = Operation.all) (honest : bench.tampering = {})
    (patient : 0 < bench.world.timeoutMs)
    (timely : bench.params.iterations * horizon ≤ powerOfTwo 64 * Stopwatch.second)
    (fits : ∀ operations, bench.resolve.1 = .ok operations → bench.Fits operations)
    (concordant : (∃ name ∈ bench.params.collectives,
        Operation.ofName? name = some .allToAllv) →
      bench.params.Covers bench.worldSize → bench.params.Concordant bench.worldSize) :
    ∃ operations, bench.resolve.1 = .ok operations ∧
      ∀ notices source clock, (∀ done rank, clock done rank < horizon) →
        let agenda := bench.agenda operations
        let start := Ensemble.create bench notices source
        (∃ last, Walk bench agenda clock (ofEnsemble start) last ∧ last.Ended bench agenda clock) ∧
        ∀ crowd, Walk bench agenda clock (ofEnsemble start) crowd →
          crowd.move? bench agenda clock .pass = none ∧
          (crowd.Ended bench agenda clock →
            (crowd.ensemble.results bench).length = bench.worldSize ∧
            (∃ done, ∀ runner ∈ crowd.runners, runner.done = done) ∧
            crowd.ensemble.results bench =
              (start.after bench agenda clock agenda.length).results bench ∧
            ((∀ result ∈ crowd.ensemble.results bench, ∃ report, result = .ok report) ∨
              ∀ result ∈ crowd.ensemble.results bench, FailsAlone result)) := by
  obtain ⟨operations, known⟩ := Params.operations_of_check checked
  have resolved : bench.resolve.1 = .ok operations := by
    have passed : bench.params.check = (.ok (), bench.params.check.2) := by rw [← checked]
    rw [Bench.resolve, passed]
    simp only [Bench.operations_eq everything known]
  obtain ⟨workload, counted, items⟩ := fits operations resolved
  refine ⟨operations, resolved, fun notices source clock early => ?_⟩
  intro agenda start
  have settles : ∀ item ∈ bench.items operations, bench.Settles item := by
    intro item listed
    obtain ⟨supported, name, requested, stands⟩ :=
      Bench.IsAccepted.exists_name known item.operation (bench.mem_items.mp listed).1
    refine ⟨everything ▸ supported, items item listed, fun same => concordant ⟨name, requested, ?_⟩⟩
    rw [stands, same]
  have created : start.Lockstep bench fun participant => participant.fault = none :=
    lockstep_of_create spans notices source fun _ _ => rfl
  have goes := Advances.agenda
    ⟨spans, patient, honest, timely, workload, counted⟩ settles start created
  have failed (ensemble : Ensemble) (stopped : ensemble.Stopped) :
      ∀ participant ∈ ensemble.participants, participant.failure.isSome := by
    intro participant present
    obtain ⟨error, failed, _⟩ := stopped participant present
    rw [failed]
    rfl
  refine ⟨exists_ended bench agenda clock _, fun crowd walk => ?_⟩
  obtain ⟨prompt, ends⟩ := arrives goes (fun done => early done) failed
    (created.mono fun _ _ => trivial) spans patient walk
  refine ⟨prompt, fun ended => ?_⟩
  obtain ⟨done, within, together, same, outcome⟩ := ends ended
  have results :
    crowd.ensemble.results bench = (start.after bench agenda clock done).results bench := by
    rw [Ensemble.results, Ensemble.results, same]
  have size : (crowd.ensemble.results bench).length = bench.worldSize := by
    rw [results, Ensemble.results, List.length_map]
    exact (created.mono fun _ _ => trivial).length_after agenda clock done
  refine ⟨size, ⟨done, together⟩, ?_, ?_⟩
  -- Ranks that have failed before the end of the agenda keep their results to its end.
  · rcases outcome with ⟨whole, _⟩ | stopped
    · rw [results, whole]
    · rw [results, Ensemble.results, Ensemble.results,
        participants_after_of_failed (failed _ stopped) within]
  · rw [results]
    rcases outcome with ⟨_, lockstep⟩ | stopped
    · exact .inl (Lockstep.results_ok lockstep)
    · exact .inr (stopped.results_failsAlone bench)

omit [Halves] [Arithmetic] in
/-- Splits that match at neither of two ranks stop both, in whatever order they go on. -/
theorem none_left_waiting_two :
    let params : Params := {
      collectives := ["all_to_allv"], type := .i32, endSize := 8, warmups := 1, iterations := 0
      inSplit := some [1, 3], outSplit := some [2, 3] }
    let bench : Bench := { params, world := .create 2 [] 10000 }
    let agenda := bench.agenda [.allToAllv]
    let start := ofEnsemble (.create bench [])
    params.check.1 = .ok () ∧ params.Concordant 2 ∧ bench.resolve.1 = .ok [.allToAllv] ∧
      (∃ last, @Walk .checked .nearest bench agenda (fun _ _ => 0) start last ∧
        @Ended .checked .nearest bench agenda (fun _ _ => 0) last) ∧
      ∀ last, @Walk .checked .nearest bench agenda (fun _ _ => 0) start last →
        @Ended .checked .nearest bench agenda (fun _ _ => 0) last →
          last.ensemble.results bench =
            [.error (.bufferSizeMismatch 5 2), .error (.bufferSizeMismatch 5 6)] := by
  intro params bench agenda start
  have checked : params.check.1 = .ok () := by decide +kernel
  have concordant : params.Concordant 2 := by
    refine .inr fun rank inside matching => ?_
    have equal : 2 * [1, 3].getD rank 0 = 5 := matching [1, 3] [2, 3] rfl rfl
    omega
  have requested : bench.resolve.1 = .ok [.allToAllv] := by decide +kernel
  have fits : @Bench.Fits .checked bench [.allToAllv] := by decide +kernel
  obtain ⟨operations, resolved, ends⟩ :=
    @none_left_waiting .nearest .checked bench 1 checked rfl rfl rfl (by decide) (by decide)
      (fun operations resolved => by
        obtain rfl : operations = [.allToAllv] := Except.ok.inj (resolved.symm.trans requested)
        exact fits)
      fun _ _ => concordant
  obtain rfl : operations = [.allToAllv] := Except.ok.inj (resolved.symm.trans requested)
  obtain ⟨finishes, each⟩ := ends [] .counter (fun _ _ => 0) fun _ _ => Nat.one_pos
  refine ⟨checked, concordant, requested, finishes, fun last walk ended => ?_⟩
  obtain ⟨_, _, same, _⟩ := (each last walk).2 ended
  rw [same]
  decide +kernel

end Crowd

omit [Halves] [Arithmetic] in
/-- Splits that match at one of two ranks only leave that rank waiting, although the parameters pass
all checks. -/
theorem Ensemble.some_left_waiting :
    let params : Params := {
      collectives := ["all_to_allv"], type := .i32, endSize := 8, warmups := 1, iterations := 0
      inSplit := some [1, 3], outSplit := some [1, 1] }
    let bench : Bench := { params, world := .create 2 [] 10000 }
    params.check.1 = .ok () ∧ bench.resolve.1 = .ok [.allToAllv] ∧
      (@run .checked .nearest bench (bench.agenda [.allToAllv]) (create bench [])).results bench =
        [.error (.collectiveTimeout "barrier" 1 10000), .error (.bufferSizeMismatch 2 6)] := by
  decide +kernel

end CollectiveBench
