import CollectiveBench.Proofs.CommandLine
import CollectiveBench.Proofs.Run.Crowds
import CollectiveBench.Proofs.Run.DryRun

/-!
# The whole program

A command line whose parameters are accepted and that asks for a dry run leads to a report of every
rank. Acceptance does not check everything that a run needs: a root that does not exist, lists of
senders and receivers of different lengths and splits on both sides are refused only by the first
call or the first descriptor that uses them, counts may be too large for the build, and without any
time to wait no two ranks meet. Where nothing of that is the case, the program exits with 0, in
whatever order the ranks go on (`Program.dry_run_succeeds`).
-/

namespace CollectiveBench

variable {bench : Bench} {operations : List Operation}

namespace Program

/-- If every rank has a report, the report of the first rank is the one that counts. -/
theorem report?_map_ok (reports : List Report) :
    report? (reports.map .ok) = .ok reports.head? := by
  have all : (reports.map (Except.ok : Report → Outcome Report)).mapM id = .ok reports := by
    induction reports with
    | nil => rfl
    | cons first rest inductionHypothesis =>
      rw [List.map_cons, List.mapM_cons, inductionHypothesis]
      rfl
  rw [report?, all]
  rfl

/-- The job of an accepted bench is its agenda. -/
theorem start_eq_ok {text : List String} {environment : Environment} {arguments : Arguments}
    {reader : Reader} (read : reader text = .ok arguments)
    (made : benchFor arguments environment = .ok bench)
    (known : bench.params.operations = .ok operations) :
    start text environment reader = .ok {
      bench
      agenda := bench.agenda operations
      notices := bench.params.check.2 ++ bench.bitwidth.2
      path := arguments.reportPath
      filter := arguments.text "log" "info" } := by
  have accepted := isAccepted_of_benchFor made
  have resolved : bench.resolve = (.ok operations, bench.params.check.2 ++ bench.bitwidth.2) := by
    have checked : bench.params.check = (.ok (), bench.params.check.2) := by
      rw [← accepted.checked]
    rw [Bench.resolve, checked]
    simp only [accepted.operations_eq known]
  simp only [start, read, made, resolved]

/-- A program that starts a job ends as the ranks of the job do. -/
theorem run_eq_finish [Arithmetic] [Halves] {text : List String} {environment : Environment}
    {reader : Reader} {job : Job} (started : start text environment reader = .ok job)
    (source : Source) :
    run text environment reader source =
      finish job ((job.ensemble source).run job.bench job.agenda) := by
  simp only [run, started]

/-- All ranks of a job have a report, with one row for each item in order, and the program prints
the report of the first rank, writes no file and exits with 0. -/
def Job.Succeeds [Arithmetic] (job : Job) (operations : List Operation) (last : Ensemble) : Prop :=
  ∃ reports : List Report, last.results job.bench = reports.map .ok ∧
    reports.length = job.bench.worldSize ∧
    (∀ rank report, reports[rank]? = some report →
      List.Forall₂ (job.bench.Measures rank) (job.bench.items operations) report.measurements) ∧
    ∃ first, reports[0]? = some first ∧ (finish job last).exitCode = 0 ∧
      (finish job last).output = first.table ++ "\n" ∧ (finish job last).file = none

/-- A job succeeds where its ranks have measured all items and no file is asked for. -/
theorem Job.succeeds_of_results [Arithmetic] {job : Job} {reports : List Report} {last : Ensemble}
    (results : last.results job.bench = reports.map .ok)
    (length : reports.length = job.bench.worldSize)
    (measured : ∀ rank report, reports[rank]? = some report →
      List.Forall₂ (job.bench.Measures rank) (job.bench.items operations) report.measurements)
    (inhabited : 0 < job.bench.worldSize) (unfiled : job.path = none) :
    job.Succeeds operations last := by
  have someone : 0 < reports.length := length ▸ inhabited
  refine ⟨reports, results, length, measured, reports[0], List.getElem?_eq_getElem someone, ?_⟩
  have head : reports.head? = some reports[0] := by
    rw [List.head?_eq_getElem?, List.getElem?_eq_getElem someone]
  rw [finish, results, report?_map_ok, head, unfiled]
  exact ⟨rfl, rfl, rfl⟩

/-- A dry run of a command line that was accepted succeeds on every rank, in whatever order the
ranks go on and whatever their clocks show. No deadline ever takes effect, every run comes to an
end, and there every rank has a report, with one row for each item in order, and the program prints
the report of the first rank. So it does where all ranks keep step. The command line must leave time
to wait and no file to write; its root must exist; senders and receivers are equally many where
messages go from point to point; a split is given on one side at most; and no count is too large for
the build. -/
theorem dry_run_succeeds [Arithmetic] [Halves] {text : List String} {environment : Environment}
    {arguments : Arguments} {reader : Reader} {source : Source}
    (read : reader text = .ok arguments)
    (made : benchFor arguments environment = .ok bench)
    (idle : bench.params.iterations = 0) (unchecked : bench.params.validate = false)
    (unfiled : arguments.reportPath = none) (patient : 0 < bench.params.timeoutMs)
    (root : bench.params.root < bench.worldSize)
    (paired : (∃ name ∈ bench.params.collectives,
        Operation.ofName? name = some .pt2pt ∨ Operation.ofName? name = some .recv) →
      bench.params.sources.length = bench.params.destinations.length)
    (single : bench.params.inSplit = none ∨ bench.params.outSplit = none)
    (fits : ∀ operations, bench.params.operations = .ok operations → bench.Fits operations) :
    ∃ operations job, bench.params.operations = .ok operations ∧
      start text environment reader = .ok job ∧ job.bench = bench ∧
      (∃ last, run text environment reader source = finish job last ∧
        job.Succeeds operations last) ∧
      ∀ clock,
        let begins := Crowd.ofEnsemble (job.ensemble source)
        (∃ last, Crowd.Walk bench job.agenda clock begins last ∧
          last.Ended bench job.agenda clock) ∧
        ∀ crowd, Crowd.Walk bench job.agenda clock begins crowd →
          crowd.move? bench job.agenda clock .pass = none ∧
          (crowd.Ended bench job.agenda clock → job.Succeeds operations crowd.ensemble) := by
  have accepted := isAccepted_of_benchFor made
  obtain ⟨⟨operations, known⟩, input, output⟩ :=
    Params.of_check accepted.checked accepted.launched
  have started := start_eq_ok read made known
  obtain ⟨workload, _, items⟩ := fits operations known
  have dry : bench.IsDry := {
    spans := accepted.spans
    patient := by rwa [accepted.world]
    honest := accepted.honest
    divides := ⟨single, input, output⟩
    names := ⟨root, accepted.sources, accepted.destinations⟩
    idle
    unchecked
    workload }
  have serves : ∀ item ∈ bench.items operations, bench.Serves item := by
    intro item listed
    obtain ⟨supported, name, requested, stands⟩ :=
      Bench.IsAccepted.exists_name known item.operation (bench.mem_items.mp listed).1
    refine ⟨accepted.supported ▸ supported, fun single => paired ⟨name, requested, ?_⟩,
      items item listed⟩
    rw [stands]
    exact single.imp (congrArg some) (congrArg some)
  refine ⟨operations, _, known, started, rfl, ?_, fun clock => ?_⟩
  -- The run in step and the walks of the crowd start with the same ranks, and go the same way.
  all_goals
    have begins := Ensemble.lockstep_create bench dry.spans
      (bench.params.check.2 ++ bench.bitwidth.2) source
    have goes := Leads.agenda dry serves _ begins
  · have lockstep := goes.reaches (Ensemble.follows_run ..)
    obtain ⟨reports, results, length, measured⟩ := lockstep.results_eq
    refine ⟨_, run_eq_finish started source, ?_⟩
    exact Job.succeeds_of_results results length measured accepted.inhabited unfiled
  · intro start
    refine ⟨Crowd.exists_ended _ _ _ _, fun crowd walk => ?_⟩
    obtain ⟨prompt, ends⟩ := Crowd.arrives goes (fun _ => trivial) (fun _ => False.elim)
      (begins.mono fun _ _ => trivial) dry.spans dry.patient walk
    refine ⟨prompt, fun ended => ?_⟩
    obtain ⟨done, _, _, same, outcome⟩ := ends ended
    obtain ⟨_, lockstep⟩ := outcome.resolve_right id
    obtain ⟨reports, results, length, measured⟩ := lockstep.results_eq
    refine Job.succeeds_of_results (Eq.trans ?_ results) length measured accepted.inhabited unfiled
    rw [Ensemble.results, Ensemble.results, same]

/-- Three ranks, an operation that is asked for twice in different spellings, a split for what every
rank sends, and a timeout from the environment. -/
theorem dry_run_succeeds_three :
    let text := ["--world-size=3", "--n", "0", "--w", "2", "--e", "16", "--z", "0",
      "--dtype", "int32", "--collective", "all_to_allv,All-Reduce,pt2pt,allreduce", "--i", "1,0,2"]
    let environment := [("COMMBENCH_COLLECTIVE_TIMEOUT_SECS", "5")]
    let arguments := (Arguments.read text).toOption.getD []
    let bench := (benchFor arguments environment).toOption.getD
      { params := {}, world := .create 0 [] 0 }
    Arguments.read text = .ok arguments ∧ benchFor arguments environment = .ok bench ∧
      (@run .checked .nearest text environment Arguments.read .counter).exitCode = 0 ∧
      ∃ report : Report,
        (@run .checked .nearest text environment Arguments.read .counter).output =
          report.table ++ "\n" ∧
        List.Forall₂ (@Bench.Measures .checked bench 0)
          [⟨.allToAllv, 12⟩, ⟨.allReduce, 8⟩, ⟨.allReduce, 16⟩, ⟨.pt2pt, 8⟩, ⟨.pt2pt, 16⟩,
            ⟨.allReduce, 8⟩, ⟨.allReduce, 16⟩] report.measurements := by
  intro text environment arguments bench
  obtain ⟨read, unfiled⟩ :
      Arguments.read text = .ok arguments ∧ arguments.reportPath = none := by decide +kernel
  let expected : List Operation := [.allToAllv, .allReduce, .pt2pt, .allReduce]
  obtain ⟨made, known, items, idle, unchecked, patient, root, paired, single⟩ :
      benchFor arguments environment = .ok bench ∧
      bench.params.operations = .ok expected ∧
      bench.items expected =
        [⟨.allToAllv, 12⟩, ⟨.allReduce, 8⟩, ⟨.allReduce, 16⟩, ⟨.pt2pt, 8⟩, ⟨.pt2pt, 16⟩,
          ⟨.allReduce, 8⟩, ⟨.allReduce, 16⟩] ∧
      bench.params.iterations = 0 ∧ bench.params.validate = false ∧ 0 < bench.params.timeoutMs ∧
      bench.params.root < bench.worldSize ∧
      bench.params.sources.length = bench.params.destinations.length ∧
      (bench.params.inSplit = none ∨ bench.params.outSplit = none) := by decide +kernel
  have fits : @Bench.Fits .checked bench expected := by decide +kernel
  obtain ⟨operations, job, resolved, _, same, ⟨last, ran, succeeds⟩, _⟩ :=
    @dry_run_succeeds bench .checked .nearest text environment arguments Arguments.read .counter
      read made idle unchecked unfiled patient root (fun _ => paired) single
      fun operations resolved => by
        obtain rfl : operations = expected := Except.ok.inj (resolved.symm.trans known)
        exact fits
  obtain rfl : operations = expected := Except.ok.inj (resolved.symm.trans known)
  obtain ⟨_, _, _, measured, report, located, exits, output, _⟩ := succeeds
  rw [same, items] at measured
  rw [ran]
  exact ⟨read, made, exits, report, output, measured 0 report located⟩

/-- A split whose sum no word holds is accepted, but no build comes to a report. -/
theorem dry_run_overflows :
    let text := ["--world-size", "2", "--n", "0", "--timeout-secs", "1",
      "--collective", "all_to_allv", "--i", "9223372036854775808,9223372036854775808"]
    (start text []).toOption.isSome ∧
      (@run .checked .nearest text [] Arguments.read .counter).exitCode = 1 ∧
      (@run .wrapping .nearest text [] Arguments.read .counter).exitCode = 1 := by
  decide +kernel

end Program

end CollectiveBench
