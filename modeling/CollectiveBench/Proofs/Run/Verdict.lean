import CollectiveBench.Proofs.Numeric.Ones
import CollectiveBench.Proofs.Run.Lockstep

/-!
# The verdict of all ranks

After a validated run every rank knows whether its own check failed, and all ranks must come to the
same verdict. They add up one status each in a reduction of floating-point numbers. The sum is the
number of failed checks as long as the format holds it, and stays at the last such number beyond
(`reduceWords_flags`), so it is positive exactly if some check failed, on however many ranks. Hence
either all ranks go on, or each of them stops, with its own error where its check failed and with
that of a peer elsewhere (`verdicts_agree`).
-/

namespace CollectiveBench

open Numeric

/-! ## Counting statuses -/

/-- A count goes on by at most one and stays at the limit of the format. -/
theorem Numeric.Format.Counts.add_word_min {format : Format} (counts : format.Counts) (count : Nat)
    {more : Nat} (single : more ≤ 1) :
    format.add (format.word (min count format.limit)) (format.word more) =
      format.word (min (count + more) format.limit) := by
  have some : 0 < format.limit := powerOfTwo_pos _
  have small : min count format.limit ≤ format.limit := Nat.min_le_right _ _
  rw [counts.add_word small (by omega), ← counts.word_min (by omega)]
  congr 1
  omega

/-- The statuses of some ranks add up to the number of those that failed, or to the limit. -/
theorem reduceWords_flags {flags : List Bool} (some : flags ≠ []) :
    reduceWords .f64 .sum (flags.map fun flag => [Format.binary64.word flag.toNat]) =
      [Format.binary64.word (min (flags.count true) Format.binary64.limit)] := by
  have single (flag : Bool) : flag.toNat ≤ 1 := Bool.toNat_le flag
  have goesOn (rest : List Bool) (count : Nat) :
      (rest.map fun flag => [Format.binary64.word flag.toNat]).foldl
          (List.zipWith (ElementType.f64.combine .sum))
          [Format.binary64.word (min count Format.binary64.limit)] =
        [Format.binary64.word (min (count + rest.count true) Format.binary64.limit)] := by
    induction rest generalizing count with
    | nil => rfl
    | cons flag rest inductionHypothesis =>
      have added := Format.counts_binary64.add_word_min count (single flag)
      have counted : count + (flag :: rest).count true = count + flag.toNat + rest.count true := by
        cases flag <;> simp [Nat.add_comm, Nat.add_left_comm]
      rw [counted, ← inductionHypothesis, ← added]
      rfl
  obtain ⟨first, rest, rfl⟩ := List.exists_cons_of_ne_nil some
  have start : min first.toNat Format.binary64.limit = first.toNat :=
    Nat.min_eq_left (Nat.le_trans (single first) (by decide))
  have counted : (first :: rest).count true = first.toNat + rest.count true := by
    cases first <;> simp [Nat.add_comm]
  rw [counted, ← goesOn rest, start]
  rfl

/-- The call with the status of a rank reduces that status in place. -/
theorem Participant.verdictCall_eq (failed : Bool) :
    verdictCall failed = .allReduce World.defaultGroup .sum
      ⟨.f64, [Format.binary64.word failed.toNat]⟩ := by
  cases failed <;> decide +kernel

/-- A status call is accepted from every rank. -/
theorem World.accepts_verdict {world : World} {rank : Nat}
    (member : rank ∈ world.members World.defaultGroup) (failed : Bool) :
    world.accepts rank (Participant.verdictCall failed) := by
  refine accepts_of_peers ⟨nofun, nofun⟩ ?_ member
  simp [Call.checkPeers, Participant.verdictCall, Call.operation, Operation.isRooted]

/-- Every rank learns how many ranks reported a failed check. -/
theorem World.answer_verdict [Arithmetic] {world : World} {size : Nat}
    (spans : world.members World.defaultGroup = List.range size) (failed : Nat → Bool) {rank : Nat}
    (inside : rank < size) :
    world.answer World.defaultGroup (fun rank => Participant.verdictCall (failed rank)) rank =
      .ok (.allReduce World.defaultGroup .sum ⟨.f64, [Format.binary64.word
        (min (((List.range size).map failed).count true) Format.binary64.limit)]⟩) := by
  have member : rank ∈ List.range size := List.mem_range.mpr inside
  have someone : (List.range size).map failed ≠ [] := by
    simpa using Nat.ne_zero_of_lt inside
  let status (rank : Nat) : Tensor := ⟨.f64, [Format.binary64.word (failed rank).toNat]⟩
  have shapes : ∀ rank ∈ List.range size, (status rank).HasShape .f64 1 := fun _ _ => ⟨rfl, rfl⟩
  have issued : (Participant.verdictCall (failed rank)).operation = .allReduce := rfl
  rw [answer_of_accepts (accepts_verdict (spans ▸ member) _), spans,
    conclude_of_held (fun cuts => by simp [issued] at cuts) fun cuts => by simp [issued] at cuts]
  simp only [Participant.verdictCall_eq]
  rw [← reduceWords_flags someone, List.map_map]
  exact conclude_allReduce World.defaultGroup .sum shapes member _

namespace Participant

variable {bench : Bench} {participant : Participant} {now : Nat}

/-- A rank that learns a number of failed checks notes it. -/
theorem next_agree [Halves] [Arithmetic] (honest : bench.tampering = {})
    (sound : participant.failure = none)
    {count : Nat} (small : count ≤ Format.binary64.limit) :
    let next := participant.next bench now .agree [.ok (.allReduce World.defaultGroup .sum
      ⟨.f64, [Format.binary64.word count]⟩)]
    participant.Resembles next ∧ next.faulty = count := by
  intro next
  have asked := participant.resembles_issue [verdictCall participant.fault.isSome]
  have noted : next = { (participant.issue [verdictCall participant.fault.isSome]).1 with
      faulty := ((ElementType.f64.decode (Format.binary64.word count)).value.roundAway 0
        (powerOfTwo 64 - 1)).toNat } := by
    have goesOn : (participant.ask bench now .agree).1.failure = none := asked.failure.trans sound
    rw [show next = _ from next_of_sound goesOn _, take, receive_one honest]
    rfl
  have denotes : (ElementType.f64.decode (Format.binary64.word count)).value.Denotes count :=
    Format.counts_binary64.denotes_word small
  have fits : Format.binary64.limit < powerOfTwo 64 := by decide
  rw [noted]
  refine ⟨asked.trans ⟨rfl, rfl, rfl, rfl, rfl, rfl, rfl⟩, ?_⟩
  rw [denotes.roundAway_eq]
  change (max 0 (min (powerOfTwo 64 - 1 : Int) count)).toNat = count
  omega

/-- A rank concludes alone: with its own error if its check failed, else with that of a peer if
somebody else's did. -/
theorem failure_conclude (item : Item) (sound : participant.failure = none) :
    (participant.conclude item).failure =
      if participant.fault.isSome ∨ 0 < participant.faulty then
        some (participant.fault.getD
          (.peerValidationFailed item.sizeBytes item.operation.name))
      else none := by
  cases fault : participant.fault with
  | some error => simp [conclude, fault, fail]
  | none =>
    by_cases someone : 0 < participant.faulty <;> simp [conclude, fault, fail, someone, sound]

end Participant

namespace Ensemble

variable {bench : Bench} {ensemble last : Ensemble} {holds : Participant → Prop}

/-- Where participants have the same faults, somebody has one or nobody has. -/
theorem exists_fault_iff {participants others : List Participant}
    (same : others.map Participant.fault = participants.map Participant.fault) :
    (∃ participant ∈ others, participant.fault.isSome) ↔
      ∃ participant ∈ participants, participant.fault.isSome := by
  have mapped := congrArg (∃ fault ∈ ·, Option.isSome fault) same
  simpa using mapped

/-- The ranks tell each other in concert whether their checks failed. -/
theorem Lockstep.concerted_agree [Halves] [Arithmetic] (lockstep : ensemble.Lockstep bench holds)
    (now : Nat → Nat) :
    ∃ failed : Nat → Bool,
      (∀ participant ∈ ensemble.participants,
        failed participant.rank = participant.fault.isSome) ∧
      ensemble.Concerted bench now .agree 1 fun rank => Participant.verdictCall (failed rank) := by
  obtain ⟨failed, own⟩ := lockstep.exists_byRank fun participant => participant.fault.isSome
  refine ⟨failed, own, fun _ _ => rfl,
    .inl fun rank member => World.accepts_verdict member (failed rank),
      fun participant present => ?_⟩
  rw [own participant present]
  rfl

/-- All ranks learn the same number, which is positive exactly if somebody's check failed. What
they hold otherwise stays as it was. -/
theorem Lockstep.step_agree [Halves] [Arithmetic] (lockstep : ensemble.Lockstep bench holds)
    (now : Nat → Nat)
    (spans : bench.world.members World.defaultGroup = List.range bench.worldSize)
    (patient : 0 < bench.world.timeoutMs) (honest : bench.tampering = {})
    (keeps : ∀ participant other, participant.Resembles other → holds participant → holds other) :
    ∃ count, (0 < count ↔ ∃ participant ∈ ensemble.participants, participant.fault.isSome) ∧
      (ensemble.step bench now .agree).Lockstep bench
        (fun participant => participant.faulty = count ∧ holds participant) ∧
      (ensemble.step bench now .agree).participants.map Participant.fault =
        ensemble.participants.map Participant.fault := by
  obtain ⟨failed, own, concerted⟩ := lockstep.concerted_agree now
  let made (rank : Nat) : Call := Participant.verdictCall (failed rank)
  let count := min (((List.range bench.worldSize).map failed).count true) Format.binary64.limit
  have steps := lockstep.step_concerted spans patient concerted
  have each : ∀ participant ∈ ensemble.participants,
      let next := participant.next bench (now participant.rank) .agree
        (List.replicate 1 (bench.world.answer World.defaultGroup made participant.rank))
      participant.Resembles next ∧ next.faulty = count := by
    intro participant present
    rw [World.answer_verdict spans failed (lockstep.getElem?_rank present).2]
    exact Participant.next_agree honest (lockstep.each participant present).1 (Nat.min_le_right _ _)
  refine ⟨count, ?_, steps.onward lockstep fun participant present => ?_, ?_⟩
  · have some : 0 < Format.binary64.limit := powerOfTwo_pos _
    rw [Nat.lt_min, and_iff_left some, List.count_pos_iff, List.mem_map, ← lockstep.ranks]
    simp only [List.mem_map, exists_exists_and_eq_and]
    constructor
    · rintro ⟨participant, present, fault⟩
      exact ⟨participant, present, own participant present ▸ fault⟩
    · rintro ⟨participant, present, fault⟩
      exact ⟨participant, present, (own participant present).trans fault⟩
  · obtain ⟨sound, held⟩ := lockstep.each participant present
    obtain ⟨resembles, counted⟩ := each participant present
    exact ⟨resembles.failure.trans sound, counted, keeps _ _ resembles held⟩
  · rw [steps.participants, List.map_map]
    exact List.map_congr_left fun participant present => (each participant present).1.fault

/-- Ranks that know how many checks failed conclude alike. -/
theorem Lockstep.step_conclude [Halves] [Arithmetic] {count : Nat}
    (lockstep : ensemble.Lockstep bench fun participant =>
      participant.faulty = count ∧ holds participant) (now : Nat → Nat)
    (spans : bench.world.members World.defaultGroup = List.range bench.worldSize)
    (patient : 0 < bench.world.timeoutMs)
    (truthful : 0 < count ↔ ∃ participant ∈ ensemble.participants, participant.fault.isSome)
    (item : Item) :
    (count = 0 ∧ (ensemble.step bench now (.conclude item)).Lockstep bench holds) ∨
    0 < count ∧ (ensemble.step bench now (.conclude item)).participants.map Participant.failure =
      ensemble.participants.map fun participant => some (participant.fault.getD
        (.peerValidationFailed item.sizeBytes item.operation.name)) := by
  have steps : Steps bench now ensemble (.conclude item) (Participant.conclude item) :=
    lockstep.step_quiet spans patient fun _ _ => rfl
  rcases Nat.eq_zero_or_pos count with rfl | positive
  · have unchanged : ∀ participant ∈ ensemble.participants,
        participant.conclude item = participant := by
      intro participant present
      have faultless : participant.fault = none := by
        by_contra fault
        exact Nat.lt_irrefl 0
          (truthful.mpr ⟨participant, present, Option.isSome_iff_ne_none.mpr fault⟩)
      have noted := (lockstep.each participant present).2.1
      simp [Participant.conclude, faultless, noted]
    refine .inl ⟨rfl, steps.onward lockstep fun participant present => ?_⟩
    obtain ⟨sound, _, held⟩ := lockstep.each participant present
    rw [unchanged participant present]
    exact ⟨sound, held⟩
  · refine .inr ⟨positive, ?_⟩
    rw [steps.participants, List.map_map]
    refine List.map_congr_left fun participant present => ?_
    obtain ⟨sound, noted, _⟩ := lockstep.each participant present
    refine (Participant.failure_conclude item sound).trans (if_pos (.inr ?_))
    rwa [noted]

/-- All ranks come to one verdict, whatever their own checks said: from ranks in lockstep, each of
which noted the outcome of its check, the exchange of statuses completes. Then either no check
failed and all ranks go on, or some check failed and all ranks stop: those whose check failed with
its error, and all others with that of a peer for the size and operation at hand. -/
theorem verdicts_agree [Halves] [Arithmetic]
    (spans : bench.world.members World.defaultGroup = List.range bench.worldSize)
    (patient : 0 < bench.world.timeoutMs) (honest : bench.tampering = {}) (item : Item)
    (lockstep : ensemble.Lockstep bench fun _ => True)
    (follows : Follows bench [.agree, .conclude item] ensemble last) :
    last.participants.map Participant.rank = List.range bench.worldSize ∧
    ((∀ participant ∈ ensemble.participants, participant.fault = none) ∧
        (∀ participant ∈ last.participants, participant.failure = none) ∨
      (∃ participant ∈ ensemble.participants, participant.fault ≠ none) ∧
        last.participants.map Participant.failure =
          ensemble.participants.map fun participant => some (participant.fault.getD
            (.peerValidationFailed item.sizeBytes item.operation.name))) := by
  refine ⟨follows.ranks_eq.trans lockstep.ranks, ?_⟩
  obtain _ | ⟨early, _ | ⟨late, _ | _⟩⟩ := follows
  obtain ⟨count, truthful, agreed, faults⟩ :=
    lockstep.step_agree early spans patient honest fun _ _ _ held => held
  have someone := truthful.trans (exists_fault_iff faults).symm
  rcases agreed.step_conclude late spans patient someone item with
    ⟨nobody, onward⟩ | ⟨positive, failures⟩
  · refine .inl ⟨fun participant present => ?_, fun participant present =>
      (onward.each participant present).1⟩
    by_contra fault
    have counted := truthful.mpr ⟨participant, present, Option.isSome_iff_ne_none.mpr fault⟩
    omega
  · obtain ⟨participant, present, fault⟩ := truthful.mp positive
    refine .inr ⟨⟨participant, present, Option.isSome_iff_ne_none.mp fault⟩, failures.trans ?_⟩
    have own (participants : List Participant) :
        (participants.map fun participant => some (participant.fault.getD
          (.peerValidationFailed item.sizeBytes item.operation.name))) =
        (participants.map Participant.fault).map fun fault => some (fault.getD
          (.peerValidationFailed item.sizeBytes item.operation.name)) := by
      rw [List.map_map]
      rfl
    rw [own, own, faults]

/-- Of three ranks one finds a wrong value, and all stop. -/
theorem verdicts_agree_three :
    let bench : Bench := { params := {}, world := .create 3 [] 1000 }
    let item : Item := ⟨.allReduce, 8⟩
    let wrong : Error := .validationFailed 8 "all_reduce" "[0]" .zero .one
    let start := create bench []
    let checked (participant : Participant) : Participant :=
      { participant with fault := if participant.rank = 1 then some wrong else none }
    let ensemble := { start with participants := start.participants.map checked }
    ensemble.Lockstep bench (fun _ => True) ∧
      (ensemble.run bench [.agree, .conclude item]).participants.map Participant.failure =
        [some (.peerValidationFailed 8 "all_reduce"), some wrong,
          some (.peerValidationFailed 8 "all_reduce")] := by
  intro bench item wrong start checked ensemble
  have spans : bench.world.members World.defaultGroup = List.range bench.worldSize := rfl
  have created : start.Lockstep bench fun _ => True :=
    lockstep_of_create spans [] .counter fun _ _ => trivial
  have lockstep : ensemble.Lockstep bench fun _ => True :=
    ⟨created.ready, created.world, created.turns, by decide, by decide⟩
  refine ⟨lockstep, ?_⟩
  rcases (verdicts_agree spans (by decide) rfl item lockstep (follows_run bench _ ensemble)).2 with
    ⟨nobody, _⟩ | ⟨_, failures⟩
  · exact absurd nobody (by decide)
  · exact failures.trans (by decide +kernel)

end Ensemble

end CollectiveBench
