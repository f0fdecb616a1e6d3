import CollectiveBench.Proofs.Kernel.Embedding
import CollectiveBench.Proofs.Kernel.Product
import CollectiveBench.Proofs.Run.Builds
import CollectiveBench.Proofs.Run.Participants
import CollectiveBench.Proofs.Staging
import CollectiveBench.Run.Workload

/-!
# Workloads of all ranks

Every rank prepares a kernel of its own, with random values and random indices. Whether the kernel
runs does not depend on them: the shapes of its inputs follow from the parameters, and indices are
drawn below the number of rows. So a prepared kernel runs at every rank or at none
(`Workload.runs_alike`). It fails at every rank only if there are lookups to be made in a table
without columns or without rows. All of this takes that a build holds what it multiplies
(`Workload.Fits`).
-/

namespace CollectiveBench

/-! ## Lookups -/

/-- Lookups fail for the table or the indices. -/
theorem failsOnly_embeddingBags [Halves] (table : Tensor) (dimension : Nat)
    (indices offsets : List Nat) :
    FailsOnly (embeddingBags table dimension indices offsets) Error.OfOwnWork := by
  rw [embeddingBags_exact]
  exact (separateBags_refuses table dimension indices offsets).mono fun _ ⟨_, configuration⟩ =>
    configuration ▸ trivial

variable [Arithmetic]

omit [Arithmetic] in
/-- The lookup is one that is prepared for some bags in a table of some rows. -/
structure Lookup.IsFor (params : Params) (rows bags : Nat) (lookup : Lookup) : Prop where
  table : lookup.table.HasShape .f32 (rows * params.embeddingDim)
  count : lookup.indices.length = bags * params.bagSize
  inside : ∀ index ∈ lookup.indices, index < max rows 1
  offsets : lookup.offsets = (List.range bags).map (· * params.bagSize)

namespace Lookup

variable {params : Params} {rows : Nat} {lookup : Lookup}

omit [Arithmetic] in
/-- The bags that are prepared follow on each other up to the end of the indices. -/
theorem IsFor.areBags {bags : Nat} (prepared : lookup.IsFor params rows bags) (high : 0 < rows) :
    AreBags rows lookup.indices lookup.offsets := by
  refine ⟨?_, fun last ends => ?_, fun first _ row listed => ?_⟩
  · rw [prepared.offsets]
    exact List.pairwise_map.mpr (List.pairwise_lt_range.imp fun before =>
      Nat.mul_le_mul_right _ (Nat.le_of_lt before))
  · have listed := List.mem_of_getLast? ends
    rw [prepared.offsets] at listed
    obtain ⟨bag, inside, rfl⟩ := List.mem_map.mp listed
    rw [prepared.count]
    exact Nat.mul_le_mul_right _ (Nat.le_of_lt (List.mem_range.mp inside))
  · rw [← Nat.max_eq_left high]
    exact prepared.inside row (List.mem_of_mem_drop listed)

/-- A lookup in a table with rows and columns succeeds. -/
theorem IsFor.gives_embeddingBags [Halves] {bags : Nat} (prepared : lookup.IsFor params rows bags)
    (tables : Arithmetic.Allots (rows * params.embeddingDim) 8)
    (sums : Arithmetic.Allots (bags * params.embeddingDim) 8) (wide : params.embeddingDim ≠ 0)
    (high : 0 < rows) :
    Gives (embeddingBags lookup.table params.embeddingDim lookup.indices lookup.offsets)
      fun _ => True := by
  have count : lookup.table.count = rows * params.embeddingDim := prepared.table.2
  have height : lookup.table.count / params.embeddingDim = rows := by
    rw [count, Nat.mul_div_cancel _ (Nat.pos_of_ne_zero wide)]
  have begins : lookup.offsets.length = bags := by simp [prepared.offsets]
  have summed := separateBags_eq (Nat.pos_of_ne_zero wide) ⟨rows, count.trans (Nat.mul_comm _ _)⟩
    (height.symm ▸ prepared.areBags high)
  exact ⟨_, (embeddingBags_eq_separateBags (count ▸ tables) (begins ▸ sums)).trans summed, trivial⟩

/-- Prepared lookups in tables of one shape succeed for all ranks or for none: without rows all
indices are zero and nothing differs from rank to rank. -/
theorem embeddingBags_alike [Halves] (params : Params) (rows bags : Nat)
    (tables : Arithmetic.Allots (rows * params.embeddingDim) 8)
    (sums : Arithmetic.Allots (bags * params.embeddingDim) 8) :
    (∀ lookup : Lookup, lookup.IsFor params rows bags →
      Gives (embeddingBags lookup.table params.embeddingDim lookup.indices lookup.offsets)
        fun _ => True) ∨
    ∀ lookup : Lookup, lookup.IsFor params rows bags →
      FailsAlone (embeddingBags lookup.table params.embeddingDim lookup.indices
        lookup.offsets) := by
  by_cases wide : params.embeddingDim = 0
  · refine .inr fun lookup _ => ?_
    rw [embeddingBags, if_pos (.inl wide)]
    exact ⟨_, rfl, id⟩
  rcases Nat.eq_zero_or_pos rows with rfl | high
  · have common (lookup : Lookup) (prepared : lookup.IsFor params 0 bags) :
        embeddingBags lookup.table params.embeddingDim lookup.indices lookup.offsets =
          embeddingBags ⟨.f32, []⟩ params.embeddingDim
            (List.replicate (bags * params.bagSize) 0)
            ((List.range bags).map (· * params.bagSize)) := by
      obtain ⟨⟨type, words⟩, indices, offsets⟩ := lookup
      obtain ⟨⟨sameType, length⟩, count, inside, sameOffsets⟩ := prepared
      have empty : words = [] := List.length_eq_zero_iff.mp (length.trans (Nat.zero_mul _))
      have zeros : indices = List.replicate (bags * params.bagSize) 0 :=
        List.eq_replicate_iff.mpr
          ⟨count, fun index listed => Nat.lt_one_iff.mp (inside index listed)⟩
      subst sameType empty zeros sameOffsets
      rfl
    cases outcome : embeddingBags ⟨.f32, []⟩ params.embeddingDim
      (List.replicate (bags * params.bagSize) 0) ((List.range bags).map (· * params.bagSize)) with
    | ok sums =>
      exact .inl fun lookup prepared => ⟨sums, (common lookup prepared).trans outcome, trivial⟩
    | error error =>
      have begins : ((List.range bags).map (· * params.bagSize)).length = bags := by simp
      have empty : Arithmetic.Allots (Tensor.mk .f32 []).count 8 := tables.mono (Nat.zero_le _)
      rw [embeddingBags_eq_separateBags empty (by rwa [begins]), ← embeddingBags_exact] at outcome
      have own := failsOnly_embeddingBags _ _ _ _ error outcome
      rw [embeddingBags_exact, ← embeddingBags_eq_separateBags empty (by rwa [begins])] at outcome
      exact .inr fun lookup prepared => ⟨error, (common lookup prepared).trans outcome,
        own.not_leftWaiting⟩
  · exact .inl fun lookup prepared => prepared.gives_embeddingBags tables sums wide high

omit [Arithmetic] in
/-- Indices are drawn below their bound. -/
theorem indices_lt {bound : Nat} (positive : 0 < bound) (count : Nat) (generator : Generator) :
    EachOf count (· < bound) (generator.indices bound count).1 := by
  induction count generalizing generator with
  | zero => exact ⟨rfl, by simp [Generator.indices]⟩
  | succ count inductionHypothesis =>
    exact EachOf.cons (generator.source.below_lt _ _ positive) (inductionHypothesis _)

omit [Arithmetic] in
/-- Whatever a rank draws, it prepares as many lookups as the parameters say. -/
theorem eachOf_prepareLookups [Halves] (params : Params) (rows bags count : Nat)
    (generator : Generator)
    (device : Device) :
    EachOf count (Lookup.IsFor params rows bags)
      (Workload.prepareLookups rows (rows * params.embeddingDim) (bags * params.bagSize)
        ((List.range bags).map (· * params.bagSize)) count generator device).1 := by
  induction count generalizing generator device with
  | zero => exact ⟨rfl, by simp [Workload.prepareLookups]⟩
  | succ count inductionHypothesis =>
    obtain ⟨length, inside⟩ :=
      indices_lt (Nat.lt_of_lt_of_le Nat.one_pos (Nat.le_max_right rows 1))
        (bags * params.bagSize) generator
    exact EachOf.cons
      ⟨⟨rfl, Generator.length_words _ _ _ _⟩, length, inside, rfl⟩ (inductionHypothesis _ _)

end Lookup

/-! ## Kernels -/

namespace Workload

variable {requests : List (Request × Outcome Tensor)} {params : Params}

omit [Arithmetic] in
/-- Requests that all succeed are performed. -/
theorem perform_ok (each : ∀ request ∈ requests, Gives request.2 fun _ => True) (device : Device) :
    (perform requests device).1 = .ok () := by
  induction requests generalizing device with
  | nil => rfl
  | cons first rest inductionHypothesis =>
    obtain ⟨request, outcome⟩ := first
    rw [List.forall_mem_cons] at each
    obtain ⟨tensor, rfl, _⟩ := each.1
    exact inductionHypothesis each.2 _

omit [Arithmetic] in
/-- The first of requests that all fail alone stops them alone. -/
theorem perform_fails (some : requests ≠ []) (each : ∀ request ∈ requests, FailsAlone request.2)
    (device : Device) : FailsAlone (perform requests device).1 := by
  obtain ⟨⟨request, outcome⟩, rest, rfl⟩ := List.exists_cons_of_ne_nil some
  obtain ⟨error, rfl, own⟩ := each _ List.mem_cons_self
  exact ⟨error, rfl, own⟩

omit [Arithmetic] in
/-- Requests that are performed on every device are repeated. -/
theorem repeated_ok (performs : ∀ device, (perform requests device).1 = .ok ()) (runs : Nat)
    (device : Device) : (repeated requests runs device).1 = .ok () := by
  induction runs generalizing device with
  | zero => rfl
  | succ runs inductionHypothesis =>
    rw [repeated]
    split
    · exact inductionHypothesis _
    next failed =>
      have done := performs device
      rw [failed] at done
      cases done

omit [Arithmetic] in
/-- Requests that fail alone on every device are not repeated. -/
theorem repeated_fails (fails : ∀ device, FailsAlone (perform requests device).1) {runs : Nat}
    (some : runs ≠ 0) (device : Device) : FailsAlone (repeated requests runs device).1 := by
  obtain ⟨fewer, rfl⟩ := Nat.exists_eq_succ_of_ne_zero some
  rw [repeated]
  obtain ⟨error, failed, own⟩ := fails device
  split
  next done =>
    rw [done] at failed
    cases failed
  next other _ same =>
    rw [same] at failed
    cases failed
    exact ⟨_, rfl, own⟩

/-- What the inputs of a kernel measure as long as nothing is lost. Indices and offsets are only
needed where there are lookups to make. -/
def measures (params : Params) : Option Measures :=
  params.kernel.map fun kernel =>
    match kernel with
    | .gemm => .product (params.matrixDim * params.matrixDim)
    | .embeddingLookup =>
      let rows := params.tableRows * params.batchTables
      let bags := params.batchSize * params.batchTables
      if params.lookups = 0 then .lookups rows 0 0 []
      else .lookups rows (rows * params.embeddingDim) (bags * params.bagSize)
        ((List.range bags).map (· * params.bagSize))

/-- What a kernel multiplies is held: the elements of its matrices, or the rows and bags of its
lookups and, where there are lookups to make, the elements of the tables, of the sums and of the
indices. The numbers that it computes with take eight bytes each. -/
structure Fits (params : Params) : Prop where
  square : params.kernel = some .gemm → Arithmetic.Allots (params.matrixDim * params.matrixDim) 8
  rows : params.kernel = some .embeddingLookup →
    Arithmetic.Holds (params.tableRows * params.batchTables)
  bags : params.kernel = some .embeddingLookup →
    Arithmetic.Holds (params.batchSize * params.batchTables)
  tables : params.kernel = some .embeddingLookup → params.lookups ≠ 0 →
    Arithmetic.Allots (params.tableRows * params.batchTables * params.embeddingDim) 8
  sums : params.kernel = some .embeddingLookup → params.lookups ≠ 0 →
    Arithmetic.Allots (params.batchSize * params.batchTables * params.embeddingDim) 8
  indices : params.kernel = some .embeddingLookup → params.lookups ≠ 0 →
    Arithmetic.Allots (params.batchSize * params.batchTables * params.bagSize) 8
  offsets : params.kernel = some .embeddingLookup → params.lookups ≠ 0 →
    Arithmetic.Allots (params.batchSize * params.batchTables) 8

instance (params : Params) : Decidable (Fits params) :=
  decidable_of_iff
    ((params.kernel = some .gemm → Arithmetic.Allots (params.matrixDim * params.matrixDim) 8) ∧
      (params.kernel = some .embeddingLookup →
        Arithmetic.Holds (params.tableRows * params.batchTables) ∧
        Arithmetic.Holds (params.batchSize * params.batchTables) ∧
        (params.lookups ≠ 0 →
          Arithmetic.Allots (params.tableRows * params.batchTables * params.embeddingDim) 8 ∧
          Arithmetic.Allots (params.batchSize * params.batchTables * params.embeddingDim) 8 ∧
          Arithmetic.Allots (params.batchSize * params.batchTables * params.bagSize) 8 ∧
          Arithmetic.Allots (params.batchSize * params.batchTables) 8)))
    ⟨fun ⟨square, lookups⟩ => {
        square
        rows := fun kernel => (lookups kernel).1
        bags := fun kernel => (lookups kernel).2.1
        tables := fun kernel some => ((lookups kernel).2.2 some).1
        sums := fun kernel some => ((lookups kernel).2.2 some).2.1
        indices := fun kernel some => ((lookups kernel).2.2 some).2.2.1
        offsets := fun kernel some => ((lookups kernel).2.2 some).2.2.2 },
      fun fits => ⟨fits.square, fun kernel => ⟨fits.rows kernel, fits.bags kernel, fun some =>
        ⟨fits.tables kernel some, fits.sums kernel some, fits.indices kernel some,
          fits.offsets kernel some⟩⟩⟩⟩

omit [Arithmetic] in
/-- Without any bounds every kernel fits. -/
theorem fits_exact (params : Params) : @Fits .exact params :=
  @Fits.mk .exact _ (fun _ => .inl rfl) (fun _ => .inl rfl) (fun _ => .inl rfl)
    (fun _ _ => .inl rfl) (fun _ _ => .inl rfl) (fun _ _ => .inl rfl) fun _ _ => .inl rfl

/-- There is room for elements of four bytes where there is room for as many of eight. -/
theorem held_single {count : Nat} (allots : Arithmetic.Allots count 8) (scale : Numeric.Scalar) :
    (Device.Filling.random scale).held .f32 count = .ok count :=
  Device.held_of_allots (allots.imp id fun below => by
    show count * 4 < Arithmetic.roomLimit
    omega)

/-- What fits is measured as it is. -/
theorem measure_of_fits {params : Params} (fits : Fits params) :
    measure params = .ok (measures params) := by
  rw [measure, measures]
  cases kernel : params.kernel with
  | none => rfl
  | some chosen =>
    cases chosen with
    | gemm =>
      have square := fits.square kernel
      exact bind_eq_of_eq_ok (Arithmetic.word_of_holds (square.holds_count (by decide)))
        (bind_eq_of_eq_ok (held_single square _) rfl)
    | embeddingLookup =>
      refine bind_eq_of_eq_ok (Arithmetic.word_of_holds (fits.rows kernel))
        (bind_eq_of_eq_ok (Arithmetic.word_of_holds (fits.bags kernel)) ?_)
      by_cases none : params.lookups = 0
      · simp only [none, if_true, Option.map_some]
        rfl
      · have tables := fits.tables kernel none
        have indices := fits.indices kernel none
        have counted := indices.holds_count (by decide)
        have offsets : ((List.range (params.batchSize * params.batchTables)).mapM fun bag =>
            Arithmetic.word (bag * params.bagSize)) =
            .ok ((List.range (params.batchSize * params.batchTables)).map
              (· * params.bagSize)) := by
          refine mapM_eq_ok fun bag listed => Arithmetic.word_of_holds (counted.mono ?_)
          exact Nat.mul_le_mul_right _ (Nat.le_of_lt (List.mem_range.mp listed))
        simp only [none, if_false, Option.map_some]
        exact bind_eq_of_eq_ok (Arithmetic.word_of_holds (tables.holds_count (by decide)))
          (bind_eq_of_eq_ok (held_single tables _)
            (bind_eq_of_eq_ok (Arithmetic.word_of_holds counted)
              (bind_eq_of_eq_ok (Arithmetic.items_of_allots indices)
                (bind_eq_of_eq_ok (Arithmetic.items_of_allots (fits.offsets kernel none))
                  (bind_eq_of_eq_ok offsets rfl)))))

/-- The workload is one that a rank prepares. -/
def IsPrepared [Halves] (params : Params) (workload : Workload) : Prop :=
  ∃ rank device, (prepare params rank (measures params) device).1 = some workload

omit [Arithmetic] in
/-- What a rank prepares follows from the parameters, up to the values that it draws. -/
theorem IsPrepared.input [Halves] {workload : Workload} (prepared : workload.IsPrepared params) :
    workload.runs = params.computeRuns ∧
      ((params.kernel = some .gemm ∧ ∃ left right : Tensor,
          workload.input = .product left right params.matrixDim ∧
          left.count = params.matrixDim * params.matrixDim ∧
          right.count = params.matrixDim * params.matrixDim) ∨
        params.kernel = some .embeddingLookup ∧ ∃ lookups,
          workload.input = .lookups params.embeddingDim lookups ∧
          EachOf params.lookups (Lookup.IsFor params (params.tableRows * params.batchTables)
            (params.batchSize * params.batchTables)) lookups) := by
  obtain ⟨rank, device, made⟩ := prepared
  rw [measures] at made
  cases kernel : params.kernel with
  | none =>
    rw [kernel] at made
    cases made
  | some chosen =>
    rw [kernel] at made
    obtain rfl := Option.some.inj made
    refine ⟨rfl, ?_⟩
    cases chosen with
    | gemm =>
      exact .inl
        ⟨rfl, _, _, rfl, Generator.length_words _ _ _ _, Generator.length_words _ _ _ _⟩
    | embeddingLookup =>
      refine .inr ⟨rfl, ?_⟩
      by_cases none : params.lookups = 0
      · simp only [none, if_true]
        exact ⟨_, rfl, rfl, by simp [prepareLookups]⟩
      · simp only [none, if_false]
        exact ⟨_, rfl, Lookup.eachOf_prepareLookups _ _ _ _ _ _⟩

omit [Arithmetic] in
/-- Whether a rank prepares a kernel follows from the parameters as well. -/
theorem prepare_eq_none [Halves] {rank : Nat} {device : Device} :
    (prepare params rank (measures params) device).1 = none ↔ params.kernel = none := by
  rw [measures]
  cases params.kernel with
  | none => exact ⟨fun _ => rfl, fun _ => rfl⟩
  | some kernel => exact ⟨nofun, nofun⟩

/-- A prepared kernel runs at every rank or at none. -/
theorem runs_alike [Halves] {params : Params} (fits : Fits params) :
    (∀ workload : Workload, workload.IsPrepared params → ∀ device,
      (workload.run device).1 = .ok ()) ∨
    ∀ workload : Workload, workload.IsPrepared params → ∀ device,
      FailsAlone (workload.run device).1 := by
  have product {left right : Tensor} (kernel : params.kernel = some .gemm)
      (length : left.count = params.matrixDim * params.matrixDim)
      (otherLength : right.count = params.matrixDim * params.matrixDim) :
      ∀ request ∈ Workload.requests (.product left right params.matrixDim),
        Gives request.2 fun _ => True := by
    intro request listed
    rw [List.mem_singleton.mp listed]
    exact ⟨_, matrixProduct_eq (length ▸ fits.square kernel) length otherLength, trivial⟩
  by_cases busy : params.computeRuns ≠ 0 ∧ params.kernel = some .embeddingLookup ∧
      params.lookups ≠ 0
  · obtain ⟨runs, kernel, some⟩ := busy
    have lookups (workload : Workload) (prepared : workload.IsPrepared params) :
        workload.runs = params.computeRuns ∧ ∃ lookups,
          workload.input = .lookups params.embeddingDim lookups ∧
          EachOf params.lookups (Lookup.IsFor params (params.tableRows * params.batchTables)
            (params.batchSize * params.batchTables)) lookups := by
      obtain ⟨same, ⟨product, _⟩ | ⟨_, lookups⟩⟩ := prepared.input
      · rw [kernel] at product
        cases product
      · exact ⟨same, lookups⟩
    rcases Lookup.embeddingBags_alike params _ _ (fits.tables kernel some)
      (fits.sums kernel some) with succeed | fail
    · refine .inl fun workload prepared device => repeated_ok (perform_ok ?_) _ _
      obtain ⟨_, lookups, input, _, each⟩ := lookups workload prepared
      rw [input, requests, List.forall_mem_map]
      exact fun lookup listed => succeed lookup (each lookup listed)
    · refine .inr fun workload prepared device => ?_
      obtain ⟨same, lookups, input, count, each⟩ := lookups workload prepared
      refine repeated_fails (perform_fails ?_ ?_) (same ▸ runs) _
      · rw [input, requests, Ne, List.map_eq_nil_iff, ← List.length_eq_zero_iff, count]
        exact some
      · rw [input, requests, List.forall_mem_map]
        exact fun lookup listed => fail lookup (each lookup listed)
  · refine .inl fun workload prepared device => ?_
    obtain ⟨same, ⟨kernel, left, right, input, length, otherLength⟩ |
      ⟨kernel, lookups, input, count, each⟩⟩ := prepared.input
    · refine repeated_ok (perform_ok ?_) _ _
      rw [input]
      exact product kernel length otherLength
    · rcases Nat.eq_zero_or_pos params.computeRuns with none | runs
      · rw [run, same, none]
        rfl
      · have empty : lookups = [] := by
          rw [← List.length_eq_zero_iff, count]
          by_contra some
          exact busy ⟨Nat.ne_of_gt runs, kernel, some⟩
        refine repeated_ok (perform_ok ?_) _ _
        rw [input, empty]
        rintro _ (_ | _)

end Workload

/-! ## Participants that lose nothing -/

namespace Participant

variable (participant : Participant) (bench : Bench) (now : Nat) {item : Item}

/-- Staging goes on from what staging gives without any bounds. -/
theorem stageItem_of_fits [Halves] (fits : item.Fits bench.params bench.worldSize participant.rank)
    (allocate : Bool) (proceed : Participant → Buffers → Participant) :
    let staged := @stage .exact _ bench.supported bench.world
      (item.stagingParams bench.params bench.worldSize)
      (@Item.descriptor .exact item bench.params bench.worldSize participant.rank) allocate
      participant.device
    participant.stageItem bench item allocate proceed =
      { participant with device := staged.2 }.attempt staged.1
        (proceed { participant with device := staged.2 }) := by
  rw [stageItem, Item.checkSums_of_summed fits.summed]
  simp only [attempt, Item.stage_of_summed fits.summed fun _ => fits.room]

/-- A participant prepares the workload that its parameters ask for. -/
theorem ask_prepare [Halves] (fits : Workload.Fits bench.params) :
    let prepared := Workload.prepare bench.params participant.rank
      (Workload.measures bench.params) participant.device
    participant.ask bench now .prepare =
      ({ participant with workload := prepared.1, device := prepared.2 }, []) := by
  rw [ask, Workload.measure_of_fits fits]
  rfl

variable {participant bench}

/-- A rank can compute how many bytes it contributes. -/
theorem checkBytes_of_fits (fits : item.Fits bench.params bench.worldSize participant.rank) :
    participant.checkBytes bench item = .ok () :=
  bind_eq_of_eq_ok (Arithmetic.word_of_holds
    ((fits.room.mono (Nat.le_max_left _ _)).holds)) rfl

/-- A participant tells the others what it measured. -/
theorem ask_gather [Halves] (fits : item.Fits bench.params bench.worldSize participant.rank)
    (counted : Arithmetic.Holds
      (bench.params.iterations * Agenda.callsPerIteration bench.params)) :
    participant.ask bench now (.gather item) =
      (participant.evaluate bench item).2.issue
        [latencyCall bench.worldSize (participant.evaluate bench item).1] := by
  have totals : participant.checkTotals bench item = .ok () :=
    bind_eq_of_eq_ok (checkBytes_of_fits fits)
      (bind_eq_of_eq_ok (Arithmetic.word_of_holds counted) rfl)
  rw [ask, totals]

/-- A participant adds its measurement. -/
theorem ask_report [Halves] (fits : item.Fits bench.params bench.worldSize participant.rank) :
    participant.ask bench now (.report item) = (participant.report bench item, []) := by
  rw [ask, checkBytes_of_fits fits]
  rfl

end Participant

namespace Participant

variable {participant : Participant}

/-- The participant has the workload that it was to prepare, if there was one. -/
def Equipped [Halves] (params : Params) (participant : Participant) : Prop :=
  ∃ rank device, participant.workload =
    (Workload.prepare params rank (Workload.measures params) device).1

/-- Participants that are equipped for the same parameters all get through their workloads, or all
of them give up. -/
theorem compute_alike [Halves] {params : Params} (fits : Workload.Fits params) :
    (∀ participant : Participant, participant.Equipped params →
      participant.Resembles participant.compute) ∨
    ∀ participant : Participant, participant.Equipped params → participant.compute.GaveUp := by
  have idle {participant : Participant} (free : participant.workload = none) :
      participant.Resembles participant.compute := by
    rw [compute, free]
    exact .refl participant
  cases kernel : params.kernel with
  | none =>
    refine .inl fun participant equipped => idle ?_
    obtain ⟨rank, device, prepared⟩ := equipped
    rw [prepared, Workload.prepare_eq_none, kernel]
  | some chosen =>
    have busy {participant : Participant} (equipped : participant.Equipped params) :
        ∃ workload, participant.workload = some workload ∧ workload.IsPrepared params := by
      obtain ⟨rank, device, prepared⟩ := equipped
      obtain ⟨workload, made⟩ := Option.ne_none_iff_exists'.mp fun none =>
        absurd (Workload.prepare_eq_none.mp none) (kernel ▸ Option.some_ne_none chosen)
      exact ⟨workload, prepared.trans made, rank, device, made⟩
    rcases Workload.runs_alike fits with succeed | fail
    · refine .inl fun participant equipped => ?_
      obtain ⟨workload, chosen, prepared⟩ := busy equipped
      have done := succeed workload prepared participant.device
      simp only [compute, chosen, done, attempt]
      exact ⟨rfl, rfl, chosen.symm, rfl, rfl, rfl, rfl⟩
    · refine .inr fun participant equipped => ?_
      obtain ⟨workload, chosen, prepared⟩ := busy equipped
      simp only [compute, chosen]
      exact gaveUp_attempt (fail workload prepared participant.device) _

end Participant

end CollectiveBench
