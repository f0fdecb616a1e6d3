import CollectiveBench.Program
import CollectiveBench.Proofs.RankList
import CollectiveBench.Proofs.Run.Items

/-!
# Accepted command lines

What is known of a bench once a command line was read and its parameters passed their checks: the
backend and its world are fixed, the world has a rank, the operations are known, all peers exist,
and a split has an entry for each rank. Nothing is said of the root, which is not checked before the
first call is issued.
-/

namespace CollectiveBench

variable {size : Nat} {params : Params} {bench : Bench} {operations : List Operation}

/-! ## Options -/

/-- The value that was given for an option has the option's shape; a flag needs none. -/
def Arguments.Fits (option : String × String) : Prop :=
  ∃ shape, Arguments.options.lookup option.1 = some shape ∧
    (shape = .flag ∨ shape.accepts option.2 = true)

/-- All options of a command line fit. The induction is on the reading, with the options that were
found so far. -/
theorem Arguments.fits_readFrom {given arguments : Arguments} {text : List String}
    (read : Arguments.readFrom given text = .ok arguments)
    (before : ∀ option ∈ given, Fits option) : ∀ option ∈ arguments, Fits option := by
  fun_induction Arguments.readFrom given text
  case case1 | case2 =>
    obtain rfl := Except.ok.inj read
    exact before
  case case8 known _ _ _ _ inductionHypothesis =>
    exact inductionHypothesis read (List.forall_mem_cons.mpr ⟨⟨_, known, .inl rfl⟩, before⟩)
  case case10 known fresh _ _ _ inductionHypothesis =>
    rw [Bool.not_eq_true, Bool.or_eq_false_iff, Bool.not_eq_false'] at fresh
    exact inductionHypothesis read (List.forall_mem_cons.mpr ⟨⟨_, known, .inr fresh.2⟩, before⟩)
  case case13 known fresh _ _ _ inductionHypothesis =>
    rw [Bool.not_eq_true, Bool.or_eq_false_iff, Bool.not_eq_false'] at fresh
    exact inductionHypothesis read (List.forall_mem_cons.mpr ⟨⟨_, known, .inr fresh.2⟩, before⟩)
  all_goals cases read

/-- The number of ranks is the one that was given, else the launcher's, else two. -/
theorem Arguments.worldSize_of_read {text : List String} {arguments : Arguments}
    (read : Arguments.read text = .ok arguments) (launcher : Launcher) :
    (∀ value, arguments.lookup "world-size" = some value →
      Text.signed? 64 value.toList = some (arguments.worldSize launcher : Int)) ∧
    (arguments.lookup "world-size" = none →
      arguments.worldSize launcher = launcher.worldSize.getD 2) := by
  refine ⟨fun value given => ?_, fun none => ?_⟩
  · obtain ⟨_, _, listed, _⟩ := List.lookup_eq_some_iff.mp given
    obtain ⟨shape, known, fits⟩ := fits_readFrom read (by simp) ("world-size", value)
      (by rw [listed]; simp)
    obtain rfl : Shape.narrow Text.bound32 = shape := Option.some.inj known
    obtain ⟨number, spelled, bounds⟩ := (Option.any_eq_true _ _).mp (fits.resolve_left nofun)
    rw [Bool.and_eq_true, decide_eq_true_eq] at bounds
    have wider := Text.signed?_succ spelled
    have size : arguments.worldSize launcher = number.toNat := by
      rw [worldSize, number?, given]
      simp [wider]
    rw [size, Int.toNat_of_nonneg bounds.1]
    exact wider
  · rw [worldSize, number?, none]
    rfl

/-- A rank list that was read names different ranks that exist. -/
theorem Arguments.areRanks_ranks (arguments : Arguments) (option name : String) :
    GivesOnly (Arguments.ranks arguments option name size) (AreRanks size) := by
  rw [Arguments.ranks]
  split
  · exact fun ranks read => (spells_of_readRankList read).areRanks
  · exact givesOnly_ok .nil

/-! ## Parameters -/

/-- The parameters of a command line have a world of the size that it asks for, and the peers that
they name are different ranks of it. -/
theorem Arguments.params_named {arguments : Arguments} {launcher : Launcher}
    (made : Arguments.params arguments launcher = .ok params) :
    0 < arguments.worldSize launcher ∧
      params.launcher.worldSize = some (arguments.worldSize launcher) ∧
      AreRanks (arguments.worldSize launcher) params.sources ∧
      AreRanks (arguments.worldSize launcher) params.destinations := by
  rw [Arguments.params] at made
  obtain ⟨_, made⟩ := guard_eq_ok made
  obtain ⟨inhabited, made⟩ := guard_eq_ok made
  obtain ⟨beginSize, _, made⟩ := bind_eq_ok made
  obtain ⟨endSize, _, made⟩ := bind_eq_ok made
  obtain ⟨type, _, made⟩ := bind_eq_ok made
  obtain ⟨sources, readSources, made⟩ := bind_eq_ok made
  obtain ⟨destinations, readDestinations, made⟩ := bind_eq_ok made
  obtain ⟨inSplit, _, made⟩ := bind_eq_ok made
  obtain ⟨outSplit, _, made⟩ := bind_eq_ok made
  obtain ⟨reduction, _, made⟩ := bind_eq_ok made
  obtain rfl := Except.ok.inj made
  exact ⟨Nat.pos_of_ne_zero inhabited, rfl,
    Arguments.areRanks_ranks _ _ _ _ readSources,
    Arguments.areRanks_ranks _ _ _ _ readDestinations⟩

/-- A split that was checked has an entry for each rank. -/
theorem Params.length_of_checkSplit {split : Option (List Nat)}
    (checked : checkSplit size split = .ok ()) :
    ∀ chosen, split = some chosen → chosen.length = size := by
  rintro chosen rfl
  by_contra other
  rw [checkSplit, if_neg other] at checked
  cases checked

/-- Parameters that were checked are consistent. -/
theorem Params.consistent_of_check (checked : params.check.1 = .ok ()) :
    params.checkConsistency = .ok () := by
  rw [check] at checked
  split at checked
  next consistent => exact consistent
  next => cases checked

/-- Checked parameters have operations that are known. -/
theorem Params.operations_of_check (checked : params.check.1 = .ok ()) :
    ∃ operations, params.operations = .ok operations := by
  have consistent := consistent_of_check checked
  rw [checkConsistency] at consistent
  obtain ⟨_, consistent⟩ := guard_eq_ok consistent
  obtain ⟨operations, known, _⟩ := bind_eq_ok consistent
  exact ⟨operations, known⟩

/-- Checked parameters have operations that are known, and splits with an entry for each rank. -/
theorem Params.of_check (checked : params.check.1 = .ok ())
    (launched : params.launcher.worldSize = some size) :
    (∃ operations, params.operations = .ok operations) ∧
      (∀ split, params.inSplit = some split → split.length = size) ∧
      ∀ split, params.outSplit = some split → split.length = size := by
  have consistent := consistent_of_check checked
  rw [checkConsistency] at consistent
  obtain ⟨_, consistent⟩ := guard_eq_ok consistent
  obtain ⟨operations, known, consistent⟩ := bind_eq_ok consistent
  obtain ⟨_, consistent⟩ := guard_eq_ok consistent
  obtain ⟨_, consistent⟩ := guard_eq_ok consistent
  obtain ⟨_, consistent⟩ := guard_eq_ok consistent
  simp only [launched] at consistent
  obtain ⟨⟨⟩, input, consistent⟩ := bind_eq_ok consistent
  obtain ⟨⟨⟩, output, _⟩ := bind_eq_ok consistent
  exact ⟨⟨operations, known⟩, length_of_checkSplit input, length_of_checkSplit output⟩

/-! ## Benches -/

/-- On a backend that supports all operations a bench resolves those of its parameters. -/
theorem Bench.operations_eq (everything : bench.supported = Operation.all)
    (known : bench.params.operations = .ok operations) : bench.operations = .ok operations := by
  have collecting : Operation.resolve Operation.all Operation.allGatherBase.name =
      .ok .allGatherBase := Operation.resolve_name (by decide)
  have agreeing : Operation.resolve Operation.all Operation.allReduce.name = .ok .allReduce :=
    Operation.resolve_name (by decide)
  rw [Params.operations] at known
  rw [Bench.operations, everything, known]
  simp only [bind, Except.bind, collecting, agreeing]
  split <;> rfl

/-- A bench whose parameters were accepted, on the local backend. -/
structure Bench.IsAccepted (bench : Bench) : Prop where
  world : bench.world = .create bench.worldSize [] bench.params.timeoutMs
  supported : bench.supported = Operation.all
  honest : bench.tampering = {}
  inhabited : 0 < bench.worldSize
  launched : bench.params.launcher.worldSize = some bench.worldSize
  checked : bench.params.check.1 = .ok ()
  sources : ∀ source ∈ bench.params.sources, source < bench.worldSize
  destinations : ∀ destination ∈ bench.params.destinations, destination < bench.worldSize

/-- A bench for a command line is accepted, whatever the environment overrides. -/
theorem Program.isAccepted_of_benchFor {arguments : Arguments} {environment : Environment}
    (made : benchFor arguments environment = .ok bench) : bench.IsAccepted := by
  rw [benchFor] at made
  obtain ⟨params, read, made⟩ := bind_eq_ok made
  obtain ⟨⟨⟩, checked, made⟩ := bind_eq_ok made
  obtain rfl := Except.ok.inj made
  obtain ⟨inhabited, launched, sources, destinations⟩ := Arguments.params_named read
  have found : (params.withOverrides environment).launcher.worldSize.getD 1 =
      arguments.worldSize (.ofEnvironment environment) := by
    change params.launcher.worldSize.getD 1 = _
    rw [launched]
    rfl
  rw [found]
  exact ⟨rfl, rfl, rfl, inhabited, launched, checked, sources.inside, destinations.inside⟩

namespace Bench.IsAccepted

/-- The group of a call is the whole world. -/
theorem spans (accepted : bench.IsAccepted) :
    bench.world.members World.defaultGroup = List.range bench.worldSize := by
  rw [accepted.world]
  rfl

/-- The operations of an accepted bench are resolved before the run. -/
theorem operations_eq (accepted : bench.IsAccepted)
    (known : bench.params.operations = .ok operations) : bench.operations = .ok operations :=
  Bench.operations_eq accepted.supported known

/-- An operation of an accepted bench is one that a name of the command line stands for. -/
theorem exists_name (known : bench.params.operations = .ok operations) :
    ∀ operation ∈ operations, operation ∈ Operation.all ∧
      ∃ name ∈ bench.params.collectives, Operation.ofName? name = some operation := by
  have resolved : ∀ name ∈ bench.params.collectives,
      GivesOnly (Operation.resolve Operation.all name) fun operation =>
        operation ∈ Operation.all ∧
          ∃ name ∈ bench.params.collectives, Operation.ofName? name = some operation := by
    intro name listed
    rw [Operation.resolve]
    split
    next operation stands =>
      split
      next supported => exact givesOnly_ok ⟨supported, name, listed, stands⟩
      next => exact givesOnly_error _
    next => exact givesOnly_error _
  exact (givesOnly_mapM resolved operations known).2

end Bench.IsAccepted

end CollectiveBench
