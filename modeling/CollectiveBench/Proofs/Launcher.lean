import CollectiveBench.Launcher
import CollectiveBench.Proofs.Text.Numerals
import Mathlib.Algebra.Group.Nat.Defs
import Mathlib.Logic.Basic

/-!
# The numbers of a launcher

Each of the four numbers that a launcher tells has a list of variables. The number is that of the
first variable of the list with a natural number of 32 bits, and variables that are missing, hold
something else, or hold a negative number or one beyond 63 bits are passed over. Only a number of 33
to 63 bits is not: it ends the search, and where it stands before every variable that could be used,
the launcher is taken to tell nothing (`launcher_numbers`).
-/

namespace CollectiveBench

open Text

/-! ## First numbers -/

/-- The number that is given by the first name of a list that gives any. -/
inductive FirstNumber (gives : String → Nat → Prop) : List String → Nat → Prop where
  | here {name : String} {rest : List String} {number : Nat} (given : gives name number) :
    FirstNumber gives (name :: rest) number
  | later {name : String} {rest : List String} {number : Nat}
      (skipped : ∀ other, ¬ gives name other) (found : FirstNumber gives rest number) :
    FirstNumber gives (name :: rest) number

namespace FirstNumber

variable {gives narrower : String → Nat → Prop} {names : List String} {number other : Nat}

/-- Names that give one number each have one first number. -/
theorem unique (single : ∀ name left right, gives name left → gives name right → left = right)
    (first : FirstNumber gives names number) (again : FirstNumber gives names other) :
    number = other := by
  induction first with
  | here given =>
    cases again with
    | here same => exact single _ _ _ given same
    | later skipped => exact absurd given (skipped _)
  | later skipped _ inductionHypothesis =>
    cases again with
    | here given => exact absurd given (skipped _)
    | later _ found => exact inductionHypothesis found

/-- There is a first number exactly if some name gives a number. -/
theorem exists_iff :
    (∃ number, FirstNumber gives names number) ↔ ∃ name ∈ names, ∃ number, gives name number := by
  constructor
  · rintro ⟨number, first⟩
    induction first with
    | here given => exact ⟨_, List.mem_cons_self, _, given⟩
    | later _ _ inductionHypothesis =>
      obtain ⟨name, listed, given⟩ := inductionHypothesis
      exact ⟨name, List.mem_cons_of_mem _ listed, given⟩
  · rintro ⟨name, listed, number, given⟩
    induction names with
    | nil => cases listed
    | cons front rest inductionHypothesis =>
      by_cases skipped : ∀ other, ¬ gives front other
      · rcases List.mem_cons.mp listed with rfl | listed
        · exact absurd given (skipped _)
        · obtain ⟨number, found⟩ := inductionHypothesis listed
          exact ⟨number, .later skipped found⟩
      · obtain ⟨other, given⟩ := not_forall_not.mp skipped
        exact ⟨other, .here given⟩

/-- Where fewer names give a number, but the first one still does, it stays the first one. -/
theorem narrow (fewer : ∀ name other, narrower name other → gives name other)
    (kept : ∀ name, gives name number → narrower name number)
    (first : FirstNumber gives names number) : FirstNumber narrower names number := by
  induction first with
  | here given => exact .here (kept _ given)
  | later skipped _ inductionHypothesis =>
    exact .later (fun other given => skipped other (fewer _ other given)) (inductionHypothesis kept)

/-- The first natural number among the integers that names have. -/
theorem find?_filterMap {integer : String → Option Int} :
    (names.filterMap integer).find? (0 ≤ ·) = some (number : Int) ↔
      FirstNumber (fun name other => integer name = some (other : Int)) names number := by
  induction names with
  | nil => exact ⟨nofun, nofun⟩
  | cons name rest inductionHypothesis =>
    -- A name without a natural number is passed over on both sides.
    have later (skipped : ∀ other : Nat, integer name ≠ some (other : Int)) :
        FirstNumber (fun name other => integer name = some (other : Int)) (name :: rest) number ↔
          FirstNumber (fun name other => integer name = some (other : Int)) rest number := by
      refine ⟨fun first => ?_, .later skipped⟩
      cases first with
      | here given => exact absurd given (skipped _)
      | later _ found => exact found
    cases held : integer name with
    | none =>
      rw [List.filterMap_cons_none held, inductionHypothesis, later (by simp [held])]
    | some value =>
      rw [List.filterMap_cons_some held]
      by_cases natural : 0 ≤ value
      · obtain ⟨count, rfl⟩ := Int.eq_ofNat_of_zero_le natural
        rw [List.find?_cons_of_pos (by simp), Option.some.injEq]
        constructor
        · intro same
          exact .here (held.trans (congrArg some same))
        · intro first
          cases first with
          | here given => exact Option.some.inj (held.symm.trans given)
          | later skipped => exact absurd held (skipped count)
      · rw [List.find?_cons_of_neg (by simpa using natural), inductionHypothesis]
        refine (later fun other same => natural ?_).symm
        rw [Option.some.inj (held.symm.trans same)]
        exact Int.natCast_nonneg other

end FirstNumber

/-! ## Variables -/

namespace Environment

/-- The variable holds a natural number of at most so many bits, between blanks. -/
def Gives (environment : Environment) (bits : Nat) (name : String) (number : Nat) : Prop :=
  ∃ text, environment.lookup name = some text ∧ IsInteger (trim text.toList) number ∧
    number < 2 ^ bits

/-- A number of 33 to 63 bits stands before the first variable with a number of 32 bits. -/
def Hides (environment : Environment) (names : List String) : Prop :=
  ∃ large number, FirstNumber (environment.Gives 63) names large ∧ 2 ^ 32 ≤ large ∧
    FirstNumber (environment.Gives 32) names number

variable {environment : Environment} {names : List String} {name : String} {number other : Nat}

/-- The integer that is read from a variable is the one that it holds. -/
theorem gives_iff {bits : Nat} : environment.Gives bits name number ↔
    (environment.lookup name).bind (fun text => signed? bits (trim text.toList)) =
      some (number : Int) := by
  simp only [Gives, Option.bind_eq_some_iff, signed?_eq_some_iff]
  refine exists_congr fun text => and_congr_right fun _ => and_congr_right fun _ => ?_
  change number < powerOfTwo bits ↔ _
  omega

/-- A variable gives one number at most. -/
theorem Gives.unique {bits : Nat} (given : environment.Gives bits name number)
    (again : environment.Gives bits name other) : number = other := by
  rw [gives_iff] at given again
  exact Int.ofNat.inj (Option.some.inj (given.symm.trans again))

/-- A number of 32 bits is one of 63 bits. -/
theorem Gives.widen (given : environment.Gives 32 name number) :
    environment.Gives 63 name number := by
  obtain ⟨text, found, integer, small⟩ := given
  exact ⟨text, found, integer, by omega⟩

/-- A number below `2 ^ 32` is given as a narrow one, too. -/
theorem Gives.narrow (given : environment.Gives 63 name number) (small : number < 2 ^ 32) :
    environment.Gives 32 name number := by
  obtain ⟨text, found, integer, _⟩ := given
  exact ⟨text, found, integer, small⟩

end Environment

/-! ## Numbers of a launcher -/

namespace Launcher

/-- The numbers that a launcher tells. -/
inductive Quantity where
  | worldSize | localSize | globalRank | localRank

/-- The variables of a number, in the order of preference. -/
def Quantity.names : Quantity → List String
  | .worldSize => worldSizeNames
  | .localSize => localSizeNames
  | .globalRank => globalRankNames
  | .localRank => localRankNames

/-- The number, if the launcher tells it. -/
def Quantity.of? (launcher : Launcher) : Quantity → Option Nat
  | .worldSize => launcher.worldSize
  | .localSize => launcher.localSize
  | .globalRank => launcher.globalRank
  | .localRank => launcher.localRank

/-- A quantity is the number that the environment gives under one of its names. -/
theorem Quantity.of?_ofEnvironment (environment : Environment) (quantity : Quantity) :
    quantity.of? (ofEnvironment environment) = number? environment quantity.names := by
  cases quantity <;> rfl

variable {environment : Environment} {names : List String} {number : Nat}

/-- The search ends at the first natural number of 63 bits, and that is taken if it has 32. -/
theorem number?_eq_some_iff : number? environment names = some number ↔
    FirstNumber (environment.Gives 63) names number ∧ number < 2 ^ 32 := by
  have held : FirstNumber (environment.Gives 63) names number ↔
      (integers environment names).find? (0 ≤ ·) = some (number : Int) := by
    rw [integers, List.filterMap_filterMap, FirstNumber.find?_filterMap]
    have same : environment.Gives 63 = fun name (other : Nat) =>
        (environment.lookup name).bind (fun text => signed? 63 (trim text.toList)) =
          some (other : Int) := by
      funext name other
      exact propext Environment.gives_iff
    rw [same]
  have limit : bound32 = 2 ^ 32 := rfl
  rw [held, number?, Option.bind_eq_some_iff, limit]
  constructor
  · rintro ⟨value, found, chosen⟩
    have natural : 0 ≤ value := by simpa using List.find?_some found
    obtain ⟨count, rfl⟩ := Int.eq_ofNat_of_zero_le natural
    split at chosen
    next small =>
      obtain rfl := Option.some.inj chosen
      exact ⟨found, small⟩
    next => cases chosen
  · rintro ⟨found, small⟩
    exact ⟨number, found, if_pos small⟩

/-- It has 32 bits if the number that could be used is not hidden. -/
theorem first_number_iff :
    FirstNumber (environment.Gives 63) names number ∧ number < 2 ^ 32 ↔
      ¬ environment.Hides names ∧ FirstNumber (environment.Gives 32) names number := by
  have single (bits : Nat) (name : String) (left right : Nat)
      (given : environment.Gives bits name left) (again : environment.Gives bits name right) :
      left = right := given.unique again
  constructor
  · rintro ⟨first, small⟩
    refine ⟨?_, first.narrow (fun _ _ => .widen) fun _ given => given.narrow small⟩
    rintro ⟨large, -, found, beyond, -⟩
    exact absurd small (Nat.not_lt.mpr (first.unique (single 63) found ▸ beyond))
  · rintro ⟨seen, first⟩
    obtain ⟨name, listed, _, given⟩ := FirstNumber.exists_iff.mp ⟨number, first⟩
    obtain ⟨found, wide⟩ := FirstNumber.exists_iff.mpr ⟨name, listed, _, given.widen⟩
    have small : found < 2 ^ 32 :=
      Nat.lt_of_not_le fun beyond => seen ⟨found, number, wide, beyond, first⟩
    have same : found = number :=
      (wide.narrow (fun _ _ => .widen) fun _ given => given.narrow small).unique (single 32) first
    exact same ▸ ⟨wide, small⟩

/-- A launcher's number is that of the first variable of its list with a natural number of 32 bits,
unless that variable is hidden; and the launcher tells none exactly if no variable of the list has
such a number or the first one that has is hidden. -/
theorem launcher_numbers (environment : Environment) (quantity : Quantity) :
    (∀ number, quantity.of? (.ofEnvironment environment) = some number ↔
      ¬ environment.Hides quantity.names ∧
        FirstNumber (environment.Gives 32) quantity.names number) ∧
    (quantity.of? (.ofEnvironment environment) = none ↔ environment.Hides quantity.names ∨
      ∀ name ∈ quantity.names, ∀ number, ¬ environment.Gives 32 name number) := by
  have told (number : Nat) : quantity.of? (.ofEnvironment environment) = some number ↔
      ¬ environment.Hides quantity.names ∧
        FirstNumber (environment.Gives 32) quantity.names number := by
    rw [Quantity.of?_ofEnvironment, number?_eq_some_iff, first_number_iff]
  refine ⟨told, ?_⟩
  have silent : (∀ number, ¬ FirstNumber (environment.Gives 32) quantity.names number) ↔
      ∀ name ∈ quantity.names, ∀ number, ¬ environment.Gives 32 name number := by
    have found : (∃ number, FirstNumber (environment.Gives 32) quantity.names number) ↔
        ∃ name ∈ quantity.names, ∃ number, environment.Gives 32 name number :=
          FirstNumber.exists_iff
    simpa using not_congr found
  rw [Option.eq_none_iff_forall_ne_some, ← silent]
  simp only [ne_eq, told, not_and_or, not_not, forall_or_left]

/-- A number of 64 bits and a negative one hide nothing. -/
example : (ofEnvironment [("WORLD_SIZE", " +4\n"), ("PMI_SIZE", "-1"),
    ("MV2_COMM_WORLD_SIZE", "9223372036854775808")]).worldSize = some 4 := by decide +kernel

/-- A number of 33 bits hides the world size that a later variable tells. -/
theorem large_number_hides :
    let environment : Environment :=
      [("MV2_COMM_WORLD_SIZE", "4294967296"), ("WORLD_SIZE", "4")]
    (ofEnvironment environment).worldSize = none ∧
      FirstNumber (environment.Gives 32) worldSizeNames 4 := by
  intro environment
  have skipped (name : String) (unread : (environment.lookup name).bind
      (fun text => signed? 32 (trim text.toList)) = none) (other : Nat) :
      ¬ environment.Gives 32 name other := by
    rw [Environment.gives_iff, unread]
    exact nofun
  refine ⟨by decide +kernel, .later (skipped _ (by decide +kernel)) ?_⟩
  refine .later (skipped _ (by decide +kernel)) (.later (skipped _ (by decide +kernel)) ?_)
  exact .here (Environment.gives_iff.mpr (by decide +kernel))

end Launcher

end CollectiveBench
