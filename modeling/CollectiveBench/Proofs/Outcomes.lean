import CollectiveBench.Error

/-!
# What an outcome gives

Three ways of speaking of an outcome without naming its value. `Gives` says that there is a value
and that it has a property; `GivesOnly` says of any value that it has the property, and nothing of
whether there is one; `FailsOnly` says of any error that it is of some kind. They are carried from
the parts of a computation to the whole: through sequences, through lists of computations, and
through folds.
-/

namespace CollectiveBench

variable {α β : Type}

/-- The outcome is a value with the property. -/
def Gives (outcome : Outcome α) (property : α → Prop) : Prop :=
  ∃ value, outcome = .ok value ∧ property value

/-- The outcome is no value without the property. -/
def GivesOnly (outcome : Outcome α) (property : α → Prop) : Prop :=
  ∀ value, outcome = .ok value → property value

/-- The outcome is no error but those of a kind. -/
def FailsOnly (outcome : Outcome α) (kind : Error → Prop) : Prop :=
  ∀ error, outcome = .error error → kind error

/-- Going on from an outcome succeeds where both parts do. -/
theorem bind_eq_ok {outcome : Outcome α} {next : α → Outcome β} {result : β}
    (succeeds : outcome >>= next = .ok result) :
    ∃ value, outcome = .ok value ∧ next value = .ok result := by
  cases outcome with
  | error error => cases succeeds
  | ok value => exact ⟨value, rfl, succeeds⟩

/-- After a step that succeeds comes what is next for its value. -/
theorem bind_eq_of_eq_ok {outcome : Outcome α} {next : α → Outcome β} {value : α}
    {result : Outcome β}
    (first : outcome = .ok value) (rest : next value = result) : outcome >>= next = result := by
  rw [first]
  exact rest

/-- Going on after a guard succeeds where the guard does not strike. -/
theorem guard_eq_ok {condition : Prop} [Decidable condition] {error : Error}
    {next : Unit → Outcome β} {result : β}
    (succeeds : (if condition then throw error >>= next else next ()) = .ok result) :
    ¬ condition ∧ next () = .ok result := by
  by_cases strikes : condition
  · rw [if_pos strikes] at succeeds
    cases succeeds
  · rw [if_neg strikes] at succeeds
    exact ⟨strikes, succeeds⟩

section

variable {property weaker : α → Prop} {result : β → Prop} {outcome : Outcome α}
  {next : α → Outcome β}

/-- A value with a property gives a value with it. -/
theorem gives_ok {value : α} (holds : property value) : Gives (.ok value) property :=
  ⟨value, rfl, holds⟩

/-- What gives a value with a property gives one with every weaker property. -/
theorem Gives.mono (gives : Gives outcome property)
    (onward : ∀ value, property value → weaker value) : Gives outcome weaker := by
  obtain ⟨value, same, holds⟩ := gives
  exact ⟨value, same, onward value holds⟩

/-- Two steps give what the second gives for each value of the first. -/
theorem Gives.bind (first : Gives outcome property)
    (onward : ∀ value, property value → Gives (next value) result) :
    Gives (outcome >>= next) result := by
  obtain ⟨value, rfl, holds⟩ := first
  exact onward value holds

/-- A value with a property gives only values with it. -/
theorem givesOnly_ok {value : α} (holds : property value) : GivesOnly (.ok value) property := by
  rintro _ ⟨⟩
  exact holds

/-- An error gives no value at all. -/
theorem givesOnly_error (error : Error) : GivesOnly (.error error) property := by
  rintro _ ⟨⟩

/-- Two steps give only what the second gives for the values of the first. -/
theorem GivesOnly.bind (first : GivesOnly outcome property)
    (onward : ∀ value, property value → GivesOnly (next value) result) :
    GivesOnly (outcome >>= next) result := by
  intro _ succeeds
  obtain ⟨value, same, rest⟩ := bind_eq_ok succeeds
  exact onward value (first value same) _ rest

end

/-- Whatever an outcome is, going on from it gives only what the rest gives. -/
theorem givesOnly_of_next {outcome : Outcome α} {next : α → Outcome β} {result : β → Prop}
    (onward : ∀ value, GivesOnly (next value) result) : GivesOnly (outcome >>= next) result := by
  intro _ succeeds
  obtain ⟨value, _, rest⟩ := bind_eq_ok succeeds
  exact onward value _ rest

/-- As many values as there are entries, each with the property. -/
def EachOf (count : Nat) (property : β → Prop) (values : List β) : Prop :=
  values.length = count ∧ ∀ value ∈ values, property value

/-- One more value with the property in front. -/
theorem EachOf.cons {count : Nat} {property : β → Prop} {value : β} {values : List β}
    (first : property value) (rest : EachOf count property values) :
    EachOf (count + 1) property (value :: values) := by
  refine ⟨congrArg (· + 1) rest.1, ?_⟩
  rintro other (_ | ⟨_, present⟩)
  · exact first
  · exact rest.2 other present

section

variable {property : β → Prop} {entries : List α} {compute : α → Outcome β}

/-- Computations that agree on every entry of a list agree on the list. -/
theorem mapM_congr {other : α → Outcome β} (same : ∀ entry ∈ entries, compute entry = other entry) :
    entries.mapM compute = entries.mapM other := by
  induction entries with
  | nil => rfl
  | cons entry rest inductionHypothesis =>
    rw [List.forall_mem_cons] at same
    rw [List.mapM_cons, List.mapM_cons, same.1, inductionHypothesis same.2]

/-- Steps that each give a value with a property give as many of them. -/
theorem gives_mapM (each : ∀ entry ∈ entries, Gives (compute entry) property) :
    Gives (entries.mapM compute) (EachOf entries.length property) := by
  induction entries with
  | nil => exact gives_ok ⟨rfl, by simp⟩
  | cons first rest inductionHypothesis =>
    rw [List.mapM_cons]
    refine (each first List.mem_cons_self).bind fun value holds => ?_
    refine (inductionHypothesis fun entry present =>
      each entry (List.mem_cons_of_mem _ present)).bind fun values all => ?_
    exact gives_ok (EachOf.cons holds all)

/-- Steps that give only values with a property give only lists of as many of them. -/
theorem givesOnly_mapM (each : ∀ entry ∈ entries, GivesOnly (compute entry) property) :
    GivesOnly (entries.mapM compute) (EachOf entries.length property) := by
  induction entries with
  | nil => exact givesOnly_ok ⟨rfl, by simp⟩
  | cons first rest inductionHypothesis =>
    rw [List.mapM_cons]
    refine (each first List.mem_cons_self).bind fun value holds => ?_
    refine (inductionHypothesis fun entry present =>
      each entry (List.mem_cons_of_mem _ present)).bind fun values all => ?_
    exact givesOnly_ok (EachOf.cons holds all)

/-- A list of computations has values only if each of them has one. -/
theorem exists_of_mapM {values : List β} (succeeds : entries.mapM compute = .ok values) :
    ∀ entry ∈ entries, ∃ value, compute entry = .ok value := by
  induction entries generalizing values with
  | nil => simp
  | cons first rest inductionHypothesis =>
    rw [List.mapM_cons] at succeeds
    obtain ⟨value, here, succeeds⟩ := bind_eq_ok succeeds
    obtain ⟨others, there, -⟩ := bind_eq_ok succeeds
    exact List.forall_mem_cons.mpr ⟨⟨value, here⟩, inductionHypothesis there⟩

/-- What each computation says of its value alone, the list of them says of the values in order. -/
theorem givesOnly_mapM_map {γ : Type} {view : β → γ} {expected : α → γ}
    (each : ∀ entry ∈ entries, GivesOnly (compute entry) (view · = expected entry)) :
    GivesOnly (entries.mapM compute) (·.map view = entries.map expected) := by
  induction entries with
  | nil => exact givesOnly_ok rfl
  | cons first rest inductionHypothesis =>
    rw [List.mapM_cons]
    refine (each first List.mem_cons_self).bind fun value here => ?_
    refine (inductionHypothesis fun entry present =>
      each entry (List.mem_cons_of_mem _ present)).bind fun values all => ?_
    exact givesOnly_ok (by rw [List.map_cons, List.map_cons, here, all])

/-- A fold whose steps keep an invariant ends with it. -/
theorem gives_foldlM {invariant : β → Prop} {step : β → α → Outcome β}
    (keeps : ∀ state, ∀ entry ∈ entries, invariant state → Gives (step state entry) invariant)
    {start : β} (holds : invariant start) : Gives (entries.foldlM step start) invariant := by
  induction entries generalizing start with
  | nil => exact gives_ok holds
  | cons first rest inductionHypothesis =>
    rw [List.foldlM_cons]
    exact (keeps start first List.mem_cons_self holds).bind fun state onward =>
      inductionHypothesis (fun state entry present =>
        keeps state entry (List.mem_cons_of_mem _ present)) onward

end

/-! ## Errors of a kind -/

section

variable {kind : Error → Prop} {outcome : Outcome α} {entries : List α}

/-- What succeeds does not fail. -/
theorem failsOnly_ok (value : α) : FailsOnly (.ok value) kind := by
  rintro _ ⟨⟩

/-- An error of a kind fails only with errors of the kind. -/
theorem failsOnly_error {error : Error} (holds : kind error) :
    FailsOnly (.error error : Outcome α) kind := by
  rintro _ ⟨⟩
  exact holds

/-- What fails only with errors of a kind fails only with those of a wider kind. -/
theorem FailsOnly.mono {wider : Error → Prop} (fails : FailsOnly outcome kind)
    (onward : ∀ error, kind error → wider error) : FailsOnly outcome wider :=
  fun error failed => onward error (fails error failed)

/-- Where only one error can occur, it does so exactly if there is no value. -/
theorem FailsOnly.eq_error_iff {error : Error} (fails : FailsOnly outcome (· = error)) :
    outcome = .error error ↔ ∀ value, outcome ≠ .ok value := by
  cases outcome with
  | ok value => exact ⟨nofun, fun none => absurd rfl (none value)⟩
  | error other =>
    obtain rfl := fails other rfl
    exact ⟨fun _ => nofun, fun _ => rfl⟩

/-- Two steps fail only with errors of a kind if each of them does. -/
theorem FailsOnly.bind {next : α → Outcome β} (first : FailsOnly outcome kind)
    (onward : ∀ value, FailsOnly (next value) kind) : FailsOnly (outcome >>= next) kind := by
  cases outcome with
  | error error => exact failsOnly_error (first error rfl)
  | ok value => exact onward value

/-- Steps for the entries of a list fail only with errors of a kind if each of them does. -/
theorem failsOnly_mapM {compute : α → Outcome β}
    (each : ∀ entry ∈ entries, FailsOnly (compute entry) kind) :
    FailsOnly (entries.mapM compute) kind := by
  induction entries with
  | nil => exact failsOnly_ok _
  | cons first rest inductionHypothesis =>
    rw [List.mapM_cons]
    refine (each first List.mem_cons_self).bind fun _ => ?_
    refine (inductionHypothesis fun entry present =>
      each entry (List.mem_cons_of_mem _ present)).bind fun _ => ?_
    exact failsOnly_ok _

/-- Steps one after the other fail only with errors of a kind if each of them does. -/
theorem failsOnly_foldlM {step : β → α → Outcome β}
    (each : ∀ state entry, FailsOnly (step state entry) kind) (start : β) :
    FailsOnly (entries.foldlM step start) kind := by
  induction entries generalizing start with
  | nil => exact failsOnly_ok _
  | cons first rest inductionHypothesis =>
    rw [List.foldlM_cons]
    exact (each start first).bind inductionHypothesis

end

end CollectiveBench
