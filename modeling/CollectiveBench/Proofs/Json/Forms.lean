import CollectiveBench.Proofs.Json.Values

/-!
# Forms of values in JSON

A form writes values as JSON and reads them back. It is faithful for the values that it admits
when each of them is read from what is written for it, and nothing else is ever read. Forms
compose: a list is faithful when its items are, and where a value may be missing, `null`
stands for nothing because no form writes it.
-/

namespace CollectiveBench.Json

variable {α : Type} {write : α → Json} {read : Json → Option α} {admitted : α → Prop}

/-- What is written for an admitted value is read as that value, and only admitted values are
read. -/
structure Faithful (write : α → Json) (read : Json → Option α) (admitted : α → Prop) : Prop where
  written : ∀ value, (write value).Written
  not_null : ∀ value, write value ≠ .null
  read_write : ∀ value, admitted value → read (write value) = some value
  admitted_of_read : ∀ json value, read json = some value → admitted value

/-- Numbers below a bound are written as numerals. -/
theorem faithful_count (bound : Nat) : Faithful count (count? bound) (· < bound) where
  written := .count
  not_null := by
    intro number null
    cases null
  read_write := by
    intro number small
    simp [count, count?, Text.digits?_digits, small]
  admitted_of_read := by
    intro json number read
    cases json with
    | number lexeme =>
      have bounded : decide (number < bound) = true := (Option.filter_eq_some_iff.mp read).2
      exact of_decide_eq_true bounded
    | _ => cases read

/-- Every text is written as a string. -/
theorem faithful_text : Faithful text text? (fun _ => True) where
  written := fun value => .string value.toList
  not_null := by
    intro value null
    cases null
  read_write := by
    intro value _
    simp [text, text?]
  admitted_of_read := fun _ _ _ => trivial

/-- A list is written as the array of its items. -/
theorem Faithful.list (items : Faithful write read admitted) :
    Faithful (fun values => .array (values.map write)) (list? read)
      (fun values => ∀ value ∈ values, admitted value) where
  written := by
    intro values
    apply Written.array
    intro item member
    obtain ⟨value, _, rfl⟩ := List.mem_map.mp member
    exact items.written value
  not_null := by
    intro values null
    cases null
  read_write := by
    intro values each
    simp only [list?]
    induction values with
    | nil => rfl
    | cons value rest inductionHypothesis =>
      simp only [List.map_cons, List.mapM_cons, items.read_write value (each value (by simp)),
        inductionHypothesis fun other member => each other (by simp [member])]
      rfl
  admitted_of_read := by
    intro json values read
    cases json with
    | array texts =>
      simp only [list?] at read
      induction texts generalizing values with
      | nil =>
        obtain rfl : [] = values := Option.some.inj read
        simp
      | cons text rest inductionHypothesis =>
        simp only [List.mapM_cons, Option.bind_eq_bind, Option.bind_eq_some_iff] at read
        obtain ⟨value, first, others, remaining, same⟩ := read
        obtain rfl : value :: others = values := Option.some.inj same
        intro other member
        cases List.mem_cons.mp member with
        | inl same => exact same ▸ items.admitted_of_read text value first
        | inr later => exact inductionHypothesis others remaining other later
    | _ => cases read

/-- Where a value may be missing, what is written is a value that writing makes. -/
theorem Faithful.written_map (form : Faithful write read admitted) (value : Option α) :
    ∀ json ∈ value.map write, json.Written := by
  intro json member
  obtain ⟨present, _, rfl⟩ := Option.map_eq_some_iff.mp member
  exact form.written present

/-- Where a value may be missing, it is read back from what is written for it, or from `null`. -/
theorem Faithful.optional?_write (form : Faithful write read admitted) (value : Option α)
    (each : ∀ present ∈ value, admitted present) :
    optional? read ((value.map write).getD .null) = some value := by
  cases value with
  | none => rfl
  | some present =>
    have back : read (write present) = some present := form.read_write present (each present rfl)
    have set : write present ≠ .null := form.not_null present
    simp only [Option.map_some, Option.getD_some]
    unfold optional?
    split
    case h_1 null => exact absurd null set
    case h_2 => rw [back]; rfl

/-- Where a value may be missing, the one that is read is admitted. -/
theorem Faithful.admitted_of_optional? (form : Faithful write read admitted) {json : Json}
    {value : Option α} (read : optional? read json = some value) :
    ∀ present ∈ value, admitted present := by
  intro present member
  obtain rfl : value = some present := member
  unfold optional? at read
  split at read
  case h_1 => cases read
  case h_2 =>
    obtain ⟨found, reading, same⟩ := Option.map_eq_some_iff.mp read
    obtain rfl : found = present := Option.some.inj same
    exact form.admitted_of_read json found reading

end CollectiveBench.Json
