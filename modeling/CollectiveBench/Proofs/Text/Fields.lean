import CollectiveBench.Text.Blank
import CollectiveBench.Text.Fields

/-!
# Trimmed texts and their fields

Trimming takes the blanks off both ends of a text and nothing else. Cutting at a separator and
joining with it undo each other, as long as no field has the separator in it. A text that is trimmed
before it is cut has the same trimmed fields as the whole text (`map_trim_splitOn`), so blanks count
for nothing at the ends of a text as well as around its separators.
-/

namespace CollectiveBench.Text

variable {text left core right : List Char} {separator : Char}

/-! ## Blanks -/

/-- Blanks in front are trimmed. -/
theorem trimStart_append (blank : ∀ character ∈ left, isBlank character = true)
    (rest : List Char) : trimStart (left ++ rest) = trimStart rest :=
  List.dropWhile_append_of_pos blank

/-- Every text is its trimmed form between blanks. -/
theorem exists_trim (text : List Char) : ∃ left right, text = left ++ trim text ++ right ∧
    (∀ character ∈ left, isBlank character = true) ∧
    ∀ character ∈ right, isBlank character = true := by
  have skipped (other : List Char) : ∀ character ∈ other.takeWhile isBlank,
      isBlank character = true := List.all_eq_true.mp List.all_takeWhile
  have halves (other : List Char) : other.takeWhile isBlank ++ trimStart other = other :=
    List.takeWhile_append_dropWhile
  have ending : trimStart text =
      trim text ++ ((trimStart text).reverse.takeWhile isBlank).reverse := by
    rw [trim, ← List.reverse_append, halves, List.reverse_reverse]
  refine ⟨text.takeWhile isBlank, ((trimStart text).reverse.takeWhile isBlank).reverse, ?_,
    skipped text, fun character listed => skipped _ character (List.mem_reverse.mp listed)⟩
  rw [List.append_assoc, ← ending, halves]

/-- Blanks around a text are trimmed away. -/
theorem trim_between (before : ∀ character ∈ left, isBlank character = true)
    (after : ∀ character ∈ right, isBlank character = true) :
    trim (left ++ core ++ right) = trim core := by
  have reversed : ∀ character ∈ right.reverse, isBlank character = true :=
    fun character listed => after character (List.mem_reverse.mp listed)
  have around : trimStart (left ++ core ++ right) = trimStart (core ++ right) := by
    rw [List.append_assoc, trimStart_append before]
  rw [trim, trim, around]
  cases start : trimStart core with
  | nil =>
    have nothing : trimStart (core ++ right) = [] := by
      have blank : trimStart (right ++ []) = [] := trimStart_append after []
      rw [trimStart, List.dropWhile_append, ← trimStart, start]
      rwa [List.append_nil] at blank
    rw [nothing]
  | cons first rest =>
    have kept : trimStart (core ++ right) = (first :: rest) ++ right := by
      rw [trimStart, List.dropWhile_append, ← trimStart, start]
      rfl
    rw [kept, List.reverse_append, trimStart_append reversed]

/-- A text without blanks is trimmed. -/
theorem trim_eq_self (solid : ∀ character ∈ text, isBlank character = false) :
    trim text = text := by
  have start (other : List Char) (solid : ∀ character ∈ other, isBlank character = false) :
      trimStart other = other := by
    cases other with
    | nil => rfl
    | cons first rest => rw [trimStart, List.dropWhile_cons, solid first List.mem_cons_self]; rfl
  rw [trim, start text solid, start text.reverse fun character listed =>
    solid character (List.mem_reverse.mp listed), List.reverse_reverse]

/-! ## Fields -/

/-- The halves of a text are joined by the separator. -/
theorem eq_of_splitOnce {before after : List Char}
    (cut : splitOnce separator text = some (before, after)) :
    text = before ++ separator :: after := by
  induction text generalizing before with
  | nil => cases cut
  | cons character rest inductionHypothesis =>
    rw [splitOnce] at cut
    split at cut
    next same =>
      obtain ⟨rfl, rfl⟩ := Prod.mk.inj (Option.some.inj cut)
      rw [same, List.nil_append]
    next =>
      obtain ⟨⟨front, back⟩, halves, joined⟩ := Option.map_eq_some_iff.mp cut
      obtain ⟨rfl, rfl⟩ := Prod.mk.inj joined
      rw [inductionHypothesis halves, List.cons_append]

/-- A text is cut at its first separator. -/
theorem splitOnce_append {before : List Char} (solid : separator ∉ before) (after : List Char) :
    splitOnce separator (before ++ separator :: after) = some (before, after) := by
  induction before with
  | nil => simp [splitOnce]
  | cons character rest inductionHypothesis =>
    obtain ⟨other, solid⟩ : separator ≠ character ∧ separator ∉ rest := by simpa using solid
    simp [splitOnce, Ne.symm other, inductionHypothesis solid]

/-- A text cannot be split exactly if it does not have the separator. -/
theorem splitOnce_eq_none_iff : splitOnce separator text = none ↔ separator ∉ text := by
  induction text with
  | nil => simp [splitOnce]
  | cons character rest inductionHypothesis =>
    rw [splitOnce]
    split
    next same => simp [same]
    next other => simp [inductionHypothesis, Ne.symm other]

/-- Cutting at each separator is that of lists. -/
theorem splitOn_eq (separator : Char) (text : List Char) :
    splitOn separator text = List.splitOn separator text := by
  induction text with
  | nil => rfl
  | cons character rest inductionHypothesis =>
    rw [splitOn, List.splitOn, List.splitOnP_cons_eq_if_modifyHead, ← List.splitOn,
      ← inductionHypothesis]
    by_cases same : character = separator
    · simp [same]
    · cases fields : splitOn separator rest with
      | nil => exact absurd fields (splitOn_ne_nil separator rest)
      | cons first others => simp [same]

/-- The fields of a text are joined by the separator. -/
theorem intercalate_splitOn (separator : Char) (text : List Char) :
    [separator].intercalate (splitOn separator text) = text := by
  rw [splitOn_eq, List.intercalate_splitOn]

/-- Joining puts nothing but separators between the fields. -/
theorem not_mem_intercalate {other : Char} (different : other ≠ separator)
    {fields : List (List Char)} (absent : ∀ field ∈ fields, other ∉ field) :
    other ∉ [separator].intercalate fields := by
  induction fields with
  | nil => simp
  | cons first rest inductionHypothesis =>
    obtain ⟨here, there⟩ := List.forall_mem_cons.mp absent
    cases rest with
    | nil => simpa using here
    | cons second others =>
      rw [List.intercalate_cons_cons]
      simp [here, different, inductionHypothesis there]

/-- A text that goes on without a separator has a longer last field. -/
theorem splitOn_append_right (solid : separator ∉ right) (text : List Char) :
    ∃ front last, splitOn separator text = front ++ [last] ∧
      splitOn separator (text ++ right) = front ++ [last ++ right] := by
  induction text with
  | nil =>
    refine ⟨[], [], rfl, ?_⟩
    have whole : List.splitOn separator ([separator].intercalate [right]) = [right] :=
      List.splitOn_intercalate separator (by simpa) (by simp)
    simpa [splitOn_eq] using whole
  | cons character rest inductionHypothesis =>
    obtain ⟨front, last, short, long⟩ := inductionHypothesis
    by_cases same : character = separator
    · exact ⟨[] :: front, last, by simp [splitOn, same, short], by simp [splitOn, same, long]⟩
    · cases front with
      | nil => exact ⟨[], character :: last, by simp [splitOn, same, short],
          by simp [splitOn, same, long]⟩
      | cons first others => exact ⟨(character :: first) :: others, last,
          by simp [splitOn, same, short], by simp [splitOn, same, long]⟩

/-- A text with more before it, but no separator, has a longer first field. -/
theorem splitOn_append_left (solid : separator ∉ left) (text : List Char) :
    ∃ first rest, splitOn separator text = first :: rest ∧
      splitOn separator (left ++ text) = (left ++ first) :: rest := by
  induction left with
  | nil =>
    obtain ⟨first, rest, fields⟩ := List.exists_cons_of_ne_nil (splitOn_ne_nil separator text)
    exact ⟨first, rest, fields, fields⟩
  | cons character left inductionHypothesis =>
    obtain ⟨other, solid⟩ : separator ≠ character ∧ separator ∉ left := by simpa using solid
    obtain ⟨first, rest, short, long⟩ := inductionHypothesis solid
    exact ⟨first, rest, short, by simp [splitOn, Ne.symm other, long]⟩

/-- Trimming a text before it is cut changes none of its trimmed fields. -/
theorem map_trim_splitOn (visible : isBlank separator = false) (text : List Char) :
    (splitOn separator (trim text)).map trim = (splitOn separator text).map trim := by
  have solid (blanks : List Char) (blank : ∀ character ∈ blanks, isBlank character = true) :
      separator ∉ blanks := by
    intro listed
    rw [blank separator listed] at visible
    cases visible
  obtain ⟨left, right, whole, before, after⟩ := exists_trim text
  obtain ⟨front, last, short, long⟩ := splitOn_append_right (solid right after) (trim text)
  obtain ⟨first, rest, shorter, longer⟩ :=
    splitOn_append_left (solid left before) (trim text ++ right)
  have ending : trim ([] ++ last ++ right) = trim last := trim_between (by simp) after
  have beginning : trim (left ++ first ++ []) = trim first := trim_between before (by simp)
  rw [List.nil_append] at ending
  rw [List.append_nil] at beginning
  calc (splitOn separator (trim text)).map trim
      = (splitOn separator (trim text ++ right)).map trim := by simp [short, long, ending]
    _ = (splitOn separator (left ++ (trim text ++ right))).map trim := by
      simp [shorter, longer, beginning]
    _ = (splitOn separator text).map trim := by rw [← List.append_assoc, ← whole]

end CollectiveBench.Text
