import CollectiveBench.Proofs.Outcomes
import CollectiveBench.Proofs.Text.Numerals
import CollectiveBench.Sweep
import Mathlib.Algebra.Group.Nat.Defs

/-!
# The notation of sizes

A size is spelled as a count of units and at most one suffix that says what a unit is. The reader
looks for the first suffix and reads what stands before it. It takes every text that spells a size
in 64 bits, and refuses every other text but those with a tail: where something follows the suffix,
the reader takes no notice of it (`sizes_spelled`).
-/

namespace CollectiveBench

open Text

/-- The letter at the end of a size, if any, and the bytes of a unit. -/
inductive SizeSuffix : List Char → Nat → Prop where
  | none : SizeSuffix [] 1
  | kilo : SizeSuffix ['K'] (2 ^ 10)
  | mega : SizeSuffix ['M'] (2 ^ 20)
  | giga : SizeSuffix ['G'] (2 ^ 30)

/-- A count of units with its suffix, and the number of bytes, which fits in 64 bits. -/
inductive SpellsSize : List Char → Nat → Prop where
  | units {numeral suffix : List Char} {number unit : Nat} (count : IsCount numeral number)
      (units : SizeSuffix suffix unit) (counted : number * unit < 2 ^ 64) :
    SpellsSize (numeral ++ suffix) (number * unit)

/-- A size with a suffix, and more text after it. -/
inductive SpellsSizeWithTail : List Char → Nat → Prop where
  | tail {numeral rest : List Char} {letter : Char} {number unit : Nat}
      (count : IsCount numeral number) (units : SizeSuffix [letter] unit)
      (counted : number * unit < 2 ^ 64) (more : rest ≠ []) :
    SpellsSizeWithTail (numeral ++ letter :: rest) (number * unit)

/-- The letters that stand for a unit are the suffixes. -/
theorem unitOf_eq_some_iff {letter : Char} {unit : Nat} :
    unitOf letter = some unit ↔ SizeSuffix [letter] unit := by
  constructor
  · intro known
    unfold unitOf at known
    split at known
    · obtain rfl := Option.some.inj known
      exact .kilo
    · obtain rfl := Option.some.inj known
      exact .mega
    · obtain rfl := Option.some.inj known
      exact .giga
    · cases known
  · intro suffix
    cases suffix <;> rfl

/-- No letter of a count stands for a unit. -/
theorem unitOf_of_count {numeral : List Char} {number : Nat} (count : IsCount numeral number) :
    ∀ character ∈ numeral, (unitOf character).isNone = true := by
  intro character listed
  cases known : unitOf character with
  | none => rfl
  | some unit =>
    rcases count.characters.2 character listed with digit | rfl
    · cases unitOf_eq_some_iff.mp known <;> exact absurd digit (by decide)
    · cases known

/-- What a text begins with after its count: nothing, or the letter of a unit. -/
def BeginsUnit (rest : List Char) (unit : Nat) : Prop :=
  rest = [] ∧ unit = 1 ∨ ∃ letter tail, rest = letter :: tail ∧ SizeSuffix [letter] unit

/-- A suffix begins with the letter of its unit. -/
theorem SizeSuffix.begins {suffix : List Char} {unit : Nat} (units : SizeSuffix suffix unit) :
    BeginsUnit suffix unit := by
  cases units with
  | none => exact .inl ⟨rfl, rfl⟩
  | kilo => exact .inr ⟨'K', [], rfl, .kilo⟩
  | mega => exact .inr ⟨'M', [], rfl, .mega⟩
  | giga => exact .inr ⟨'G', [], rfl, .giga⟩

/-- The unit is that of the letter, and it is not empty. -/
theorem BeginsUnit.unit_eq {rest : List Char} {unit : Nat} (begins : BeginsUnit rest unit) :
    (rest.head?.bind unitOf).getD 1 = unit ∧ 0 < unit := by
  rcases begins with ⟨rfl, rfl⟩ | ⟨letter, tail, rfl, units⟩
  · exact ⟨rfl, Nat.one_pos⟩
  · rw [List.head?_cons, Option.bind_some, unitOf_eq_some_iff.mpr units]
    exact ⟨rfl, by cases units <;> decide⟩

/-- A text in two parts: up to the first letter of a unit, and from that letter on. -/
structure SizeParts (text numeral rest : List Char) (unit : Nat) : Prop where
  whole : text = numeral ++ rest
  plain : ∀ character ∈ numeral, (unitOf character).isNone = true
  begins : BeginsUnit rest unit

namespace SizeParts

variable {text numeral rest : List Char} {unit bytes : Nat}

/-- The numeral of a size is what stands before its unit. -/
theorem takeWhile_eq (parts : SizeParts text numeral rest unit) :
    text.takeWhile (fun character => (unitOf character).isNone) = numeral := by
  rw [parts.whole, List.takeWhile_append_of_pos parts.plain]
  rcases parts.begins with ⟨rfl, -⟩ | ⟨letter, tail, rfl, units⟩
  · simp
  · simp [unitOf_eq_some_iff.mpr units]

/-- A text has one pair of parts. -/
theorem unique (parts : SizeParts text numeral rest unit) {other after : List Char} {size : Nat}
    (others : SizeParts text other after size) : numeral = other ∧ rest = after ∧ unit = size := by
  obtain rfl : numeral = other := parts.takeWhile_eq.symm.trans others.takeWhile_eq
  obtain rfl : rest = after := List.append_cancel_left (parts.whole.symm.trans others.whole)
  exact ⟨rfl, rfl, parts.begins.unit_eq.1.symm.trans others.begins.unit_eq.1⟩

/-- Every text has the parts of a size. -/
theorem exist (text : List Char) : ∃ numeral rest unit, SizeParts text numeral rest unit := by
  let isPlain (character : Char) : Bool := (unitOf character).isNone
  have plain : ∀ character ∈ text.takeWhile isPlain, isPlain character = true :=
    List.all_eq_true.mp List.all_takeWhile
  have whole : text = text.takeWhile isPlain ++ text.dropWhile isPlain :=
    List.takeWhile_append_dropWhile.symm
  cases rest : text.dropWhile isPlain with
  | nil => exact ⟨_, [], 1, rest ▸ whole, plain, .inl ⟨rfl, rfl⟩⟩
  | cons letter tail =>
    have stops : isPlain letter = false := by
      simpa [rest] using List.head?_dropWhile_not isPlain text
    obtain ⟨unit, known⟩ : ∃ unit, unitOf letter = some unit := by
      simpa [isPlain, Option.isSome_iff_exists] using stops
    exact ⟨_, letter :: tail, unit, rest ▸ whole, plain,
      .inr ⟨letter, tail, rfl, unitOf_eq_some_iff.mp known⟩⟩

/-- The parts of a text spell a size if the first one is a count and the second one no more than a
letter. -/
theorem spellsSize_iff (parts : SizeParts text numeral rest unit) :
    SpellsSize text bytes ↔ rest.tail = [] ∧
      ∃ number, IsCount numeral number ∧ number * unit < 2 ^ 64 ∧ number * unit = bytes := by
  constructor
  · intro spelled
    cases spelled with
    | units count units counted =>
      obtain ⟨rfl, rfl, rfl⟩ := parts.unique ⟨rfl, unitOf_of_count count, units.begins⟩
      exact ⟨by cases units <;> rfl, _, count, counted, rfl⟩
  · rintro ⟨single, number, count, counted, rfl⟩
    rw [parts.whole]
    rcases parts.begins with ⟨rfl, rfl⟩ | ⟨letter, tail, rfl, units⟩
    · exact .units count .none counted
    · obtain rfl : tail = [] := single
      exact .units count units counted

/-- They spell a size with a tail if there is more after the letter. -/
theorem spellsSizeWithTail_iff (parts : SizeParts text numeral rest unit) :
    SpellsSizeWithTail text bytes ↔ rest.tail ≠ [] ∧
      ∃ number, IsCount numeral number ∧ number * unit < 2 ^ 64 ∧ number * unit = bytes := by
  constructor
  · intro spelled
    cases spelled with
    | tail count units counted more =>
      obtain ⟨rfl, rfl, rfl⟩ :=
        parts.unique ⟨rfl, unitOf_of_count count, .inr ⟨_, _, rfl, units⟩⟩
      exact ⟨more, _, count, counted, rfl⟩
  · rintro ⟨more, number, count, counted, rfl⟩
    rw [parts.whole]
    rcases parts.begins with ⟨rfl, rfl⟩ | ⟨letter, tail, rfl, units⟩
    · exact absurd rfl more
    · exact .tail count units counted more

/-- The reader takes a count and its unit, whatever comes after the letter of the unit. -/
theorem readSize_eq_ok_iff {text : String}
    (parts : SizeParts (trim text.toList) numeral rest unit) :
    readSize text = .ok bytes ↔
      ∃ number, IsCount numeral number ∧ number * unit < 2 ^ 64 ∧ number * unit = bytes := by
  have limit : (2 : Nat) ^ 64 = bound64 := rfl
  have fits {number : Nat} (counted : number * unit < 2 ^ 64) : number < 2 ^ 64 :=
    Nat.lt_of_le_of_lt (Nat.le_mul_of_pos_right number parts.begins.unit_eq.2) counted
  have later : (trim text.toList).drop numeral.length = rest := by
    rw [parts.whole, List.drop_left]
  simp only [readSize, parts.takeWhile_eq, later, parts.begins.unit_eq.1, ← limit]
  split
  next number chosen =>
    obtain ⟨spelled, counted⟩ := Option.filter_eq_some_iff.mp chosen
    have count := unsigned?_eq_some_iff.mp spelled
    constructor
    · rintro ⟨⟩
      exact ⟨number, count.1, of_decide_eq_true counted, rfl⟩
    · rintro ⟨other, same, below, rfl⟩
      have again := unsigned?_eq_some_iff.mpr ⟨same, fits below⟩
      rw [spelled] at again
      rw [Option.some.inj again]
  next refused =>
    refine ⟨nofun, fun ⟨number, count, below, _⟩ => ?_⟩
    have spelled := unsigned?_eq_some_iff.mpr ⟨count, fits below⟩
    rw [Option.filter_eq_none_iff] at refused
    exact absurd (decide_eq_true below) (refused number spelled)

end SizeParts

/-- What the reader refuses, it names. -/
theorem failsOnly_readSize (text : String) :
    FailsOnly (readSize text) (· = .invalidSize text) := by
  simp only [readSize]
  split
  next => exact failsOnly_ok _
  next => exact failsOnly_error rfl

/-- A text is read as a size exactly if, trimmed, it spells a size or a size with a tail, and then
as what it spells. Every other text is refused by name. So the texts that are read are those that
spell a size, unless something follows the suffix. -/
theorem sizes_spelled (text : String) :
    (∀ bytes, readSize text = .ok bytes ↔
      SpellsSize (trim text.toList) bytes ∨ SpellsSizeWithTail (trim text.toList) bytes) ∧
    (readSize text = .error (.invalidSize text) ↔ ∀ bytes,
      ¬ SpellsSize (trim text.toList) bytes ∧ ¬ SpellsSizeWithTail (trim text.toList) bytes) ∧
    ((∀ bytes, readSize text = .ok bytes ↔ SpellsSize (trim text.toList) bytes) ↔
      ∀ bytes, ¬ SpellsSizeWithTail (trim text.toList) bytes) := by
  obtain ⟨numeral, rest, unit, parts⟩ := SizeParts.exist (trim text.toList)
  have taken (bytes : Nat) : readSize text = .ok bytes ↔
      SpellsSize (trim text.toList) bytes ∨ SpellsSizeWithTail (trim text.toList) bytes := by
    rw [parts.readSize_eq_ok_iff, parts.spellsSize_iff, parts.spellsSizeWithTail_iff,
      ← or_and_right,
      and_iff_right (Decidable.em _)]
  refine ⟨taken, ?_, ?_⟩
  · simp only [← not_or, ← taken]
    exact (failsOnly_readSize text).eq_error_iff
  · constructor
    · intro exact bytes tailed
      have untailed := (exact bytes).mp ((taken bytes).mpr (.inr tailed))
      exact (parts.spellsSizeWithTail_iff.mp tailed).1 (parts.spellsSize_iff.mp untailed).1
    · intro untailed bytes
      rw [taken, or_iff_left (untailed bytes)]

/-- A text with a letter after the suffix is read as if the letter were not there, although the text
spells no size. -/
theorem size_tail_ignored :
    readSize "1Kx" = .ok 1024 ∧ ∀ bytes, ¬ SpellsSize (trim "1Kx".toList) bytes := by
  have parts : SizeParts (trim "1Kx".toList) ['1'] ['K', 'x'] (2 ^ 10) :=
    ⟨by decide +kernel, List.forall_mem_singleton.mpr rfl, .inr ⟨'K', ['x'], rfl, .kilo⟩⟩
  refine ⟨rfl, fun bytes spelled => ?_⟩
  exact absurd (parts.spellsSize_iff.mp spelled).1 (by decide)

/-- The largest size in units of 2 ^ 30 bytes, with a sign and between blanks; the next one has no
64 bits. -/
example : (readSize " +17179869183G\n").toOption = some (2 ^ 64 - 2 ^ 30) ∧
    (readSize "17179869184G").toOption = none := by decide +kernel

end CollectiveBench
