import CollectiveBench.Operation
import CollectiveBench.Proofs.Entries

/-!
# The spellings of operations

A name spells the word that its ASCII letters make, whatever their case and whatever stands between
them. Names that spell one word are one name, and it stands for an operation if the word is an entry
of the table of spellings. The entries are different words, so each of them is found, and the name
of an operation is among its spellings (`names_resolved`).
-/

namespace CollectiveBench

/-! ## Words -/

/-- The character is the ASCII letter at a place of the alphabet, in either case. -/
def IsLetter (character : Char) (place : Fin 26) : Prop :=
  character.toNat = 'A'.toNat + place ∨ character.toNat = 'a'.toNat + place

/-- The letters of a text make a word. Other characters may stand anywhere. -/
inductive Spells : List Char → List (Fin 26) → Prop where
  | nothing : Spells [] []
  | other {character : Char} {rest : List Char} {word : List (Fin 26)}
      (foreign : ∀ place, ¬ IsLetter character place) (spelled : Spells rest word) :
    Spells (character :: rest) word
  | letter {character : Char} {place : Fin 26} {rest : List Char} {word : List (Fin 26)}
      (letter : IsLetter character place) (spelled : Spells rest word) :
    Spells (character :: rest) (place :: word)

/-- Two texts spell one word. -/
def SpelledAlike (left right : List Char) : Prop := ∃ word, Spells left word ∧ Spells right word

/-- The lower-case letter at a place of the alphabet. -/
def lowerLetter (place : Fin 26) : Char := Char.ofNat ('a'.toNat + place)

/-- Different places have different small letters. -/
theorem lowerLetter_inj : ∀ {left right : Fin 26}, lowerLetter left = lowerLetter right →
    left = right := by
  decide

/-- The letters are those at the places of the alphabet, small or large. -/
theorem isAlpha_iff {character : Char} :
    character.isAlpha = true ↔ ∃ place, IsLetter character place := by
  have ranges : character.isAlpha = true ↔ (65 ≤ character.toNat ∧ character.toNat ≤ 90) ∨
      (97 ≤ character.toNat ∧ character.toNat ≤ 122) := by
    change (('A'.val ≤ character.val ∧ character.val ≤ 'Z'.val : Bool) ||
      ('a'.val ≤ character.val && character.val ≤ 'z'.val)) = true ↔ _
    simp [UInt32.le_iff_toNat_le]
  rw [ranges]
  constructor
  · rintro (upper | lower)
    · exact ⟨⟨character.toNat - 65, by omega⟩, .inl (by simp; omega)⟩
    · exact ⟨⟨character.toNat - 97, by omega⟩, .inr (by simp; omega)⟩
  · rintro ⟨place, upper | lower⟩
    · exact .inl (by simp at upper; omega)
    · exact .inr (by simp at lower; omega)

/-- Made small, a letter is the small one at its place. -/
theorem IsLetter.toLower_eq {character : Char} {place : Fin 26}
    (letter : IsLetter character place) :
    character.toLower = lowerLetter place := by
  have upper : ∀ place : Fin 26, (Char.ofNat ('A'.toNat + place)).toLower = lowerLetter place := by
    decide
  have lower : ∀ place : Fin 26, (Char.ofNat ('a'.toNat + place)).toLower = lowerLetter place := by
    decide
  rcases letter with code | code
  · rw [← upper, ← code, Char.ofNat_toNat]
  · rw [← lower, ← code, Char.ofNat_toNat]

namespace Operation

/-- What is left of a name is the word that it spells, in lower case. -/
theorem spells_iff {text : List Char} {word : List (Fin 26)} :
    Spells text word ↔ squash text = word.map lowerLetter := by
  induction text generalizing word with
  | nil =>
    constructor
    · rintro ⟨⟩
      rfl
    · intro empty
      obtain rfl : word = [] := List.map_eq_nil_iff.mp empty.symm
      exact .nothing
  | cons character rest inductionHypothesis =>
    by_cases letter : ∃ place, IsLetter character place
    · have kept : squash (character :: rest) = character.toLower :: squash rest := by
        rw [squash, List.filter_cons_of_pos (isAlpha_iff.mpr letter), List.map_cons, squash]
      obtain ⟨place, letter⟩ := letter
      rw [kept]
      constructor
      · rintro (_ | ⟨foreign, -⟩ | ⟨again, spelled⟩)
        · exact absurd letter (foreign place)
        · rw [List.map_cons, again.toLower_eq, inductionHypothesis.mp spelled]
      · intro same
        cases word with
        | nil => cases same
        | cons first others =>
          rw [List.map_cons, List.cons.injEq, letter.toLower_eq] at same
          exact lowerLetter_inj same.1 ▸ .letter letter (inductionHypothesis.mpr same.2)
    · have dropped : squash (character :: rest) = squash rest := by
        rw [squash, List.filter_cons_of_neg fun alpha => letter (isAlpha_iff.mp alpha), squash]
      rw [dropped, ← inductionHypothesis]
      refine ⟨?_, .other fun place here => letter ⟨place, here⟩⟩
      rintro (_ | ⟨-, spelled⟩ | ⟨here, -⟩)
      · exact spelled
      · exact absurd ⟨_, here⟩ letter

/-- Every text spells a word. -/
theorem exists_spells (text : List Char) : ∃ word, Spells text word := by
  induction text with
  | nil => exact ⟨[], .nothing⟩
  | cons character rest inductionHypothesis =>
    obtain ⟨word, spelled⟩ := inductionHypothesis
    by_cases letter : ∃ place, IsLetter character place
    · obtain ⟨place, letter⟩ := letter
      exact ⟨place :: word, .letter letter spelled⟩
    · exact ⟨word, .other (fun place here => letter ⟨place, here⟩) spelled⟩

/-- Texts that spell one word are those of which the same is left. -/
theorem spelledAlike_iff {left right : List Char} :
    SpelledAlike left right ↔ squash left = squash right := by
  constructor
  · rintro ⟨word, here, there⟩
    exact (spells_iff.mp here).trans (spells_iff.mp there).symm
  · intro same
    obtain ⟨word, spelled⟩ := exists_spells left
    exact ⟨word, spelled, spells_iff.mpr (same ▸ spells_iff.mp spelled)⟩

/-! ## The table -/

/-- The entries of the table are different words in lower case. -/
theorem spellings_distinct : (spellings.map Prod.fst).Nodup ∧
    ∀ entry ∈ spellings, squash entry.1 = entry.1 := by
  decide

/-- A name stands for the operation of the entry that it is spelled like. -/
theorem ofName?_eq_some_iff {name : String} {operation : Operation} :
    ofName? name = some operation ↔
      ∃ spelling, (spelling, operation) ∈ spellings ∧ SpelledAlike spelling name.toList := by
  rw [ofName?, lookup_eq_some_iff_mem spellings_distinct.1]
  constructor
  · intro listed
    exact ⟨_, listed, spelledAlike_iff.mpr (spellings_distinct.2 _ listed)⟩
  · rintro ⟨spelling, listed, alike⟩
    rwa [← spelledAlike_iff.mp alike, spellings_distinct.2 _ listed]

/-- Names that are spelled alike stand for one operation. -/
theorem ofName?_congr {left right : String} (alike : SpelledAlike left.toList right.toList) :
    ofName? left = ofName? right := by
  rw [ofName?, ofName?, spelledAlike_iff.mp alike]

/-- A name is resolved exactly to the supported operation that it stands for. -/
theorem resolve_eq_ok_iff {supported : List Operation} {name : String} {operation : Operation} :
    resolve supported name = .ok operation ↔
      ofName? name = some operation ∧ operation ∈ supported := by
  rw [resolve]
  cases ofName? name with
  | none => simp
  | some found =>
    by_cases listed : found ∈ supported
    · simp only [listed, if_true, Except.ok.injEq, Option.some.injEq]
      exact ⟨fun same => ⟨same, same ▸ listed⟩, And.left⟩
    · simp only [listed, if_false, reduceCtorEq, Option.some.injEq, false_iff]
      rintro ⟨rfl, supports⟩
      exact listed supports

/-- Names that are spelled alike stand for the same. A name stands for the operation of whichever
entry of the table it is spelled like, so no entry hides another one. Whatever is spelled like the
name of an operation stands for that operation. A name is resolved exactly if it stands for a
supported operation, and then everything that is spelled like the name of that operation is resolved
to it too. -/
theorem names_resolved :
    (∀ left right : String, SpelledAlike left.toList right.toList → ofName? left = ofName? right) ∧
    (∀ name operation, ofName? name = some operation ↔
      ∃ spelling, (spelling, operation) ∈ spellings ∧ SpelledAlike spelling name.toList) ∧
    (∀ operation (other : String), SpelledAlike operation.name.toList other.toList →
      ofName? other = some operation) ∧
    ∀ supported name,
      ((∃ operation, resolve supported name = .ok operation) ↔
        ∃ operation ∈ supported, ofName? name = some operation) ∧
      ∀ operation, resolve supported name = .ok operation →
        ofName? name = some operation ∧ ∀ other : String,
          SpelledAlike operation.name.toList other.toList →
            resolve supported other = .ok operation := by
  have named (operation : Operation) (other : String)
      (alike : SpelledAlike operation.name.toList other.toList) :
      ofName? other = some operation := by
    rw [← ofName?_congr alike, ofName?_name]
  refine ⟨fun _ _ => ofName?_congr, fun _ _ => ofName?_eq_some_iff, named, fun supported name => ?_⟩
  constructor
  · simp only [resolve_eq_ok_iff, and_comm]
  · intro operation resolved
    obtain ⟨stands, supports⟩ := resolve_eq_ok_iff.mp resolved
    exact ⟨stands, fun other alike => resolve_eq_ok_iff.mpr ⟨named operation other alike, supports⟩⟩

/-- An alias with digits and blanks is resolved to the operation whose name is then read through
hyphens and capitals; the longer name beside it is another word. -/
theorem names_resolved_alias :
    resolve [.allToAll, .allToAllv] "All2-to-all base" = .ok .allToAllv ∧
      resolve [.allToAll, .allToAllv] "ALL->TO->ALL(V)" = .ok .allToAllv ∧
      ¬ SpelledAlike "all_to_all".toList "all_to_allv".toList := by
  have resolved : resolve [.allToAll, .allToAllv] "All2-to-all base" = .ok .allToAllv :=
    resolve_eq_ok_iff.mpr (by decide)
  have alike : SpelledAlike (Operation.name .allToAllv).toList "ALL->TO->ALL(V)".toList :=
    spelledAlike_iff.mpr (by decide)
  exact ⟨resolved, ((names_resolved.2.2.2 _ _).2 _ resolved).2 _ alike,
    fun same => absurd (spelledAlike_iff.mp same) (by decide)⟩

end Operation

end CollectiveBench
