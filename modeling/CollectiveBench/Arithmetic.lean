import CollectiveBench.Error

/-!
# Counts in machine words

A program keeps its counts in words of 64 bits and its buffers in less than half of as many bytes.
What becomes of a count that no word holds depends on the build: one stops there, another goes on
with the lower bits. Both stop when a buffer is too large.

`Arithmetic` is the build. Whatever adds or multiplies counts that nothing bounds takes it as a
parameter and does so by `word` and `room`. Where no build is given, words are as wide as their
contents need: this is the arithmetic that all builds agree with as long as everything fits
(`word_of_holds`, `room_of_allots`).
-/

namespace CollectiveBench

/-- What becomes of a count that no word of 64 bits holds. -/
inductive Arithmetic where
  /-- Every count is held. -/
  | exact
  /-- It is a defect. -/
  | checked
  /-- Its lower bits are held. -/
  | wrapping
deriving DecidableEq, Repr

attribute [class] Arithmetic

namespace Arithmetic

instance unbounded : Arithmetic := .exact

/-- The counts of a word are below. -/
def wordLimit : Nat := powerOfTwo 64

/-- The sizes of buffers, in bytes, are below. -/
def roomLimit : Nat := powerOfTwo 63

section

variable [arithmetic : Arithmetic]

/-- What a word holds of a count. -/
def word (count : Nat) : Outcome Nat :=
  match arithmetic with
  | .exact => .ok count
  | .checked => if count < wordLimit then .ok count else .error (.defect .overflow)
  | .wrapping => .ok (count % wordLimit)

/-- What is left of a count in a word, in a build that goes on. -/
def held (count : Nat) : Nat :=
  match arithmetic with
  | .exact | .checked => count
  | .wrapping => count % wordLimit

/-- The bytes of a new buffer for `count` elements of `size` bytes. -/
def room (count size : Nat) : Outcome Nat := do
  let bytes ← word (count * size)
  match arithmetic with
  | .exact => return bytes
  | .checked | .wrapping => if bytes < roomLimit then return bytes else throw (.defect .overflow)

/-- Room for `count` items of `size` bytes each. No build loses a part of this product. -/
def items (count size : Nat) : Outcome Unit :=
  match arithmetic with
  | .exact => .ok ()
  | .checked | .wrapping =>
    if count * size < roomLimit then .ok () else .error (.defect .overflow)

/-- Where `length` elements of `size` bytes from `start` on begin and end in a buffer of some bytes.
-/
def span (bytes size start length : Nat) : Outcome (Nat × Nat) := do
  let stop ← word (start + length)
  if bytes / size < stop then throw (.bufferSizeMismatch stop (bytes / size))
  let first ← word (start * size)
  let last ← word (stop * size)
  if last < first ∨ bytes < last then throw (.defect (.indexOutOfRange last bytes))
  return (first, last)

/-- A word holds the count. -/
def Holds (count : Nat) : Prop := arithmetic = .exact ∨ count < wordLimit

/-- There can be a buffer for `count` elements of `size` bytes. -/
def Allots (count size : Nat) : Prop := arithmetic = .exact ∨ count * size < roomLimit

instance (count : Nat) : Decidable (Holds count) :=
  inferInstanceAs (Decidable (_ ∨ _))

instance (count size : Nat) : Decidable (Allots count size) :=
  inferInstanceAs (Decidable (_ ∨ _))

variable {count smaller size : Nat}

/-- Nothing is lost of a count that a word holds. -/
theorem held_of_holds (holds : Holds count) : held count = count := by
  unfold held
  rcases holds with rfl | below
  · rfl
  · cases arithmetic with
    | exact => rfl
    | checked => rfl
    | wrapping => exact Nat.mod_eq_of_lt below

/-- A count is the one that a word holds of it. -/
theorem word_of_holds (holds : Holds count) : word count = .ok count := by
  unfold word
  rcases holds with rfl | below
  · rfl
  · cases arithmetic with
    | exact => rfl
    | checked => exact if_pos below
    | wrapping => exact congrArg Except.ok (Nat.mod_eq_of_lt below)

/-- A build that does not go on with the lower bits stops at what no word holds. -/
theorem word_of_not_holds (checked : arithmetic ≠ .wrapping) (beyond : ¬Holds count) :
    word count = .error (.defect .overflow) := by
  obtain ⟨machine, large⟩ := not_or.mp beyond
  cases arithmetic with
  | exact => exact absurd rfl machine
  | checked => exact if_neg large
  | wrapping => exact absurd rfl checked

/-- A word never holds more than the count. -/
theorem word_le {held : Nat} (stored : word count = .ok held) : held ≤ count := by
  unfold word at stored
  cases arithmetic with
  | exact => exact Nat.le_of_eq (Except.ok.inj stored).symm
  | checked =>
    dsimp only at stored
    split at stored
    next => exact Nat.le_of_eq (Except.ok.inj stored).symm
    next => cases stored
  | wrapping => exact Except.ok.inj stored ▸ Nat.mod_le count wordLimit

/-- A word that holds a count holds what is smaller. -/
theorem Holds.mono (holds : Holds count) (least : smaller ≤ count) : Holds smaller :=
  holds.imp id fun below => Nat.lt_of_le_of_lt least below

/-- A word holds the size of a buffer. -/
theorem Allots.holds (allots : Allots count size) : Holds (count * size) :=
  allots.imp id fun below => Nat.lt_trans below (by decide)

/-- There is room for fewer elements too. -/
theorem Allots.mono (allots : Allots count size) (least : smaller ≤ count) : Allots smaller size :=
  allots.imp id fun below => Nat.lt_of_le_of_lt (Nat.mul_le_mul_right size least) below

/-- The elements of a buffer are counted in a word. -/
theorem Allots.holds_count (allots : Allots count size) (sized : 0 < size) : Holds count :=
  allots.holds.mono (Nat.le_mul_of_pos_right count sized)

/-- A word holds the size of two buffers. -/
theorem Allots.holds_add {first second : Nat} (allots : Allots first 1) (others : Allots second 1) :
    Holds (first + second) := by
  rcases allots with machine | below
  · exact .inl machine
  · refine others.imp id fun bounded => ?_
    have twice : wordLimit = roomLimit + roomLimit := by decide
    omega

/-- A buffer that there can be has all of its bytes. -/
theorem room_of_allots (allots : Allots count size) : room count size = .ok (count * size) := by
  unfold room
  rw [word_of_holds allots.holds]
  rcases allots with rfl | below
  · rfl
  · cases arithmetic with
    | exact => rfl
    | checked => exact if_pos below
    | wrapping => exact if_pos below

/-- The elements that are asked for must be there, and then stand side by side. -/
theorem span_of_holds {bytes start length : Nat} (sized : 0 < size) (holds : Holds (start + length))
    (fits : Holds bytes) :
    span bytes size start length =
      if bytes / size < start +
        length then .error (.bufferSizeMismatch (start + length) (bytes / size))
      else .ok (start * size, (start + length) * size) := by
  rw [span, word_of_holds holds]
  by_cases beyond : bytes / size < start + length
  · rw [if_pos beyond]
    exact if_pos beyond
  · have within : (start + length) * size ≤ bytes :=
      (Nat.le_div_iff_mul_le sized).mp (Nat.le_of_not_lt beyond)
    have ordered : start * size ≤ (start + length) * size :=
      Nat.mul_le_mul_right size (Nat.le_add_right start length)
    have first : word (start * size) = .ok (start * size) :=
      word_of_holds (fits.mono (Nat.le_trans ordered within))
    have last : word ((start + length) * size) = .ok ((start + length) * size) :=
      word_of_holds (fits.mono within)
    have inside : ¬((start + length) * size < start * size ∨ bytes < (start + length) * size) := by
      omega
    rw [if_neg beyond]
    show (if bytes / size < start + length then _ else _) = _
    rw [if_neg beyond]
    show (word (start * size) >>= _) = _
    rw [first]
    show (word ((start + length) * size) >>= _) = _
    rw [last]
    exact if_neg inside

/-- There is room for items if there can be a buffer of their size. -/
theorem items_of_allots (allots : Allots count size) : items count size = .ok () := by
  unfold items
  rcases allots with rfl | below
  · rfl
  · cases arithmetic with
    | exact => rfl
    | checked => exact if_pos below
    | wrapping => exact if_pos below

/-- A build that stops at what it cannot hold has the very count in a word. -/
theorem holds_of_word (checked : arithmetic ≠ .wrapping) {held : Nat}
    (stored : word count = .ok held) :
    Holds count ∧ held = count := by
  unfold word at stored
  cases arithmetic with
  | exact => exact ⟨.inl rfl, (Except.ok.inj stored).symm⟩
  | checked =>
    dsimp only at stored
    split at stored
    next below => exact ⟨.inr below, (Except.ok.inj stored).symm⟩
    next => cases stored
  | wrapping => exact absurd rfl checked

/-- What divides a count divides what a word holds of it, if it divides what is lost. -/
theorem dvd_of_word {divisor held : Nat} (bounded : divisor ∣ wordLimit) (divides : divisor ∣ count)
    (stored : word count = .ok held) : divisor ∣ held := by
  unfold word at stored
  cases arithmetic with
  | exact => exact Except.ok.inj stored ▸ divides
  | checked =>
    dsimp only at stored
    split at stored
    next => exact Except.ok.inj stored ▸ divides
    next => cases stored
  | wrapping => exact Except.ok.inj stored ▸ (Nat.dvd_mod_iff bounded).mpr divides

/-- An element ends as many bytes as it has behind its begin, if it ends there at all. -/
theorem sub_of_word {index first next last : Nat} (small : size < wordLimit)
    (begun : word (index * size) = .ok first) (counted : word (index + 1) = .ok next)
    (ended : word (next * size) = .ok last) (ordered : first ≤ last) : last - first = size := by
  have exactly (checked : arithmetic ≠ .wrapping) : last - first = size := by
    obtain ⟨-, rfl⟩ := holds_of_word checked begun
    obtain ⟨-, rfl⟩ := holds_of_word checked counted
    obtain ⟨-, rfl⟩ := holds_of_word checked ended
    rw [Nat.succ_mul, Nat.add_sub_cancel_left]
  cases arithmetic with
  | exact => exact exactly (by rintro ⟨⟩)
  | checked => exact exactly (by rintro ⟨⟩)
  | wrapping =>
    obtain rfl := Except.ok.inj begun
    obtain rfl := Except.ok.inj counted
    obtain rfl := Except.ok.inj ended
    have least : index * size % wordLimit < wordLimit := Nat.mod_lt _ (by decide)
    have step : (index + 1) % wordLimit * size % wordLimit =
        (index * size % wordLimit + size) % wordLimit := by
      rw [Nat.mod_mul_mod, Nat.succ_mul, Nat.mod_add_mod]
    rw [step] at ordered ⊢
    generalize index * size % wordLimit = place at ordered least ⊢
    by_cases fits : place + size < wordLimit
    · rw [Nat.mod_eq_of_lt fits, Nat.add_sub_cancel_left]
    · -- An end beyond the last word would lie before the begin.
      rw [Nat.mod_eq_sub_mod (Nat.le_of_not_lt fits), Nat.mod_eq_of_lt (by omega)] at ordered
      omega

/-- A range of elements lies in the buffer, and elements begin where it begins and where it ends. -/
theorem of_span {bytes start length first last : Nat} (bounded : size ∣ wordLimit)
    (ranged : span bytes size start length = .ok (first, last)) :
    (size ∣ first ∧ size ∣ last) ∧ first ≤ last ∧ last ≤ bytes := by
  unfold span at ranged
  cases counted : word (start + length) with
  | error error =>
    rw [counted] at ranged
    cases ranged
  | ok stop =>
    rw [counted] at ranged
    change (if bytes / size < stop then _ else _) = _ at ranged
    split at ranged
    next => cases ranged
    next =>
      cases begun : word (start * size) with
      | error error =>
        rw [begun] at ranged
        cases ranged
      | ok first =>
        rw [begun] at ranged
        cases ended : word (stop * size) with
        | error error =>
          rw [ended] at ranged
          cases ranged
        | ok last =>
          rw [ended] at ranged
          change (if last < first ∨ bytes < last then _ else _) = _ at ranged
          split at ranged
          next => cases ranged
          next inside =>
            obtain ⟨rfl, rfl⟩ := Prod.mk.inj (Except.ok.inj ranged)
            exact ⟨⟨dvd_of_word bounded (Nat.dvd_mul_left _ _) begun,
              dvd_of_word bounded (Nat.dvd_mul_left _ _) ended⟩, by omega, by omega⟩

/-- A new buffer has the bytes that a word holds, and there can be a buffer of as many bytes. -/
theorem of_room {bytes : Nat} (allocated : room count size = .ok bytes) :
    word (count * size) = .ok bytes ∧ Allots bytes 1 := by
  unfold room at allocated
  cases stored : word (count * size) with
  | error error =>
    rw [stored] at allocated
    cases allocated
  | ok held =>
    rw [stored] at allocated
    cases arithmetic with
    | exact => exact ⟨allocated, .inl rfl⟩
    | checked | wrapping =>
      change (if held < roomLimit then Except.ok held else _) = _ at allocated
      split at allocated
      next below =>
        obtain rfl := Except.ok.inj allocated
        exact ⟨rfl, .inr (by rwa [Nat.mul_one])⟩
      next => cases allocated

end

/-- Without a build every count is held. -/
@[simp] theorem word_exact (count : Nat) : word count = .ok count := rfl

/-- Without a build nothing is lost of a count. -/
@[simp] theorem held_exact (count : Nat) : held count = count := rfl

/-- Without a build there is room for everything. -/
@[simp] theorem room_exact (count size : Nat) : room count size = .ok (count * size) := rfl

/-- Without a build there is room for any items. -/
@[simp] theorem items_exact (count size : Nat) : items count size = .ok () := rfl

/-- Without a build a word holds every count. -/
@[simp] theorem holds_exact (count : Nat) : Holds count := .inl rfl

/-- Without a build there can be every buffer. -/
@[simp] theorem allots_exact (count size : Nat) : Allots count size := .inl rfl

end Arithmetic

end CollectiveBench
