import CollectiveBench.Proofs.Delivery.Blocks
import CollectiveBench.Proofs.Tensor.Agreement
import Mathlib.Data.List.GetD

/-!
# Cutting buffers and joining them

Pieces that are cut out of a buffer one after the other, of lengths that add up to its own, are
joined to the buffer again; and joined buffers are cut out again at their lengths. A piece without
any element is as good as any other. No byte is lost or moved on the way, since lengths in elements
are lengths in bytes (`blockAt_scaled`), and bytes that are cut into blocks follow on each other
(`parts_make_whole`).

A range whose end no word holds is the one case in which builds differ. It lies beyond the end of
any buffer. A build that stops there refuses it, but not with the error that names the lengths; one
that goes on with the lower bits may cut out nothing where the range lies outside
(`parts_make_whole_overflowing`).
-/

namespace CollectiveBench

open Numeric

/-- Lengths in elements of some size are lengths in bytes. -/
theorem total_scaled (size : Nat) (lengths : List Nat) :
    total (lengths.map (· * size)) = total lengths * size := by
  induction lengths with
  | nil => simp
  | cons length lengths inductionHypothesis =>
    rw [List.map_cons, total_cons, inductionHypothesis, total_cons, Nat.add_mul]

/-- A block of elements is a block of bytes. -/
theorem blockAt_scaled (size : Nat) (lengths : List Nat) (data : List UInt8) (place : Nat) :
    blockAt (lengths.map (· * size)) data place =
      (data.drop (total (lengths.take place) * size)).take (lengths.getD place 0 * size) := by
  have own : (lengths.map (· * size)).getD place 0 = lengths.getD place 0 * size := by
    simpa using List.getD_map (f := (· * size)) (n := place) (d := 0) (l := lengths)
  rw [blockAt, ← List.map_take, total_scaled, own]

namespace Buffer

variable [arithmetic : Arithmetic] {buffer : Buffer} {lengths : List Nat} {parts : List Buffer}
  {type : ElementType} {start length : Nat}

/-- The pieces of a buffer of some lengths, each of which begins where those before it end. -/
def cut (buffer : Buffer) (lengths : List Nat) : Outcome (List Buffer) :=
  (List.range lengths.length).mapM fun place =>
    buffer.slice (total (lengths.take place)) (lengths.getD place 0)

/-- The piece at a place. -/
def piece (buffer : Buffer) (lengths : List Nat) (place : Nat) : Buffer :=
  ⟨buffer.type, blockAt (lengths.map (· * buffer.type.size)) buffer.data place⟩

/-- A word holds the number of elements of a buffer. -/
theorem Sound.holds_count (sound : buffer.Sound) : Arithmetic.Holds buffer.count := by
  have held : Arithmetic.Holds buffer.data.length := by
    have fits := sound.held.holds
    rwa [Nat.mul_one] at fits
  exact held.mono (Nat.div_le_self _ _)

/-- All pieces can be cut out where the lengths add up to that of the buffer. -/
theorem cut_eq (sound : buffer.Sound) (whole : buffer.count = total lengths) :
    buffer.cut lengths = .ok ((List.range lengths.length).map (buffer.piece lengths)) := by
  refine mapM_eq_ok fun place _ => ?_
  have bound : total (lengths.take place) + lengths.getD place 0 ≤ buffer.count :=
    whole ▸ total_take_add_le lengths place
  rw [slice_eq sound (sound.holds_count.mono bound), if_neg (Nat.not_lt.mpr bound), piece,
    blockAt_scaled]

/-- The lengths in bytes add up to that of the buffer. -/
theorem Sound.total_bytes (sound : buffer.Sound) (whole : buffer.count = total lengths) :
    buffer.data.length = total (lengths.map (· * buffer.type.size)) := by
  rw [total_scaled, ← whole]
  exact sound.whole

/-- The pieces have the lengths that were asked for. -/
theorem count_pieces (sound : buffer.Sound) (whole : buffer.count = total lengths) :
    ((List.range lengths.length).map (buffer.piece lengths)).map count = lengths := by
  have sized := buffer.type.size_pos
  refine List.ext_getElem (by simp) fun place inside bounded => ?_
  have extent := length_blockAt (sound.total_bytes whole) place
  have own : (lengths.map (· * buffer.type.size)).getD place 0 =
    lengths[place] * buffer.type.size := by
    simp [List.getD_eq_getElem?_getD, bounded]
  rw [List.getElem_map, List.getElem_map, List.getElem_range]
  show (blockAt _ _ place).length / buffer.type.size = lengths[place]
  rw [extent, own, Nat.mul_div_cancel _ sized]

/-- All pieces of a buffer make up the buffer. -/
theorem concat_pieces (sound : buffer.Sound) (whole : buffer.count = total lengths) :
    concat ((List.range lengths.length).map (buffer.piece lengths)) buffer.type = .ok buffer := by
  have types : ∀ part ∈ (List.range lengths.length).map (buffer.piece lengths),
      part.type = buffer.type := List.forall_mem_map.mpr fun _ _ => rfl
  have bytes := flatMap_blockAt (sound.total_bytes whole)
  rw [List.length_map] at bytes
  have joined : ((List.range lengths.length).map (buffer.piece lengths)).flatMap data =
    buffer.data := by
    rw [List.flatMap_map]
    exact bytes
  have room : total (((List.range lengths.length).map (buffer.piece lengths)).map (·.data.length)) =
      buffer.data.length := by
    rw [← joined, List.length_flatMap]
    rfl
  rw [concat_eq types (room ▸ sound.held), joined]

/-- Joined buffers of one type are the pieces of what they were joined to. -/
theorem cut_concat (whole : ∀ part ∈ parts, part.type = type ∧ part.Whole)
    (fits : Arithmetic.Allots (total (parts.map (·.data.length))) 1) :
    cut ⟨type, parts.flatMap data⟩ (parts.map count) = .ok parts := by
  have scaled : (parts.map count).map (· * type.size) = parts.map (·.data.length) := by
    rw [List.map_map]
    refine List.map_congr_left fun part listed => ?_
    obtain ⟨rfl, wholePart⟩ := whole part listed
    exact wholePart.symm
  have length : (parts.flatMap data).length = total (parts.map count) * type.size := by
    rw [← total_scaled, scaled]
    exact List.length_flatMap
  have counted : (Buffer.mk type (parts.flatMap data)).count = total (parts.map count) := by
    show (parts.flatMap data).length / type.size = _
    rw [length, Nat.mul_div_cancel _ type.size_pos]
  have sound : (Buffer.mk type (parts.flatMap data)).Sound := by
    refine ⟨by rw [Whole, counted]; exact length, ?_⟩
    show Arithmetic.Allots (parts.flatMap data).length 1
    rwa [length, ← total_scaled, scaled]
  rw [cut_eq sound counted]
  refine congrArg Except.ok (List.ext_getElem (by simp) fun place inside bounded => ?_)
  rw [List.getElem_map, List.getElem_range, piece]
  show Buffer.mk type (blockAt ((parts.map count).map (· * type.size)) (parts.flatMap data) place) =
    _
  rw [scaled, blockAt_flatMap (List.getElem?_eq_getElem bounded),
    ← (whole _ (List.getElem_mem bounded)).1]

/-- Only a range that ends within the buffer is cut out, if a word holds its end. -/
theorem slice_fails_iff (sound : buffer.Sound) (holds : Arithmetic.Holds (start + length)) :
    (∃ error, buffer.slice start length = .error error) ↔ buffer.count < start + length := by
  rw [slice_eq sound holds]
  split
  next beyond => exact iff_of_true ⟨_, rfl⟩ beyond
  next within => exact iff_of_false (by rintro ⟨_, ⟨⟩⟩) within

/-- Where the build stops at what no word holds, this range is refused too. -/
theorem slice_overflow (checked : arithmetic ≠ .wrapping)
    (beyond : ¬Arithmetic.Holds (start + length)) :
    buffer.slice start length = .error (.defect .overflow) := by
  rw [slice, Arithmetic.span, Arithmetic.word_of_not_holds checked beyond]
  rfl

end Buffer

/-- In every build: lengths that add up to the number of elements of a buffer cut it into pieces of
these lengths, and the pieces are joined to the buffer. Buffers of one type are joined, and what
they are joined to is cut into them at their lengths. A range is refused exactly if it ends beyond
the end of the buffer, and the error names both ends, if a word holds its end; a build that stops at
what no word holds refuses the others. Joining fails exactly if the type of a part is not the one
that was asked for. The bytes of a piece are those of the buffer from its first element on, and the
bytes of joined buffers those of the parts in order. -/
theorem parts_make_whole [arithmetic : Arithmetic] :
    (∀ (buffer : Buffer) (lengths : List Nat), buffer.Sound → total lengths = buffer.count →
      ∃ parts, buffer.cut lengths = .ok parts ∧ parts.map Buffer.count = lengths ∧
        Buffer.concat parts buffer.type = .ok buffer) ∧
    (∀ (parts : List Buffer) (type : ElementType), (∀ part ∈ parts, part.type = type ∧ part.Whole) →
      Arithmetic.Allots (total (parts.map (·.data.length))) 1 →
      ∃ whole, Buffer.concat parts type = .ok whole ∧
        whole.cut (parts.map Buffer.count) = .ok parts) ∧
    (∀ (buffer : Buffer) (start length : Nat), buffer.Sound →
      (arithmetic ≠ .wrapping ∨ Arithmetic.Holds (start + length) →
        ((∃ error, buffer.slice start length = .error error) ↔ buffer.count < start + length)) ∧
      (Arithmetic.Holds (start + length) →
        (∀ error, buffer.slice start length = .error error →
          error = .bufferSizeMismatch (start + length) buffer.count) ∧
        ∀ part, buffer.slice start length = .ok part → part.type = buffer.type ∧
          part.data = (buffer.data.drop (start * buffer.type.size)).take
            (length * buffer.type.size))) ∧
    ∀ (parts : List Buffer) (type : ElementType),
      Arithmetic.Allots (total (parts.map (·.data.length))) 1 →
      ((∃ error, Buffer.concat parts type = .error error) ↔ ∃ part ∈ parts, part.type ≠ type) ∧
      ∀ whole, Buffer.concat parts type = .ok whole → whole.data = parts.flatMap Buffer.data := by
  refine ⟨fun buffer lengths sound whole => ?_, fun parts type whole fits => ?_,
    fun buffer start length sound =>
      ⟨fun counted => ?_, fun holds => ⟨fun error fails => ?_, fun part cuts => ?_⟩⟩,
    fun parts type fits => ?_⟩
  · exact ⟨_, Buffer.cut_eq sound whole.symm, Buffer.count_pieces sound whole.symm,
      Buffer.concat_pieces sound whole.symm⟩
  · exact ⟨_, Buffer.concat_eq (fun part listed => (whole part listed).1) fits,
      Buffer.cut_concat whole fits⟩
  · by_cases holds : Arithmetic.Holds (start + length)
    · exact Buffer.slice_fails_iff sound holds
    · refine iff_of_true ⟨_, Buffer.slice_overflow (counted.resolve_right holds) holds⟩ ?_
      exact Nat.lt_of_not_le fun within => holds (sound.holds_count.mono within)
  · rw [Buffer.slice_eq sound holds] at fails
    split at fails
    · exact (Except.error.inj fails).symm
    · cases fails
  · rw [Buffer.slice_eq sound holds] at cuts
    split at cuts
    · cases cuts
    · obtain rfl := Except.ok.inj cuts
      exact ⟨rfl, rfl⟩
  · by_cases types : ∀ part ∈ parts, part.type = type
    · rw [Buffer.concat_eq types fits]
      refine ⟨iff_of_false (by rintro ⟨_, ⟨⟩⟩) ?_, ?_⟩
      · rintro ⟨part, listed, other⟩
        exact other (types part listed)
      · rintro _ ⟨⟩
        rfl
    · have mixed : ∃ part ∈ parts, part.type ≠ type := by
        simpa only [not_forall, exists_prop] using types
      obtain ⟨error, fails⟩ := Buffer.concat_fails mixed
      refine ⟨iff_of_true ⟨error, fails⟩ mixed, fun whole joined => ?_⟩
      cases fails.symm.trans joined

/-- Three elements are cut into one, none and two. The second piece has the last four bytes, and the
buffer is joined again, also with an empty one between two copies. -/
theorem parts_make_whole_unevenly :
    let arithmetic := Arithmetic.checked
    let buffer : Buffer := ⟨.f16, [0, 60, 0, 64, 0, 66]⟩
    let copies := [buffer, ⟨.f16, []⟩, buffer]
    (∃ parts, @Buffer.cut arithmetic buffer [1, 0, 2] = .ok parts ∧
      parts.map Buffer.count = [1, 0, 2] ∧ @Buffer.concat arithmetic parts .f16 = .ok buffer) ∧
    (∃ whole, @Buffer.concat arithmetic copies .f16 = .ok whole ∧
      @Buffer.cut arithmetic whole [3, 0, 3] = .ok copies ∧
        whole.data = buffer.data ++ buffer.data) ∧
    (∃ part, @Buffer.slice arithmetic buffer 1 2 = .ok part ∧ part.data = [0, 64, 0, 66]) ∧
    ∃ error, @Buffer.slice arithmetic buffer (powerOfTwo 64 - 1) 1 = .error error := by
  intro arithmetic buffer copies
  obtain ⟨cuts, joins, slices, concats⟩ := @parts_make_whole arithmetic
  have sound : @Buffer.Sound arithmetic buffer := ⟨by unfold Buffer.Whole; decide, .inr (by decide)⟩
  have room : @Arithmetic.Allots arithmetic (total (copies.map (·.data.length))) 1 :=
    .inr (by decide)
  have whole : ∀ part ∈ copies, part.type = .f16 ∧ part.Whole := by
    unfold Buffer.Whole
    decide
  have counts : copies.map Buffer.count = [3, 0, 3] := by decide
  obtain ⟨joined, joins, cut⟩ := joins copies .f16 whole room
  refine ⟨cuts buffer [1, 0, 2] sound (by decide), ⟨joined, joins, counts ▸ cut, ?_⟩, ?_, ?_⟩
  · exact (concats copies .f16 room).2 joined joins
  · obtain ⟨fails, within⟩ := slices buffer 1 2 sound
    cases outcome : @Buffer.slice arithmetic buffer 1 2 with
    | error error =>
      exact absurd ((fails (.inl (by decide))).mp ⟨error, outcome⟩) (by decide)
    | ok part => exact ⟨part, rfl, ((within (.inr (by decide))).2 part outcome).2⟩
  · exact ((slices buffer (powerOfTwo 64 - 1) 1 sound).1 (.inl (by decide))).mpr (by decide)

/-- A range behind the end of a buffer is not refused with its lengths in any build where a word
does not hold its end: one build stops at the sum, and one that goes on finds a range that ends
before it begins. Of the range from the middle of all words to their end the latter even cuts out
nothing, without an error. -/
theorem parts_make_whole_overflowing :
    let buffer : Buffer := ⟨.f32, [0, 0, 128, 63]⟩
    let middle := powerOfTwo 63
    buffer.slice (powerOfTwo 64 - 1) 1 = .error (.bufferSizeMismatch (powerOfTwo 64) 1) ∧
    @Buffer.slice .checked buffer (powerOfTwo 64 - 1) 1 = .error (.defect .overflow) ∧
    @Buffer.slice .wrapping buffer (powerOfTwo 64 - 1) 1 =
      .error (.defect (.indexOutOfRange 0 4)) ∧
    @Buffer.slice .wrapping buffer middle middle = .ok ⟨.f32, []⟩ := by
  decide +kernel

end CollectiveBench
