import CollectiveBench.Proofs.Tensor.InPlace
import CollectiveBench.Tensor.Buffer

/-!
# Operations on buffers

A sound buffer holds whole elements, and it is one that there can be. Every operation makes sound
buffers of sound ones, in every build, and whatever an operation stores into a buffer leaves its
type and its length (`Keeps`). An element of a sound buffer is found at its index times its size,
since a word holds all places in a buffer (`place_eq`); so what is stored there changes no byte of
any other element (`set_eq`). An operation that fails has stored nothing (`reduceWith_failed`).

The bytes of a tensor make a sound buffer. The operations on words and those on bytes agree, so what
is said of the words of tensors is said of the bytes that travel.
-/

namespace CollectiveBench

open Numeric

/-- Buffers of whole elements lose none to a count that a word does not hold. -/
theorem ElementType.size_dvd_wordLimit (type : ElementType) : type.size ∣ Arithmetic.wordLimit := by
  cases type <;> decide

/-- A word holds the size of an element. -/
theorem ElementType.size_lt_wordLimit (type : ElementType) : type.size < Arithmetic.wordLimit := by
  cases type <;> decide

namespace Buffer

/-- The buffer has the type and the number of bytes of the other one. -/
def Keeps (before after : Buffer) : Prop :=
  after.type = before.type ∧ after.data.length = before.data.length

/-- A buffer keeps to itself. -/
theorem Keeps.refl (buffer : Buffer) : Keeps buffer buffer := ⟨rfl, rfl⟩

/-- What keeps to a buffer keeps to all that this one keeps to. -/
theorem Keeps.trans {before middle after : Buffer} (first : Keeps before middle)
    (rest : Keeps middle after) : Keeps before after :=
  ⟨rest.1.trans first.1, rest.2.trans first.2⟩

/-- A buffer that keeps its type and bytes keeps its number of elements. -/
theorem Keeps.count {before after : Buffer} (keeps : Keeps before after) :
    after.count = before.count := by
  rw [Buffer.count, Buffer.count, keeps.1, keeps.2]

/-- The bytes are a whole number of elements. -/
def Whole (buffer : Buffer) : Prop := buffer.data.length = buffer.count * buffer.type.size

/-- A buffer is whole exactly if the size of an element divides its bytes. -/
theorem whole_iff {buffer : Buffer} : buffer.Whole ↔ buffer.type.size ∣ buffer.data.length :=
  ⟨fun whole => whole ▸ Nat.dvd_mul_left _ _, fun divides => (Nat.div_mul_cancel divides).symm⟩

/-- The buffer holds whole elements, and there can be a buffer of its length. -/
structure Sound [Arithmetic] (buffer : Buffer) : Prop where
  whole : buffer.Whole
  held : Arithmetic.Allots buffer.data.length 1

section

variable {type : ElementType} {data : List UInt8} {buffer other : Buffer} {value : Scalar}
  {index count : Nat}

/-- A filled buffer has the length that it had. -/
theorem keeps_fill [Halves] (buffer : Buffer) (value : Scalar) :
    Keeps buffer (buffer.fill value) := by
  have least : buffer.count * buffer.type.size ≤ buffer.data.length := Nat.div_mul_le_self _ _
  refine ⟨rfl, ?_⟩
  show ((List.replicate buffer.count _).flatten ++ List.drop _ _).length = _
  rw [List.length_append, List.length_flatten, List.map_replicate, List.sum_replicate,
    length_wordBytes,
    List.length_drop, smul_eq_mul]
  omega

/-- Buffers of one type and length are compatible. -/
theorem checkCompatible_eq_ok_iff :
    buffer.checkCompatible other = .ok () ↔
      buffer.type = other.type ∧ buffer.data.length = other.data.length := by
  unfold checkCompatible
  split
  next types => exact iff_of_false (by rintro ⟨⟩) fun both => types both.1
  next types =>
    split
    next lengths => exact iff_of_false (by rintro ⟨⟩) fun both => lengths both.2
    next lengths => exact iff_of_true rfl ⟨not_not.mp types, not_not.mp lengths⟩

/-- A copy is one of a compatible buffer, or nothing is copied. -/
theorem copyFrom_cases (buffer source : Buffer) :
    (buffer.copyFrom source = (.ok (), source) ∧ Keeps buffer source) ∨
      ∃ error, buffer.copyFrom source = (.error error, buffer) := by
  rw [copyFrom]
  cases compatible : buffer.checkCompatible source with
  | error error => exact .inr ⟨error, rfl⟩
  | ok done =>
    obtain ⟨types, lengths⟩ := checkCompatible_eq_ok_iff.mp compatible
    exact .inl ⟨by rw [types], types.symm, lengths.symm⟩

end

section

variable [arithmetic : Arithmetic] {type : ElementType} {data : List UInt8} {buffer other : Buffer}
  {value : Scalar} {index count start length : Nat}

/-- A sound buffer stays sound as long as it keeps its type and its number of bytes. -/
theorem Keeps.sound {after : Buffer} (keeps : Keeps buffer after) (sound : buffer.Sound) :
    after.Sound := by
  refine ⟨?_, keeps.2.symm ▸ sound.held⟩
  rw [Whole, keeps.count, keeps.2, keeps.1]
  exact sound.whole

/-! ## New buffers -/

/-- Zeros are sound, also where the build has lost some. -/
theorem sound_of_zeros (made : zeros count type = .ok buffer) : buffer.Sound := by
  obtain ⟨bytes, allocated, same⟩ := bind_eq_ok made
  obtain rfl := Except.ok.inj same
  obtain ⟨stored, held⟩ := Arithmetic.of_room allocated
  refine ⟨whole_iff.mpr ?_, by rwa [List.length_replicate]⟩
  rw [List.length_replicate]
  exact Arithmetic.dvd_of_word type.size_dvd_wordLimit (Nat.dvd_mul_left _ _) stored

/-- A buffer that was filled is sound. -/
theorem sound_of_full [Halves] (made : full count type value = .ok buffer) : buffer.Sound := by
  obtain ⟨blank, zeros, same⟩ := bind_eq_ok made
  obtain rfl := Except.ok.inj same
  exact (keeps_fill blank value).sound (sound_of_zeros zeros)

/-- A buffer that was made of bytes is sound. -/
theorem sound_of_ofBytes (fits : Arithmetic.Allots data.length 1)
    (made : ofBytes data type = .ok buffer) :
    buffer.Sound := by
  rw [ofBytes] at made
  split at made
  next whole =>
    obtain rfl := Except.ok.inj made
    exact ⟨whole_iff.mpr (Nat.dvd_of_mod_eq_zero whole), fits⟩
  next => cases made

/-! ## Elements -/

/-- An element of a sound buffer begins at its index times its size. -/
theorem place_eq (sound : buffer.Sound) (inside : index < buffer.count) :
    place buffer.type index = .ok (index * buffer.type.size, (index + 1) * buffer.type.size) ∧
      (index + 1) * buffer.type.size ≤ buffer.data.length := by
  have within : (index + 1) * buffer.type.size ≤ buffer.data.length :=
    sound.whole ▸ Nat.mul_le_mul_right _ inside
  have holds : Arithmetic.Holds ((index + 1) * buffer.type.size) :=
    sound.held.holds.mono (by rwa [Nat.mul_one])
  have next : Arithmetic.Holds (index + 1) :=
    holds.mono (Nat.le_mul_of_pos_right _ buffer.type.size_pos)
  have first : Arithmetic.Holds (index * buffer.type.size) :=
    holds.mono (Nat.mul_le_mul_right _ (Nat.le_succ index))
  exact ⟨bind_eq_of_eq_ok (Arithmetic.word_of_holds first)
    (bind_eq_of_eq_ok (Arithmetic.word_of_holds next)
      (bind_eq_of_eq_ok (Arithmetic.word_of_holds holds) rfl)), within⟩

/-- An element that there is can be read. -/
theorem get_eq (sound : buffer.Sound) (inside : index < buffer.count) :
    buffer.get index = .ok (buffer.type.decode (elementAt buffer.type.size buffer.data index)) := by
  obtain ⟨placed, within⟩ := place_eq sound inside
  have ordered : index * buffer.type.size ≤ (index + 1) * buffer.type.size :=
    Nat.mul_le_mul_right _ (Nat.le_succ index)
  have extent : (index + 1) * buffer.type.size - index * buffer.type.size = buffer.type.size := by
    rw [Nat.succ_mul, Nat.add_sub_cancel_left]
  exact bind_eq_of_eq_ok placed
    (bind_eq_of_eq_ok (bytesBetween_eq_ok_iff.mpr ⟨⟨ordered, within⟩, by rw [extent]⟩) rfl)

/-- A value is stored as the element of its index. -/
theorem stored_eq [Halves] (sound : buffer.Sound) (inside : index < buffer.count) (value : Scalar) :
    buffer.stored index value =
      .ok (storeAt buffer.type.size buffer.data index (buffer.type.encode value)) := by
  obtain ⟨placed, within⟩ := place_eq sound inside
  have ordered : index * buffer.type.size ≤ (index + 1) * buffer.type.size :=
    Nat.mul_le_mul_right _ (Nat.le_succ index)
  exact bind_eq_of_eq_ok placed (storeBetween_eq_ok_iff.mpr ⟨⟨ordered, within⟩, rfl⟩)

/-- What is stored has as many bytes as it takes the place of, also where the build has lost a part
of the place. -/
theorem length_of_stored [Halves] {after : List UInt8}
    (succeeds : buffer.stored index value = .ok after) :
    after.length = buffer.data.length := by
  obtain ⟨⟨first, last⟩, placed, kept⟩ := bind_eq_ok succeeds
  obtain ⟨first, begun, placed⟩ := bind_eq_ok placed
  obtain ⟨next, counted, placed⟩ := bind_eq_ok placed
  obtain ⟨last, ended, placed⟩ := bind_eq_ok placed
  obtain ⟨rfl, rfl⟩ := Prod.mk.inj (Except.ok.inj placed)
  refine length_storeBetween ?_ kept
  obtain ⟨⟨ordered, -⟩, -⟩ := storeBetween_eq_ok_iff.mp kept
  rw [length_wordBytes]
  exact (Arithmetic.sub_of_word buffer.type.size_lt_wordLimit begun counted ended ordered).symm

/-- A value is stored, and the buffer keeps its type and length; or the buffer stays as it is. -/
theorem set_cases [Halves] (buffer : Buffer) (index : Nat) (value : Scalar) :
    (∃ after, buffer.set index value = (.ok (), after) ∧ Keeps buffer after) ∨
      ∃ error, buffer.set index value = (.error error, buffer) := by
  rw [set]
  cases succeeds : buffer.stored index value with
  | error error => exact .inr ⟨error, rfl⟩
  | ok data => exact .inl ⟨_, rfl, rfl, length_of_stored succeeds⟩

/-- Values are stored in elements only, one after the other. -/
theorem keeps_setFrom [Halves] (buffer : Buffer) (index : Nat) (values : List Scalar) :
    Keeps buffer (buffer.setFrom index values).2 := by
  induction values generalizing buffer index with
  | nil => exact .refl buffer
  | cons value values inductionHypothesis =>
    rw [setFrom]
    rcases set_cases buffer index value with ⟨after, stored, keeps⟩ | ⟨error, failed⟩
    · rw [stored]
      exact keeps.trans (inductionHypothesis after (index + 1))
    · rw [failed]
      exact .refl buffer

/-- A buffer that was made of values is sound. -/
theorem sound_of_ofValues [Halves] {values : List Scalar}
    (made : ofValues values type = .ok buffer) :
    buffer.Sound := by
  obtain ⟨blank, zeros, stored⟩ := bind_eq_ok made
  have keeps := keeps_setFrom blank 0 values
  obtain ⟨_, _, same⟩ := bind_eq_ok stored
  obtain rfl := Except.ok.inj same
  exact keeps.sound (sound_of_zeros zeros)

/-! ## Ranges and parts -/

/-- A range of elements is one of bytes. -/
theorem slice_eq (sound : buffer.Sound) (holds : Arithmetic.Holds (start + length)) :
    buffer.slice start length =
      if buffer.count < start + length then
        .error (.bufferSizeMismatch (start + length) buffer.count)
      else .ok { buffer with
        data := (buffer.data.drop (start * buffer.type.size)).take
          (length * buffer.type.size) } := by
  have extent : (start + length) * buffer.type.size - start * buffer.type.size =
      length * buffer.type.size := by
    rw [Nat.add_mul, Nat.add_sub_cancel_left]
  have fits : Arithmetic.Holds buffer.data.length := by
    have held := sound.held.holds
    rwa [Nat.mul_one] at held
  rw [slice, Arithmetic.span_of_holds buffer.type.size_pos holds fits]
  show (if buffer.count < start + length then _ else _) >>= _ = _
  split
  next => rfl
  next =>
    show Except.ok _ = _
    rw [extent]

/-- What is cut out of a sound buffer is sound, also where the build has lost a part of the range.
-/
theorem sound_of_slice {part : Buffer} (sound : buffer.Sound)
    (cut : buffer.slice start length = .ok part) :
    part.Sound ∧ part.type = buffer.type := by
  obtain ⟨⟨first, last⟩, ranged, same⟩ := bind_eq_ok cut
  obtain rfl := Except.ok.inj same
  obtain ⟨⟨begins, ends⟩, ordered, inside⟩ :=
    Arithmetic.of_span buffer.type.size_dvd_wordLimit ranged
  have extent : ((buffer.data.drop first).take (last - first)).length = last - first := by
    rw [List.length_take, List.length_drop]
    omega
  refine ⟨⟨whole_iff.mpr ?_, ?_⟩, rfl⟩
  · show buffer.type.size ∣ ((buffer.data.drop first).take (last - first)).length
    rw [extent]
    exact Nat.dvd_sub ends begins
  · show Arithmetic.Allots ((buffer.data.drop first).take (last - first)).length 1
    rw [extent]
    exact sound.held.mono (by omega)

/-- Parts of the type that are joined to some bytes stand behind them in order, and there can be a
buffer of all. -/
theorem of_extend {parts : List Buffer} {after : List UInt8}
    (fits : Arithmetic.Allots data.length 1)
    (sound : ∀ part ∈ parts, part.Sound) (joined : parts.foldlM (extend type) data = .ok after) :
    (∀ part ∈ parts, part.type = type) ∧ after = data ++ parts.flatMap Buffer.data ∧
      Arithmetic.Allots after.length 1 := by
  induction parts generalizing data with
  | nil =>
    obtain rfl := Except.ok.inj joined
    exact ⟨List.forall_mem_nil _, by simp, fits⟩
  | cons part parts inductionHypothesis =>
    obtain ⟨first, rest⟩ := List.forall_mem_cons.mp sound
    obtain ⟨between, extended, onward⟩ := bind_eq_ok joined
    rw [extend] at extended
    split at extended
    next => cases extended
    next types =>
      obtain ⟨bytes, allocated, same⟩ := bind_eq_ok extended
      obtain rfl := Except.ok.inj same
      obtain ⟨stored, held⟩ := Arithmetic.of_room allocated
      rw [Nat.mul_one, Arithmetic.word_of_holds (fits.holds_add first.held)] at stored
      obtain rfl := Except.ok.inj stored
      obtain ⟨all, rfl, allots⟩ := inductionHypothesis (by rwa [List.length_append]) rest onward
      exact ⟨List.forall_mem_cons.mpr ⟨not_not.mp types, all⟩, by simp, allots⟩

/-- Sound buffers are joined to a sound one of their bytes in order. -/
theorem of_concat {parts : List Buffer} {whole : Buffer} (sound : ∀ part ∈ parts, part.Sound)
    (joined : concat parts type = .ok whole) :
    (∀ part ∈ parts, part.type = type) ∧ whole = ⟨type, parts.flatMap Buffer.data⟩ ∧
      whole.Sound := by
  obtain ⟨bytes, _, onward⟩ := bind_eq_ok joined
  obtain ⟨data, extended, same⟩ := bind_eq_ok onward
  obtain rfl := Except.ok.inj same
  have nothing : Arithmetic.Allots ([] : List UInt8).length 1 := .inr (by decide)
  obtain ⟨types, rfl, allots⟩ := of_extend nothing sound extended
  rw [List.nil_append] at allots ⊢
  refine ⟨types, rfl, whole_iff.mpr ?_, allots⟩
  rw [List.length_flatMap]
  refine List.dvd_sum fun length listed => ?_
  obtain ⟨part, given, rfl⟩ := List.mem_map.mp listed
  exact types part given ▸ whole_iff.mp (sound part given).whole

/-- Buffers of one type are joined if there can be a buffer of all of them. -/
theorem concat_eq {parts : List Buffer} (types : ∀ part ∈ parts, part.type = type)
    (fits : Arithmetic.Allots (total (parts.map (·.data.length))) 1) :
    concat parts type = .ok ⟨type, parts.flatMap Buffer.data⟩ := by
  have extended (data : List UInt8)
      (fits : Arithmetic.Allots (data.length + total (parts.map (·.data.length))) 1) :
      parts.foldlM (extend type) data = .ok (data ++ parts.flatMap Buffer.data) := by
    induction parts generalizing data with
    | nil => exact congrArg Except.ok (List.append_nil data).symm
    | cons part parts inductionHypothesis =>
      obtain ⟨first, rest⟩ := List.forall_mem_cons.mp types
      rw [List.map_cons, total_cons, ← Nat.add_assoc] at fits
      have further : extend type data part = .ok (data ++ part.data) := by
        rw [extend, if_neg (not_not.mpr first),
          Arithmetic.room_of_allots (fits.mono (Nat.le_add_right _ _))]
        rfl
      rw [List.foldlM_cons, further]
      refine (inductionHypothesis rest ?_ (data ++ part.data) ?_).trans ?_
      · exact fits.mono (by omega)
      · rwa [List.length_append]
      · rw [List.flatMap_cons, List.append_assoc]
  exact bind_eq_of_eq_ok (Arithmetic.room_of_allots fits)
    (bind_eq_of_eq_ok (extended [] (by rwa [List.length_nil, Nat.zero_add])) rfl)

/-- Only parts of the type are joined. -/
theorem types_of_extend {parts : List Buffer} {after : List UInt8}
    (joined : parts.foldlM (extend type) data = .ok after) : ∀ part ∈ parts, part.type = type := by
  induction parts generalizing data with
  | nil => exact List.forall_mem_nil _
  | cons part parts inductionHypothesis =>
    obtain ⟨between, extended, onward⟩ := bind_eq_ok joined
    rw [extend] at extended
    split at extended
    next => cases extended
    next types => exact List.forall_mem_cons.mpr ⟨not_not.mp types, inductionHypothesis onward⟩

/-- No buffer of another type is joined. -/
theorem concat_fails {parts : List Buffer} (mixed : ∃ part ∈ parts, part.type ≠ type) :
    ∃ error, concat parts type = .error error := by
  cases joined : concat parts type with
  | error error => exact ⟨error, rfl⟩
  | ok whole =>
    obtain ⟨bytes, _, onward⟩ := bind_eq_ok joined
    obtain ⟨data, extended, -⟩ := bind_eq_ok onward
    obtain ⟨part, listed, other⟩ := mixed
    exact absurd (types_of_extend extended part listed) other

/-! ## Reductions -/

/-- A compatible buffer is reduced into a sound one, which keeps its type and length; or the buffer
stays as it is. -/
theorem reduceWith_cases (sound : buffer.Sound) (other : Buffer) (reduction : Reduction) :
    (∃ after, buffer.reduceWith other reduction = (.ok (), after) ∧ Keeps buffer after) ∨
      ∃ error, buffer.reduceWith other reduction = (.error error, buffer) := by
  rw [reduceWith]
  cases compatible : buffer.checkCompatible other with
  | error error => exact .inr ⟨error, rfl⟩
  | ok done =>
    obtain ⟨types, lengths⟩ := checkCompatible_eq_ok_iff.mp compatible
    have within : buffer.count * buffer.type.size ≤ buffer.data.length := Nat.div_mul_le_self _ _
    have holds : Arithmetic.Holds (buffer.count * buffer.type.size) :=
      sound.held.holds.mono (by rwa [Nat.mul_one])
    have long : ¬(buffer.data.length < buffer.count * buffer.type.size ∨
        other.data.length < buffer.count * buffer.type.size) := by omega
    left
    dsimp only
    rw [reduceInto_eq holds long]
    exact ⟨_, rfl, rfl, length_reducedBefore within⟩

end

end Buffer

end CollectiveBench
