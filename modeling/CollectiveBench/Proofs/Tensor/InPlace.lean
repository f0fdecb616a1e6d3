import CollectiveBench.Proofs.Tensor.Bytes
import CollectiveBench.Tensor.InPlace

/-!
# Reducing in place

The loop reads and stores in one buffer. What it reads is not what it has stored: when it comes to
an element, everything from there on is as it was at first (`reduceElements_range`). So each element
is reduced with the one of the same index, and a buffer that is too short is left as it was
(`reduceInto_elementwise`).

Builds differ only where the bytes of all elements are more than a word counts. Such a count is
never reduced, whatever the build, since an element that no buffer has stops the loop
(`reduceInto_short`).
-/

namespace CollectiveBench

/-! ## Elements in a buffer -/

section

variable {size count index word : Nat} {words : List Nat} {bytes front back : List UInt8}

/-- The word of the element of an index. -/
def elementAt (size : Nat) (bytes : List UInt8) (index : Nat) : Nat :=
  bytesWord ((bytes.drop (index * size)).take size)

/-- The buffer with a word stored as the element of an index. -/
def storeAt (size : Nat) (bytes : List UInt8) (index word : Nat) : List UInt8 :=
  bytes.take (index * size) ++ (wordBytes size word ++ bytes.drop ((index + 1) * size))

/-- What lies before an element does not matter for it. -/
theorem elementAt_append_right (length : front.length = index * size) :
    elementAt size (front ++ back) index = elementAt size back 0 := by
  rw [elementAt, elementAt, List.drop_left' length, Nat.zero_mul, List.drop_zero]

/-- What lies behind an element does not matter for it. -/
theorem elementAt_append_left (within : (index + 1) * size ≤ front.length) :
    elementAt size (front ++ back) index = elementAt size front index := by
  rw [Nat.succ_mul] at within
  rw [elementAt, elementAt, List.drop_append_of_le_length (by omega),
    List.take_append_of_le_length (by rw [List.length_drop]; omega)]

/-- An element that is stored takes the place of the bytes that were there. -/
theorem storeAt_append (length : front.length = index * size) :
    storeAt size (front ++ back) index word = front ++ (wordBytes size word ++ back.drop size) := by
  rw [storeAt, List.take_left' length, Nat.succ_mul, ← List.drop_drop, List.drop_left' length]

/-- The words of a buffer are those of its elements. -/
theorem bytesWords_eq_map (size count : Nat) (bytes : List UInt8) :
    bytesWords size count bytes = (List.range count).map (elementAt size bytes) := by
  induction count generalizing bytes with
  | zero => rfl
  | succ count inductionHypothesis =>
    have first : elementAt size bytes 0 = bytesWord (bytes.take size) := by simp [elementAt]
    have later (index : Nat) :
        elementAt size (bytes.drop size) index = elementAt size bytes (index + 1) := by
      rw [elementAt, elementAt, List.drop_drop, Nat.succ_mul, Nat.add_comm]
    rw [bytesWords, inductionHypothesis, List.range_succ_eq_map, List.map_cons, List.map_map, first]
    exact congrArg _ (List.map_congr_left fun index _ => later index)

/-- An element fits its size. -/
theorem elementAt_lt (size : Nat) (bytes : List UInt8) (index : Nat) :
    elementAt size bytes index < 256 ^ size :=
  Nat.lt_of_lt_of_le (bytesWord_lt _)
    (Nat.pow_le_pow_right (by decide) (List.length_take_le size _))

/-- The elements of joined words are the words, if these fit. -/
theorem elementAt_flatMap (fit : ∀ word ∈ words, word < 256 ^ size)
    (there : words[index]? = some word) :
    elementAt size (words.flatMap (wordBytes size)) index = word := by
  obtain ⟨inside, rfl⟩ := List.getElem?_eq_some_iff.mp there
  have read := congrArg (·[index]?) (bytesWords_flatMap fit)
  simpa [bytesWords_eq_map, inside] using read

end

/-! ## Ranges of bytes -/

section

variable {first last : Nat} {bytes stored : List UInt8}

/-- Bytes are read only where there are some. -/
theorem bytesBetween_eq_ok_iff {read : List UInt8} :
    bytesBetween bytes first last = .ok read ↔
      (first ≤ last ∧ last ≤ bytes.length) ∧ (bytes.drop first).take (last - first) = read := by
  rw [bytesBetween]
  split
  next outside => exact iff_of_false (by rintro ⟨⟩) fun both => by omega
  next inside => exact ⟨fun same => ⟨by omega, Except.ok.inj same⟩, fun both => congrArg _ both.2⟩

/-- Bytes are stored only where there are some. -/
theorem storeBetween_eq_ok_iff {after : List UInt8} :
    storeBetween bytes first last stored = .ok after ↔
      (first ≤ last ∧ last ≤ bytes.length) ∧
        bytes.take first ++ (stored ++ bytes.drop last) = after := by
  rw [storeBetween]
  split
  next outside => exact iff_of_false (by rintro ⟨⟩) fun both => by omega
  next inside => exact ⟨fun same => ⟨by omega, Except.ok.inj same⟩, fun both => congrArg _ both.2⟩

/-- What takes the place of as many bytes leaves the length. -/
theorem length_storeBetween {after : List UInt8} (extent : stored.length = last - first)
    (succeeds : storeBetween bytes first last stored = .ok after) :
    after.length = bytes.length := by
  obtain ⟨⟨ordered, inside⟩, rfl⟩ := storeBetween_eq_ok_iff.mp succeeds
  simp only [List.length_append, List.length_take, List.length_drop, extent]
  omega

end

/-! ## The loop -/

section

variable (type : ElementType) (reduction : Reduction) (source : List UInt8)

/-- What an element is reduced to. -/
def reducedWord (destination : List UInt8) (index : Nat) : Nat :=
  type.combine reduction (elementAt type.size destination index) (elementAt type.size source index)

/-- The buffer when the loop comes to an index: the elements before it are reduced, and everything
from there on is as it was. -/
def reducedBefore (destination : List UInt8) (index : Nat) : List UInt8 :=
  ((List.range index).map (reducedWord type reduction source destination)).flatMap
      (wordBytes type.size) ++ destination.drop (index * type.size)

end

/-! ## What the loop leaves -/

section

variable (type : ElementType) (reduction : Reduction) (source destination : List UInt8)

/-- The bytes of the elements that are reduced. -/
theorem length_reducedWords (index : Nat) :
    (((List.range index).map (reducedWord type reduction source destination)).flatMap
      (wordBytes type.size)).length = index * type.size := by
  rw [length_flatMap_wordBytes, List.length_map, List.length_range]

/-- What an element is reduced to fits. -/
theorem reducedWord_lt (index : Nat) :
    reducedWord type reduction source destination index < 256 ^ type.size := by
  rw [← type.powerOfTwo_bits]
  apply type.combine_lt
  · rw [type.powerOfTwo_bits]
    exact elementAt_lt _ _ _
  · rw [type.powerOfTwo_bits]
    exact elementAt_lt _ _ _

end

section

variable {type : ElementType} {reduction : Reduction} {source destination : List UInt8}
  {count index : Nat}

/-- The buffer keeps its length. -/
theorem length_reducedBefore (holds : index * type.size ≤ destination.length) :
    (reducedBefore type reduction source destination index).length = destination.length := by
  rw [reducedBefore, List.length_append, length_reducedWords, List.length_drop]
  omega

/-- The elements before the index are reduced. -/
theorem elementAt_reducedBefore (earlier : index < count) :
    elementAt type.size (reducedBefore type reduction source destination count) index =
      reducedWord type reduction source destination index := by
  have within : (index + 1) * type.size ≤ count * type.size := Nat.mul_le_mul_right _ earlier
  rw [reducedBefore, elementAt_append_left (by rwa [length_reducedWords])]
  apply elementAt_flatMap
  · intro word listed
    obtain ⟨other, -, rfl⟩ := List.mem_map.mp listed
    exact reducedWord_lt type reduction source destination other
  · simp [earlier]

/-- The bytes from the index on are the old ones. -/
theorem getElem?_reducedBefore {position : Nat} (behind : index * type.size ≤ position) :
    (reducedBefore type reduction source destination index)[position]? =
      destination[position]? := by
  rw [reducedBefore, List.getElem?_append_right (by rwa [length_reducedWords]), length_reducedWords,
    List.getElem?_drop, Nat.add_sub_cancel' behind]

variable [arithmetic : Arithmetic]

/-- An element that both buffers have is reduced. -/
theorem reduceElement_eq (holds : Arithmetic.Holds ((index + 1) * type.size))
    (inside : (index + 1) * type.size ≤ destination.length)
    (sourceInside : (index + 1) * type.size ≤ source.length) :
    reduceElement type reduction source destination index =
      .ok (storeAt type.size destination index
        (type.combine reduction (elementAt type.size destination index)
          (elementAt type.size source index))) := by
  rw [Nat.succ_mul] at holds inside sourceInside
  have ordered : index * type.size ≤ index * type.size + type.size := Nat.le_add_right _ _
  have extent : index * type.size + type.size - index * type.size = type.size :=
    Nat.add_sub_cancel_left _ _
  have read {bytes : List UInt8} (within : index * type.size + type.size ≤ bytes.length) :
      bytesBetween bytes (index * type.size) (index * type.size + type.size) =
        .ok ((bytes.drop (index * type.size)).take type.size) :=
    bytesBetween_eq_ok_iff.mpr ⟨⟨ordered, within⟩, by rw [extent]⟩
  rw [reduceElement, Arithmetic.word_of_holds (holds.mono ordered)]
  show (Arithmetic.word (index * type.size + type.size) >>= _) = _
  rw [Arithmetic.word_of_holds holds]
  show (bytesBetween destination (index * type.size) (index * type.size + type.size) >>= _) = _
  rw [read inside]
  show (bytesBetween source (index * type.size) (index * type.size + type.size) >>= _) = _
  rw [read sourceInside]
  exact storeBetween_eq_ok_iff.mpr ⟨⟨ordered, inside⟩, by rw [storeAt, Nat.succ_mul]; rfl⟩

/-- An element is reduced only if the buffer has it, and the buffer keeps its length. -/
theorem length_of_reduceElement {after : List UInt8}
    (fits : Arithmetic.Allots destination.length 1)
    (begins : index * type.size ≤ destination.length)
    (succeeds : reduceElement type reduction source destination index = .ok after) :
    (index + 1) * type.size ≤ destination.length ∧ (index + 1) * type.size ≤ source.length ∧
      after.length = destination.length := by
  have held : Arithmetic.Allots (index * type.size) 1 := fits.mono begins
  -- A word holds every place in a buffer and the one behind it, since the largest buffer is so much
  -- smaller than a word.
  have small : type.size ≤ 8 := by cases type <;> decide
  have holds : Arithmetic.Holds (index * type.size + type.size) :=
    held.imp id fun below => by
      rw [Nat.mul_one] at below
      have room : Arithmetic.roomLimit + 8 < Arithmetic.wordLimit := by decide
      omega
  obtain ⟨first, begun, succeeds⟩ := bind_eq_ok succeeds
  cases (Arithmetic.word_of_holds (holds.mono (Nat.le_add_right _ _))).symm.trans begun
  obtain ⟨last, ended, succeeds⟩ := bind_eq_ok succeeds
  cases (Arithmetic.word_of_holds holds).symm.trans ended
  obtain ⟨left, readLeft, succeeds⟩ := bind_eq_ok succeeds
  obtain ⟨right, readRight, succeeds⟩ := bind_eq_ok succeeds
  rw [Nat.succ_mul]
  refine ⟨(bytesBetween_eq_ok_iff.mp readLeft).1.2, (bytesBetween_eq_ok_iff.mp readRight).1.2, ?_⟩
  refine length_storeBetween ?_ succeeds
  rw [length_wordBytes, Nat.add_sub_cancel_left]

/-- The loop takes one step from index to index. It reads the element as it was at first, because
all that it has stored lies before it. -/
theorem reduceElement_reducedBefore (holds : Arithmetic.Holds ((index + 1) * type.size))
    (inside : (index + 1) * type.size ≤ destination.length)
    (sourceInside : (index + 1) * type.size ≤ source.length) :
    reduceElement type reduction source
        (reducedBefore type reduction source destination index) index =
      .ok (reducedBefore type reduction source destination (index + 1)) := by
  have front := length_reducedWords type reduction source destination index
  have length : (reducedBefore type reduction source destination index).length =
      destination.length := by
    rw [Nat.succ_mul] at inside
    exact length_reducedBefore (by omega)
  have left : elementAt type.size (reducedBefore type reduction source destination index) index =
      elementAt type.size destination index := by
    rw [reducedBefore, elementAt_append_right front]
    simp [elementAt]
  have stored : storeAt type.size (reducedBefore type reduction source destination index) index
      (reducedWord type reduction source destination index) =
        reducedBefore type reduction source destination (index + 1) := by
    rw [reducedBefore, storeAt_append front, List.drop_drop, ← Nat.succ_mul, reducedBefore,
      List.range_succ, List.map_append, List.flatMap_append, List.append_assoc]
    simp
  rw [reduceElement_eq holds (by omega) sourceInside, left]
  exact congrArg Except.ok stored

/-- The loop reaches its end, and reduces every element once. The induction is on the steps that are
left. -/
theorem reduceElements_range (holds : Arithmetic.Holds (count * type.size))
    (inside : count * type.size ≤ destination.length)
    (sourceInside : count * type.size ≤ source.length) :
    reduceElements type reduction source destination (List.range count) =
      (.ok (), reducedBefore type reduction source destination count) := by
  have onward (steps : Nat) : ∀ start, start + steps = count →
      reduceElements type reduction source (reducedBefore type reduction source destination start)
        (List.range' start steps) =
      (.ok (), reducedBefore type reduction source destination count) := by
    induction steps with
    | zero =>
      rintro start rfl
      rfl
    | succ steps inductionHypothesis =>
      intro start reaches
      have within : (start + 1) * type.size ≤ count * type.size :=
        Nat.mul_le_mul_right _ (by omega)
      rw [List.range'_succ, reduceElements, reduceElement_reducedBefore (holds.mono within)
        (Nat.le_trans within inside) (Nat.le_trans within sourceInside)]
      exact inductionHypothesis (start + 1) (by omega)
  have whole := onward count 0 (Nat.zero_add count)
  have atFirst : reducedBefore type reduction source destination 0 = destination := by
    simp [reducedBefore]
  rwa [atFirst, ← List.range_eq_range'] at whole

/-- A loop that reaches its end has found every element in both buffers. The induction is on the
steps that are left; the buffer has the same length at each of them. -/
theorem within_of_reduceElements {after : List UInt8}
    (fits : Arithmetic.Allots destination.length 1)
    (succeeds : reduceElements type reduction source destination (List.range count) =
      (.ok (), after)) :
    count * type.size ≤ destination.length ∧ count * type.size ≤ source.length := by
  have onward (steps : Nat) : ∀ (start : Nat) (buffer : List UInt8), start + steps = count →
      buffer.length = destination.length → start * type.size ≤ destination.length →
      start * type.size ≤ source.length →
      reduceElements type reduction source buffer (List.range' start steps) = (.ok (), after) →
      count * type.size ≤ destination.length ∧ count * type.size ≤ source.length := by
    induction steps with
    | zero =>
      rintro start buffer rfl - inside sourceInside -
      exact ⟨inside, sourceInside⟩
    | succ steps inductionHypothesis =>
      intro start buffer reaches length inside sourceInside succeeds
      rw [List.range'_succ, reduceElements] at succeeds
      cases first : reduceElement type reduction source buffer start with
      | error error =>
        rw [first] at succeeds
        cases succeeds
      | ok stored =>
        rw [first] at succeeds
        obtain ⟨next, sourceNext, same⟩ :=
          length_of_reduceElement (length ▸ fits) (length ▸ inside) first
        exact inductionHypothesis (start + 1) stored (by omega) (same.trans length) (length ▸ next)
          sourceNext succeeds
  rw [List.range_eq_range'] at succeeds
  exact onward count 0 destination (Nat.zero_add count) rfl (by omega) (by omega) succeeds

/-- Two buffers that are long enough are reduced. -/
theorem reduceInto_eq (holds : Arithmetic.Holds (count * type.size))
    (long : ¬ (destination.length < count * type.size ∨ source.length < count * type.size)) :
    reduceInto type reduction source count destination =
      (.ok (), reducedBefore type reduction source destination count) := by
  obtain ⟨inside, sourceInside⟩ := not_or.mp long
  rw [reduceInto, Arithmetic.word_of_holds holds]
  show (if destination.length < count * type.size ∨ _ then _ else _) = _
  rw [if_neg long]
  exact reduceElements_range holds (Nat.le_of_not_lt inside) (Nat.le_of_not_lt sourceInside)

/-- A buffer that is too short is refused before anything is stored. -/
theorem reduceInto_refused (holds : Arithmetic.Holds (count * type.size))
    (short : destination.length < count * type.size ∨ source.length < count * type.size) :
    reduceInto type reduction source count destination =
      (.error (.bufferSizeMismatch (count * type.size) (min destination.length source.length)),
        destination) := by
  rw [reduceInto, Arithmetic.word_of_holds holds]
  exact if_pos short

/-- No build reduces more elements than the buffers have. -/
theorem reduceInto_short (fits : Arithmetic.Allots destination.length 1)
    (short : destination.length < count * type.size ∨ source.length < count * type.size) :
    ∃ error, (reduceInto type reduction source count destination).1 = .error error := by
  rw [reduceInto]
  cases Arithmetic.word (count * type.size) with
  | error error => exact ⟨error, rfl⟩
  | ok needed =>
    dsimp only
    split
    next => exact ⟨_, rfl⟩
    next =>
      -- Here the build has lost a part of the product. The loop still comes to an element that is
      -- not there.
      cases ends : reduceElements type reduction source destination (List.range count) with
      | mk outcome after =>
        cases outcome with
        | error error => exact ⟨error, rfl⟩
        | ok done =>
          obtain ⟨inside, sourceInside⟩ := within_of_reduceElements fits ends
          omega

/-- A build that stops at a count that it cannot hold has stored nothing by then. -/
theorem reduceInto_overflow (checked : arithmetic ≠ .wrapping)
    (beyond : ¬Arithmetic.Holds (count * type.size)) :
    reduceInto type reduction source count destination =
      (.error (.defect .overflow), destination) := by
  rw [reduceInto, Arithmetic.word_of_not_holds checked beyond]

end

/-- Reducing into a buffer fails exactly if one of the two is too short. It leaves the buffer as it
was then, unless the build goes on with the lower bits of a number of bytes that no word holds; if a
word holds it, the error names it. Otherwise each of the first `count` elements is reduced, the old
one with that of the source, and every byte behind them is the old one. -/
theorem reduceInto_elementwise [arithmetic : Arithmetic] (type : ElementType)
    (reduction : Reduction)
    (count : Nat) (destination source : List UInt8)
    (fits : Arithmetic.Allots destination.length 1) :
    let needed := count * type.size
    let outcome := (reduceInto type reduction source count destination).1
    let after := (reduceInto type reduction source count destination).2
    ((∃ error, outcome = .error error) ↔ destination.length < needed ∨ source.length < needed) ∧
    (∀ error, outcome = .error error →
      (arithmetic ≠ .wrapping ∨ Arithmetic.Holds needed → after = destination) ∧
      (Arithmetic.Holds needed →
        error = .bufferSizeMismatch needed (min destination.length source.length))) ∧
    (outcome = .ok () → after.length = destination.length ∧
      (∀ index < count, elementAt type.size after index =
        type.combine reduction (elementAt type.size destination index)
          (elementAt type.size source index)) ∧
      ∀ position, needed ≤ position → after[position]? = destination[position]?) := by
  intro needed outcome after
  by_cases short : destination.length < needed ∨ source.length < needed
  · obtain ⟨error, failed⟩ : ∃ error, outcome = .error error := reduceInto_short fits short
    refine ⟨⟨fun _ => short, fun _ => ⟨error, failed⟩⟩, fun error fails => ⟨fun kept => ?_, ?_⟩, ?_⟩
    · by_cases holds : Arithmetic.Holds needed
      · exact congrArg Prod.snd (reduceInto_refused holds short)
      · exact congrArg Prod.snd (reduceInto_overflow (kept.resolve_right holds) holds)
    · intro holds
      exact Except.error.inj (fails.symm.trans (congrArg Prod.fst (reduceInto_refused holds short)))
    · intro succeeds
      cases failed.symm.trans succeeds
  · have inside : needed ≤ destination.length := Nat.le_of_not_lt (not_or.mp short).1
    have holds : Arithmetic.Holds needed := fits.holds.mono (by rwa [Nat.mul_one])
    have succeeded : outcome = _ := congrArg Prod.fst (reduceInto_eq holds short)
    have same : after = _ := congrArg Prod.snd (reduceInto_eq holds short)
    rw [succeeded, same]
    refine ⟨⟨?_, fun either => absurd either short⟩, ?_, fun _ => ⟨?_, ?_, ?_⟩⟩
    · rintro ⟨_, ⟨⟩⟩
    · rintro error ⟨⟩
    · exact length_reducedBefore inside
    · exact fun index earlier => elementAt_reducedBefore earlier
    · exact fun position behind => getElem?_reducedBefore behind

/-- Two integers and a byte that belongs to none. A source of one integer is refused. A count of
which no word holds the bytes is not reduced by any build, and one that goes on with the lower bits
has stored an element by then. -/
theorem reduceInto_elementwise_trailing :
    let destination : List UInt8 := [255, 0, 0, 0, 7, 0, 0, 0, 9]
    let source : List UInt8 := [1, 0, 0, 0, 254, 255, 255, 255]
    let stored := reduceInto .i32 .sum source 2 destination
    let refused := reduceInto .i32 .sum (source.take 4) 2 destination
    let lost := @reduceElements .wrapping .i32 .sum (source.take 4) destination [0, 1]
    stored.1 = .ok () ∧ stored.2 = [0, 1, 0, 0, 5, 0, 0, 0, 9] ∧
      elementAt 4 stored.2 1 = ElementType.combine .i32 .sum 7 0xFFFFFFFE ∧
      stored.2[8]? = some 9 ∧
      refused.1 = .error (.bufferSizeMismatch 8 4) ∧ refused.2 = destination ∧
      (∃ error, (@reduceInto .checked .i32 .sum source (powerOfTwo 62) destination).1 =
        .error error) ∧
      lost = (.error (.defect (.indexOutOfRange 8 4)), [0, 1, 0, 0, 7, 0, 0, 0, 9]) := by
  intro destination source stored refused lost
  obtain ⟨-, -, succeeds⟩ := reduceInto_elementwise .i32 .sum 2 destination source (.inl rfl)
  obtain ⟨fails, left, -⟩ :=
    reduceInto_elementwise .i32 .sum 2 destination (source.take 4) (.inl rfl)
  obtain ⟨-, elements, behind⟩ := succeeds rfl
  obtain ⟨error, failed⟩ := fails.mpr (.inr (by decide))
  obtain ⟨unchanged, named⟩ := left error failed
  obtain rfl := named (.inl rfl)
  have uncounted := (@reduceInto_elementwise .checked .i32 .sum (powerOfTwo 62) destination source
    (.inr (by decide))).1
  exact ⟨rfl, by decide, elements 1 (by decide), behind 8 (by decide), failed,
    unchanged (.inr (.inl rfl)), uncounted.mpr (.inl (by decide)), by decide⟩

/-- Empty buffers are not refused in any build for a count of which no word holds the bytes: one
build stops at the product, and one that goes on looks for the first element. -/
theorem reduceInto_elementwise_overflowing :
    let count := powerOfTwo 62
    reduceInto .f32 .sum [] count [] = (.error (.bufferSizeMismatch (powerOfTwo 64) 0), []) ∧
    @reduceInto .checked .f32 .sum [] count [] = (.error (.defect .overflow), []) ∧
    @reduceInto .wrapping .f32 .sum [] count [] =
      (.error (.defect (.indexOutOfRange 4 0)), []) := by
  intro count
  obtain ⟨fewer, counted⟩ : ∃ fewer, count = fewer + 1 := ⟨powerOfTwo 62 - 1, by decide⟩
  have lost : @Arithmetic.word .wrapping (count * ElementType.f32.size) = .ok 0 := by decide
  refine ⟨by decide, by decide, ?_⟩
  clear_value count
  unfold reduceInto
  rw [lost, counted, List.range_succ_eq_map]
  rfl

end CollectiveBench
