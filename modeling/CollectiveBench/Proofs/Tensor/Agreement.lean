import CollectiveBench.Proofs.Tensor.Buffers

/-!
# Tensors agree with their buffers

A tensor is a view of a buffer: its words are the elements of the bytes. Every operation on words
gives the view of what the operation on bytes gives, as long as there can be buffers of the sizes
that are asked for. So what is proved of the words of tensors holds of the bytes that travel.
-/

namespace CollectiveBench

open Numeric

namespace Tensor

/-- What is left of the buffer of a tensor that was to be changed: the bytes of the changed tensor,
or those from before if that failed. -/
def settled (tensor : Tensor) : Outcome Tensor → Outcome Unit × Buffer
  | .ok changed => (.ok (), changed.buffer)
  | .error error => (.error error, tensor.buffer)

section

variable {tensor other : Tensor} {type : ElementType} {index : Nat}

/-- The bytes of a tensor have its type. -/
@[simp] theorem type_buffer (tensor : Tensor) : tensor.buffer.type = tensor.type := rfl

/-- A tensor has as many bytes as it counts. -/
@[simp] theorem length_buffer (tensor : Tensor) : tensor.buffer.data.length = tensor.byteCount :=
  tensor.length_bytes

/-- A tensor has as many elements as its buffer. -/
@[simp] theorem count_buffer (tensor : Tensor) : tensor.buffer.count = tensor.count := by
  rw [Buffer.count, length_buffer, type_buffer, byteCount,
    Nat.mul_div_cancel _ tensor.type.size_pos]

/-- The elements of the buffer are the words. -/
theorem elementAt_buffer (wellFormed : tensor.WellFormed) {word : Nat}
    (there : tensor.words[index]? = some word) :
    elementAt tensor.type.size tensor.bytes index = word :=
  elementAt_flatMap (fun word listed => tensor.type.powerOfTwo_bits ▸ wellFormed word listed) there

/-- Bytes that are a tensor are a buffer. -/
theorem buffer_ofBytes (data : List UInt8) (type : ElementType) :
    Buffer.ofBytes data type = (ofBytes data type).map buffer := by
  rw [Buffer.ofBytes, ofBytes]
  split
  next whole =>
    have bytes := flatMap_bytesWords (Nat.div_mul_cancel (Nat.dvd_of_mod_eq_zero whole)).symm
    exact congrArg (fun data => Except.ok (Buffer.mk type data)) bytes.symm
  next => rfl

/-- Equal words in a row have equal bytes in a row. -/
theorem bytes_replicate (count word : Nat) (type : ElementType) :
    bytes ⟨type, List.replicate count word⟩ =
      (List.replicate count (wordBytes type.size word)).flatten := by
  rw [bytes, List.flatMap_def, List.map_replicate]

/-- A filled tensor is a filled buffer. -/
theorem buffer_fill [Halves] (tensor : Tensor) (value : Scalar) :
    tensor.buffer.fill value = (tensor.fill value).buffer := by
  -- A tensor has no bytes behind its last element, which a fill would leave.
  have behind : tensor.bytes.drop (tensor.count * tensor.type.size) = [] :=
    List.drop_of_length_le (Nat.le_of_eq tensor.length_bytes)
  rw [Buffer.fill, count_buffer, type_buffer]
  show Buffer.mk _ (_ ++ tensor.bytes.drop _) = Buffer.mk _ _
  rw [behind, List.append_nil, ← bytes_replicate]
  rfl

/-- Zeros are zero bytes. -/
theorem bytes_zeros (count : Nat) (type : ElementType) :
    (zeros count type).bytes = List.replicate (count * type.size) 0 := by
  have zero (size : Nat) : wordBytes size 0 = List.replicate size 0 := by
    induction size with
    | zero => rfl
    | succ size inductionHypothesis =>
      rw [List.replicate_succ, ← inductionHypothesis]
      rfl
  rw [zeros, bytes_replicate, zero, List.flatten_replicate_replicate]

/-- Tensors are compatible if their buffers are. -/
theorem checkCompatible_buffer (tensor other : Tensor) :
    tensor.buffer.checkCompatible other.buffer = tensor.checkCompatible other := by
  rw [Buffer.checkCompatible, checkCompatible, length_buffer, length_buffer, count_buffer,
    count_buffer,
    type_buffer, type_buffer]
  split
  next => rfl
  next same =>
    have lengths : tensor.byteCount ≠ other.byteCount ↔ tensor.count ≠ other.count := by
      rw [byteCount, byteCount, ← not_not.mp same]
      exact not_congr (Nat.mul_left_inj tensor.type.size_pos.ne')
    simp only [lengths]

/-- A copy of a tensor is one of its buffer. -/
theorem buffer_copyFrom (tensor source : Tensor) :
    tensor.buffer.copyFrom source.buffer = tensor.settled (tensor.copyFrom source) := by
  rw [Buffer.copyFrom, checkCompatible_buffer, copyFrom]
  cases checked : tensor.checkCompatible source with
  | error error => rfl
  | ok done =>
    obtain ⟨types, -⟩ := (checkCompatible_eq_ok_iff tensor source).mp checked
    show (_, Buffer.mk tensor.type source.bytes) =
      (_, Buffer.mk tensor.type (bytes ⟨tensor.type, source.words⟩))
    rw [types]

end

section

variable [Arithmetic] {tensor other : Tensor} {type : ElementType} {parts : List Tensor}
  {index count : Nat}

/-- The buffer of a tensor that there can be is sound. -/
theorem sound_buffer (fits : Arithmetic.Allots tensor.byteCount 1) : tensor.buffer.Sound :=
  ⟨by rw [Buffer.Whole, length_buffer, count_buffer]; rfl, by rwa [length_buffer]⟩

/-- New zeros are a tensor of zeros. -/
theorem buffer_zeros (allots : Arithmetic.Allots count type.size) :
    Buffer.zeros count type = .ok (zeros count type).buffer :=
  bind_eq_of_eq_ok (Arithmetic.room_of_allots allots)
    (congrArg (fun data => Except.ok (Buffer.mk type data)) (bytes_zeros count type).symm)

/-- New equal elements are a tensor of them. -/
theorem buffer_full [Halves] (allots : Arithmetic.Allots count type.size) (value : Scalar) :
    Buffer.full count type value = .ok (full count type value).buffer := by
  refine bind_eq_of_eq_ok (buffer_zeros allots) (congrArg Except.ok ?_)
  rw [buffer_fill, fill, zeros]
  simp [Tensor.count]

/-- An element that is stored is a word. -/
theorem buffer_set [Halves] (fits : Arithmetic.Allots tensor.byteCount 1)
    (inside : index < tensor.count)
    (value : Scalar) :
    tensor.buffer.set index value =
      (.ok (), buffer ⟨tensor.type, tensor.words.set index (tensor.type.encode value)⟩) := by
  have sound := tensor.sound_buffer fits
  rw [Buffer.set, Buffer.stored_eq sound (by rwa [count_buffer])]
  refine congrArg (fun data => (Except.ok (), Buffer.mk tensor.type data)) ?_
  have inWords : index < tensor.words.length := inside
  have split := flatMap_wordBytes_split tensor.type.size (Nat.le_of_succ_le inWords)
  have behind := flatMap_wordBytes_split tensor.type.size inWords
  show storeAt tensor.type.size tensor.bytes index _ = List.flatMap _ (tensor.words.set index _)
  rw [storeAt, bytes, split.1, behind.2, List.set_eq_take_append_cons_drop, if_pos inWords,
    List.flatMap_append, List.flatMap_cons]
  rfl

/-- An element that is read is a word. -/
theorem buffer_get (wellFormed : tensor.WellFormed) (fits : Arithmetic.Allots tensor.byteCount 1)
    (inside : index < tensor.count) : tensor.buffer.get index = tensor.get index := by
  obtain ⟨word, there⟩ : ∃ word, tensor.words[index]? = some word :=
    ⟨_, List.getElem?_eq_getElem inside⟩
  rw [Buffer.get_eq (sound_buffer fits) (by rwa [count_buffer]), get, there]
  exact congrArg (fun word => Except.ok (tensor.type.decode word))
    (elementAt_buffer wellFormed there)

/-- Values that are stored one after the other are words in order. The induction is on those that
are left; the words before them are stored. -/
theorem buffer_ofValues [Halves] {values : List Scalar}
    (allots : Arithmetic.Allots values.length type.size) :
    Buffer.ofValues values type = .ok (ofValues values type).buffer := by
  have onward (words : List Nat) (rest : List Scalar)
      (fits : Arithmetic.Allots (words.length + rest.length) type.size) :
      (buffer ⟨type, words ++ List.replicate rest.length 0⟩).setFrom words.length rest =
        (.ok (), buffer ⟨type, words ++ rest.map type.encode⟩) := by
    induction rest generalizing words with
    | nil => rfl
    | cons value rest inductionHypothesis =>
      have stored : (buffer ⟨type, words ++ List.replicate (rest.length + 1) 0⟩).set
        words.length value =
          (.ok (), buffer ⟨type, (words ++ List.replicate (rest.length + 1) 0).set words.length
            (type.encode value)⟩) :=
        buffer_set (by simpa [byteCount, Tensor.count, Arithmetic.Allots] using fits)
          (by simp [Tensor.count]) value
      have next : (words ++ List.replicate (rest.length + 1) 0).set words.length
        (type.encode value) =
          (words ++ [type.encode value]) ++ List.replicate rest.length 0 := by
        simp [List.replicate_succ]
      rw [List.length_cons, Buffer.setFrom, stored]
      show Buffer.setFrom (buffer ⟨type, List.set _ _ _⟩) (words.length + 1) rest = _
      rw [next]
      have rested := inductionHypothesis (words ++ [type.encode value])
        (by rwa [List.length_append, List.length_singleton, Nat.add_assoc, Nat.add_comm 1])
      simpa using rested
  have stored := onward [] values (by simpa using allots)
  refine bind_eq_of_eq_ok (buffer_zeros allots) ?_
  have begun : (zeros values.length type).buffer.setFrom 0 values =
      (.ok (), buffer ⟨type, values.map type.encode⟩) := stored
  rw [begun]
  rfl

/-- A range of words is one of bytes, also where the build has lost a part of the range. -/
theorem buffer_slice (tensor : Tensor) (start length : Nat) :
    tensor.buffer.slice start length = (tensor.slice start length).map buffer := by
  rw [Buffer.slice, slice, length_buffer, type_buffer]
  cases ranged : Arithmetic.span tensor.byteCount tensor.type.size start length with
  | error error => rfl
  | ok range =>
    obtain ⟨first, last⟩ := range
    obtain ⟨⟨⟨start, rfl⟩, stop, rfl⟩, ordered, inside⟩ :=
      Arithmetic.of_span tensor.type.size_dvd_wordLimit ranged
    have sized := tensor.type.size_pos
    have within : stop ≤ tensor.words.length := by
      rw [byteCount, Nat.mul_comm] at inside
      exact Nat.le_of_mul_le_mul_right inside sized
    have least : start ≤ stop := Nat.le_of_mul_le_mul_left ordered sized
    have dropped := (flatMap_wordBytes_split tensor.type.size (Nat.le_trans least within)).2
    have rest : stop - start ≤ (tensor.words.drop start).length := by
      rw [List.length_drop]
      omega
    have taken := (flatMap_wordBytes_split tensor.type.size rest).1
    have bytes : (tensor.bytes.drop (tensor.type.size * start)).take
        (tensor.type.size * stop - tensor.type.size * start) =
          ((tensor.words.drop start).take (stop - start)).flatMap (wordBytes tensor.type.size) := by
      rw [← Nat.mul_sub, Nat.mul_comm _ start, Nat.mul_comm _ (stop - start), Tensor.bytes,
        dropped, taken]
    show Except.ok (Buffer.mk tensor.type _) = Except.ok (buffer ⟨tensor.type, _⟩)
    rw [Nat.mul_div_cancel_left _ sized, ← Nat.mul_sub, Nat.mul_div_cancel_left _ sized,
      Nat.mul_sub]
    exact congrArg (fun data => Except.ok (Buffer.mk tensor.type data)) bytes

/-- Tensors are joined as their buffers are. The induction is on the parts that are left; the bytes
of those before them are joined. -/
theorem buffer_concat (fits : Arithmetic.Allots (total (parts.map byteCount)) 1) :
    Buffer.concat (parts.map buffer) type = (concat parts type).map buffer := by
  have onward (data : List UInt8)
      (fits : Arithmetic.Allots (data.length + total (parts.map byteCount)) 1) :
      (parts.map buffer).foldlM (Buffer.extend type) data =
        (parts.find? (·.type ≠ type)).elim (.ok (data ++ parts.flatMap bytes)) fun part =>
          .error (.unsupportedElementType part.type "concat") := by
    induction parts generalizing data with
    | nil => exact congrArg Except.ok (List.append_nil data).symm
    | cons part parts inductionHypothesis =>
      rw [List.map_cons, total_cons, ← Nat.add_assoc] at fits
      rw [List.map_cons, List.foldlM_cons, Buffer.extend, type_buffer]
      by_cases same : part.type = type
      · have skipped : (part :: parts).find? (·.type ≠ type) = parts.find? (·.type ≠ type) := by
          simp [same]
        have further := inductionHypothesis (fits.mono (by omega)) (data ++ part.bytes)
          (by rwa [List.length_append, part.length_bytes])
        rw [if_neg (not_not.mpr same), length_buffer,
          Arithmetic.room_of_allots (fits.mono (Nat.le_add_right _ _)), skipped, List.flatMap_cons,
          ← List.append_assoc]
        exact further
      · have found : (part :: parts).find? (·.type ≠ type) = some part := by simp [same]
        rw [if_pos same, found]
        rfl
  have lengths : (parts.map buffer).map (·.data.length) = parts.map byteCount := by simp
  rw [Buffer.concat, lengths, Arithmetic.room_of_allots fits, concat]
  show (_ >>= _ : Outcome Buffer) = _
  rw [onward [] (by rwa [List.length_nil, Nat.zero_add])]
  cases mixed : parts.find? (·.type ≠ type) with
  | some part => rfl
  | none =>
    have types (part : Tensor) (listed : part ∈ parts) : part.type = type := by
      simpa using List.find?_eq_none.mp mixed part listed
    refine congrArg (fun data => Except.ok (Buffer.mk type data)) ?_
    rw [List.nil_append, bytes, List.flatMap_assoc]
    exact List.flatMap_congr fun part listed => by rw [bytes, types part listed]

/-- What tensors reduce to has the bytes that their buffers reduce to. -/
theorem buffer_reduceWith (fits : Arithmetic.Allots tensor.byteCount 1)
    (wellFormed : tensor.WellFormed) (otherWellFormed : other.WellFormed) (reduction : Reduction) :
    tensor.buffer.reduceWith other.buffer reduction =
      tensor.settled (tensor.reduceWith other reduction) := by
  rw [Buffer.reduceWith, checkCompatible_buffer, reduceWith]
  cases checked : tensor.checkCompatible other with
  | error error => rfl
  | ok done =>
    obtain ⟨types, counts⟩ := (checkCompatible_eq_ok_iff tensor other).mp checked
    have length : tensor.bytes.length = tensor.count * tensor.type.size := tensor.length_bytes
    have otherLength : other.bytes.length = tensor.count * tensor.type.size := by
      rw [types, counts]
      exact other.length_bytes
    have otherWords : bytesWords tensor.type.size tensor.count other.bytes = other.words := by
      rw [types, counts]
      exact otherWellFormed.bytesWords
    have holds : Arithmetic.Holds (tensor.count * tensor.type.size) := by
      have held := fits.holds
      rwa [Nat.mul_one] at held
    have words : (List.range tensor.count).map
        (reducedWord tensor.type reduction other.bytes tensor.bytes) =
          List.zipWith (tensor.type.combine reduction) tensor.words other.words := by
      rw [← wellFormed.bytesWords, ← otherWords, bytesWords_eq_map, bytesWords_eq_map,
        List.zipWith_map, List.zipWith_self]
      rfl
    have reduced : reduceInto tensor.type reduction other.bytes tensor.count tensor.bytes =
        (.ok (), (List.zipWith (tensor.type.combine reduction) tensor.words other.words).flatMap
          (wordBytes tensor.type.size)) := by
      rw [reduceInto_eq holds (by omega), reducedBefore, words,
        List.drop_of_length_le (Nat.le_of_eq length), List.append_nil]
    rw [count_buffer]
    exact congrArg (fun result => (result.1, Buffer.mk tensor.type result.2)) reduced

/-- What makes, reads, cuts, joins or changes tensors does the same to their buffers, in every build
that has room for them. -/
theorem operations_agree [Halves] :
    (∀ count type, Arithmetic.Allots count type.size →
      Buffer.zeros count type = .ok (zeros count type).buffer ∧
      ∀ value, Buffer.full count type value = .ok (full count type value).buffer) ∧
    (∀ values type, Arithmetic.Allots values.length type.size →
      Buffer.ofValues values type = .ok (ofValues values type).buffer) ∧
    (∀ data type, Buffer.ofBytes data type = (ofBytes data type).map buffer) ∧
    (∀ parts type, Arithmetic.Allots (total (parts.map byteCount)) 1 →
      Buffer.concat (parts.map buffer) type = (concat parts type).map buffer) ∧
    ∀ tensor : Tensor,
      (∀ start length, tensor.buffer.slice start length = (tensor.slice start length).map buffer) ∧
      (∀ value, tensor.buffer.fill value = (tensor.fill value).buffer) ∧
      (∀ source, tensor.buffer.copyFrom source.buffer = tensor.settled (tensor.copyFrom source)) ∧
      (Arithmetic.Allots tensor.byteCount 1 → tensor.WellFormed →
        (∀ index < tensor.count, tensor.buffer.get index = tensor.get index ∧
          ∀ value, tensor.buffer.set index value = tensor.settled (tensor.set index value)) ∧
        ∀ other : Tensor, other.WellFormed → ∀ reduction,
          tensor.buffer.reduceWith other.buffer reduction =
            tensor.settled (tensor.reduceWith other reduction)) := by
  refine ⟨fun count type allots => ⟨buffer_zeros allots, buffer_full allots⟩,
    fun values type allots => buffer_ofValues allots, buffer_ofBytes,
    fun parts type fits => buffer_concat fits, fun tensor => ⟨tensor.buffer_slice,
      tensor.buffer_fill, tensor.buffer_copyFrom, fun fits wellFormed =>
      ⟨fun index inside => ⟨buffer_get wellFormed fits inside, fun value => ?_⟩,
        fun other otherWellFormed => buffer_reduceWith fits wellFormed otherWellFormed⟩⟩⟩
  rw [buffer_set fits inside value, set, if_pos inside]
  rfl

end

end Tensor

end CollectiveBench
