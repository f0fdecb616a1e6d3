import CollectiveBench.Proofs.Numeric.Widths
import CollectiveBench.Proofs.Outcomes
import CollectiveBench.Tensor.Bytes

/-!
# Tensors and their bytes

A word that fits its size is told by its bytes, and any bytes are those of a word. So the bytes of a
tensor whose words fit their type say all about it: reading them gives the tensor back
(`Tensor.ofBytes_bytes`), and what is read from bytes has these bytes (`Tensor.bytes_of_ofBytes`).
A range of words is one of bytes (`Tensor.bytes_of_slice`).
-/

namespace CollectiveBench

open Numeric

/-! ## Words -/

section

variable {size count word : Nat} {words : List Nat} {bytes : List UInt8}

/-- A word that fits is the one with its bytes. -/
theorem bytesWord_wordBytes (fits : word < 256 ^ size) :
    bytesWord (wordBytes size word) = word := by
  induction size generalizing word with
  | zero => exact (Nat.lt_one_iff.mp fits).symm
  | succ size inductionHypothesis =>
    have rest : word / 256 < 256 ^ size :=
      (Nat.div_lt_iff_lt_mul (by decide)).mpr (by rwa [← Nat.pow_succ])
    show (UInt8.ofNat word).toNat + 256 * bytesWord (wordBytes size (word / 256)) = word
    rw [inductionHypothesis rest, UInt8.toNat_ofNat']
    exact Nat.mod_add_div word 256

/-- A word with some bytes has no others. -/
theorem wordBytes_bytesWord (bytes : List UInt8) :
    wordBytes bytes.length (bytesWord bytes) = bytes := by
  induction bytes with
  | nil => rfl
  | cons byte bytes inductionHypothesis =>
    have bound := byte.toNat_lt
    have first : UInt8.ofNat (byte.toNat + 256 * bytesWord bytes) = byte := by
      refine UInt8.toNat_inj.mp ?_
      rw [UInt8.toNat_ofNat']
      omega
    have rest : (byte.toNat + 256 * bytesWord bytes) / 256 = bytesWord bytes := by omega
    show UInt8.ofNat (byte.toNat + 256 * bytesWord bytes) ::
      wordBytes bytes.length ((byte.toNat + 256 * bytesWord bytes) / 256) = byte :: bytes
    rw [first, rest, inductionHypothesis]

/-- The word of some bytes is below the power of 256 for their number. -/
theorem bytesWord_lt (bytes : List UInt8) : bytesWord bytes < 256 ^ bytes.length := by
  induction bytes with
  | nil => exact Nat.one_pos
  | cons byte bytes inductionHypothesis =>
    have bound := byte.toNat_lt
    show byte.toNat + 256 * bytesWord bytes < 256 ^ (bytes.length + 1)
    rw [Nat.pow_succ]
    omega

/-! ## Words in a row -/

/-- Words are read out of bytes only if they fit. -/
theorem bytesWords_lt (size count : Nat) (bytes : List UInt8) :
    ∀ word ∈ bytesWords size count bytes, word < 256 ^ size := by
  induction count generalizing bytes with
  | zero => exact List.forall_mem_nil _
  | succ count inductionHypothesis =>
    refine List.forall_mem_cons.mpr ⟨?_, inductionHypothesis _⟩
    exact Nat.lt_of_lt_of_le (bytesWord_lt _)
      (Nat.pow_le_pow_right (by decide) (List.length_take_le size bytes))

/-- Words that fit are read out of their bytes. -/
theorem bytesWords_flatMap (fit : ∀ word ∈ words, word < 256 ^ size) :
    bytesWords size words.length (words.flatMap (wordBytes size)) = words := by
  induction words with
  | nil => rfl
  | cons word words inductionHypothesis =>
    obtain ⟨first, rest⟩ := List.forall_mem_cons.mp fit
    rw [List.flatMap_cons, List.length_cons, bytesWords,
      List.take_left' (length_wordBytes size word),
      List.drop_left' (length_wordBytes size word), bytesWord_wordBytes first,
      inductionHypothesis rest]

/-- Bytes are those of the words that they are cut into. -/
theorem flatMap_bytesWords (whole : bytes.length = count * size) :
    (bytesWords size count bytes).flatMap (wordBytes size) = bytes := by
  induction count generalizing bytes with
  | zero =>
    rw [Nat.zero_mul] at whole
    exact (List.eq_nil_of_length_eq_zero whole).symm
  | succ count inductionHypothesis =>
    rw [Nat.succ_mul] at whole
    have first : (bytes.take size).length = size := List.length_take_of_le (by omega)
    have rest : (bytes.drop size).length = count * size := by rw [List.length_drop]; omega
    have word := wordBytes_bytesWord (bytes.take size)
    rw [first] at word
    rw [bytesWords, List.flatMap_cons, word, inductionHypothesis rest, List.take_append_drop]

/-- The bytes of the first words are the first bytes, and those of the others the others. -/
theorem flatMap_wordBytes_split (size : Nat) {words : List Nat} {count : Nat}
    (inside : count ≤ words.length) :
    (words.flatMap (wordBytes size)).take (count * size) =
        (words.take count).flatMap (wordBytes size) ∧
      (words.flatMap (wordBytes size)).drop (count * size) =
        (words.drop count).flatMap (wordBytes size) := by
  have parts : words.flatMap (wordBytes size) =
      (words.take count).flatMap (wordBytes size) ++
        (words.drop count).flatMap (wordBytes size) := by
    rw [← List.flatMap_append, List.take_append_drop]
  have length : ((words.take count).flatMap (wordBytes size)).length = count * size := by
    rw [length_flatMap_wordBytes, List.length_take, Nat.min_eq_left inside]
  rw [parts]
  exact ⟨List.take_left' length, List.drop_left' length⟩

end

/-! ## Tensors -/

/-- A word fits its type if it is one of as many bytes. -/
theorem ElementType.powerOfTwo_bits (type : ElementType) : powerOfTwo type.bits = 256 ^ type.size :=
  Nat.pow_mul 2 8 type.size

namespace Tensor

variable {tensor : Tensor} {type : ElementType}

/-- The words of a tensor are read out of its bytes. -/
theorem WellFormed.bytesWords (wellFormed : tensor.WellFormed) :
    CollectiveBench.bytesWords tensor.type.size tensor.count tensor.bytes = tensor.words :=
  bytesWords_flatMap fun word listed => tensor.type.powerOfTwo_bits ▸ wellFormed word listed

/-- A tensor is read out of its bytes. -/
theorem ofBytes_bytes (wellFormed : tensor.WellFormed) :
    ofBytes tensor.bytes tensor.type = .ok tensor := by
  have whole : tensor.bytes.length = tensor.count * tensor.type.size := tensor.length_bytes
  rw [ofBytes, whole, Nat.mul_mod_left, if_pos rfl, Nat.mul_div_cancel _ tensor.type.size_pos,
    wellFormed.bytesWords]

/-- A tensor that was read has words that fit, and the bytes that it was read out of. -/
theorem bytes_of_ofBytes {content : List UInt8} (read : ofBytes content type = .ok tensor) :
    tensor.WellFormed ∧ tensor.type = type ∧ tensor.bytes = content := by
  rw [ofBytes] at read
  split at read
  next whole =>
    obtain rfl := Except.ok.inj read
    refine ⟨fun word listed => ?_, rfl, flatMap_bytesWords ?_⟩
    · rw [type.powerOfTwo_bits]
      exact bytesWords_lt _ _ _ word listed
    · rw [Nat.div_mul_cancel (Nat.dvd_of_mod_eq_zero whole)]
  next => cases read

/-- The part of a tensor that was cut out has bytes that the tensor has, at their places. -/
theorem bytes_of_slice {tensor part : Tensor} {start length : Nat}
    (cut : tensor.slice start length = .ok part) :
    (start + length) * tensor.type.size ≤ tensor.bytes.length ∧
      part.bytes = (tensor.bytes.drop (start * tensor.type.size)).take
        (length * tensor.type.size) := by
  obtain ⟨within, rfl⟩ := slice_eq_ok_iff.mp cut
  have inside : start + length ≤ tensor.words.length := within
  constructor
  · rw [tensor.length_bytes]
    exact Nat.mul_le_mul_right _ inside
  · have dropped := (flatMap_wordBytes_split tensor.type.size
      (Nat.le_trans (Nat.le_add_right start length) inside)).2
    have rest : length ≤ (tensor.words.drop start).length := by
      rw [List.length_drop]
      omega
    rw [bytes, bytes, dropped]
    exact (flatMap_wordBytes_split tensor.type.size rest).1.symm

end Tensor

end CollectiveBench
