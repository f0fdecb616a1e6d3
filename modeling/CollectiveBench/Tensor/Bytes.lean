import CollectiveBench.Tensor.Basic

/-!
# Tensors as bytes

The bytes of a tensor are those of its elements in order, each least significant byte first.
A sequence of bytes is a tensor of a type when it holds a whole number of elements. Reading or
storing bytes where there are none is a defect.
-/

namespace CollectiveBench

/-- The `size` bytes of a word, least significant first. -/
def wordBytes : Nat → Nat → List UInt8
  | 0, _ => []
  | size + 1, word => UInt8.ofNat word :: wordBytes size (word / 256)

/-- The word with the given bytes, least significant first. -/
def bytesWord (bytes : List UInt8) : Nat :=
  bytes.foldr (fun byte rest => byte.toNat + 256 * rest) 0

/-- The words of the first `count` elements of `size` bytes. -/
def bytesWords (size : Nat) : Nat → List UInt8 → List Nat
  | 0, _ => []
  | count + 1, bytes => bytesWord (bytes.take size) :: bytesWords size count (bytes.drop size)

namespace Tensor

/-- The bytes of a tensor. -/
def bytes (tensor : Tensor) : List UInt8 := tensor.words.flatMap (wordBytes tensor.type.size)

/-- The tensor with the given bytes. -/
def ofBytes (bytes : List UInt8) (type : ElementType) : Outcome Tensor :=
  if bytes.length % type.size = 0 then
    .ok ⟨type, bytesWords type.size (bytes.length / type.size) bytes⟩
  else
    .error (.bufferSizeMismatch ((bytes.length / type.size + 1) * type.size) bytes.length)

end Tensor

/-- The bytes from `first` up to `last`, which must be there. -/
def bytesBetween (bytes : List UInt8) (first last : Nat) : Outcome (List UInt8) :=
  if last < first ∨ bytes.length < last then .error (.defect (.indexOutOfRange last bytes.length))
  else .ok ((bytes.drop first).take (last - first))

/-- The bytes with others in the place of those from `first` up to `last`, which must be there. -/
def storeBetween (bytes : List UInt8) (first last : Nat) (stored : List UInt8) :
    Outcome (List UInt8) :=
  if last < first ∨ bytes.length < last then .error (.defect (.indexOutOfRange last bytes.length))
  else .ok (bytes.take first ++ (stored ++ bytes.drop last))

/-- A word has exactly its number of bytes. -/
@[simp] theorem length_wordBytes (size word : Nat) : (wordBytes size word).length = size := by
  induction size generalizing word with
  | zero => rfl
  | succ size inductionHypothesis => simp [wordBytes, inductionHypothesis]

/-- Words of one size have that many bytes each. -/
theorem length_flatMap_wordBytes (size : Nat) (words : List Nat) :
    (words.flatMap (wordBytes size)).length = words.length * size := by
  induction words with
  | nil => simp
  | cons word words inductionHypothesis =>
    simp [inductionHypothesis, Nat.succ_mul, Nat.add_comm]

/-- The bytes of a tensor are a whole number of elements. -/
theorem Tensor.length_bytes (tensor : Tensor) : tensor.bytes.length = tensor.byteCount :=
  length_flatMap_wordBytes tensor.type.size tensor.words

end CollectiveBench
