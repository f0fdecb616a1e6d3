import CollectiveBench.Sweep
import Mathlib.Order.Bounds.Basic

/-!
# The first size of a sweep

The first size is raised where a message of it would leave a rank without the elements that it is
promised. Whether it does is found out by dividing twice, by the size of an element and by the
number of ranks, and the second question is asked of what the first one may have raised. Both are
comparisons with a product in truth (`suffices_iff`), so the raised size is the larger one of what
was given and what is needed (`firstSize_eq`), and no smaller size would do (`firstSize_least`).
-/

namespace CollectiveBench

namespace Sweep

variable {operation : Operation} {size worldSize bitwidth quantDim message : Nat}

/-! ## What is needed -/

/-- The elements that every message of a sweep needs: one for each rank if the message is cut into
chunks, or as many as the quantised dimension asks for, and one in all for reductions. -/
def needed (operation : Operation) (worldSize bitwidth quantDim : Nat) : Nat :=
  if operation.isSplit then (if bitwidth < 32 then max 1 quantDim else 1) * worldSize
  else if operation = .allReduce ∨ operation = .reduce then 1
  else 0

/-- What a message that is cut into chunks needs is a whole number of elements for each rank. -/
theorem dvd_needed (split : operation.isSplit) :
    worldSize ∣ needed operation worldSize bitwidth quantDim := by
  rw [needed, if_pos split]
  exact Nat.dvd_mul_left worldSize _

/-- What a message that is cut into chunks needs is an element for each rank, and as many as the
quantised dimension asks for. -/
theorem le_needed_split (split : operation.isSplit) :
    worldSize ≤ needed operation worldSize bitwidth quantDim ∧
      (bitwidth < 32 → quantDim * worldSize ≤ needed operation worldSize bitwidth quantDim) := by
  rw [needed, if_pos split]
  by_cases quantized : bitwidth < 32
  · rw [if_pos quantized]
    exact ⟨Nat.le_mul_of_pos_left _ (by omega), fun _ => Nat.mul_le_mul_right _ (by omega)⟩
  · rw [if_neg quantized, Nat.one_mul]
    exact ⟨Nat.le_refl _, fun narrow => absurd narrow quantized⟩

/-- The message of a reduction needs an element. -/
theorem needed_reduction (reduces : operation = .allReduce ∨ operation = .reduce) :
    needed operation worldSize bitwidth quantDim = 1 := by
  rcases reduces with rfl | rfl <;> rfl

/-- The bytes that are needed, operation by operation. -/
theorem needed_mul_size : needed operation worldSize bitwidth quantDim * size =
    if operation.isSplit then
      if bitwidth < 32 then max (worldSize * size)
        (quantDim * worldSize * size) else worldSize * size
    else if operation = .allReduce ∨ operation = .reduce then size
    else 0 := by
  rw [needed]
  split_ifs
  · rw [← Nat.mul_max_mul_right, ← Nat.mul_max_mul_right, Nat.one_mul]
  · rw [Nat.one_mul]
  · exact Nat.one_mul size
  · exact Nat.zero_mul size

/-- The first size is raised to what the elements that are needed take, and not beyond. -/
theorem firstSize_eq (first : Nat) (something : 0 < size) (inhabited : 0 < worldSize) :
    firstSize first operation size worldSize bitwidth quantDim =
      .ok (max first (needed operation worldSize bitwidth quantDim * size)) := by
  rw [needed_mul_size]
  cases split : operation.isSplit with
  | true =>
    have raised : (if first / size < worldSize then worldSize * size else first) =
        max first (worldSize * size) := by
      simp only [Nat.div_lt_iff_lt_mul something]
      split <;> omega
    have lacks (message : Nat) :
        message / size / max worldSize 1 < quantDim ↔ message < quantDim * worldSize * size := by
      rw [Nat.max_eq_left inhabited, Nat.div_lt_iff_lt_mul inhabited,
        Nat.div_lt_iff_lt_mul something]
    simp only [firstSize, split, if_true, Nat.ne_of_gt something, if_false, raised, lacks]
    by_cases quantized : bitwidth < 32
    · simp only [quantized, true_and, if_true]
      split <;> congr 1 <;> omega
    · simp only [quantized, false_and, if_false]
  | false =>
    simp only [firstSize, split, Bool.false_eq_true, if_false]
    by_cases reduces : operation = .allReduce ∨ operation = .reduce
    · simp only [reduces, true_and, if_true]
      split <;> congr 1 <;> omega
    · simp only [reduces, false_and, if_false, Nat.max_zero]

/-! ## What is promised -/

/-- The whole elements of a message that a rank is served with: those of its chunk if the message is
cut into chunks, and otherwise all of them. -/
def elementsEach (operation : Operation) (size worldSize message : Nat) : Nat :=
  if operation.isSplit then message / size / worldSize else message / size

/-- The elements that every rank is promised: one, or as many as the quantised dimension asks for,
where a message is cut into chunks, and one in reductions. -/
def promised (operation : Operation) (bitwidth quantDim : Nat) : Nat :=
  if operation.isSplit then if bitwidth < 32 then max 1 quantDim else 1
  else if operation = .allReduce ∨ operation = .reduce then 1
  else 0

/-- A message serves every rank with what it is promised. -/
def Suffices (operation : Operation) (size worldSize bitwidth quantDim message : Nat) : Prop :=
  promised operation bitwidth quantDim ≤ elementsEach operation size worldSize message

instance : Decidable (Suffices operation size worldSize bitwidth quantDim message) :=
  inferInstanceAs (Decidable (_ ≤ _))

/-- Dividing by the size of an element and by the number of ranks compares with a product: a message
suffices exactly if what is needed fits into it. -/
theorem suffices_iff (something : 0 < size) (inhabited : 0 < worldSize) :
    Suffices operation size worldSize bitwidth quantDim message ↔
      needed operation worldSize bitwidth quantDim * size ≤ message := by
  rw [Suffices, elementsEach, promised, needed]
  by_cases split : operation.isSplit
  · simp only [split, if_true]
    rw [Nat.le_div_iff_mul_le inhabited, Nat.le_div_iff_mul_le something]
  · simp only [split]
    exact Nat.le_div_iff_mul_le something

/-- The larger one of what is given and what is needed suffices, and everything from the given one
on that suffices is no smaller. -/
theorem isLeast_suffices (something : 0 < size) (inhabited : 0 < worldSize) (first : Nat) :
    IsLeast {message | first ≤ message ∧
        Suffices operation size worldSize bitwidth quantDim message}
      (max first (needed operation worldSize bitwidth quantDim * size)) := by
  constructor
  · exact ⟨Nat.le_max_left _ _, (suffices_iff something inhabited).mpr (Nat.le_max_right _ _)⟩
  · rintro message ⟨later, enough⟩
    exact Nat.max_le.mpr ⟨later, (suffices_iff something inhabited).mp enough⟩

/-- The first size is raised to the bytes of an element for each rank where messages are cut into
chunks, and of as many elements as the quantised dimension asks for if they are quantised too; to
the bytes of one element for reductions; and not at all for other operations. It is the least size
from the given one on that serves every rank with what it is promised. A larger size is not raised
to a smaller one, and what was raised is not raised again. -/
theorem firstSize_least (operation : Operation) {size worldSize : Nat} (something : 0 < size)
    (inhabited : 0 < worldSize) (bitwidth quantDim : Nat) :
    let raise (first : Nat) : Nat :=
      if operation.isSplit then
        if bitwidth < 32 then max first (max (worldSize * size) (quantDim * worldSize * size))
        else max first (worldSize * size)
      else if operation = .allReduce ∨ operation = .reduce then max first size
      else first
    (∀ first, firstSize first operation size worldSize bitwidth quantDim = .ok (raise first)) ∧
    (∀ first, IsLeast {message | first ≤ message ∧
      Suffices operation size worldSize bitwidth quantDim message} (raise first)) ∧
    Monotone raise ∧
    ∀ first, raise (raise first) = raise first := by
  intro raise
  have raised (first : Nat) :
      raise first = max first (needed operation worldSize bitwidth quantDim * size) := by
    rw [needed_mul_size]
    simp only [raise]
    split_ifs <;> simp
  refine ⟨fun first => ?_, fun first => ?_, ?_, fun first => ?_⟩
  · rw [raised, firstSize_eq first something inhabited]
  · rw [raised]
    exact isLeast_suffices something inhabited first
  · intro first later ordered
    rw [raised, raised]
    omega
  · rw [raised, raised]
    omega

/-- Three ranks with elements of four bytes, and a quantised dimension of two. What is given holds
an element for each rank already, and two for each take 24 bytes. A size beyond is left alone, even
if it is no whole number of elements. -/
theorem firstSize_least_quantized :
    firstSize 14 .allToAll 4 3 8 2 = .ok 24 ∧ ¬ Suffices .allToAll 4 3 8 2 23 ∧
      IsLeast {message | 14 ≤ message ∧ Suffices .allToAll 4 3 8 2 message} 24 ∧
      firstSize 27 .allToAll 4 3 8 2 = .ok 27 := by
  obtain ⟨raised, least, -, -⟩ := firstSize_least .allToAll (show 0 < 4 by decide)
    (show 0 < 3 by decide) 8 2
  exact ⟨raised 14, by decide, least 14, raised 27⟩

end Sweep

end CollectiveBench
