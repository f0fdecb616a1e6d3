import Mathlib.Data.List.Nodup
import CollectiveBench.Proofs.Delivery.Delivered

/-!
# Chunks of a reduction

A reduction of tensors of one type and size folds their words place by place. Nothing is assumed
of how two words become one: a chunk of the reduction is the reduction of the chunks because no
word ever meets a word of another place (`chunkAt_reduceWords`), in the order of the ranks in
either case. Chunks of one size that follow on each other make up the whole
(`flatMap_chunkAt`).
-/

namespace CollectiveBench

/-- The words of several tensors of one type, reduced from left to right. -/
def reduceWords (type : ElementType) (reduction : Reduction) : List (List Nat) → List Nat
  | [] => []
  | first :: rest => rest.foldl (List.zipWith (type.combine reduction)) first

/-- The places of different ranks, in their order. -/
theorem map_idxOf {ranks : List Nat} (distinct : ranks.Nodup) :
    ranks.map ranks.idxOf = List.range ranks.length := by
  apply List.ext_getElem (by simp)
  intro place inside _
  simp [distinct.idxOf_getElem]

/-- The chunk at a place of some words. -/
def chunkAt (size : Nat) (words : List Nat) (place : Nat) : List Nat :=
  (words.drop (place * size)).take size

/-- A chunk that lies within the words has its size. -/
theorem length_chunkAt {size place count : Nat} {words : List Nat}
    (length : words.length = count * size) (inside : place < count) :
    (chunkAt size words place).length = size := by
  have within : (place + 1) * size ≤ count * size := Nat.mul_le_mul_right size inside
  rw [Nat.succ_mul] at within
  rw [chunkAt, List.length_take, List.length_drop, length]
  omega

/-- The first chunks are the beginning of the words. -/
theorem flatMap_chunkAt_range (size : Nat) (words : List Nat) (count : Nat) :
    (List.range count).flatMap (chunkAt size words) = words.take (count * size) := by
  induction count with
  | zero => simp
  | succ count inductionHypothesis =>
    rw [List.range_succ, List.flatMap_append, inductionHypothesis, Nat.succ_mul, List.take_add]
    simp [chunkAt]

/-- All chunks in order are the words. -/
theorem flatMap_chunkAt {size count : Nat} {words : List Nat}
    (length : words.length = count * size) :
    (List.range count).flatMap (chunkAt size words) = words := by
  rw [flatMap_chunkAt_range, ← length, List.take_length]

/-- Reducing pairs keeps the size. -/
theorem length_foldl_zipWith (combine : Nat → Nat → Nat) {size : Nat} (rest : List (List Nat))
    (sizes : ∀ words ∈ rest, words.length = size) {first : List Nat}
    (length : first.length = size) :
    (rest.foldl (List.zipWith combine) first).length = size := by
  induction rest generalizing first with
  | nil => exact length
  | cons next others inductionHypothesis =>
    rw [List.foldl_cons]
    apply inductionHypothesis fun words member => sizes words (List.mem_cons_of_mem _ member)
    rw [List.length_zipWith, length, sizes next List.mem_cons_self, Nat.min_self]

/-- A reduction has the size of what is reduced. -/
theorem length_reduceWords (type : ElementType) (reduction : Reduction) {size : Nat}
    {lists : List (List Nat)} (sizes : ∀ words ∈ lists, words.length = size) (some : lists ≠ []) :
    (reduceWords type reduction lists).length = size := by
  cases lists with
  | nil => exact absurd rfl some
  | cons first rest =>
    exact length_foldl_zipWith _ rest
      (fun words member => sizes words (List.mem_cons_of_mem _ member))
      (sizes first List.mem_cons_self)

/-- A chunk of a reduction is the reduction of the chunks. -/
theorem chunkAt_reduceWords (type : ElementType) (reduction : Reduction) (size place : Nat)
    (lists : List (List Nat)) :
    chunkAt size (reduceWords type reduction lists) place =
      reduceWords type reduction (lists.map (chunkAt size · place)) := by
  cases lists with
  | nil => simp [reduceWords, chunkAt]
  | cons first rest =>
    simp only [reduceWords, List.map_cons]
    induction rest generalizing first with
    | nil => rfl
    | cons next others inductionHypothesis =>
      rw [List.foldl_cons, inductionHypothesis, List.map_cons, List.foldl_cons]
      congr 1
      rw [chunkAt, List.drop_zipWith, List.take_zipWith]
      rfl

/-- Tensors of one type and size reduce without failing. -/
theorem Tensor.reduceWith_eq {type : ElementType} {words others : List Nat}
    (sizes : words.length = others.length) (reduction : Reduction) :
    Tensor.reduceWith ⟨type, words⟩ ⟨type, others⟩ reduction =
      .ok ⟨type, List.zipWith (type.combine reduction) words others⟩ := by
  simp [reduceWith, checkCompatible, count, sizes, bind, Except.bind, pure, Except.pure]

/-- What is fetched from each entry is reduced in the order of the entries. -/
theorem reduceAll_eq {α : Type} {fetch : α → Outcome Tensor} {words : α → List Nat}
    {type : ElementType} {size : Nat} {entries : List α}
    (fetched : ∀ entry ∈ entries, fetch entry = .ok ⟨type, words entry⟩)
    (sizes : ∀ entry ∈ entries, (words entry).length = size) (some : entries ≠ [])
    (reduction : Reduction) :
    reduceAll fetch reduction entries =
      .ok ⟨type, reduceWords type reduction (entries.map words)⟩ := by
  have fold (rest : List α) (within : ∀ entry ∈ rest, entry ∈ entries) (so : List Nat)
      (length : so.length = size) :
      rest.foldlM (fun total next => do Tensor.reduceWith total (← fetch next) reduction)
          (⟨type, so⟩ : Tensor) =
        .ok ⟨type, (rest.map words).foldl (List.zipWith (type.combine reduction)) so⟩ := by
    induction rest generalizing so with
    | nil => rfl
    | cons next others inductionHypothesis =>
      have here := within next List.mem_cons_self
      have equal : so.length = (words next).length := length.trans (sizes next here).symm
      simp only [List.foldlM_cons, fetched next here, bind, Except.bind,
        Tensor.reduceWith_eq equal, List.map_cons, List.foldl_cons]
      apply inductionHypothesis (fun entry member => within entry (List.mem_cons_of_mem _ member))
      rw [List.length_zipWith, ← equal, length, Nat.min_self]
  cases entries with
  | nil => exact absurd rfl some
  | cons first rest =>
    simp only [reduceAll, fetched first List.mem_cons_self, bind, Except.bind]
    exact fold rest (fun entry member => List.mem_cons_of_mem _ member) _
      (sizes first List.mem_cons_self)

/-- Reducing what is fetched from images is fetching through the images. -/
theorem reduceAll_map {α β : Type} (fetch : β → Outcome Tensor) (image : α → β)
    (reduction : Reduction) (entries : List α) :
    reduceAll fetch reduction (entries.map image) =
      reduceAll (fun entry => fetch (image entry)) reduction entries := by
  cases entries with
  | nil => rfl
  | cons first rest => simp only [List.map_cons, reduceAll, List.foldlM_map]

end CollectiveBench
