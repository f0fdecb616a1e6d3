import CollectiveBench.Proofs.Delivery.Shapes
import CollectiveBench.Proofs.Numeric.Integers

/-!
# Exact reductions of tensors

Tensors of integers or of truth values are reduced place by place to the words of what the elements
there reduce to exactly. So it does not matter in which order the tensors are reduced.
-/

namespace CollectiveBench

/-- The tensor has a type and a length, and every element is one that the type may have. -/
structure Tensor.IsProper (type : ElementType) (size : Nat) (tensor : Tensor) : Prop where
  shape : tensor.HasShape type size
  words : ∀ word ∈ tensor.words, type.IsProper word

/-- The list has a length, and every word is one that an element of the type may be. -/
def ProperList (type : ElementType) (size : Nat) (list : List Nat) : Prop :=
  (∀ word ∈ list, type.IsProper word) ∧ list.length = size

/-- The words of a proper tensor are a proper list. -/
theorem Tensor.IsProper.list {type : ElementType} {size : Nat} {tensor : Tensor}
    (proper : tensor.IsProper type size) : ProperList type size tensor.words :=
  ⟨proper.words, proper.shape.2⟩

/-- The words are those of a reduction of lists of words: each is a word of the type, and stands for
what the words in its place reduce to exactly. -/
def ReducesExactly (type : ElementType) (reduction : Reduction) (lists : List (List Nat))
    (words : List Nat) : Prop :=
  ∀ (place word : Nat), words[place]? = some word → type.IsProper word ∧
    type.exact reduction (lists.map fun list => type.integer (list.getD place 0)) =
      some (type.integer word)

section

variable {type : ElementType} {reduction : Reduction} {lists others : List (List Nat)}

/-- The last list is reduced with the reduction of all lists before it. -/
theorem reduceWords_concat (several : lists ≠ []) (last : List Nat) :
    reduceWords type reduction (lists ++ [last]) =
      List.zipWith (type.combine reduction) (reduceWords type reduction lists) last := by
  cases lists with
  | nil => exact absurd rfl several
  | cons first rest => simp [reduceWords]

/-- A reduction of words is exact in every place. The induction is on the lists from the last one
on. -/
theorem reducesExactly_reduceWords (integral : type.isFloat = false)
    (proper : ∀ list ∈ lists, ∀ word ∈ list, type.IsProper word) :
    ReducesExactly type reduction lists (reduceWords type reduction lists) := by
  induction lists using List.reverseRecOn with
  | nil => simp [ReducesExactly, reduceWords]
  | append_singleton earlier last inductionHypothesis =>
    have reduced :=
      inductionHypothesis fun list listed => proper list (List.mem_append_left _ listed)
    have lastProper := proper last List.mem_concat_self
    intro place word found
    rw [List.map_append, List.map_singleton]
    -- The first list is taken as it is, not reduced with a start value.
    by_cases alone : earlier = []
    · subst alone
      have found : last[place]? = some word := found
      have own := lastProper word (List.mem_of_getElem? found)
      refine ⟨own, ?_⟩
      rw [List.getD_eq_getElem?_getD, found]
      exact type.exact_singleton integral reduction own
    · rw [reduceWords_concat alone, List.getElem?_zipWith_eq_some] at found
      obtain ⟨so, next, foundSo, foundNext, rfl⟩ := found
      obtain ⟨soProper, holds⟩ := reduced place so foundSo
      have nextProper := lastProper next (List.mem_of_getElem? foundNext)
      refine ⟨ElementType.isProper_combine integral soProper nextProper, ?_⟩
      rw [List.getD_eq_getElem?_getD, foundNext]
      exact ElementType.exact_concat integral soProper nextProper holds

/-- Exact reductions of the same lists, in whatever order, are the same words. -/
theorem ReducesExactly.unique {words found : List Nat} (order : lists.Perm others)
    (reduced : ReducesExactly type reduction lists words)
    (same : ReducesExactly type reduction others found) (length : words.length = found.length) :
    words = found := by
  refine List.ext_getElem length fun place inside within => ?_
  obtain ⟨proper, holds⟩ := reduced place _ (List.getElem?_eq_getElem inside)
  obtain ⟨properToo, holdsToo⟩ := same place _ (List.getElem?_eq_getElem within)
  rw [type.exact_perm reduction (order.map _)] at holds
  exact ElementType.integer_injective proper properToo
    (Option.some.inj (holds.symm.trans holdsToo))

/-- The order of the lists does not matter. -/
theorem reduceWords_perm (integral : type.isFloat = false) {size : Nat} (order : lists.Perm others)
    (proper : ∀ list ∈ others, ProperList type size list) :
    reduceWords type reduction lists = reduceWords type reduction others := by
  by_cases nobody : others = []
  · subst nobody
    rw [order.eq_nil]
  · have properFirst : ∀ list ∈ lists, ProperList type size list :=
      fun list listed => proper list (order.mem_iff.mp listed)
    refine (reducesExactly_reduceWords integral fun list listed =>
      (properFirst list listed).1).unique order
        (reducesExactly_reduceWords integral fun list listed => (proper list listed).1) ?_
    rw [length_reduceWords type reduction (fun list listed => (proper list listed).2) nobody,
      length_reduceWords type reduction (fun list listed => (properFirst list listed).2)
        fun none => nobody (none ▸ order).nil_eq.symm]

end

/-! ## Tensors -/

/-- Tensors of one type and length are reduced to one tensor, in whatever order they are listed. It
is of the same type and length, and exact in every place. -/
theorem gives_reduceAll_exact {type : ElementType} (integral : type.isFloat = false)
    (reduction : Reduction) {size : Nat} {tensors : List Tensor}
    (proper : ∀ tensor ∈ tensors, tensor.IsProper type size) (several : tensors ≠ []) :
    ∃ reduced : Tensor, reduced.HasShape type size ∧
      ReducesExactly type reduction (tensors.map Tensor.words) reduced.words ∧
      ∀ order, order.Perm tensors → reduceAll .ok reduction order = .ok reduced := by
  have lists : ∀ list ∈ tensors.map Tensor.words, ProperList type size list :=
    List.forall_mem_map.mpr fun tensor listed => (proper tensor listed).list
  refine ⟨⟨type, reduceWords type reduction (tensors.map Tensor.words)⟩, ⟨rfl, ?_⟩,
    reducesExactly_reduceWords integral fun list listed => (lists list listed).1,
    fun order same => ?_⟩
  · exact length_reduceWords type reduction (fun list listed => (lists list listed).2)
      (by simpa using several)
  · have shapes (tensor : Tensor) (listed : tensor ∈ order) :=
      (proper tensor (same.mem_iff.mp listed)).shape
    rw [← reduceWords_perm integral (same.map Tensor.words) lists]
    refine reduceAll_eq (fun tensor listed => ?_) (fun tensor listed => (shapes tensor listed).2)
      (fun none => several (none ▸ same).nil_eq.symm) reduction
    rw [← (shapes tensor listed).1]

end CollectiveBench
