import CollectiveBench.Proofs.Delivery.Exact
import CollectiveBench.Proofs.Exchange.Forms

/-!
# The order of the members

A group lists its members in an order of its own, and what they contribute is reduced in that order.
For integers and truth values it makes no difference: every reduction is exact, so the members of a
group get the same elements however the group lists them. A scattered reduction gives the member in
a place the chunk of that place.
-/

namespace CollectiveBench

variable {type : ElementType} {reduction : Reduction} {size : Nat} {ranks listed : List Nat}

/-- What the members contribute is reduced to one tensor, in whatever order they are listed. -/
theorem reducedTensor_perm (integral : type.isFloat = false) {inputs : Nat → Tensor}
    (order : listed.Perm ranks)
    (proper : ∀ rank ∈ ranks, (inputs rank).IsProper type size) :
    reducedTensor type reduction listed inputs = reducedTensor type reduction ranks inputs := by
  have lists : ∀ list ∈ ranks.map fun rank => (inputs rank).words, ProperList type size list :=
    List.forall_mem_map.mpr fun rank member => (proper rank member).list
  rw [reducedTensor, reducedTensor, reduceWords_perm integral (order.map _) lists]

namespace Concerted

variable {group : Nat} {made : Nat → Call} {inputs : Nat → Tensor}

/-- All members of a group get the reduction of all inputs. -/
theorem returns_allReduce_perm (integral : type.isFloat = false) (order : listed.Perm ranks)
    (proper : ∀ rank ∈ ranks, (inputs rank).IsProper type size)
    (concerted : Concerted group .allReduce listed (fun rank => .single (inputs rank)) type
      (.single size) made)
    (reducing : ∀ rank ∈ listed, (made rank).reduction = reduction) :
    Returns group listed made
      (receivedByAll made (.single (reducedTensor type reduction ranks inputs))) := by
  have returns := concerted.returns_allReduce
    (fun rank present => (proper rank (order.mem_iff.mp present)).shape) reducing
  rw [reducedTensor_perm integral order proper] at returns
  exact returns

/-- The root gets the reduction of all inputs. -/
theorem returns_reduce_perm (integral : type.isFloat = false) (order : listed.Perm ranks)
    (proper : ∀ rank ∈ ranks, (inputs rank).IsProper type size) {root : Nat}
    (concerted : Concerted group .reduce listed (fun rank => .single (inputs rank)) type
      (.single size) made)
    (reducing : ∀ rank ∈ listed, (made rank).reduction = reduction)
    (rooted : ∀ rank ∈ listed, (made rank).root = root) :
    Returns group listed made
      (receivedByRoot listed root made (.single (reducedTensor type reduction ranks inputs))) := by
  have returns := concerted.returns_reduce
    (fun rank present => (proper rank (order.mem_iff.mp present)).shape) rooted reducing
  rw [reducedTensor_perm integral order proper] at returns
  exact returns.byRoot (by simp)

/-- Each member gets the reduction of the chunks for its place. -/
theorem returns_reduceScatter_perm (integral : type.isFloat = false) (order : listed.Perm ranks)
    {chunk : Nat → Nat → Tensor}
    (proper : ∀ rank ∈ ranks, ∀ place < ranks.length, (chunk rank place).IsProper type size)
    (concerted : Concerted group .reduceScatter listed
      (fun rank => .list ((List.range listed.length).map (chunk rank))) type (.single size) made)
    (reducing : ∀ rank ∈ listed, (made rank).reduction = reduction) :
    Returns group listed made fun rank => (made rank).withDestination
      (.single (reducedTensor type reduction ranks (chunk · (listed.idxOf rank)))) := by
  have shapes : ∀ rank ∈ listed, ∀ place < listed.length, (chunk rank place).HasShape type size :=
    fun rank present place inside =>
      (proper rank (order.mem_iff.mp present) place (order.length_eq ▸ inside)).shape
  refine (concerted.returns_reduceScatter shapes reducing).congr fun rank present => ?_
  have inside : listed.idxOf rank < ranks.length :=
    order.length_eq ▸ List.idxOf_lt_length_iff.mpr present
  rw [reducedTensor_perm integral order fun sender sends =>
    proper sender sends (listed.idxOf rank) inside]
  rfl

/-- Each member gets the chunk for its place of the reduction of all inputs. -/
theorem returns_reduceScatterBase_perm (integral : type.isFloat = false)
    (order : listed.Perm ranks)
    (proper : ∀ rank ∈ ranks, (inputs rank).IsProper type (ranks.length * size))
    (concerted : Concerted group .reduceScatterBase listed (fun rank => .single (inputs rank)) type
      (.single size) made)
    (reducing : ∀ rank ∈ listed, (made rank).reduction = reduction) :
    Returns group listed made fun rank => (made rank).withDestination
      (.single ((reducedTensor type reduction ranks inputs).chunk size (listed.idxOf rank))) := by
  have shapes : ∀ rank ∈ listed, (inputs rank).HasShape type (listed.length * size) :=
    fun rank present => order.length_eq ▸ (proper rank (order.mem_iff.mp present)).shape
  have returns := concerted.returns_reduceScatterBase shapes reducing
  rw [reducedTensor_perm integral order proper] at returns
  exact returns

end Concerted

/-- Reductions of integers and of truth values are exact and do not depend on the order. Tensors of
one type and length are reduced, in whatever order they are listed, to one tensor of their type and
length. Each of its elements is what the elements in that place reduce to exactly: a sum or a
product that is wrapped around once, the least or the greatest of them in the order of the integers
that they stand for, or whether one or all of them are true. So the members of a group get the same
elements in whatever order the group lists them: all of them the reduction of all inputs, or the
root alone, or each the chunk of its place, from lists of chunks or from joined ones. -/
theorem reductions_exact (integral : type.isFloat = false) (reduction : Reduction) :
    (∀ tensors : List Tensor, (∀ tensor ∈ tensors, tensor.IsProper type size) → tensors ≠ [] →
      ∃ reduced : Tensor, reduced.HasShape type size ∧
        ReducesExactly type reduction (tensors.map Tensor.words) reduced.words ∧
        ∀ order, order.Perm tensors → reduceAll .ok reduction order = .ok reduced) ∧
    ∀ group : Nat, listed.Perm ranks →
      let Reducing (made : Nat → Call) := ∀ rank ∈ listed, (made rank).reduction = reduction
      (∀ inputs : Nat → Tensor, (∀ rank ∈ ranks, (inputs rank).IsProper type size) →
        let single (rank : Nat) := Staged.single (inputs rank)
        let reduced := Staged.single (reducedTensor type reduction ranks inputs)
        (∀ made, Concerted group .allReduce listed single type (.single size) made →
          Reducing made → Returns group listed made (receivedByAll made reduced)) ∧
        ∀ made root, Concerted group .reduce listed single type (.single size) made →
          Reducing made → (∀ rank ∈ listed, (made rank).root = root) →
          Returns group listed made (receivedByRoot listed root made reduced)) ∧
      (∀ chunk : Nat → Nat → Tensor,
        (∀ rank ∈ ranks, ∀ place < ranks.length, (chunk rank place).IsProper type size) →
        let list (rank : Nat) := Staged.list ((List.range listed.length).map (chunk rank))
        ∀ made, Concerted group .reduceScatter listed list type (.single size) made →
          Reducing made → Returns group listed made fun rank =>
            (made rank).withDestination
              (.single (reducedTensor type reduction ranks (chunk · (listed.idxOf rank))))) ∧
      ∀ inputs : Nat → Tensor,
        (∀ rank ∈ ranks, (inputs rank).IsProper type (ranks.length * size)) →
        let single (rank : Nat) := Staged.single (inputs rank)
        ∀ made, Concerted group .reduceScatterBase listed single type (.single size) made →
          Reducing made → Returns group listed made fun rank =>
            (made rank).withDestination (.single
              ((reducedTensor type reduction ranks inputs).chunk size (listed.idxOf rank))) := by
  refine ⟨fun tensors proper several => gives_reduceAll_exact integral reduction proper several, ?_⟩
  intro group order Reducing
  refine ⟨fun inputs proper => ⟨?_, ?_⟩, ?_, ?_⟩
  · exact fun made concerted reducing =>
      concerted.returns_allReduce_perm integral order proper reducing
  · exact fun made root concerted reducing rooted =>
      concerted.returns_reduce_perm integral order proper reducing rooted
  · exact fun chunk proper made concerted reducing =>
      concerted.returns_reduceScatter_perm integral order proper reducing
  · exact fun inputs proper made concerted reducing =>
      concerted.returns_reduceScatterBase_perm integral order proper reducing

/-- Three ranks in a group with an order of its own. The greatest integer three times is below zero,
and the others are minus one, two and three. -/
theorem reductions_exact_three :
    let ranks := [0, 1, 2]
    let listed := [2, 0, 1]
    let input (rank : Nat) : Tensor := ⟨.i32, [2147483647, 4294967295 - rank]⟩
    let sum : Tensor := ⟨.i32, [2147483645, 4294967290]⟩
    let call (rank : Nat) : Call := .allReduce 1 .sum (input rank)
    let exchange := Exchange.create (World.create 3 [listed] 1000) (List.range 3)
    (∀ rank ∈ ranks, (input rank).IsProper .i32 2) ∧
      (∃ reduced, reduceAll .ok .sum (listed.map input) = .ok reduced ∧
        ReducesExactly .i32 .sum ((ranks.map input).map Tensor.words) reduced.words) ∧
      reducedTensor .i32 .sum ranks input = sum ∧ exchange.Ready 1 ∧
      (exchange.perform 1 (oneEach call [1, 0, 2])).2 =
        [1, 0, 2].map fun rank => .ok ((call rank).withDestination (.single sum)) := by
  intro ranks listed input sum call exchange
  have order : listed.Perm ranks := by decide
  have proper : ∀ rank ∈ ranks, (input rank).IsProper .i32 2 := by
    have words : ∀ rank ∈ ranks, ∀ word ∈ (input rank).words, ElementType.i32.IsProper word := by
      decide +kernel
    exact fun rank member => ⟨⟨rfl, rfl⟩, words rank member⟩
  have ready : exchange.Ready 1 :=
    ⟨Exchange.atRest_create (World.create 3 [listed] 1000), by decide, by decide,
      Exchange.inStep_create _ _ 1⟩
  have whole : reducedTensor .i32 .sum ranks input = sum := by decide +kernel
  have concerted : Concerted 1 .allReduce listed (fun rank => .single (input rank)) .i32 (.single 2)
      call := ⟨fun _ _ => rfl, fun _ _ => rfl, fun _ _ => rfl, fun _ _ => rfl,
        fun _ _ _ => ⟨rfl, rfl⟩⟩
  obtain ⟨lists, members⟩ := @reductions_exact .i32 2 ranks listed rfl .sum
  obtain ⟨reduced, _, exactly, orders⟩ :=
    lists (ranks.map input) (List.forall_mem_map.mpr proper) (by decide)
  have returns := ((members 1 order).1 input proper).1 call concerted fun _ _ => rfl
  rw [whole] at returns
  have step := (returns.step exchange ready rfl 1 (by decide) [1, 0, 2] (by decide)).1
  exact ⟨proper, ⟨reduced, orders _ (order.map input), exactly⟩, whole, ready, step⟩

end CollectiveBench
