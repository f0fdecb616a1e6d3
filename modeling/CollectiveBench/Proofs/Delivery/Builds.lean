import CollectiveBench.Proofs.Delivery.Terms
import CollectiveBench.Proofs.Outcomes

/-!
# Delivery in a build

Two operations compute where a member's block lies in what another member contributed: an uneven
exchange adds up the entries of a split, and a reduction that is scattered multiplies the length of
a chunk. Where a build holds these numbers, and the sizes of the tensors, members receive what they
receive without any bounds (`conclude_of_held`).
-/

namespace CollectiveBench

variable [Arithmetic] {call : Call} {rank me : Nat} {all : List Contribution}

/-- The bytes of each tensor of the contribution are counted in a word, and in an uneven exchange a
word holds the sum of its split. -/
structure Contribution.Held (contribution : Contribution) : Prop where
  tensors : ∀ tensor ∈ contribution.input.tensors, Arithmetic.Holds tensor.byteCount
  split : contribution.operation = .allToAllv → ∀ lengths, contribution.inSplit = some lengths →
    Arithmetic.Holds (total lengths)

/-- What lies in a tensor whose bytes are counted is cut out as it is without any bounds. -/
theorem Tensor.slice_of_holds {tensor : Tensor} {start length : Nat}
    (holds : Arithmetic.Holds (start + length)) (counted : Arithmetic.Holds tensor.byteCount) :
    tensor.slice start length = @slice .exact tensor start length := by
  rw [slice_eq holds counted, slice_exact]

/-- The block of a member lies where the split says. -/
theorem blockFor_of_held {contribution : Contribution} (held : contribution.Held)
    (uneven : contribution.operation = .allToAllv) (name : String) (me size : Nat) :
    blockFor name me size contribution = @blockFor .exact name me size contribution := by
  simp only [blockFor]
  cases usable : contribution.inSplit.filter (·.length = size) with
  | none => rfl
  | some split =>
    cases entry : split[me]? with
    | none => simp only [entry]
    | some length =>
      have sum := held.split uneven split (Option.filter_eq_some_iff.mp usable).1
      have ends : total (split.take me) + length ≤ total split := by
        simpa [List.getD_eq_getElem?_getD, entry] using total_take_add_le split me
      simp only [entry,
        Arithmetic.word_of_holds (sum.mono (Nat.le_trans (Nat.le_add_right _ _) ends)),
        Arithmetic.word_exact]
      cases input : contribution.input with
      | list tensors => rfl
      | single tensor =>
        exact Tensor.slice_of_holds (sum.mono ends)
          (held.tensors tensor (by rw [input]; exact List.mem_singleton_self tensor))

section

variable (agreed : ∀ contribution ∈ all, contribution.operation = call.operation)
  (held : call.operation = .allToAllv ∨ call.operation = .reduceScatterBase →
    ∀ contribution ∈ all, contribution.Held)
  (chunks : call.operation = .reduceScatterBase → ∀ tensor,
    call.buffers.destination = .single tensor → Arithmetic.Holds (me * tensor.count + tensor.count))

include agreed held chunks

/-- What a member receives does not depend on the build, if it holds what it adds up and where the
member's chunk ends. -/
theorem payload_of_held : payload call me all = @payload .exact call me all := by
  cases operation : call.operation
  case allToAllv =>
    simp only [payload, operation]
    rw [mapM_congr fun contribution listed => blockFor_of_held
      (held (.inl operation) contribution listed)
      ((agreed contribution listed).trans operation) _ me _]
  case reduceScatterBase =>
    simp only [payload, operation]
    cases destination : call.buffers.destination with
    | list tensors => rfl
    | single room =>
      have ends := chunks operation room destination
      have starts := ends.mono (Nat.le_add_right (me * room.count) room.count)
      simp only [Staged.expectSingle, bind, Except.bind, Arithmetic.word_of_holds starts,
        Arithmetic.word_exact]
      rw [mapM_congr fun contribution listed => ?_]
      cases input : contribution.input with
      | list tensors => rfl
      | single tensor =>
        exact Tensor.slice_of_holds ends ((held (.inr operation) contribution listed).tensors tensor
          (by rw [input]; exact List.mem_singleton_self tensor))
  all_goals simp only [payload, operation]

omit agreed in
/-- The answer to a call whose round is complete does not depend on the build, either. -/
theorem conclude_of_held : conclude call rank me all = @conclude .exact call rank me all := by
  unfold conclude
  cases differing : all.find? (·.operation ≠ call.operation) with
  | some other => rfl
  | none =>
    have agreed : ∀ contribution ∈ all, contribution.operation = call.operation := by
      simpa [List.find?_eq_none] using differing
    simp only [deliver, payload_of_held agreed held chunks]

end

/-! ## Members with common terms -/

/-- The bytes of whatever members with these terms contribute are counted in a word. -/
def Terms.Held (terms : Terms) : Prop :=
  ∀ rank ∈ terms.ranks, Arithmetic.Holds ((terms.layout rank).input.part * terms.type.size)

variable {terms : Terms} {made : Nat → Call}

/-- A member contributes tensors whose bytes are counted and, in an uneven exchange, a split whose
sum is. -/
theorem Terms.Held.contribution (held : terms.Held) (member : rank ∈ terms.ranks)
    (suits : call.Suits terms rank) (allocates : terms.operation.isSyncOnly = false) :
    call.contribution.Held where
  tensors := by
    intro tensor listed
    rw [(suits.buffers.shapes allocates).input.byteCount_eq listed]
    exact held rank member
  split := by
    intro uneven lengths given
    have same : terms.operation = .allToAllv := suits.buffers.operation.symm.trans uneven
    have row := held rank member
    rw [Terms.layout_uneven same] at row
    obtain rfl := Option.some.inj (given.symm.trans (suits.buffers.split same))
    exact row.mono (Nat.le_mul_of_pos_right _ terms.type.size_pos)

/-- Where the terms are held, a complete round of members that suit them is concluded as it is
without any bounds. -/
theorem conclude_of_suits (held : terms.Held)
    (suits : ∀ rank ∈ terms.ranks, (made rank).Suits terms rank) (member : rank ∈ terms.ranks) :
    conclude (made rank) rank (terms.ranks.idxOf rank)
        (terms.ranks.map fun other => (made other).contribution) =
      @conclude .exact (made rank) rank (terms.ranks.idxOf rank)
        (terms.ranks.map fun other => (made other).contribution) := by
  have own := suits rank member
  have operation : (made rank).operation = terms.operation := own.buffers.operation
  refine conclude_of_held (fun cuts => ?_) fun scattered tensor destination => ?_
  · have allocates : terms.operation.isSyncOnly = false := by
      rcases operation ▸ cuts with same | same <;> rw [same] <;> rfl
    rw [List.forall_mem_map]
    exact fun other listed => held.contribution listed (suits other listed) allocates
  · have same : terms.operation = .reduceScatterBase := operation.symm.trans scattered
    have inside : terms.ranks.idxOf rank < terms.ranks.length := List.idxOf_lt_length_iff.mpr member
    have fits := (own.buffers.shapes (by rw [same]; rfl)).destination
    have whole := held rank member
    rw [Terms.layout_even (by rw [same]; decide), same] at fits whole
    have chunk : tensor.count = terms.count / terms.ranks.length := by
      rw [destination] at fits
      exact fits.2
    -- The last chunk ends where the tensor does, and every other one before.
    have ends : terms.ranks.idxOf rank * tensor.count + tensor.count ≤ terms.count := by
      rw [chunk, ← Nat.succ_mul]
      exact Nat.le_trans (Nat.mul_le_mul_right _ inside) (Nat.mul_div_le _ _)
    exact whole.mono (Nat.le_trans ends (Nat.le_mul_of_pos_right _ terms.type.size_pos))

/-- In a complete round of members that suit held terms every call succeeds in every build, and the
returned calls suit the terms as well. -/
theorem gives_conclude_of_held (held : terms.Held)
    (suits : ∀ rank ∈ terms.ranks, (made rank).Suits terms rank) (member : rank ∈ terms.ranks) :
    Gives (conclude (made rank) rank (terms.ranks.idxOf rank)
        (terms.ranks.map fun other => (made other).contribution))
      fun returned => returned.Suits terms rank ∧
        ∃ buffers, returned = { made rank with buffers } := by
  rw [conclude_of_suits held suits member]
  exact gives_conclude suits member

end CollectiveBench
