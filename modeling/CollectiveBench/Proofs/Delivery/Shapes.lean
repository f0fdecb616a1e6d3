import CollectiveBench.Proofs.Delivery.Blocks
import CollectiveBench.Proofs.Delivery.Delivered
import CollectiveBench.Proofs.Outcomes
import CollectiveBench.Staging

/-!
# Shapes of what is delivered

A buffer fits an extent when it is a single tensor or a list as the extent says, with tensors of
one type and as many elements. Each way of making a payload from buffers that fit is followed here
on its own: what is fetched, cut, joined or reduced has a shape that only depends on the shapes
that went in, and a destination takes over a payload of its own extent and keeps it.
-/

namespace CollectiveBench

variable {type : ElementType}

/-- The buffer has the form and the tensors that an extent says. -/
def Staged.Fits (type : ElementType) : Extent → Staged → Prop
  | .single count, .single tensor => tensor.HasShape type count
  | .list parts count, .list tensors => EachOf parts (·.HasShape type count) tensors
  | _, _ => False

/-- The elements of each tensor of a buffer of a shape. -/
def Extent.part : Extent → Nat
  | .single count | .list _ count => count

/-- The payload is nothing, or has the form and the tensors that an extent says. -/
def Payload.Fits (type : ElementType) : Extent → Payload → Prop
  | _, .nothing => True
  | .single count, .one tensor => tensor.HasShape type count
  | .list parts count, .many tensors => EachOf parts (·.HasShape type count) tensors
  | _, _ => False

/-! ## Fetching, cutting, joining and reducing -/

/-- A buffer for one tensor has that tensor, of the shape it is for. -/
theorem Staged.Fits.gives_single {count : Nat} {staged : Staged}
    (fits : staged.Fits type (.single count)) (name : String) :
    Gives (staged.expectSingle name) (·.HasShape type count) := by
  cases staged with
  | single tensor => exact gives_ok fits
  | list tensors => exact fits.elim

/-- The tensors of a buffer have as many bytes as its shape says. -/
theorem Staged.Fits.byteCount_eq {extent : Extent} {staged : Staged}
    (fits : staged.Fits type extent) {tensor : Tensor} (listed : tensor ∈ staged.tensors) :
    tensor.byteCount = extent.part * type.size := by
  have shape : tensor.HasShape type extent.part := by
    cases staged with
    | single only =>
      cases extent with
      | single count =>
        rw [List.mem_singleton.mp listed]
        exact fits
      | list parts count => exact fits.elim
    | list tensors =>
      cases extent with
      | single count => exact fits.elim
      | list parts count => exact fits.2 tensor listed
  rw [Tensor.byteCount, shape.1, shape.2]

/-- A buffer for a list has a tensor at each place, of the shape it is for. -/
theorem Staged.Fits.gives_part {parts count place : Nat} {staged : Staged}
    (fits : staged.Fits type (.list parts count)) (inside : place < parts) (name : String) :
    Gives (staged.part name place) (·.HasShape type count) := by
  cases staged with
  | single tensor => exact fits.elim
  | list tensors =>
    obtain ⟨length, shapes⟩ := fits
    have found := List.getElem?_eq_getElem (length.symm ▸ inside : place < tensors.length)
    rw [Staged.part, found]
    exact gives_ok (shapes _ (List.getElem_mem _))

/-- There is a contribution of every member. -/
theorem gives_contributionOf {all : List Contribution} {rank : Nat} (inside : rank < all.length) :
    Gives (contributionOf all rank) (· ∈ all) := by
  rw [contributionOf, List.getElem?_eq_getElem inside]
  exact gives_ok (List.getElem_mem inside)

/-- A range within a tensor is cut out of it. -/
theorem Tensor.HasShape.gives_slice {count start length : Nat} {tensor : Tensor}
    (shape : tensor.HasShape type count) (inside : start + length ≤ count) :
    Gives (tensor.slice start length) (·.HasShape type length) := by
  obtain ⟨sameType, sameCount⟩ := shape
  rw [Tensor.slice_exact, if_neg (Nat.not_lt.mpr (sameCount ▸ inside))]
  refine gives_ok ⟨sameType, ?_⟩
  rw [Tensor.count] at sameCount ⊢
  rw [List.length_take, List.length_drop]
  omega

/-- Parts of one length make up that length times their number. -/
theorem length_flatMap_words {parts : List Tensor} {count : Nat}
    (shapes : ∀ part ∈ parts, part.HasShape type count) :
    (parts.flatMap Tensor.words).length = count * parts.length := by
  induction parts with
  | nil => rfl
  | cons first rest inductionHypothesis =>
    have here : first.words.length = count := (shapes first List.mem_cons_self).2
    rw [List.flatMap_cons, List.length_append, here, List.length_cons, Nat.mul_succ,
      inductionHypothesis fun part present => shapes part (List.mem_cons_of_mem _ present),
      Nat.add_comm]

/-- Tensors of one shape are joined to one with the elements of all. -/
theorem gives_joinParts {parts : List Tensor} {number count : Nat} (some : 0 < number)
    (shapes : EachOf number (·.HasShape type count) parts) :
    Gives (joinParts parts) (·.HasShape type (count * number)) := by
  obtain ⟨length, each⟩ := shapes
  have someone : parts ≠ [] := List.ne_nil_of_length_pos (length ▸ some)
  rw [joinParts_eq_ok (fun part present => (each part present).1) someone]
  exact gives_ok ⟨rfl, length ▸ length_flatMap_words each⟩

/-- Tensors of one shape are reduced to a tensor of that shape. -/
theorem Tensor.HasShape.gives_reduceWith {count : Nat} {tensor other : Tensor}
    (shape : tensor.HasShape type count) (same : other.HasShape type count)
    (reduction : Reduction) :
    Gives (tensor.reduceWith other reduction) (·.HasShape type count) := by
  obtain ⟨words, rfl⟩ : ∃ words, tensor = ⟨type, words⟩ := ⟨_, by rw [← shape.1]⟩
  obtain ⟨others, rfl⟩ : ∃ others, other = ⟨type, others⟩ := ⟨_, by rw [← same.1]⟩
  have length : words.length = count := shape.2
  have otherLength : others.length = count := same.2
  rw [Tensor.reduceWith_eq (length.trans otherLength.symm)]
  refine gives_ok ⟨rfl, ?_⟩
  rw [Tensor.count, List.length_zipWith, length, otherLength, Nat.min_self]

/-- A reduction of tensors of one shape has that shape. -/
theorem gives_reduceAll {α : Type} {count : Nat} {entries : List α} {fetch : α → Outcome Tensor}
    (fetched : ∀ entry ∈ entries, Gives (fetch entry) (·.HasShape type count))
    (some : entries ≠ []) (reduction : Reduction) :
    Gives (reduceAll fetch reduction entries) (·.HasShape type count) := by
  cases entries with
  | nil => exact absurd rfl some
  | cons first rest =>
    refine (fetched first List.mem_cons_self).bind fun start shape => ?_
    refine gives_foldlM (fun so next present held => ?_) shape
    exact (fetched next (List.mem_cons_of_mem _ present)).bind fun other same =>
      held.gives_reduceWith same reduction

/-! ## Taking over a payload -/

/-- What a payload puts into a destination. -/
def Payload.staged : Payload → Staged
  | .nothing => .empty
  | .one tensor => .single tensor
  | .many parts => .list parts

/-- The call with another content of its destination. -/
def Call.withDestination (call : Call) (destination : Staged) : Call :=
  { call with buffers := call.buffers.withDestination destination }

/-- What a payload puts into a destination has the extent of the payload. -/
theorem Payload.Fits.staged {extent : Extent} {received : Payload}
    (fits : received.Fits type extent) (something : received ≠ .nothing) :
    received.staged.Fits type extent := by
  cases received with
  | nothing => exact absurd rfl something
  | one tensor => cases extent <;> exact fits
  | many parts => cases extent <;> exact fits

/-- Tensors become those of their shape that are copied into them. -/
theorem mapM_copyFrom {count : Nat} {targets parts : List Tensor}
    (length : targets.length = parts.length)
    (targetShapes : ∀ target ∈ targets, target.HasShape type count)
    (partShapes : ∀ part ∈ parts, part.HasShape type count) :
    (targets.zip parts).mapM (fun (target, part) => target.copyFrom part) = .ok parts := by
  have copied : ∀ pair ∈ targets.zip parts, pair.1.copyFrom pair.2 = .ok pair.2 := by
    intro pair paired
    have shape := partShapes _ (List.of_mem_zip paired).2
    apply Tensor.copyFrom_eq
    rw [shape.1, shape.2]
    exact targetShapes _ (List.of_mem_zip paired).1
  have all : ((targets.zip parts).map id).mapM (fun (target, part) => target.copyFrom part) =
      .ok ((targets.zip parts).map Prod.snd) := mapM_map_eq_ok copied
  rwa [List.map_id, List.map_snd_zip (Nat.le_of_eq length.symm)] at all

/-- A destination that has room for a payload becomes it. -/
theorem Staged.Fits.accept_eq {extent : Extent} {destination : Staged} {received : Payload}
    (fits : destination.Fits type extent) (same : received.Fits type extent)
    (something : received ≠ .nothing) (name : String) :
    destination.accept name received = .ok received.staged := by
  cases received with
  | nothing => exact absurd rfl something
  | one tensor =>
    cases extent with
    | list parts count => exact same.elim
    | single count =>
      cases destination with
      | list targets => exact fits.elim
      | single target =>
        have shape : target.HasShape tensor.type tensor.count := by
          rw [same.1, same.2]
          exact fits
        simp only [accept, Tensor.copyFrom_eq shape, bind, Except.bind]
        rfl
  | many tensors =>
    cases extent with
    | single count => exact same.elim
    | list parts count =>
      cases destination with
      | single target => exact fits.elim
      | list targets =>
        have length : targets.length = tensors.length := fits.1.trans same.1.symm
        rw [accept, if_neg (not_not_intro length)]
        simp only [mapM_copyFrom length fits.2 same.2, bind, Except.bind]
        rfl

/-- A call with room for what it receives comes back with that in its destination. -/
theorem deliver_received {extent : Extent} {call : Call} {me : Nat} {all : List Contribution}
    {received : Payload} (paid : payload call me all = .ok received)
    (something : received ≠ .nothing) (same : received.Fits type extent)
    (fits : call.buffers.destination.Fits type extent) :
    deliver call me all = .ok (call.withDestination received.staged) := by
  have taken := fits.accept_eq same something call.operation.name
  cases received with
  | nothing => exact absurd rfl something
  | one tensor => simp only [deliver, paid, taken, bind, Except.bind]; rfl
  | many parts => simp only [deliver, paid, taken, bind, Except.bind]; rfl

/-- A call that receives nothing comes back as it was. -/
theorem deliver_nothing {call : Call} {me : Nat} {all : List Contribution}
    (paid : payload call me all = .ok .nothing) : deliver call me all = .ok call := by
  simp only [deliver, paid, bind, Except.bind]
  rfl

/-- A call whose payload fits its destination comes back with a destination of that extent, and
otherwise as it was. -/
theorem gives_deliver {call : Call} {me : Nat} {all : List Contribution} {extent : Extent}
    (received : Gives (payload call me all) (·.Fits type extent))
    (fits : call.buffers.destination.Fits type extent) :
    Gives (deliver call me all) fun returned => ∃ destination, destination.Fits type extent ∧
      returned = { call with buffers := call.buffers.withDestination destination } := by
  obtain ⟨parts, paid, same⟩ := received
  by_cases nothing : parts = .nothing
  · subst nothing
    rw [deliver_nothing paid]
    exact gives_ok ⟨_, fits, by rw [call.buffers.withDestination_destination]⟩
  · rw [deliver_received paid nothing same fits]
    exact gives_ok ⟨_, same.staged nothing, rfl⟩

end CollectiveBench
