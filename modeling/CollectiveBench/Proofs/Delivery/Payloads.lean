import CollectiveBench.Proofs.Delivery.Chunks

/-!
# What each operation pays out

One lemma for each operation says what a member receives when the members of a group contribute
inputs of one shape. The contributions are given by rank and stand in the order of the group, so a
payload names each input by the rank that it is from.
-/

namespace CollectiveBench

/-- The tensor has elements of the type, as many as given. -/
def Tensor.HasShape (tensor : Tensor) (type : ElementType) (count : Nat) : Prop :=
  tensor.type = type ∧ tensor.count = count

/-! ## Copying, cutting and joining -/

/-- What is fetched from each entry without failing is fetched from all of them. -/
theorem mapM_eq_ok {α β : Type} {fetch : α → Outcome β} {value : α → β} {entries : List α}
    (fetched : ∀ entry ∈ entries, fetch entry = .ok (value entry)) :
    entries.mapM fetch = .ok (entries.map value) := by
  induction entries with
  | nil => rfl
  | cons first rest inductionHypothesis =>
    rw [List.mapM_cons, fetched first List.mem_cons_self,
      inductionHypothesis fun entry member => fetched entry (List.mem_cons_of_mem _ member)]
    rfl

/-- What is fetched from each image without failing is fetched from all of them. -/
theorem mapM_map_eq_ok {α β γ : Type} {fetch : β → Outcome γ} {image : α → β} {value : α → γ}
    {entries : List α} (fetched : ∀ entry ∈ entries, fetch (image entry) = .ok (value entry)) :
    (entries.map image).mapM fetch = .ok (entries.map value) := by
  rw [List.mapM_map]
  exact mapM_eq_ok fetched

/-- A tensor becomes the one of its shape that is copied into it. -/
theorem Tensor.copyFrom_eq {target source : Tensor}
    (same : target.HasShape source.type source.count) : target.copyFrom source = .ok source := by
  rw [copyFrom, (checkCompatible_eq_ok_iff target source).mpr same, same.1]
  rfl

section

variable {type : ElementType} {size : Nat} {ranks : List Nat} {inputs : Nat → Tensor}

/-- A chunk that lies within a tensor can be cut out. -/
theorem slice_eq {tensor : Tensor} {count me : Nat} (length : tensor.count = count * size)
    (inside : me < count) :
    tensor.slice (me * size) size = .ok ⟨tensor.type, chunkAt size tensor.words me⟩ := by
  have within : (me + 1) * size ≤ count * size := Nat.mul_le_mul_right size inside
  rw [Nat.succ_mul, ← length] at within
  rw [Tensor.slice_exact, if_neg (Nat.not_lt.mpr within)]
  rfl

/-- Tensors of the given type are joined without failing. -/
theorem Tensor.concat_eq {parts : List Tensor} (types : ∀ part ∈ parts, part.type = type) :
    concat parts type = .ok ⟨type, parts.flatMap words⟩ := by
  have alike : parts.find? (·.type ≠ type) = none := by
    simpa [List.find?_eq_none] using types
  rw [concat, alike]

/-- Tensors of one type are joined to one of that type. -/
theorem joinParts_eq_ok {parts : List Tensor} (types : ∀ part ∈ parts, part.type = type)
    (some : parts ≠ []) : joinParts parts = .ok ⟨type, parts.flatMap Tensor.words⟩ := by
  have head : ((parts.head?.map Tensor.type).getD .f32) = type := by
    cases parts with
    | nil => exact absurd rfl some
    | cons first rest => exact types first List.mem_cons_self
  rw [joinParts, head, Tensor.concat_eq types]

/-- The tensors of several ranks are joined in the order of the ranks. -/
theorem joinParts_eq (types : ∀ rank ∈ ranks, (inputs rank).type = type) (some : ranks ≠ []) :
    joinParts (ranks.map inputs) =
      .ok ⟨type, ranks.flatMap fun rank => (inputs rank).words⟩ := by
  rw [joinParts_eq_ok (List.forall_mem_map.mpr types) (by simpa using some), List.flatMap_map]

end

/-! ## Operations -/

section

variable {type : ElementType} {size : Nat} {ranks : List Nat} {brought : Nat → Contribution}
  {call : Call} {me : Nat}

/-- The contribution at a place is that of the rank there. -/
theorem contributionOf_map {place rank : Nat} (located : ranks[place]? = some rank) :
    contributionOf (ranks.map brought) place = .ok (brought rank) := by
  simp [contributionOf, located]

/-- What is fetched from the rank at each place is fetched from all ranks in their order. -/
theorem mapM_range {α : Type} {fetch : Nat → Outcome α} {value : Nat → α}
    (fetched : ∀ place rank, ranks[place]? = some rank → fetch place = .ok (value rank)) :
    (List.range ranks.length).mapM fetch = .ok (ranks.map value) := by
  have places : ranks.zipIdx.map Prod.snd = List.range ranks.length := by
    rw [List.zipIdx_map_snd, List.range_eq_range']
  have values : ranks.map value = ranks.zipIdx.map fun entry => value entry.1 := by
    rw [← Function.comp_def value Prod.fst, ← List.map_map, List.zipIdx_map_fst]
  rw [← places, values]
  apply mapM_map_eq_ok
  rintro ⟨rank, place⟩ listed
  exact fetched place rank (List.mem_zipIdx_iff_getElem?.mp listed)

/-- Inputs of one shape are reduced in the order of the group, wherever they are found. -/
theorem reduceAll_brought {fetch : Contribution → Outcome Tensor} {inputs : Nat → Tensor}
    (fetched : ∀ rank ∈ ranks, fetch (brought rank) = .ok (inputs rank))
    (shapes : ∀ rank ∈ ranks, (inputs rank).HasShape type size) (someone : ranks ≠ [])
    (reduction : Reduction) :
    reduceAll fetch reduction (ranks.map brought) =
      .ok ⟨type, reduceWords type reduction (ranks.map fun rank => (inputs rank).words)⟩ := by
  rw [reduceAll_map]
  refine reduceAll_eq (fun rank member => ?_) (fun rank member => (shapes rank member).2) someone
    reduction
  rw [fetched rank member, ← (shapes rank member).1]

section

variable {inputs : Nat → Tensor}
  (singles : ∀ rank ∈ ranks, (brought rank).input = .single (inputs rank))
include singles

/-- Single tensors are fetched in the order of the group. -/
theorem mapM_singles (name : String) :
    (ranks.map brought).mapM (fun contribution => contribution.input.expectSingle name) =
      .ok (ranks.map inputs) :=
  mapM_map_eq_ok fun rank member => by rw [singles rank member]; rfl

/-- The single tensor of one rank. -/
theorem single_of {place rank : Nat} (located : ranks[place]? = some rank) (name : String) :
    (do (← contributionOf (ranks.map brought) place).input.expectSingle name) =
      .ok (inputs rank) := by
  rw [contributionOf_map located]
  simp only [bind, Except.bind, singles rank (List.mem_of_getElem? located)]
  rfl

/-- Gathering brings the inputs of all members to every member. -/
theorem payload_allGather (operation : call.operation = .allGather) :
    payload call me (ranks.map brought) = .ok (.many (ranks.map inputs)) := by
  simp only [payload, operation]
  rw [mapM_singles singles]
  rfl

/-- Gathering at the root brings the inputs of all members to the root. -/
theorem payload_gather (operation : call.operation = .gather) :
    payload call me (ranks.map brought) =
      .ok (if me = call.root then .many (ranks.map inputs) else .nothing) := by
  simp only [payload, operation]
  rw [mapM_singles singles]
  split <;> rfl

/-- Senders that are listed in the order of the group are gathered from like the group. -/
theorem payload_incast (operation : call.operation = .incast)
    (sources : me = call.root → call.sources = List.range ranks.length) :
    payload call me (ranks.map brought) =
      .ok (if me = call.root then .many (ranks.map inputs) else .nothing) := by
  have fetched := mapM_range fun _ _ located => single_of singles located Operation.incast.name
  simp only [payload, operation]
  split
  next here =>
    rw [sources here, fetched]
    rfl
  next => rfl

/-- Gathering into one tensor brings the joined inputs of all members. -/
theorem payload_allGatherBase (operation : call.operation = .allGatherBase)
    (types : ∀ rank ∈ ranks, (inputs rank).type = type) (someone : ranks ≠ []) :
    payload call me (ranks.map brought) =
      .ok (.one ⟨type, ranks.flatMap fun rank => (inputs rank).words⟩) := by
  have joined := joinParts_eq types someone
  simp only [payload, operation]
  rw [mapM_singles singles]
  simp only [bind, Except.bind, joined]
  rfl

/-- A broadcast brings the input of the root to every member. -/
theorem payload_broadcast {source : Nat} (operation : call.operation = .broadcast)
    (located : ranks[call.root]? = some source) :
    payload call me (ranks.map brought) = .ok (.one (inputs source)) := by
  have sent := singles source (List.mem_of_getElem? located)
  simp only [payload, operation, contributionOf_map located, bind, Except.bind, sent]
  rfl

/-- A multicast that names no receivers is for everyone but its sender. -/
theorem payload_multicast {source : Nat} (operation : call.operation = .multicast)
    (located : ranks[call.root]? = some source) (everyone : call.destinations = []) :
    payload call me (ranks.map brought) =
      .ok (if me = call.root then .nothing else .one (inputs source)) := by
  have sent := singles source (List.mem_of_getElem? located)
  simp only [payload, operation, contributionOf_map located, Call.isDestination, everyone, bind,
    Except.bind, sent]
  by_cases here : me = call.root
  · rw [if_neg (by simp [here]), if_pos here]
    rfl
  · rw [if_pos (by simp [here]), if_neg here]
    rfl

variable (shapes : ∀ rank ∈ ranks, (inputs rank).HasShape type size) (someone : ranks ≠ [])
include shapes someone

/-- All single tensors of one shape are reduced in the order of the group. -/
theorem reduceAll_singles (name : String) (reduction : Reduction) :
    reduceAll (fun contribution => contribution.input.expectSingle name) reduction
        (ranks.map brought) =
      .ok ⟨type, reduceWords type reduction (ranks.map fun rank => (inputs rank).words)⟩ := by
  refine reduceAll_brought (fun rank member => ?_) shapes someone reduction
  rw [singles rank member]
  rfl

/-- Reducing for all brings the reduced inputs to every member. -/
theorem payload_allReduce (operation : call.operation = .allReduce) :
    payload call me (ranks.map brought) = .ok (.one ⟨type,
      reduceWords type call.reduction (ranks.map fun rank => (inputs rank).words)⟩) := by
  simp only [payload, operation]
  rw [reduceAll_singles singles shapes someone]
  rfl

/-- Reducing brings the reduced inputs to the root. -/
theorem payload_reduce (operation : call.operation = .reduce) :
    payload call me (ranks.map brought) = .ok (if me = call.root then .one ⟨type,
      reduceWords type call.reduction (ranks.map fun rank => (inputs rank).words)⟩
        else .nothing) := by
  simp only [payload, operation]
  rw [reduceAll_singles singles shapes someone]
  split <;> rfl

end

section

variable {parts : Nat → List Tensor} {pieces : Nat → Tensor}
  (lists : ∀ rank ∈ ranks, (brought rank).input = .list (parts rank))
  (found : ∀ rank ∈ ranks, (parts rank)[me]? = some (pieces rank))
include lists found

/-- The part of one rank for the member. -/
theorem part_of {rank : Nat} (member : rank ∈ ranks) (name : String) :
    (brought rank).input.part name me = .ok (pieces rank) := by
  rw [lists rank member, Staged.part, found rank member]

/-- An exchange brings a member its piece of every list. -/
theorem payload_allToAll (operation : call.operation = .allToAll) :
    payload call me (ranks.map brought) = .ok (.many (ranks.map pieces)) := by
  have fetched : (ranks.map brought).mapM
      (fun contribution => contribution.input.part Operation.allToAll.name me) =
      .ok (ranks.map pieces) := mapM_map_eq_ok fun rank member => part_of lists found member _
  simp only [payload, operation]
  rw [fetched]
  rfl

/-- A reduction that is scattered brings a member the reduced pieces for it. -/
theorem payload_reduceScatter (operation : call.operation = .reduceScatter)
    (shapes : ∀ rank ∈ ranks, (pieces rank).HasShape type size) (someone : ranks ≠ []) :
    payload call me (ranks.map brought) = .ok (.one ⟨type,
      reduceWords type call.reduction (ranks.map fun rank => (pieces rank).words)⟩) := by
  simp only [payload, operation]
  rw [reduceAll_brought (fun rank member => part_of lists found member _) shapes someone]
  rfl

end

/-- Scattering brings a member its piece of the list of the root. -/
theorem payload_scatter {source : Nat} {parts : List Tensor} {piece : Tensor}
    (operation : call.operation = .scatter) (located : ranks[call.root]? = some source)
    (list : (brought source).input = .list parts) (found : parts[me]? = some piece) :
    payload call me (ranks.map brought) = .ok (.one piece) := by
  simp only [payload, operation, contributionOf_map located, list, Staged.part, found, bind,
    Except.bind]
  rfl

/-- Each member's chunks of all inputs are reduced in the order of the group. -/
theorem payload_reduceScatterBase {inputs : Nat → Tensor} {target : Tensor}
    (operation : call.operation = .reduceScatterBase)
    (singles : ∀ rank ∈ ranks, (brought rank).input = .single (inputs rank))
    (shapes : ∀ rank ∈ ranks, (inputs rank).HasShape type (ranks.length * size))
    (destination : call.buffers.destination = .single target) (room : target.count = size)
    (inside : me < ranks.length) :
    payload call me (ranks.map brought) = .ok (.one ⟨type, chunkAt size
      (reduceWords type call.reduction (ranks.map fun rank => (inputs rank).words)) me⟩) := by
  have someone : ranks ≠ [] := List.ne_nil_of_length_pos (Nat.zero_lt_of_lt inside)
  let chunk (rank : Nat) : Tensor := ⟨type, chunkAt size (inputs rank).words me⟩
  have cut : (ranks.map brought).mapM (fun contribution => do
        (← contribution.input.expectSingle Operation.reduceScatterBase.name).slice (me * size)
          size) = .ok (ranks.map chunk) := by
    apply mapM_map_eq_ok
    intro rank member
    rw [singles rank member]
    simp only [Staged.expectSingle, bind, Except.bind]
    rw [slice_eq (shapes rank member).2 inside, (shapes rank member).1]
  have chunks : ∀ rank ∈ ranks, (chunk rank).HasShape type size :=
    fun rank member => ⟨rfl, length_chunkAt (shapes rank member).2 inside⟩
  have reduced : reduceAll Except.ok call.reduction (ranks.map chunk) =
      .ok ⟨type, reduceWords type call.reduction (ranks.map fun rank => (chunk rank).words)⟩ := by
    rw [reduceAll_map]
    exact reduceAll_eq (fun _ _ => rfl) (fun rank member => (chunks rank member).2) someone _
  rw [chunkAt_reduceWords, List.map_map]
  simp only [payload, operation, destination, bind, Except.bind, Arithmetic.word_exact]
    at cut reduced ⊢
  rw [show Staged.expectSingle Operation.reduceScatterBase.name (.single target) = .ok target
    from rfl]
  simp only [room]
  rw [cut]
  simp only [reduced]
  rfl

end

end CollectiveBench
