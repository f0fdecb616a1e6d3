import CollectiveBench.Proofs.Delivery.Layouts

/-!
# Deliveries that reach nothing out of range

A list of contributions is indexed with the receiver's place, with the root and the senders that
the receiver named, and a split with the receiver's place. Where all of these are in range, a
delivery can only fail for its buffers (`faults_deliver`): it names something that a caller can get
wrong and never a broken precondition (`orderly_conclude`).
-/

namespace CollectiveBench

variable {α β : Type}

/-- The error is a broken precondition. -/
def Error.IsDefect : Error → Prop
  | .defect _ => True
  | _ => False

/-- The outcome breaks no precondition: it is a value, or an error that has a message. -/
abbrev Orderly (outcome : Outcome α) : Prop := FailsOnly outcome (¬ ·.IsDefect)

/-- The error is about the buffers of a round: they do not fit together, or a member handed in no
split that can be used. -/
def Error.OfBuffers : Error → Prop
  | .bufferSizeMismatch _ _ | .unsupportedElementType _ _ | .configuration _ => True
  | .collectiveFailed _ _ reason => reason = "peer sent no usable split"
  | _ => False

/-- The outcome is a value, or an error about the buffers. -/
abbrev BufferFaults (outcome : Outcome α) : Prop := FailsOnly outcome Error.OfBuffers

/-- An error about the buffers is no broken precondition. -/
theorem BufferFaults.orderly {outcome : Outcome α} (faults : BufferFaults outcome) :
    Orderly outcome := by
  intro error failed
  have about := faults error failed
  cases error with
  | defect broken => exact about.elim
  | _ => exact id

/-- All indices that a delivery to the member of rank `me` takes are in range. -/
structure Call.InRange (call : Call) (me : Nat) (all : List Contribution) : Prop where
  place : me < all.length
  root : call.operation.isRooted → call.root < all.length
  sources : ∀ source ∈ call.sources, source < all.length
  /-- The member has an entry in each split that is used, and with it a prefix. -/
  splits : ∀ contribution ∈ all, ∀ split ∈ contribution.inSplit.filter (·.length = all.length),
    me < split.length

/-! ## Tensors and buffers -/

/-- A list in the place of a single tensor is a fault of the buffer. -/
theorem Staged.faults_single (staged : Staged) (name : String) :
    BufferFaults (staged.expectSingle name) := by
  cases staged with
  | single tensor => exact failsOnly_ok tensor
  | list tensors => exact failsOnly_error trivial

/-- A list that is too short, or none at all, is a fault of the buffer. -/
theorem Staged.faults_part (staged : Staged) (name : String) (place : Nat) :
    BufferFaults (staged.part name place) := by
  cases staged with
  | single tensor => exact failsOnly_error trivial
  | list tensors =>
    rw [Staged.part]
    split
    · exact failsOnly_ok _
    · exact failsOnly_error trivial

/-- A range beyond the end of a tensor is a fault of the buffer. -/
theorem Tensor.faults_slice (tensor : Tensor) (start length : Nat) :
    BufferFaults (tensor.slice start length) := by
  rw [slice_exact]
  split
  · exact failsOnly_error trivial
  · exact failsOnly_ok _

/-- Parts of several types are a fault of the buffers. -/
theorem faults_joinParts (parts : List Tensor) : BufferFaults (joinParts parts) := by
  rw [joinParts, Tensor.concat]
  split
  · exact failsOnly_error trivial
  · exact failsOnly_ok _

/-- Tensors of different types or sizes are a fault of the buffers. -/
theorem Tensor.faults_checkCompatible (tensor other : Tensor) :
    BufferFaults (tensor.checkCompatible other) := by
  rw [checkCompatible]
  split
  · exact failsOnly_error trivial
  · split
    · exact failsOnly_error trivial
    · exact failsOnly_ok _

/-- Copying fails only where the tensors do not fit. -/
theorem Tensor.faults_copyFrom (target source : Tensor) : BufferFaults (target.copyFrom source) :=
  (target.faults_checkCompatible source).bind fun _ => failsOnly_ok _

/-- Reducing fails only where the tensors do not fit. -/
theorem Tensor.faults_reduceWith (tensor other : Tensor) (reduction : Reduction) :
    BufferFaults (tensor.reduceWith other reduction) :=
  (tensor.faults_checkCompatible other).bind fun _ => failsOnly_ok _

/-- Reducing tensors fails only where one cannot be had or does not fit. -/
theorem faults_reduceAll {fetch : α → Outcome Tensor}
    (fetched : ∀ entry, BufferFaults (fetch entry)) (reduction : Reduction) (entries : List α) :
    BufferFaults (reduceAll fetch reduction entries) := by
  cases entries with
  | nil => exact failsOnly_error trivial
  | cons first rest =>
    refine (fetched first).bind fun start => failsOnly_foldlM (fun so next => ?_) start
    exact (fetched next).bind fun other => so.faults_reduceWith other reduction

/-- A destination refuses only what does not fit into it. -/
theorem Staged.faults_accept (name : String) (destination : Staged) (received : Payload) :
    BufferFaults (destination.accept name received) := by
  cases received with
  | nothing => exact failsOnly_ok _
  | one tensor =>
    cases destination with
    | single target => exact (target.faults_copyFrom tensor).bind fun _ => failsOnly_ok _
    | list targets => exact failsOnly_error trivial
  | many parts =>
    cases destination with
    | single target => exact failsOnly_error trivial
    | list targets =>
      rw [Staged.accept]
      split
      · exact failsOnly_error trivial
      · exact (failsOnly_mapM fun pair _ => pair.1.faults_copyFrom pair.2).bind fun _ =>
          failsOnly_ok _

/-! ## Deliveries -/

/-- The contribution of a member is there. -/
theorem faults_contributionOf {all : List Contribution} {rank : Nat} (inside : rank < all.length) :
    BufferFaults (contributionOf all rank) := by
  rw [contributionOf, List.getElem?_eq_getElem inside]
  exact failsOnly_ok _

/-- Handing on the tensor of a member fails only at its buffer. -/
theorem faults_one_of {all : List Contribution} {rank : Nat} (inside : rank < all.length)
    (name : String) :
    BufferFaults (do return Payload.one (← (← contributionOf all rank).input.expectSingle name)) :=
  (faults_contributionOf inside).bind fun contribution =>
    (contribution.input.faults_single name).bind fun _ => failsOnly_ok _

/-- A block is only cut along a split that has an entry for the member. -/
theorem faults_blockFor {contribution : Contribution} {me size : Nat} (name : String)
    (entry : ∀ split ∈ contribution.inSplit.filter (·.length = size), me < split.length) :
    BufferFaults (blockFor name me size contribution) := by
  rw [blockFor]
  cases usable : contribution.inSplit.filter (·.length = size) with
  | none => exact failsOnly_error rfl
  | some split =>
    simp only [List.getElem?_eq_getElem (entry split usable)]
    exact (contribution.input.faults_single name).bind fun tensor =>
      tensor.faults_slice _ _

/-- Where all indices are in range, finding what a member receives can only fail for the buffers. -/
theorem faults_payload {call : Call} {me : Nat} {all : List Contribution}
    (inRange : call.InRange me all) : BufferFaults (payload call me all) := by
  have singles (name : String) :
      BufferFaults (all.mapM fun contribution => contribution.input.expectSingle name) :=
    failsOnly_mapM fun contribution _ => contribution.input.faults_single name
  have root := inRange.root
  -- A case for each operation: what it fetches, and what becomes of it.
  cases operation : call.operation <;>
    simp only [operation, Operation.isRooted, forall_const] at root <;>
    simp only [payload, operation]
  case allReduce =>
    exact (faults_reduceAll (fun contribution => contribution.input.faults_single _) _ _).bind
      fun _ => failsOnly_ok _
  case reduce =>
    split
    · exact (faults_reduceAll (fun contribution => contribution.input.faults_single _) _ _).bind
        fun _ => failsOnly_ok _
    · exact failsOnly_ok _
  case reduceScatter =>
    exact (faults_reduceAll (fun contribution => contribution.input.faults_part _ me) _ _).bind
      fun _ => failsOnly_ok _
  case reduceScatterBase =>
    refine (call.buffers.destination.faults_single _).bind fun target => ?_
    refine (failsOnly_mapM fun contribution _ => ?_).bind fun parts =>
      (faults_reduceAll failsOnly_ok _ parts).bind fun _ => failsOnly_ok _
    exact (contribution.input.faults_single _).bind fun tensor => tensor.faults_slice _ _
  case allToAll =>
    exact (failsOnly_mapM fun contribution _ => contribution.input.faults_part _ me).bind
      fun _ => failsOnly_ok _
  case allToAllv =>
    exact (failsOnly_mapM fun contribution present =>
      faults_blockFor _ (inRange.splits contribution present)).bind fun parts =>
        (faults_joinParts parts).bind fun _ => failsOnly_ok _
  case allGather => exact (singles _).bind fun _ => failsOnly_ok _
  case allGatherBase =>
    exact (singles _).bind fun parts => (faults_joinParts parts).bind fun _ => failsOnly_ok _
  case gather =>
    split
    · exact (singles _).bind fun _ => failsOnly_ok _
    · exact failsOnly_ok _
  case broadcast => exact faults_one_of root _
  case multicast =>
    split
    · exact faults_one_of root _
    · exact failsOnly_ok _
  case scatter =>
    exact (faults_contributionOf root).bind fun contribution =>
      (contribution.input.faults_part _ me).bind fun _ => failsOnly_ok _
  case incast =>
    split
    · refine (failsOnly_mapM fun source listed => ?_).bind fun _ => failsOnly_ok _
      exact (faults_contributionOf (inRange.sources source listed)).bind fun contribution =>
        contribution.input.faults_single _
    · exact failsOnly_ok _
  case pt2pt | recv =>
    split
    next source paired =>
      exact faults_one_of (inRange.sources source (mem_of_senderTo paired)) _
    next => exact failsOnly_ok _
  all_goals exact failsOnly_ok _

/-- So can delivering it. -/
theorem faults_deliver {call : Call} {me : Nat} {all : List Contribution}
    (inRange : call.InRange me all) : BufferFaults (deliver call me all) := by
  refine (faults_payload inRange).bind fun received => ?_
  have taken : BufferFaults (do
      let destination ← call.buffers.destination.accept call.operation.name received
      return { call with buffers := call.buffers.withDestination destination }) :=
    (call.buffers.destination.faults_accept call.operation.name received).bind fun _ =>
      failsOnly_ok _
  cases received with
  | nothing => exact failsOnly_ok call
  | one tensor => exact taken
  | many parts => exact taken

/-- The answer to a complete round breaks no precondition. -/
theorem orderly_conclude {call : Call} {me : Nat} {all : List Contribution}
    (inRange : call.InRange me all) (rank : Nat) : Orderly (conclude call rank me all) := by
  rw [conclude]
  split
  · exact failsOnly_error id
  · exact (faults_deliver inRange).orderly

end CollectiveBench
