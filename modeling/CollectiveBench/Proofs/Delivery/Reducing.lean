import CollectiveBench.Proofs.Delivery.Payloads

/-!
# Reducing and gathering calls

What a complete round answers to an in-place reduction, to a reduction of which each member keeps
its chunk, and to the gathering of chunks, where the buffers have one type and the sizes fit. No
such call fails.
-/

namespace CollectiveBench

namespace Call

/-- Reduces a tensor in place. -/
def allReduce (group : Nat) (reduction : Reduction) (tensor : Tensor) : Call :=
  { buffers := { operation := .allReduce, input := .single tensor }, group, reduction }

/-- Reduces a tensor and keeps the own chunk of the result. -/
def reduceScatterBase (group : Nat) (reduction : Reduction) (input output : Tensor) : Call :=
  { buffers :=
      { operation := .reduceScatterBase, input := .single input, output := some (.single output) },
    group, reduction }

/-- Joins the tensors of all members. -/
def allGatherBase (group : Nat) (input output : Tensor) : Call :=
  { buffers :=
      { operation := .allGatherBase, input := .single input, output := some (.single output) },
    group }

end Call

/-- Where all members issued the operation of the call, its answer is what the round delivers. -/
theorem conclude_eq_deliver {call : Call} {rank me : Nat} {all : List Contribution}
    (agreed : ∀ contribution ∈ all, contribution.operation = call.operation) :
    conclude call rank me all = deliver call me all := by
  have nobody : all.find? (·.operation ≠ call.operation) = none := by
    simpa [List.find?_eq_none] using agreed
  rw [conclude, nobody]

/-- A tensor that fits the destination of a call takes its place. -/
theorem deliver_one {call : Call} {me : Nat} {all : List Contribution} {target received : Tensor}
    (payload : payload call me all = .ok (.one received))
    (destination : call.buffers.destination = .single target)
    (fits : target.HasShape received.type received.count) :
    deliver call me all =
      .ok { call with buffers := call.buffers.withDestination (.single received) } := by
  simp [deliver, payload, destination, Staged.accept, Tensor.copyFrom_eq fits, bind, Except.bind,
    pure, Except.pure]

section

variable {type : ElementType} {size : Nat} {ranks : List Nat} {inputs : Nat → Tensor}
  (group : Nat) (reduction : Reduction)

/-- All members' calls have one operation. -/
theorem agreed_of_map {made : Nat → Call} {operation : Operation}
    (same : ∀ rank ∈ ranks, (made rank).operation = operation) {rank : Nat}
    (member : rank ∈ ranks) :
    ∀ contribution ∈ ranks.map fun other => (made other).contribution,
      contribution.operation = (made rank).operation := by
  rw [List.forall_mem_map]
  intro other present
  exact (same other present).trans (same rank member).symm

/-- A reduction of inputs of one shape has that shape. -/
theorem hasShape_reduceWords (shapes : ∀ rank ∈ ranks, (inputs rank).HasShape type size)
    (some : ranks ≠ []) :
    Tensor.HasShape ⟨type, reduceWords type reduction (ranks.map fun rank => (inputs rank).words)⟩
      type size := by
  refine ⟨rfl, length_reduceWords type reduction ?_ (by simpa using some)⟩
  intro words listed
  obtain ⟨rank, member, rfl⟩ := List.mem_map.mp listed
  exact (shapes rank member).2

/-- An in-place reduction gives each member the reduction of all inputs in the order of the
group. -/
theorem conclude_allReduce (shapes : ∀ rank ∈ ranks, (inputs rank).HasShape type size)
    {rank : Nat} (member : rank ∈ ranks) (me : Nat) :
    conclude (.allReduce group reduction (inputs rank)) rank me
        (ranks.map fun other => (Call.allReduce group reduction (inputs other)).contribution) =
      .ok (.allReduce group reduction
        ⟨type, reduceWords type reduction (ranks.map fun other => (inputs other).words)⟩) := by
  have someone : ranks ≠ [] := List.ne_nil_of_mem member
  have received : payload (.allReduce group reduction (inputs rank)) me
      (ranks.map fun other => (Call.allReduce group reduction (inputs other)).contribution) =
      .ok (.one ⟨type,
        reduceWords type reduction (ranks.map fun other => (inputs other).words)⟩) :=
    payload_allReduce (fun _ _ => rfl) shapes someone rfl
  let made (other : Nat) := Call.allReduce group reduction (inputs other)
  have same : ∀ other ∈ ranks, (made other).operation = .allReduce := fun _ _ => rfl
  rw [conclude_eq_deliver (agreed_of_map same member)]
  refine deliver_one received rfl ⟨(shapes rank member).1, ?_⟩
  exact (shapes rank member).2.trans (hasShape_reduceWords reduction shapes someone).2.symm

/-- A scattered reduction gives each member its chunk of the reduction of all inputs. -/
theorem conclude_reduceScatterBase {outputs : Nat → Tensor}
    (shapes : ∀ rank ∈ ranks, (inputs rank).HasShape type (ranks.length * size)) {rank : Nat}
    (member : rank ∈ ranks) (fits : (outputs rank).HasShape type size) {me : Nat}
    (inside : me < ranks.length) :
    conclude (.reduceScatterBase group reduction (inputs rank) (outputs rank)) rank me
        (ranks.map fun other =>
          (Call.reduceScatterBase group reduction (inputs other) (outputs other)).contribution) =
      .ok (.reduceScatterBase group reduction (inputs rank) ⟨type, chunkAt size
        (reduceWords type reduction (ranks.map fun other => (inputs other).words)) me⟩) := by
  have someone : ranks ≠ [] := List.ne_nil_of_mem member
  have received : payload (.reduceScatterBase group reduction (inputs rank) (outputs rank)) me
      (ranks.map fun other =>
        (Call.reduceScatterBase group reduction (inputs other) (outputs other)).contribution) =
      .ok (.one ⟨type, chunkAt size
        (reduceWords type reduction (ranks.map fun other => (inputs other).words)) me⟩) :=
    payload_reduceScatterBase rfl (fun _ _ => rfl) shapes rfl fits.2 inside
  let made (other : Nat) := Call.reduceScatterBase group reduction (inputs other) (outputs other)
  have same : ∀ other ∈ ranks, (made other).operation = .reduceScatterBase := fun _ _ => rfl
  rw [conclude_eq_deliver (agreed_of_map same member)]
  refine deliver_one received rfl ⟨fits.1, fits.2.trans ?_⟩
  exact (length_chunkAt (hasShape_reduceWords reduction shapes someone).2 inside).symm

/-- Gathering gives each member the words of all inputs in the order of the group. -/
theorem conclude_allGatherBase {outputs : Nat → Tensor}
    (types : ∀ rank ∈ ranks, (inputs rank).type = type) {rank : Nat}
    (member : rank ∈ ranks)
    (fits : (outputs rank).HasShape type (ranks.flatMap fun other => (inputs other).words).length)
    (me : Nat) :
    conclude (.allGatherBase group (inputs rank) (outputs rank)) rank me
        (ranks.map fun other =>
          (Call.allGatherBase group (inputs other) (outputs other)).contribution) =
      .ok (.allGatherBase group (inputs rank)
        ⟨type, ranks.flatMap fun other => (inputs other).words⟩) := by
  have received : payload (.allGatherBase group (inputs rank) (outputs rank)) me
      (ranks.map fun other =>
        (Call.allGatherBase group (inputs other) (outputs other)).contribution) =
      .ok (.one ⟨type, ranks.flatMap fun other => (inputs other).words⟩) :=
    payload_allGatherBase (fun _ _ => rfl) rfl types (List.ne_nil_of_mem member)
  let made (other : Nat) := Call.allGatherBase group (inputs other) (outputs other)
  have same : ∀ other ∈ ranks, (made other).operation = .allGatherBase := fun _ _ => rfl
  rw [conclude_eq_deliver (agreed_of_map same member)]
  exact deliver_one received rfl fits

end

end CollectiveBench
