import CollectiveBench.World.Delivery

/-!
# Delivered calls

A delivered call is the call that was issued, or that call with another content of its
destination. Nothing else about it changes, so whatever is asked of a returned call other than
its destination can be asked of the issued one.
-/

namespace CollectiveBench

/-- Writing the destination leaves the operation. -/
@[simp] theorem Buffers.operation_withDestination (buffers : Buffers) (destination : Staged) :
    (buffers.withDestination destination).operation = buffers.operation := by
  cases output : buffers.output <;> simp [withDestination, output]

/-- Writing the destination leaves the split. -/
@[simp] theorem Buffers.inSplit_withDestination (buffers : Buffers) (destination : Staged) :
    (buffers.withDestination destination).inSplit = buffers.inSplit := by
  cases output : buffers.output <;> simp [withDestination, output]

/-- Writing a destination what it holds already changes nothing. -/
@[simp] theorem Buffers.withDestination_destination (buffers : Buffers) :
    buffers.withDestination buffers.destination = buffers := by
  cases output : buffers.output <;> simp [withDestination, destination, output]
  all_goals cases buffers; simp_all

/-- A call that a round has nothing for comes back as it is; any other call comes back with what
its destination took over from the payload. -/
theorem deliver_eq_ok [Arithmetic] {call returned : Call} {me : Nat} {all : List Contribution}
    (delivered : deliver call me all = .ok returned) :
    payload call me all = .ok .nothing ∧ returned = call ∨
      ∃ received destination, payload call me all = .ok received ∧ received ≠ .nothing ∧
        call.buffers.destination.accept call.operation.name received = .ok destination ∧
        returned = { call with buffers := call.buffers.withDestination destination } := by
  unfold deliver at delivered
  cases received : payload call me all with
  | error error => simp [received, bind, Except.bind] at delivered
  | ok parts =>
    cases parts with
    | nothing =>
      refine .inl ⟨rfl, ?_⟩
      simpa [received, bind, Except.bind, pure, Except.pure, eq_comm] using delivered
    | one tensor =>
      cases taken : call.buffers.destination.accept call.operation.name (.one tensor) with
      | error error => simp [received, taken, bind, Except.bind] at delivered
      | ok destination =>
        refine .inr ⟨_, destination, rfl, by simp, taken, ?_⟩
        simpa [received, taken, bind, Except.bind, pure, Except.pure, eq_comm] using delivered
    | many parts =>
      cases taken : call.buffers.destination.accept call.operation.name (.many parts) with
      | error error => simp [received, taken, bind, Except.bind] at delivered
      | ok destination =>
        refine .inr ⟨_, destination, rfl, by simp, taken, ?_⟩
        simpa [received, taken, bind, Except.bind, pure, Except.pure, eq_comm] using delivered

/-- A call keeps its operation when its round is delivered. -/
theorem deliver_operation [Arithmetic] {call returned : Call} {me : Nat} {all : List Contribution}
    (delivered : deliver call me all = .ok returned) : returned.operation = call.operation := by
  rcases deliver_eq_ok delivered with ⟨_, rfl⟩ | ⟨_, destination, _, _, _, rfl⟩
  · rfl
  · exact call.buffers.operation_withDestination destination

/-- A call is only answered with a call where all members of its round issued one operation. -/
theorem conclude_eq_ok [Arithmetic] {call returned : Call} {rank me : Nat} {all : List Contribution}
    (concluded : conclude call rank me all = .ok returned) :
    (∀ contribution ∈ all, contribution.operation = call.operation) ∧
      deliver call me all = .ok returned := by
  unfold conclude at concluded
  split at concluded
  next other found => cases concluded
  next missing =>
    refine ⟨?_, concluded⟩
    simpa [List.find?_eq_none] using missing

/-- A barrier comes back as it was issued. -/
theorem deliver_barrier [Arithmetic] {call : Call} (me : Nat) (all : List Contribution)
    (barrier : call.operation = .barrier) : deliver call me all = .ok call := by
  simp [deliver, payload, barrier, bind, Except.bind, pure, Except.pure]

end CollectiveBench
