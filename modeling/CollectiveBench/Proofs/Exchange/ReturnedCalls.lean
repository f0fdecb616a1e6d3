import CollectiveBench.Proofs.Exchange.Rendezvous
import CollectiveBench.Proofs.Outcomes

/-!
# What a round leaves alone

A round writes the contents of its recipients' destinations and nothing else. Every buffer keeps
its form, because a tensor is only ever copied onto one of its own type and length; an input beside
a separate output keeps its contents too; and a member that the operation has nothing for gets back
the very call that it issued. Whatever decides about a call's next round is therefore what it was,
and the call can go through any number of rounds.
-/

namespace CollectiveBench

/-- Single or list, with the type and the length of each tensor. -/
def Staged.shape (staged : Staged) : Bool × List (ElementType × Nat) :=
  (staged.isList, staged.tensors.map fun tensor => (tensor.type, tensor.count))

namespace Call

/-- Whether the operation has something for the member of rank `me`. -/
def Receives (call : Call) (me : Nat) : Prop :=
  match call.operation with
  | .reduce | .gather | .incast => me = call.root
  | .multicast => me ≠ call.root ∧ call.isDestination me
  | .pt2pt | .recv => ∃ source, (source, me) ∈ call.sources.zip call.destinations
  | .barrier | .wait | .noop => False
  | .allReduce | .broadcast | .allToAll | .allToAllv | .allGather | .allGatherBase
  | .reduceScatter | .reduceScatterBase | .scatter => True

/-- The calls are the same up to what their buffers contain. -/
structure Alike (call returned : Call) : Prop where
  operation : returned.operation = call.operation
  inSplit : returned.buffers.inSplit = call.buffers.inSplit
  outSplit : returned.buffers.outSplit = call.buffers.outSplit
  root : returned.root = call.root
  sources : returned.sources = call.sources
  destinations : returned.destinations = call.destinations
  group : returned.group = call.group
  reduction : returned.reduction = call.reduction
  input : returned.buffers.input.shape = call.buffers.input.shape
  output : returned.buffers.output.map Staged.shape = call.buffers.output.map Staged.shape

/-- The returned call differs from the issued one at most in what the destination of a recipient
contains. -/
structure Framed (call : Call) (me : Nat) (returned : Call) : Prop where
  alike : call.Alike returned
  separate : call.buffers.output.isSome → returned.buffers.input = call.buffers.input
  bystander : ¬ call.Receives me → returned = call

/-- A call is like itself. -/
theorem Alike.refl (call : Call) : call.Alike call :=
  ⟨rfl, rfl, rfl, rfl, rfl, rfl, rfl, rfl, rfl, rfl⟩

/-- If a call is like a second one, and this one like a third, it is like the third. -/
theorem Alike.trans {call middle returned : Call} (first : call.Alike middle)
    (rest : middle.Alike returned) : call.Alike returned where
  operation := rest.operation.trans first.operation
  inSplit := rest.inSplit.trans first.inSplit
  outSplit := rest.outSplit.trans first.outSplit
  root := rest.root.trans first.root
  sources := rest.sources.trans first.sources
  destinations := rest.destinations.trans first.destinations
  group := rest.group.trans first.group
  reduction := rest.reduction.trans first.reduction
  input := rest.input.trans first.input
  output := rest.output.trans first.output

/-- A call that differs only in its contents asks for the same seat. -/
theorem Alike.seatFor_eq {call returned : Call} (alike : call.Alike returned) (world : World)
    (rank : Nat) : world.seatFor rank returned = world.seatFor rank call := by
  unfold World.seatFor checkPeers
  rw [alike.operation, alike.group, alike.root, alike.sources, alike.destinations]

/-- A call that is returned as it was differs in nothing. -/
theorem Framed.refl (call : Call) (me : Nat) : call.Framed me call :=
  ⟨.refl call, fun _ => rfl, fun _ => rfl⟩

/-- What differs in the destination of a recipient twice differs in nothing else. -/
theorem Framed.trans {call middle returned : Call} {me : Nat} (first : call.Framed me middle)
    (rest : middle.Framed me returned) : call.Framed me returned where
  alike := first.alike.trans rest.alike
  separate := by
    intro separate
    have still : middle.buffers.output.isSome := by
      have forms := congrArg Option.isSome first.alike.output
      simpa [separate] using forms
    exact (rest.separate still).trans (first.separate separate)
  bystander := by
    intro nothing
    have same := first.bystander nothing
    subst same
    exact rest.bystander nothing

end Call

/-! ## Taking over a payload -/

/-- A tensor that takes over another one keeps its type and its length. -/
theorem Tensor.form_copyFrom (target source : Tensor) :
    GivesOnly (target.copyFrom source) fun taken =>
      (taken.type, taken.count) = (target.type, target.count) := by
  intro taken copied
  obtain ⟨_, compatible, same⟩ := bind_eq_ok copied
  obtain rfl := Except.ok.inj same
  exact congrArg _ ((checkCompatible_eq_ok_iff target source).mp compatible).2.symm

/-- A destination keeps its form, whatever is written into it. -/
theorem Staged.shape_accept {name : String} {destination taken : Staged} {received : Payload}
    (accepted : destination.accept name received = .ok taken) :
    taken.shape = destination.shape := by
  cases received with
  | nothing => exact congrArg _ (Except.ok.inj accepted).symm
  | one tensor =>
    cases destination with
    | list targets => cases accepted
    | single target =>
      obtain ⟨copy, copied, same⟩ := bind_eq_ok accepted
      obtain rfl := Except.ok.inj same
      simp [shape, isList, tensors, target.form_copyFrom tensor copy copied]
  | many parts =>
    cases destination with
    | single target => cases accepted
    | list targets =>
      rw [accept] at accepted
      split at accepted
      · cases accepted
      · next lengths =>
        obtain ⟨copies, copied, same⟩ := bind_eq_ok accepted
        obtain rfl := Except.ok.inj same
        have forms : copies.map (fun taken => (taken.type, taken.count)) =
            (targets.zip parts).map fun pair => (pair.1.type, pair.1.count) :=
          givesOnly_mapM_map (fun pair _ => pair.1.form_copyFrom pair.2) copies copied
        have firsts : (targets.zip parts).map Prod.fst = targets :=
          List.map_fst_zip (Nat.le_of_eq (not_not.mp lengths))
        have kept : copies.map (fun taken => (taken.type, taken.count)) =
            targets.map fun target => (target.type, target.count) := by
          rw [forms, ← firsts, List.map_map, firsts]
          rfl
        simp [shape, isList, tensors, kept]

/-- Writing the destination keeps the form of both buffers if it keeps that of the destination,
and leaves an input that is not the destination. -/
theorem Buffers.shapes_withDestination {buffers : Buffers} {destination : Staged}
    (same : destination.shape = buffers.destination.shape) :
    (buffers.withDestination destination).input.shape = buffers.input.shape ∧
      (buffers.withDestination destination).output.map Staged.shape =
        buffers.output.map Staged.shape ∧
      (buffers.output.isSome → (buffers.withDestination destination).input = buffers.input) := by
  cases output : buffers.output with
  | none => simpa [withDestination, Buffers.destination, output] using same
  | some given => simpa [withDestination, Buffers.destination, output] using same

/-- Writing the destination leaves the split of what is received. -/
@[simp] theorem Buffers.outSplit_withDestination (buffers : Buffers) (destination : Staged) :
    (buffers.withDestination destination).outSplit = buffers.outSplit := by
  cases output : buffers.output <;> simp [withDestination, output]

/-! ## One round and many -/

/-- Nobody sends to a member that no sender is paired with. -/
theorem senderTo_eq_none {me : Nat} {sources destinations : List Nat}
    (unpaired : ¬ ∃ source, (source, me) ∈ sources.zip destinations) :
    senderTo me sources destinations = none := by
  have nobody : (sources.zip destinations).filter (·.2 = me) = [] := by
    rw [List.filter_eq_nil_iff]
    rintro ⟨source, target⟩ paired own
    obtain rfl : target = me := of_decide_eq_true own
    exact unpaired ⟨source, paired⟩
  rw [senderTo, nobody]
  rfl

/-- A round has nothing for a member that the operation does not send to. -/
theorem payload_eq_nothing {call : Call} {me : Nat} (nothing : ¬ call.Receives me)
    (all : List Contribution) : payload call me all = .ok .nothing := by
  unfold Call.Receives at nothing
  unfold payload
  cases operation : call.operation <;> simp only [operation] at nothing ⊢
  case reduce | gather | incast => simp [nothing, pure, Except.pure]
  case multicast => rw [if_neg nothing]; rfl
  case pt2pt | recv => rw [senderTo_eq_none nothing]; rfl
  case barrier | wait | noop => rfl
  all_goals exact absurd trivial nothing

/-- A member whose call is answered with a call gets that call framed. -/
theorem conclude_framed {call returned : Call} {rank me : Nat} {all : List Contribution}
    (concluded : conclude call rank me all = .ok returned) : call.Framed me returned := by
  rcases deliver_eq_ok (conclude_eq_ok concluded).2 with
    ⟨_, rfl⟩ | ⟨received, destination, given, something, taken, rfl⟩
  · exact .refl _ me
  · obtain ⟨input, output, separate⟩ :=
      Buffers.shapes_withDestination (Staged.shape_accept taken)
    refine ⟨⟨?_, ?_, ?_, rfl, rfl, rfl, rfl, rfl, input, output⟩, separate, ?_⟩
    · exact Buffers.operation_withDestination _ destination
    · exact Buffers.inSplit_withDestination _ destination
    · exact Buffers.outSplit_withDestination _ destination
    · intro nothing
      rw [payload_eq_nothing nothing all] at given
      exact absurd (Except.ok.inj given).symm something

/-- A call that goes through one round after the other, in each of them with whatever the others
contribute, stays framed. -/
theorem rounds_framed {rank me : Nat} {rounds : List (List Contribution)} {call returned : Call}
    (concluded : rounds.foldlM (fun call all => conclude call rank me all) call = .ok returned) :
    call.Framed me returned := by
  induction rounds generalizing call with
  | nil => exact (Except.ok.inj concluded) ▸ .refl call me
  | cons all rest inductionHypothesis =>
    rw [List.foldlM_cons] at concluded
    obtain ⟨middle, first, onward⟩ := bind_eq_ok concluded
    exact (conclude_framed first).trans (inductionHypothesis onward)

/-- A call that goes through any number of rounds keeps everything but the contents of its
buffers, so that it asks for the same seat in whatever world; it keeps an input beside a separate
output; and if its member is no recipient, it is the issued call. -/
theorem rounds_write_destinations_only {rank me : Nat} {rounds : List (List Contribution)}
    {call returned : Call}
    (concluded : rounds.foldlM (fun call all => conclude call rank me all) call = .ok returned) :
    call.Alike returned ∧
    (call.buffers.output.isSome → returned.buffers.input = call.buffers.input) ∧
    (¬ call.Receives me → returned = call) ∧
    ∀ (world : World) (other : Nat), world.seatFor other returned = world.seatFor other call := by
  have framed := rounds_framed concluded
  exact ⟨framed.alike, framed.separate, framed.bystander, framed.alike.seatFor_eq⟩

/-- The root of a reduction beside a separate output, in two rounds. -/
theorem rounds_write_destinations_only_twice :
    let buffers (word : Nat) : Buffers :=
      { operation := .reduce, input := .single ⟨.u8, [1]⟩, output := some (.single ⟨.u8, [word]⟩) }
    let call (word : Nat) : Call := { buffers := buffers word }
    let round (word : Nat) : List Contribution :=
      [(call 0).contribution, ⟨.reduce, .single ⟨.u8, [word]⟩, none⟩]
    [round 4, round 6].foldlM (fun call all => conclude call 0 0 all) (call 0) = .ok (call 7) ∧
      (call 0).Alike (call 7) := by
  intro buffers call round
  have concluded : [round 4, round 6].foldlM (fun call all => conclude call 0 0 all) (call 0) =
      .ok (call 7) := rfl
  exact ⟨concluded, (rounds_write_destinations_only concluded).1⟩

end CollectiveBench
