import CollectiveBench.Proofs.Delivery.Terms
import CollectiveBench.Proofs.Delivery.Uniform
import CollectiveBench.Proofs.Exchange.ReturnedCalls

/-!
# Who is checked

Whether a member receives something is decided twice: by the delivery of its round, which asks the
call whether the member is a receiver, and by the check of its destination, which reads the list of
receivers itself. The two agree about every recipient but those of a multicast that names no
receivers. It goes to everyone, and nobody looks at what arrives.
-/

namespace CollectiveBench

namespace Call

/-- The round has something for the member, and the member's destination takes it over. -/
def TakesOver (call : Call) (me : Nat) (all : List Contribution) : Prop :=
  ∃ received destination, payload call me all = .ok received ∧ received ≠ .nothing ∧
    call.buffers.destination.accept call.operation.name received = .ok destination

/-- A multicast goes to everyone because it names nobody. -/
def NamesNobody (call : Call) : Prop := call.operation = .multicast ∧ call.destinations = []

/-- The destination is looked at although the member receives nothing: the sender of a multicast
may be on its own list, and whoever waits for a message is taken to get one. -/
def CheckedAnyway (call : Call) (me : Nat) : Prop :=
  call.operation = .recv ∨ call.operation = .multicast ∧ me = call.root ∧ me ∈ call.destinations

end Call

variable {call returned : Call} {me : Nat} {all : List Contribution}

/-! ## What a recipient is given -/

/-- A round has something for each recipient, or fails. -/
theorem payload_ne_nothing (receives : call.Receives me) (all : List Contribution) :
    GivesOnly (payload call me all) (· ≠ .nothing) := by
  have one (tensor : Tensor) : GivesOnly (.ok (.one tensor)) (· ≠ Payload.nothing) :=
    givesOnly_ok (by simp)
  have many (parts : List Tensor) : GivesOnly (.ok (.many parts)) (· ≠ Payload.nothing) :=
    givesOnly_ok (by simp)
  have sent (rank : Nat) (name : String) : GivesOnly
      (do return .one (← (← contributionOf all rank).input.expectSingle name))
      (· ≠ Payload.nothing) :=
    givesOnly_of_next fun _ => givesOnly_of_next one
  unfold Call.Receives at receives
  unfold payload
  cases operation : call.operation <;> simp only [operation] at receives ⊢
  case allReduce | reduceScatter => exact givesOnly_of_next one
  case allToAllv | allGatherBase => exact givesOnly_of_next fun _ => givesOnly_of_next one
  case allToAll | allGather => exact givesOnly_of_next many
  case reduceScatterBase =>
    exact givesOnly_of_next fun _ => givesOnly_of_next fun _ => givesOnly_of_next one
  case broadcast => exact sent _ _
  case scatter => exact givesOnly_of_next fun _ => givesOnly_of_next one
  case reduce =>
    rw [if_pos receives]
    exact givesOnly_of_next one
  case gather | incast =>
    rw [if_pos receives]
    exact givesOnly_of_next many
  case multicast =>
    rw [if_pos receives]
    exact sent _ _
  case pt2pt | recv =>
    obtain ⟨_, pair⟩ := receives
    obtain ⟨source, found⟩ := exists_senderTo pair
    rw [found]
    exact sent _ _

/-- In a delivered round, exactly the recipients take something over. -/
theorem takesOver_iff_receives (delivered : deliver call me all = .ok returned) :
    call.TakesOver me all ↔ call.Receives me := by
  constructor
  · rintro ⟨received, _, given, something, _⟩
    by_contra nothing
    rw [payload_eq_nothing nothing all] at given
    exact something (Except.ok.inj given).symm
  · intro receives
    rcases deliver_eq_ok delivered with
      ⟨given, _⟩ | ⟨received, destination, given, something, taken, _⟩
    · exact absurd rfl (payload_ne_nothing receives all _ given)
    · exact ⟨received, destination, given, something, taken⟩

/-! ## What is looked at -/

/-- A recipient is checked, unless it receives a multicast that names nobody. -/
theorem shouldCheck_iff_of_receives (receives : call.Receives me) :
    Checker.shouldCheck call me ↔ ¬ call.NamesNobody := by
  unfold Call.Receives at receives
  unfold Checker.shouldCheck Call.NamesNobody
  cases operation : call.operation <;> simp only [operation] at receives ⊢
  case reduce | gather | incast => simpa using receives
  case multicast =>
    have listed : call.destinations = [] ∨ me ∈ call.destinations := by
      simpa [Call.isDestination] using receives.2
    rcases listed with nobody | named
    · simp [nobody]
    · simp [named, List.ne_nil_of_mem named]
  case pt2pt =>
    obtain ⟨_, pair⟩ := receives
    simpa using (List.of_mem_zip pair).2
  all_goals simp

/-- Of the members that receive nothing, those are checked whose list of receivers has them. -/
theorem shouldCheck_iff_of_not_receives {rank : Nat}
    (peers : call.checkPeers rank all.length = .ok ()) (nothing : ¬ call.Receives me) :
    Checker.shouldCheck call me ↔ call.CheckedAnyway me := by
  unfold Call.Receives at nothing
  unfold Checker.shouldCheck Call.CheckedAnyway
  cases operation : call.operation <;> simp only [operation] at nothing ⊢
  case reduce | gather | incast => simpa using nothing
  case multicast =>
    -- Of the members on the list, only the sender receives nothing.
    by_cases named : me ∈ call.destinations
    · have root : me = call.root := by simpa [Call.isDestination, named] using nothing
      simp [root]
    · simp [named]
  case pt2pt =>
    -- Each receiver has a sender, because the two lists are as long as each other.
    have unnamed : me ∉ call.destinations := fun named =>
      nothing (exists_pair ((Call.checkPeers_eq_ok.mp peers).2.2 (.inl operation)) named)
    simp [unnamed]
  case recv | barrier | wait | noop => simp
  all_goals exact absurd trivial nothing

/-- A delivered call is read by the check as the call that was issued. -/
theorem shouldCheck_delivered (delivered : deliver call me all = .ok returned) (rank : Nat) :
    Checker.shouldCheck returned rank = Checker.shouldCheck call rank := by
  rcases deliver_eq_ok delivered with ⟨_, rfl⟩ | ⟨_, destination, _, _, _, rfl⟩
  · rfl
  · have operation := call.buffers.operation_withDestination destination
    simp only [Checker.shouldCheck, Call.operation, operation]

/-- Which destinations are looked at, in a round of any operation for a call whose peers are
accepted. Exactly the recipients of the call take something over. Each of them is checked, except
where a multicast goes to everyone because it names nobody; there the check passes whatever the
destination holds. Of the members that take nothing over, the sender of a multicast is checked if
it is on its own list, and everyone in a round of receiving. -/
theorem recipients_checked {rank : Nat} (peers : call.checkPeers rank all.length = .ok ())
    (delivered : deliver call me all = .ok returned) :
    (call.TakesOver me all ↔ call.Receives me) ∧
    (call.TakesOver me all → (Checker.shouldCheck call me ↔ ¬ call.NamesNobody)) ∧
    (¬ call.TakesOver me all → (Checker.shouldCheck call me ↔ call.CheckedAnyway me)) ∧
    (call.NamesNobody → ∀ (checker : Checker) (worldSize sizeBytes : Nat),
      checker.check returned me worldSize sizeBytes = .ok ()) := by
  rw [takesOver_iff_receives delivered]
  refine ⟨Iff.rfl, shouldCheck_iff_of_receives, shouldCheck_iff_of_not_receives peers, ?_⟩
  rintro ⟨multicast, nobody⟩ checker worldSize sizeBytes
  have skipped : Checker.shouldCheck returned me = false := by
    rw [shouldCheck_delivered delivered]
    simp [Checker.shouldCheck, multicast, nobody]
  simp [Checker.check, skipped]

/-- A message from point to point to a member of a group of three. -/
theorem recipients_checked_message :
    let call : Call :=
      { buffers := { operation := .pt2pt, input := .single ⟨.u8, [4]⟩ }, sources := [2, 0],
        destinations := [0, 1] }
    let sent (word : Nat) : Contribution := ⟨.pt2pt, .single ⟨.u8, [word]⟩, none⟩
    let all := [sent 6, sent 4, sent 5]
    call.checkPeers 1 3 = .ok () ∧ call.TakesOver 1 all ∧ Checker.shouldCheck call 1 = true := by
  intro call sent all
  have peers : call.checkPeers 1 all.length = .ok () := rfl
  have delivered : deliver call 1 all =
      .ok { call with buffers := { operation := .pt2pt, input := .single ⟨.u8, [6]⟩ } } := rfl
  obtain ⟨takers, checked, _⟩ := recipients_checked peers delivered
  have takes : call.TakesOver 1 all := takers.mpr ⟨0, by decide⟩
  exact ⟨peers, takes, (checked takes).mpr fun nobody => nomatch nobody.1⟩

/-- A multicast that names nobody reaches the other member of a group of two, whose destination is
not looked at: any expectation passes. -/
theorem recipient_unchecked :
    let call (word : Nat) : Call :=
      { buffers := { operation := .multicast, input := .single ⟨.i32, [word]⟩ } }
    let all := [(call 5).contribution, (call 3).contribution]
    (call 3).checkPeers 1 2 = .ok () ∧ (call 3).TakesOver 1 all ∧
      conclude (call 3) 1 1 all = .ok (call 5) ∧ (call 3).isDestination 1 = true ∧
      Checker.shouldCheck (call 3) 1 = false ∧
      Checker.check ⟨.ofNat 1⟩ (call 5) 1 2 4 = .ok () := by
  intro call all
  exact ⟨rfl, ⟨.one ⟨.i32, [5]⟩, .single ⟨.i32, [5]⟩, rfl, by simp, rfl⟩, rfl, rfl, rfl, rfl⟩

end CollectiveBench
