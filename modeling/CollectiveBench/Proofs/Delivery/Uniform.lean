import CollectiveBench.Checker
import CollectiveBench.Proofs.Delivery.Delivered
import CollectiveBench.Proofs.Outcomes

/-!
# One word everywhere

Operations that move elements make none of their own. If every element that the senders contribute
is one word, then every element that a member receives is that word, and so is every element of a
destination that took something over (`givesOnly_deliver`). Nothing is assumed about shapes here:
a round may fail, but what it delivers consists of what was sent.
-/

namespace CollectiveBench

/-- All elements are one word. -/
def Tensor.Holds (word : Nat) (tensor : Tensor) : Prop := ∀ other ∈ tensor.words, other = word

/-- All elements of all tensors are one word. -/
def Staged.Holds (word : Nat) (staged : Staged) : Prop :=
  ∀ tensor ∈ staged.tensors, tensor.Holds word

/-- The tensors of a payload. -/
def Payload.tensors : Payload → List Tensor
  | .nothing => []
  | .one tensor => [tensor]
  | .many parts => parts

/-- All elements of a payload are one word. -/
def Payload.Holds (word : Nat) (received : Payload) : Prop :=
  ∀ tensor ∈ received.tensors, tensor.Holds word

variable {word : Nat}

/-! ## Fetching, cutting and joining -/

/-- The tensor of a buffer that holds one word holds it. -/
theorem Staged.Holds.givesOnly_single {staged : Staged} (holds : staged.Holds word)
    (name : String) : GivesOnly (staged.expectSingle name) (·.Holds word) := by
  cases staged with
  | single tensor => exact givesOnly_ok (holds tensor (List.mem_singleton_self tensor))
  | list tensors => exact givesOnly_error _

/-- The tensors of a list that holds one word hold it. -/
theorem Staged.Holds.givesOnly_part {staged : Staged} (holds : staged.Holds word) (name : String)
    (place : Nat) : GivesOnly (staged.part name place) (·.Holds word) := by
  cases staged with
  | single tensor => exact givesOnly_error _
  | list tensors =>
    rw [Staged.part]
    cases found : tensors[place]? with
    | none => exact givesOnly_error _
    | some tensor => exact givesOnly_ok (holds tensor (List.mem_of_getElem? found))

/-- What is cut out of a tensor that holds one word holds it. -/
theorem Tensor.Holds.givesOnly_slice {tensor : Tensor} (holds : tensor.Holds word)
    (start length : Nat) : GivesOnly (tensor.slice start length) (·.Holds word) := by
  rw [Tensor.slice_exact]
  split
  · exact givesOnly_error _
  · exact givesOnly_ok fun other taken =>
      holds other (List.mem_of_mem_drop (List.mem_of_mem_take taken))

/-- The words of the parts are joined. -/
theorem givesOnly_joinParts_words (parts : List Tensor) :
    GivesOnly (joinParts parts) (·.words = parts.flatMap Tensor.words) := by
  rw [joinParts, Tensor.concat]
  split
  · exact givesOnly_error _
  · exact givesOnly_ok rfl

/-- Tensors that hold one word are joined to one that holds it. -/
theorem givesOnly_joinParts {parts : List Tensor} (holds : ∀ part ∈ parts, part.Holds word) :
    GivesOnly (joinParts parts) (·.Holds word) := by
  intro joined succeeds other listed
  rw [givesOnly_joinParts_words parts joined succeeds] at listed
  obtain ⟨part, present, taken⟩ := List.mem_flatMap.mp listed
  exact holds part present other taken

/-- A contribution that is found is the one of the member. -/
theorem givesOnly_contributionOf (all : List Contribution) (rank : Nat) :
    GivesOnly (contributionOf all rank) (all[rank]? = some ·) := by
  rw [contributionOf]
  cases found : all[rank]? with
  | none => exact givesOnly_error _
  | some contribution => exact givesOnly_ok rfl

/-- The block for a member holds the word that the whole input holds. -/
theorem givesOnly_blockFor {contribution : Contribution} (holds : contribution.input.Holds word)
    (name : String) (me size : Nat) :
    GivesOnly (blockFor name me size contribution) (·.Holds word) := by
  rw [blockFor]
  split
  · exact givesOnly_error _
  · split
    · exact givesOnly_error _
    · exact (holds.givesOnly_single name).bind fun _ single => single.givesOnly_slice _ _

/-! ## What is received -/

/-- A member that a sender is paired with is sent something. -/
theorem exists_senderTo {me source : Nat} {sources destinations : List Nat}
    (pair : (source, me) ∈ sources.zip destinations) :
    ∃ sender, senderTo me sources destinations = some sender := by
  have own : (source, me) ∈ (sources.zip destinations).filter (·.2 = me) :=
    List.mem_filter.mpr ⟨pair, by simp⟩
  have last := List.getLast?_eq_some_getLast (List.ne_nil_of_mem own)
  exact ⟨_, by rw [senderTo, last, Option.map_some]⟩

/-- A member that is listed as a receiver is paired with a sender. -/
theorem exists_pair {me : Nat} {sources destinations : List Nat}
    (paired : sources.length = destinations.length) (listed : me ∈ destinations) :
    ∃ source, (source, me) ∈ sources.zip destinations := by
  obtain ⟨place, inside, rfl⟩ := List.getElem_of_mem listed
  exact ⟨sources[place], List.mem_iff_getElem?.mpr ⟨place, by simp [inside, paired]⟩⟩

/-- The member may need nothing although its destination is checked: the root of a multicast has
what it sends, and a member to which nobody sends has what it held. -/
def Call.Served (call : Call) (me : Nat) : Prop :=
  call.operation = .multicast ∧ me = call.root ∨ call.operation = .recv

/-- The payload consists of one word, and it is nothing only where the destination is not checked
or the member is served already. -/
structure Payload.Serves (word : Nat) (call : Call) (me : Nat) (received : Payload) : Prop where
  holds : received.Holds word
  needless : received = .nothing → Checker.shouldCheck call me → call.Served me

section

variable {call : Call} {me : Nat} {all : List Contribution}

/-- A tensor that holds the word serves. -/
theorem Tensor.Holds.serves {tensor : Tensor} (holds : tensor.Holds word) :
    (Payload.one tensor).Serves word call me :=
  ⟨by simpa [Payload.Holds, Payload.tensors] using holds, by simp⟩

/-- Tensors that all hold the word serve. -/
theorem EachOf.serves {count : Nat} {parts : List Tensor}
    (each : EachOf count (·.Holds word) parts) : (Payload.many parts).Serves word call me :=
  ⟨fun tensor present => each.2 tensor present, by simp⟩

/-- Nothing serves a member that is served already wherever it is checked. -/
theorem serves_nothing (unneeded : Checker.shouldCheck call me → call.Served me) :
    Payload.nothing.Serves word call me :=
  ⟨by simp [Payload.Holds, Payload.tensors], fun _ => unneeded⟩

/-- The single tensor of a sender. -/
theorem givesOnly_one_of {rank : Nat} (name : String)
    (sent : ∀ contribution, all[rank]? = some contribution → contribution.input.Holds word) :
    GivesOnly (do return .one (← (← contributionOf all rank).input.expectSingle name))
      (Payload.Serves word call me) :=
  (givesOnly_contributionOf all rank).bind fun contribution found =>
    ((sent contribution found).givesOnly_single name).bind fun _ holds => givesOnly_ok holds.serves

/-- What a member receives consists of what was sent, and where it receives nothing there is
nothing to check or it is served already. -/
theorem givesOnly_payload (moves : call.operation.isReduction = false)
    (sent : ∀ rank contribution, all[rank]? = some contribution →
      (Checker.onlyRootSends call.operation → rank = call.root) → contribution.input.Holds word)
    (paired : call.operation = .pt2pt → call.sources.length = call.destinations.length) :
    GivesOnly (payload call me all) (Payload.Serves word call me) := by
  have everyone (shared : Checker.onlyRootSends call.operation = false)
      (contribution : Contribution) (present : contribution ∈ all) :
      contribution.input.Holds word := by
    obtain ⟨rank, found⟩ := List.getElem?_of_mem present
    exact sent rank contribution found (by simp [shared])
  have fromRoot (contribution : Contribution) (found : all[call.root]? = some contribution) :
      contribution.input.Holds word := sent _ contribution found fun _ => rfl
  -- A case for each operation that moves elements: what it fetches, and what becomes of it.
  cases operation : call.operation <;> rw [operation] at moves everyone paired <;>
    try exact absurd moves (by decide)
  all_goals simp only [payload, operation]
  case allToAll =>
    exact (givesOnly_mapM fun contribution present =>
      (everyone rfl contribution present).givesOnly_part _ me).bind fun _ each =>
        givesOnly_ok each.serves
  case allToAllv =>
    exact (givesOnly_mapM fun contribution present =>
      givesOnly_blockFor (everyone rfl contribution present) _ me _).bind fun _ each =>
        (givesOnly_joinParts each.2).bind fun _ holds => givesOnly_ok holds.serves
  case broadcast => exact givesOnly_one_of _ fromRoot
  case gather =>
    split
    · exact (givesOnly_mapM fun contribution present =>
        (everyone rfl contribution present).givesOnly_single _).bind fun _ each =>
          givesOnly_ok each.serves
    next apart =>
      refine givesOnly_ok (serves_nothing fun checked => ?_)
      simp [Checker.shouldCheck, operation, apart] at checked
  case allGather =>
    exact (givesOnly_mapM fun contribution present =>
      (everyone rfl contribution present).givesOnly_single _).bind fun _ each =>
        givesOnly_ok each.serves
  case allGatherBase =>
    exact (givesOnly_mapM fun contribution present =>
      (everyone rfl contribution present).givesOnly_single _).bind fun _ each =>
        (givesOnly_joinParts each.2).bind fun _ holds => givesOnly_ok holds.serves
  case scatter =>
    exact (givesOnly_contributionOf all call.root).bind fun contribution found =>
      ((fromRoot contribution found).givesOnly_part _ me).bind fun _ holds =>
        givesOnly_ok holds.serves
  case incast =>
    split
    · refine (givesOnly_mapM fun source _ => ?_).bind fun _ each => givesOnly_ok each.serves
      exact (givesOnly_contributionOf all source).bind fun contribution found =>
        (everyone rfl contribution (List.mem_of_getElem? found)).givesOnly_single _
    next apart =>
      refine givesOnly_ok (serves_nothing fun checked => ?_)
      simp [Checker.shouldCheck, operation, apart] at checked
  case multicast =>
    split
    · exact givesOnly_one_of _ fromRoot
    next apart =>
      refine givesOnly_ok (serves_nothing fun checked => .inl ⟨operation, ?_⟩)
      have listed : me ∈ call.destinations := by
        simpa [Checker.shouldCheck, operation] using checked
      exact Decidable.byContradiction fun other =>
        apart ⟨other, by simp [Call.isDestination, listed]⟩
  case pt2pt =>
    split
    next source found =>
      exact givesOnly_one_of _ fun contribution found =>
        everyone rfl contribution (List.mem_of_getElem? found)
    next missing =>
      refine givesOnly_ok (serves_nothing fun checked => ?_)
      have listed : me ∈ call.destinations := by
        simpa [Checker.shouldCheck, operation] using checked
      obtain ⟨_, pair⟩ := exists_pair (paired rfl) listed
      obtain ⟨source, found⟩ := exists_senderTo pair
      rw [missing] at found
      cases found
  case recv =>
    split
    next source found =>
      exact givesOnly_one_of _ fun contribution found =>
        everyone rfl contribution (List.mem_of_getElem? found)
    next => exact givesOnly_ok (serves_nothing fun _ => .inr operation)
  all_goals
    refine givesOnly_ok (serves_nothing fun checked => ?_)
    simp [Checker.shouldCheck, operation] at checked

/-! ## What is taken over -/

/-- A copy has the type of its target and the words of its source. -/
theorem Tensor.givesOnly_copyFrom (target source : Tensor) :
    GivesOnly (target.copyFrom source) fun taken =>
      taken.type = target.type ∧ taken.words = source.words := by
  intro taken succeeds
  obtain ⟨_, _, same⟩ := bind_eq_ok succeeds
  obtain rfl := Except.ok.inj same
  exact ⟨rfl, rfl⟩

/-- A destination keeps the types of its tensors, and holds the word of what it took over. -/
theorem givesOnly_accept {type : ElementType} {destination : Staged} {received : Payload}
    (types : ∀ tensor ∈ destination.tensors, tensor.type = type) (holds : received.Holds word)
    (some : received ≠ .nothing) (name : String) :
    GivesOnly (destination.accept name received) fun after =>
      (∀ tensor ∈ after.tensors, tensor.type = type) ∧ after.Holds word := by
  cases received with
  | nothing => exact absurd rfl some
  | one tensor =>
    cases destination with
    | list targets => exact givesOnly_error _
    | single target =>
      refine (target.givesOnly_copyFrom tensor).bind fun taken same => givesOnly_ok ?_
      have source := holds tensor (List.mem_singleton_self tensor)
      have own := types target (List.mem_singleton_self target)
      simpa [Staged.tensors, Staged.Holds, Tensor.Holds, same.1, same.2, own] using source
  | many parts =>
    cases destination with
    | single target => exact givesOnly_error _
    | list targets =>
      rw [Staged.accept]
      split
      · exact givesOnly_error _
      · have copied : ∀ pair ∈ targets.zip parts, GivesOnly (pair.1.copyFrom pair.2) fun taken =>
            taken.type = type ∧ taken.Holds word := by
          intro pair paired taken succeeds
          obtain ⟨sameType, sameWords⟩ := Tensor.givesOnly_copyFrom pair.1 pair.2 taken succeeds
          refine ⟨sameType.trans (types _ (List.of_mem_zip paired).1), ?_⟩
          rw [Tensor.Holds, sameWords]
          exact holds _ (List.of_mem_zip paired).2
        refine (givesOnly_mapM copied).bind fun taken each => givesOnly_ok ?_
        exact ⟨fun tensor present => (each.2 tensor present).1,
          fun tensor present => (each.2 tensor present).2⟩

/-- A call that comes back from a round whose senders sent one word holds that word wherever its
destination is to be checked. -/
theorem givesOnly_deliver {type : ElementType} (moves : call.operation.isReduction = false)
    (sent : ∀ rank contribution, all[rank]? = some contribution →
      (Checker.onlyRootSends call.operation → rank = call.root) → contribution.input.Holds word)
    (paired : call.operation = .pt2pt → call.sources.length = call.destinations.length)
    (types : ∀ tensor ∈ call.buffers.destination.tensors, tensor.type = type)
    (served : call.Served me → call.buffers.destination.Holds word) :
    GivesOnly (deliver call me all) fun returned =>
      (∃ destination, returned =
        { call with buffers := call.buffers.withDestination destination }) ∧
      (Checker.shouldCheck call me →
        (∀ tensor ∈ returned.buffers.destination.tensors, tensor.type = type) ∧
          returned.buffers.destination.Holds word) := by
  intro returned delivered
  rcases deliver_eq_ok delivered with ⟨nothing, rfl⟩ | ⟨received, after, brought, some, taken, rfl⟩
  · have serves := givesOnly_payload moves sent paired _ nothing
    refine ⟨⟨returned.buffers.destination, by simp⟩, fun checked => ⟨types, ?_⟩⟩
    exact served (serves.needless rfl checked)
  · have serves := givesOnly_payload moves sent paired _ brought
    refine ⟨⟨after, rfl⟩, fun _ => ?_⟩
    rw [Buffers.destination_withDestination]
    exact givesOnly_accept types serves.holds some _ after taken

end

end CollectiveBench
