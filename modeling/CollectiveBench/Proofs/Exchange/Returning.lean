import CollectiveBench.Proofs.Delivery.Shapes
import CollectiveBench.Proofs.Exchange.ReturnedCalls
import CollectiveBench.Proofs.Exchange.ScatterGather

/-!
# Concerted calls

The members of a group issue one operation, with inputs that are given by rank and with room for
what they receive. One lemma for each operation says which calls they get back. Whatever else the
calls hold, such as the contents of a separate output or the split of what is expected, makes no
difference.
-/

namespace CollectiveBench

/-- The members of a group issue one operation. Their inputs are given by rank, the peers that they
name exist, and those that receive something have room for it. -/
structure Concerted (group : Nat) (operation : Operation) (ranks : List Nat)
    (inputs : Nat → Staged) (type : ElementType) (room : Extent) (made : Nat → Call) : Prop where
  group : ∀ rank ∈ ranks, (made rank).group = group
  operation : ∀ rank ∈ ranks, (made rank).operation = operation
  input : ∀ rank ∈ ranks, (made rank).buffers.input = inputs rank
  peers : ∀ rank ∈ ranks, (made rank).checkPeers rank ranks.length = .ok ()
  room : ∀ rank ∈ ranks, (made rank).Receives (ranks.idxOf rank) →
    (made rank).buffers.destination.Fits type room

/-- The members of a group get the calls back that are given by rank. It is so in a complete round,
and in a step in which all members issue their calls, in any order, before the first deadline. The
group is then ready for the next step. -/
structure Returns (group : Nat) (ranks : List Nat) (made returned : Nat → Call) : Prop where
  round : ∀ rank ∈ ranks, conclude (made rank) rank (ranks.idxOf rank)
    (ranks.map fun other => (made other).contribution) = .ok (returned rank)
  step : ∀ exchange : Exchange, exchange.Ready group → exchange.world.members group = ranks →
    ∀ pause, pause * (ranks.length - 1) < exchange.world.timeoutMs →
      ∀ order, order.Perm ranks →
        ((exchange.perform pause (oneEach made order)).2 =
          order.map fun rank => .ok (returned rank)) ∧
        (exchange.perform pause (oneEach made order)).1.Ready group ∧
        (exchange.perform pause (oneEach made order)).1.world = exchange.world

/-- The call of a member that received a payload. -/
def Call.receiving (call : Call) : Payload → Call
  | .nothing => call
  | .one tensor => call.withDestination (.single tensor)
  | .many parts => call.withDestination (.list parts)

/-- A call that has room for what it receives comes back with it. -/
theorem deliver_eq_receiving {type : ElementType} {room : Extent} {call : Call} {me : Nat}
    {all : List Contribution} {received : Payload} (paid : payload call me all = .ok received)
    (same : received.Fits type room)
    (fits : received ≠ .nothing → call.buffers.destination.Fits type room) :
    deliver call me all = .ok (call.receiving received) := by
  cases received with
  | nothing => exact deliver_nothing paid
  | one tensor => exact deliver_received paid (by simp) same (fits (by simp))
  | many parts => exact deliver_received paid (by simp) same (fits (by simp))

namespace Returns

variable {group : Nat} {ranks : List Nat} {made returned next nextReturned : Nat → Call}

/-- What complete rounds give is what steps give, for calls that wait for others and whose peers
exist. -/
theorem of_rounds (here : ∀ rank ∈ ranks, (made rank).group = group)
    (waits : ∀ rank ∈ ranks, (made rank).operation ≠ .noop ∧ (made rank).operation ≠ .wait)
    (peers : ∀ rank ∈ ranks, (made rank).checkPeers rank ranks.length = .ok ())
    (round : ∀ rank ∈ ranks, conclude (made rank) rank (ranks.idxOf rank)
      (ranks.map fun other => (made other).contribution) = .ok (returned rank)) :
    Returns group ranks made returned := by
  refine ⟨round, ?_⟩
  rintro exchange ready rfl pause prompt order everyone
  -- A step asks for a call of every rank, although only the members issue theirs.
  let total (rank : Nat) : Call :=
    if rank ∈ exchange.world.members group then made rank else .barrier group
  have own (rank : Nat) (member : rank ∈ exchange.world.members group) :
      total rank = made rank := if_pos member
  have totalHere (rank : Nat) : (total rank).group = group := by
    by_cases member : rank ∈ exchange.world.members group
    · rw [own rank member, here rank member]
    · rw [show total rank = .barrier group from if_neg member, Call.barrier]
  have accepted : ∀ rank ∈ exchange.world.members group,
      exchange.world.accepts rank (total rank) := by
    intro rank member
    rw [own rank member]
    exact World.accepts_of_peers (waits rank member)
      ((here rank member).symm ▸ peers rank member) ((here rank member).symm ▸ member)
  have calls : oneEach total order = oneEach made order :=
    List.map_congr_left fun rank listed => by rw [own rank (everyone.mem_iff.mp listed)]
  have contributions :
      ((exchange.world.members group).map fun other => (total other).contribution) =
        (exchange.world.members group).map fun other => (made other).contribution :=
    List.map_congr_left fun other member => by rw [own other member]
  have step := ready.perform_each total totalHere accepted everyone (everyone.length_eq ▸ prompt)
  rw [calls, contributions] at step
  obtain ⟨answers, readyAgain, world⟩ := step
  refine ⟨answers.trans (List.map_congr_left fun rank listed => ?_), readyAgain, world⟩
  have member := everyone.mem_iff.mp listed
  rw [own rank member]
  exact round rank member

/-- Only the calls that the members get back count. -/
theorem congr {others : Nat → Call} (returns : Returns group ranks made returned)
    (same : ∀ rank ∈ ranks, returned rank = others rank) : Returns group ranks made others where
  round rank member := same rank member ▸ returns.round rank member
  step exchange ready members pause prompt order everyone := by
    obtain ⟨answers, onward⟩ := returns.step exchange ready members pause prompt order everyone
    refine ⟨answers.trans (List.map_congr_left fun rank listed => ?_), onward⟩
    rw [same rank (everyone.mem_iff.mp listed)]

/-- A step can follow a step. -/
theorem andThen (returns : Returns group ranks made returned)
    (returnsNext : Returns group ranks next nextReturned) {exchange : Exchange}
    (ready : exchange.Ready group) (members : exchange.world.members group = ranks) {pause : Nat}
    (prompt : pause * (ranks.length - 1) < exchange.world.timeoutMs) {first second : List Nat}
    (firstOrder : first.Perm ranks) (secondOrder : second.Perm ranks) :
    ((exchange.perform pause (oneEach made first)).2 =
      first.map fun rank => .ok (returned rank)) ∧
    ((exchange.perform pause (oneEach made first)).1.perform pause (oneEach next second)).2 =
      second.map fun rank => .ok (nextReturned rank) := by
  obtain ⟨answers, readyAgain, world⟩ :=
    returns.step exchange ready members pause prompt first firstOrder
  rw [← world] at members prompt
  exact ⟨answers, (returnsNext.step _ readyAgain members pause prompt second secondOrder).1⟩

end Returns

namespace Concerted

variable {group : Nat} {operation : Operation} {ranks : List Nat} {type : ElementType}
  {room : Extent} {made : Nat → Call}

/-- The members get their calls back with what the round has for them. -/
theorem returns {inputs : Nat → Staged}
    (concerted : Concerted group operation ranks inputs type room made)
    (waits : operation ≠ .noop ∧ operation ≠ .wait) {received : Nat → Payload}
    (paid : ∀ rank ∈ ranks, payload (made rank) (ranks.idxOf rank)
      (ranks.map fun other => (made other).contribution) = .ok (received rank))
    (fits : ∀ rank ∈ ranks, (received rank).Fits type room) :
    Returns group ranks made fun rank => (made rank).receiving (received rank) := by
  refine .of_rounds concerted.group (fun rank member => ?_) concerted.peers fun rank member => ?_
  · rwa [concerted.operation rank member]
  rw [conclude_eq_deliver (agreed_of_map concerted.operation member)]
  refine deliver_eq_receiving (paid rank member) (fits rank member) fun something => ?_
  apply concerted.room rank member
  by_contra nothing
  have given := paid rank member
  rw [payload_eq_nothing nothing] at given
  exact something (Except.ok.inj given).symm

/-! ## Operations -/

/-- What only the root receives fits the room of all. -/
theorem fits_atRoot {received : Payload} (fits : received.Fits type room) (here : Prop)
    [Decidable here] : Payload.Fits type room (if here then received else .nothing) := by
  split
  · exact fits
  · trivial

section

variable {size : Nat} {inputs : Nat → Tensor} {reduction : Reduction} {root source : Nat}
  (shapes : ∀ rank ∈ ranks, (inputs rank).HasShape type size)
include shapes

/-- All inputs are a payload for a list. -/
theorem fits_many : Payload.Fits type (.list ranks.length size) (.many (ranks.map inputs)) :=
  ⟨List.length_map _, List.forall_mem_map.mpr shapes⟩

/-- The reduction of all inputs is a payload of their shape. -/
theorem fits_reduced (someone : ranks ≠ []) (reduction : Reduction) :
    Payload.Fits type (.single size) (.one (reducedTensor type reduction ranks inputs)) :=
  hasShape_reduceWords reduction shapes someone

/-- Concerted calls to gather for all return the inputs of all members. -/
theorem returns_allGather (concerted : Concerted group .allGather ranks
      (fun rank => .single (inputs rank)) type (.list ranks.length size) made) :
    Returns group ranks made fun rank => (made rank).receiving (.many (ranks.map inputs)) :=
  concerted.returns (by decide)
    (fun rank member => payload_allGather concerted.input (concerted.operation rank member))
    fun _ _ => fits_many shapes

/-- Concerted calls to gather return the inputs of all members at the root. -/
theorem returns_gather (concerted : Concerted group .gather ranks
      (fun rank => .single (inputs rank)) type (.list ranks.length size) made)
    (rooted : ∀ rank ∈ ranks, (made rank).root = root) :
    Returns group ranks made fun rank => (made rank).receiving
      (if ranks.idxOf rank = root then .many (ranks.map inputs) else .nothing) := by
  refine concerted.returns (by decide) (fun rank member => ?_) fun _ _ =>
    fits_atRoot (fits_many shapes) _
  rw [← rooted rank member]
  exact payload_gather concerted.input (concerted.operation rank member)

/-- Concerted calls to an incast return the inputs of the senders at the root. -/
theorem returns_incast (concerted : Concerted group .incast ranks
      (fun rank => .single (inputs rank)) type (.list ranks.length size) made)
    (rooted : ∀ rank ∈ ranks, (made rank).root = root)
    (sources : ∀ rank ∈ ranks, ranks.idxOf rank = root →
      (made rank).sources = List.range ranks.length) :
    Returns group ranks made fun rank => (made rank).receiving
      (if ranks.idxOf rank = root then .many (ranks.map inputs) else .nothing) := by
  refine concerted.returns (by decide) (fun rank member => ?_) fun _ _ =>
    fits_atRoot (fits_many shapes) _
  have own := sources rank member
  rw [← rooted rank member] at own ⊢
  exact payload_incast concerted.input (concerted.operation rank member) own

/-- Concerted calls to gather into one tensor return the joined inputs. -/
theorem returns_allGatherBase (concerted : Concerted group .allGatherBase ranks
      (fun rank => .single (inputs rank)) type (.single (ranks.length * size)) made) :
    Returns group ranks made fun rank => (made rank).receiving
      (.one ⟨type, ranks.flatMap fun other => (inputs other).words⟩) := by
  have types : ∀ rank ∈ ranks, (inputs rank).type = type := fun rank member =>
    (shapes rank member).1
  have length := length_flatMap_words (List.forall_mem_map.mpr shapes)
  rw [List.flatMap_map, List.length_map, Nat.mul_comm] at length
  exact concerted.returns (by decide) (fun rank member => payload_allGatherBase concerted.input
    (concerted.operation rank member) types (List.ne_nil_of_mem member)) fun _ _ => ⟨rfl, length⟩

/-- Concerted calls to reduce for all return the reduced inputs. -/
theorem returns_allReduce (concerted : Concerted group .allReduce ranks
      (fun rank => .single (inputs rank)) type (.single size) made)
    (reductions : ∀ rank ∈ ranks, (made rank).reduction = reduction) :
    Returns group ranks made fun rank =>
      (made rank).receiving (.one (reducedTensor type reduction ranks inputs)) := by
  refine concerted.returns (by decide) (fun rank member => ?_) fun _ member =>
    fits_reduced shapes (List.ne_nil_of_mem member) reduction
  rw [← reductions rank member]
  exact payload_allReduce concerted.input shapes (List.ne_nil_of_mem member)
    (concerted.operation rank member)

/-- Concerted calls to reduce return the reduced inputs at the root. -/
theorem returns_reduce (concerted : Concerted group .reduce ranks
      (fun rank => .single (inputs rank)) type (.single size) made)
    (rooted : ∀ rank ∈ ranks, (made rank).root = root)
    (reductions : ∀ rank ∈ ranks, (made rank).reduction = reduction) :
    Returns group ranks made fun rank => (made rank).receiving
      (if ranks.idxOf rank = root then .one (reducedTensor type reduction ranks inputs)
        else .nothing) := by
  refine concerted.returns (by decide) (fun rank member => ?_) fun _ member =>
    fits_atRoot (fits_reduced shapes (List.ne_nil_of_mem member) reduction) _
  rw [← rooted rank member, ← reductions rank member]
  exact payload_reduce concerted.input shapes (List.ne_nil_of_mem member)
    (concerted.operation rank member)

/-- Concerted calls to a broadcast return the input of the root. -/
theorem returns_broadcast (concerted : Concerted group .broadcast ranks
      (fun rank => .single (inputs rank)) type (.single size) made)
    (rooted : ∀ rank ∈ ranks, (made rank).root = root) (located : ranks[root]? = some source) :
    Returns group ranks made fun rank => (made rank).receiving (.one (inputs source)) :=
  concerted.returns (by decide)
    (fun rank member => payload_broadcast concerted.input (concerted.operation rank member)
      ((rooted rank member).symm ▸ located))
    fun _ _ => shapes source (List.mem_of_getElem? located)

/-- Concerted calls to a multicast without receivers return the input of the root to everyone. -/
theorem returns_multicast (concerted : Concerted group .multicast ranks
      (fun rank => .single (inputs rank)) type (.single size) made)
    (rooted : ∀ rank ∈ ranks, (made rank).root = root) (located : ranks[root]? = some source)
    (everyone : ∀ rank ∈ ranks, (made rank).destinations = []) :
    Returns group ranks made fun rank => (made rank).receiving
      (if ranks.idxOf rank = root then .nothing else .one (inputs source)) := by
  refine concerted.returns (by decide) (fun rank member => ?_) fun rank _ => ?_
  · rw [← rooted rank member] at located ⊢
    exact payload_multicast concerted.input (concerted.operation rank member) located
      (everyone rank member)
  · split
    · trivial
    · exact shapes source (List.mem_of_getElem? located)

end

section

variable {size root source : Nat} {reduction : Reduction}

/-- Concerted calls to scatter return each member its piece of the list of the root. -/
theorem returns_scatter {lists : Nat → Staged} {parts : List Tensor} {pieces : Nat → Tensor}
    (concerted : Concerted group .scatter ranks lists type (.single size) made)
    (rooted : ∀ rank ∈ ranks, (made rank).root = root) (located : ranks[root]? = some source)
    (list : lists source = .list parts)
    (found : ∀ rank ∈ ranks, parts[ranks.idxOf rank]? = some (pieces rank))
    (shapes : ∀ rank ∈ ranks, (pieces rank).HasShape type size) :
    Returns group ranks made fun rank => (made rank).receiving (.one (pieces rank)) := by
  have sent := (concerted.input source (List.mem_of_getElem? located)).trans list
  refine concerted.returns (by decide) (fun rank member => ?_) shapes
  rw [← rooted rank member] at located
  exact payload_scatter (concerted.operation rank member) located sent (found rank member)

variable {chunk : Nat → Nat → Tensor}

/-- The chunk of a sender for a member. -/
theorem chunk_for {rank : Nat} (member : rank ∈ ranks) (sender : Nat) :
    ((List.range ranks.length).map (chunk sender))[ranks.idxOf rank]? =
      some (chunk sender (ranks.idxOf rank)) := by
  rw [List.getElem?_map, List.getElem?_range (List.idxOf_lt_length_iff.mpr member)]
  rfl

section

variable (shapes : ∀ rank ∈ ranks, ∀ place < ranks.length, (chunk rank place).HasShape type size)
include shapes

/-- Concerted calls to an exchange return each member its chunks of all inputs. -/
theorem returns_allToAll (concerted : Concerted group .allToAll ranks
      (fun rank => .list ((List.range ranks.length).map (chunk rank))) type
      (.list ranks.length size) made) :
    Returns group ranks made fun rank => (made rank).receiving
      (.many (ranks.map fun sender => chunk sender (ranks.idxOf rank))) :=
  concerted.returns (by decide)
    (fun rank member => payload_allToAll concerted.input (fun sender _ => chunk_for member sender)
      (concerted.operation rank member))
    fun rank member => fits_many fun sender sends =>
      shapes sender sends (ranks.idxOf rank) (List.idxOf_lt_length_iff.mpr member)

/-- Concerted calls to reduce and scatter return each member its reduced chunk. -/
theorem returns_reduceScatter (concerted : Concerted group .reduceScatter ranks
      (fun rank => .list ((List.range ranks.length).map (chunk rank))) type (.single size) made)
    (reductions : ∀ rank ∈ ranks, (made rank).reduction = reduction) :
    Returns group ranks made fun rank => (made rank).receiving
      (.one (reducedTensor type reduction ranks (chunk · (ranks.idxOf rank)))) := by
  have own (rank : Nat) (member : rank ∈ ranks) :
      ∀ sender ∈ ranks, (chunk sender (ranks.idxOf rank)).HasShape type size :=
    fun sender sends =>
      shapes sender sends (ranks.idxOf rank) (List.idxOf_lt_length_iff.mpr member)
  refine concerted.returns (by decide) (fun rank member => ?_) fun rank member =>
    fits_reduced (own rank member) (List.ne_nil_of_mem member) reduction
  rw [← reductions rank member]
  exact payload_reduceScatter concerted.input (fun sender _ => chunk_for member sender)
    (concerted.operation rank member) (own rank member) (List.ne_nil_of_mem member)

end

section

variable {inputs : Nat → Tensor}
  (shapes : ∀ rank ∈ ranks, (inputs rank).HasShape type (ranks.length * size))
include shapes

/-- Concerted calls to reduce and scatter one tensor return each member its chunk of the reduced
inputs. -/
theorem returns_reduceScatterBase (concerted : Concerted group .reduceScatterBase ranks
      (fun rank => .single (inputs rank)) type (.single size) made)
    (reductions : ∀ rank ∈ ranks, (made rank).reduction = reduction) :
    Returns group ranks made fun rank => (made rank).receiving
      (.one ((reducedTensor type reduction ranks inputs).chunk size (ranks.idxOf rank))) := by
  refine concerted.returns (by decide) (fun rank member => ?_) fun rank member => ⟨rfl, ?_⟩
  · have receives : (made rank).Receives (ranks.idxOf rank) := by
      rw [Call.Receives, concerted.operation rank member]
      trivial
    have room := concerted.room rank member receives
    cases destination : (made rank).buffers.destination with
    | list targets => exact (destination ▸ room).elim
    | single target =>
      rw [destination] at room
      rw [← reductions rank member]
      exact payload_reduceScatterBase
        (concerted.operation rank member) concerted.input shapes destination
        room.2 (List.idxOf_lt_length_iff.mpr member)
  · exact length_chunkAt (hasShape_reduceWords reduction shapes (List.ne_nil_of_mem member)).2
      (List.idxOf_lt_length_iff.mpr member)

/-- Concerted calls to an uneven exchange with even splits return each member its chunks of all
inputs, joined. -/
theorem returns_allToAllv (concerted : Concerted group .allToAllv ranks
      (fun rank => .single (inputs rank)) type (.single (ranks.length * size)) made)
    (splits : ∀ rank ∈ ranks,
      (made rank).buffers.inSplit = some (List.replicate ranks.length size)) :
    Returns group ranks made fun rank => (made rank).receiving (.one ⟨type,
      ranks.flatMap fun sender => chunkAt size (inputs sender).words (ranks.idxOf rank)⟩) := by
  let lengths (_ _ : Nat) := size
  have row (sender : Nat) : sentBy ranks lengths sender = List.replicate ranks.length size :=
    List.map_const' ..
  have column (receiver : Nat) : sentTo ranks lengths receiver = List.replicate ranks.length size :=
    List.map_const' ..
  have rowShapes : ∀ sender ∈ ranks,
      (inputs sender).HasShape type (total (sentBy ranks lengths sender)) := by
    intro sender sends
    rw [row, total_replicate]
    exact shapes sender sends
  have chunks (rank : Nat) (member : rank ∈ ranks) :
      (ranks.flatMap fun sender => chunkAt size (inputs sender).words (ranks.idxOf rank)) =
        exchanged ranks lengths (fun sender => (inputs sender).words) rank := by
    simp only [exchanged, row, blockAt_replicate size _ (List.idxOf_lt_length_iff.mpr member)]
  refine concerted.returns (by decide) (fun rank member => ?_) fun rank member => ⟨rfl, ?_⟩
  · rw [chunks rank member]
    exact payload_allToAllv (concerted.operation rank member) concerted.input
      (fun sender sends => (row sender).symm ▸ splits sender sends) rowShapes member
  · rw [Tensor.count, chunks rank member,
      length_exchanged (fun sender sends => (rowShapes sender sends).2) member, column,
      total_replicate]

end

end

end Concerted

end CollectiveBench
