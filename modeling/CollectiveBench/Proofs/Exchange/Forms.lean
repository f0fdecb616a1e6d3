import CollectiveBench.Proofs.Exchange.Returning

/-!
# Forms of one collective

Several collectives come in forms that are computed in different ways. Where members contribute
lists of chunks, the flat form takes the joined chunks and cuts them again
(`list_forms_agree`). A rooted form gives one member what the other form gives all of them, or gives
all members what one of them holds (`rooted_forms_agree`).
-/

namespace CollectiveBench

section

variable {type : ElementType} {size : Nat} {ranks : List Nat} {joined : Nat → Tensor}
  {chunk : Nat → Nat → Tensor}
  (shapes : ∀ rank ∈ ranks, ∀ place < ranks.length, (chunk rank place).HasShape type size)
  (joins : ∀ rank ∈ ranks,
    Tensor.concat ((List.range ranks.length).map (chunk rank)) type = .ok (joined rank))
include shapes joins

/-- The chunks of a rank one after the other. -/
theorem joined_eq {rank : Nat} (member : rank ∈ ranks) :
    joined rank =
      ⟨type, (List.range ranks.length).flatMap fun place => (chunk rank place).words⟩ := by
  have types : ∀ part ∈ (List.range ranks.length).map (chunk rank), part.type = type :=
    List.forall_mem_map.mpr fun place inside =>
      (shapes rank member place (List.mem_range.mp inside)).1
  have join := joins rank member
  rw [Tensor.concat_eq types, List.flatMap_map] at join
  exact (Except.ok.inj join).symm

/-- Joined chunks have as many elements as all chunks together. -/
theorem hasShape_joined : ∀ rank ∈ ranks, (joined rank).HasShape type (ranks.length * size) := by
  intro rank member
  have each : ∀ part ∈ (List.range ranks.length).map (chunk rank), part.HasShape type size :=
    List.forall_mem_map.mpr fun place inside => shapes rank member place (List.mem_range.mp inside)
  have length := length_flatMap_words each
  rw [List.flatMap_map, List.length_map, List.length_range, Nat.mul_comm] at length
  rw [joined_eq shapes joins member]
  exact ⟨rfl, length⟩

/-- Joined chunks are cut where they were joined. -/
theorem chunkAt_joined {rank : Nat} (member : rank ∈ ranks) {place : Nat}
    (inside : place < ranks.length) :
    chunkAt size (joined rank).words place = (chunk rank place).words := by
  rw [joined_eq shapes joins member]
  exact chunkAt_flatMap
    (fun other listed => (shapes rank member other (List.mem_range.mp listed)).2)
    (List.getElem?_range inside)

/-- A member's chunk of the reduction of what was joined is the reduction of the chunks for it. -/
theorem chunk_reducedTensor (reduction : Reduction) {rank : Nat} (member : rank ∈ ranks) :
    (reducedTensor type reduction ranks joined).chunk size (ranks.idxOf rank) =
      reducedTensor type reduction ranks (chunk · (ranks.idxOf rank)) := by
  have cut : (ranks.map fun sender => chunkAt size (joined sender).words (ranks.idxOf rank)) =
      ranks.map fun sender => (chunk sender (ranks.idxOf rank)).words :=
    List.map_congr_left fun sender sends =>
      chunkAt_joined shapes joins sends (List.idxOf_lt_length_iff.mpr member)
  simp only [Tensor.chunk, reducedTensor, chunkAt_reduceWords, List.map_map, Function.comp_def, cut]

end

/-- List and flat forms of a collective agree, in a group of any size, for chunks of one type and
length. Members that contribute a list of chunks each, one for every member, get the same reduced
chunk from the scattered reduction of the lists and from that of the joined chunks. The tensors
that members gather in a list are, joined, what they gather in one tensor. The chunks that they
exchange in lists are, joined, what an uneven exchange of the joined chunks along even splits
gives them. -/
theorem list_forms_agree (group : Nat) (reduction : Reduction) {type : ElementType} {size : Nat}
    {ranks : List Nat} {inputs joined : Nat → Tensor} {chunk : Nat → Nat → Tensor}
    (inputShapes : ∀ rank ∈ ranks, (inputs rank).HasShape type size)
    (chunkShapes : ∀ rank ∈ ranks, ∀ place < ranks.length, (chunk rank place).HasShape type size)
    (joins : ∀ rank ∈ ranks,
      Tensor.concat ((List.range ranks.length).map (chunk rank)) type = .ok (joined rank)) :
    let single (rank : Nat) := Staged.single (inputs rank)
    let list (rank : Nat) := Staged.list ((List.range ranks.length).map (chunk rank))
    let flat (rank : Nat) := Staged.single (joined rank)
    (∀ lists bases,
      Concerted group .reduceScatter ranks list type (.single size) lists →
      Concerted group .reduceScatterBase ranks flat type (.single size) bases →
      (∀ rank ∈ ranks, (lists rank).reduction = reduction ∧ (bases rank).reduction = reduction) →
      let own (rank : Nat) := reducedTensor type reduction ranks (chunk · (ranks.idxOf rank))
      Returns group ranks lists (fun rank => (lists rank).withDestination (.single (own rank))) ∧
      Returns group ranks bases (fun rank => (bases rank).withDestination (.single (own rank)))) ∧
    (∀ lists bases,
      Concerted group .allGather ranks single type (.list ranks.length size) lists →
      Concerted group .allGatherBase ranks single type (.single (ranks.length * size)) bases →
      let parts := ranks.map inputs
      ∃ whole, Tensor.concat parts type = .ok whole ∧
        Returns group ranks lists (fun rank => (lists rank).withDestination (.list parts)) ∧
        Returns group ranks bases (fun rank => (bases rank).withDestination (.single whole))) ∧
    (∀ lists blocks,
      Concerted group .allToAll ranks list type (.list ranks.length size) lists →
      Concerted group .allToAllv ranks flat type (.single (ranks.length * size)) blocks →
      (∀ rank ∈ ranks,
        (blocks rank).buffers.inSplit = some (List.replicate ranks.length size)) →
      let parts (rank : Nat) := ranks.map fun sender => chunk sender (ranks.idxOf rank)
      ∃ whole : Nat → Tensor, (∀ rank ∈ ranks, Tensor.concat (parts rank) type = .ok (whole rank)) ∧
        Returns group ranks lists (fun rank => (lists rank).withDestination (.list (parts rank))) ∧
        Returns group ranks blocks
          (fun rank => (blocks rank).withDestination (.single (whole rank)))) := by
  intro single list flat
  have joinedShapes := hasShape_joined chunkShapes joins
  refine ⟨?_, ?_, ?_⟩
  · intro lists bases listed based reductions own
    have ofLists := listed.returns_reduceScatter chunkShapes
      fun rank member => (reductions rank member).1
    have ofBases := based.returns_reduceScatterBase joinedShapes
      fun rank member => (reductions rank member).2
    refine ⟨ofLists, ofBases.congr fun rank member => ?_⟩
    rw [chunk_reducedTensor chunkShapes joins reduction member]
    rfl
  · intro lists bases listed based parts
    have types : ∀ part ∈ parts, part.type = type :=
      List.forall_mem_map.mpr fun rank member => (inputShapes rank member).1
    have ofBases := based.returns_allGatherBase inputShapes
    rw [← List.flatMap_map inputs Tensor.words] at ofBases
    exact ⟨_, Tensor.concat_eq types, listed.returns_allGather inputShapes, ofBases⟩
  · intro lists blocks listed blocked splits parts
    have types (rank : Nat) (member : rank ∈ ranks) : ∀ part ∈ parts rank, part.type = type :=
      List.forall_mem_map.mpr fun sender sends =>
        (chunkShapes sender sends _ (List.idxOf_lt_length_iff.mpr member)).1
    have ofBlocks := blocked.returns_allToAllv joinedShapes splits
    refine ⟨fun rank => ⟨type, (parts rank).flatMap Tensor.words⟩,
      fun rank member => Tensor.concat_eq (types rank member),
      listed.returns_allToAll chunkShapes, ofBlocks.congr fun rank member => ?_⟩
    have cut : (ranks.flatMap fun sender =>
        chunkAt size (joined sender).words (ranks.idxOf rank)) =
        (parts rank).flatMap Tensor.words := by
      rw [List.flatMap_map]
      exact List.flatMap_congr fun sender sends => chunkAt_joined chunkShapes joins sends
        (List.idxOf_lt_length_iff.mpr member)
    rw [cut]
    rfl

/-- Three ranks in a group with an order of its own, and chunks of two elements. The greatest
elements for a member come from different senders. -/
theorem list_forms_agree_three :
    let ranks := [2, 0, 1]
    let chunk (rank place : Nat) : Tensor := ⟨.i32, [10 * rank + place, 9 * place - rank]⟩
    let joined (rank : Nat) : Tensor :=
      ⟨.i32, (List.range 3).flatMap fun place => (chunk rank place).words⟩
    let call (operation : Operation) (input output : Staged) : Call :=
      { buffers := { operation, input, output := some output, inSplit := some [2, 2, 2] },
        group := 1, reduction := .max }
    let list (rank : Nat) := Staged.list ((List.range 3).map (chunk rank))
    let three := Staged.list (List.replicate 3 (.zeros 2 .i32))
    let exchange := Exchange.create (World.create 3 [ranks] 1000) (List.range 3)
    let answers (made : Nat → Call) := (exchange.perform 1 (oneEach made [1, 0, 2])).2
    let returned (made : Nat → Call) (destination : Nat → Staged) : List (Outcome Call) :=
      [1, 0, 2].map fun rank => .ok ((made rank).withDestination (destination rank))
    let own (rank : Nat) :=
      Staged.single (reducedTensor .i32 .max ranks (chunk · (ranks.idxOf rank)))
    let scattered (rank : Nat) := call .reduceScatter (list rank) (.single (.zeros 2 .i32))
    let scatteredBase (rank : Nat) :=
      call .reduceScatterBase (.single (joined rank)) (.single (.zeros 2 .i32))
    let gathered (rank : Nat) := call .allGather (.single (chunk rank 0)) three
    let gatheredBase (rank : Nat) :=
      call .allGatherBase (.single (chunk rank 0)) (.single (.zeros 6 .i32))
    let exchanged (rank : Nat) := call .allToAll (list rank) three
    let exchangedV (rank : Nat) :=
      call .allToAllv (.single (joined rank)) (.single (.zeros 6 .i32))
    let parts (rank : Nat) := ranks.map fun sender => chunk sender (ranks.idxOf rank)
    exchange.Ready 1 ∧
      (own 0 = .single ⟨.i32, [21, 9]⟩ ∧ answers scattered = returned scattered own ∧
        answers scatteredBase = returned scatteredBase own) ∧
      (∃ whole, Tensor.concat (ranks.map (chunk · 0)) .i32 = .ok whole ∧
        answers gathered = returned gathered (fun _ => .list (ranks.map (chunk · 0))) ∧
        answers gatheredBase = returned gatheredBase fun _ => .single whole) ∧
      ∃ whole : Nat → Tensor, (∀ rank ∈ ranks, Tensor.concat (parts rank) .i32 = .ok (whole rank)) ∧
        answers exchanged = returned exchanged (fun rank => .list (parts rank)) ∧
        answers exchangedV = returned exchangedV fun rank => .single (whole rank) := by
  intro ranks chunk joined call list three exchange answers returned own scattered scatteredBase
    gathered gatheredBase exchanged exchangedV parts
  have ready : exchange.Ready 1 :=
    ⟨Exchange.atRest_create (World.create 3 [ranks] 1000), by decide, by decide,
      Exchange.inStep_create _ _ 1⟩
  have chunkShapes : ∀ rank ∈ ranks, ∀ place < ranks.length,
      (chunk rank place).HasShape .i32 2 := fun _ _ _ _ => ⟨rfl, rfl⟩
  have inputShapes : ∀ rank ∈ ranks, (chunk rank 0).HasShape .i32 2 := fun _ _ => ⟨rfl, rfl⟩
  have joins : ∀ rank ∈ ranks,
      Tensor.concat ((List.range ranks.length).map (chunk rank)) .i32 = .ok (joined rank) :=
    fun _ _ => rfl
  obtain ⟨reduces, gathers, exchanges⟩ :=
    list_forms_agree 1 .max inputShapes chunkShapes joins
  have room : ∀ target ∈ List.replicate 3 (Tensor.zeros 2 .i32), target.HasShape .i32 2 := by
    intro target listed
    rw [List.eq_of_mem_replicate listed]
    exact ⟨rfl, rfl⟩
  have run {made others : Nat → Call} (returns : Returns 1 ranks made others) :
      answers made = [1, 0, 2].map fun rank => .ok (others rank) :=
    (returns.step exchange ready rfl 1 (by decide) [1, 0, 2] (by decide)).1
  obtain ⟨lists, bases⟩ := reduces scattered scatteredBase
    ⟨fun _ _ => rfl, fun _ _ => rfl, fun _ _ => rfl, fun _ _ => rfl, fun _ _ _ => ⟨rfl, rfl⟩⟩
    ⟨fun _ _ => rfl, fun _ _ => rfl, fun _ _ => rfl, fun _ _ => rfl, fun _ _ _ => ⟨rfl, rfl⟩⟩
    fun _ _ => ⟨rfl, rfl⟩
  obtain ⟨whole, join, all, allBase⟩ := gathers gathered gatheredBase
    ⟨fun _ _ => rfl, fun _ _ => rfl, fun _ _ => rfl, fun _ _ => rfl, fun _ _ _ => ⟨rfl, room⟩⟩
    ⟨fun _ _ => rfl, fun _ _ => rfl, fun _ _ => rfl, fun _ _ => rfl, fun _ _ _ => ⟨rfl, rfl⟩⟩
  obtain ⟨wholes, joinsFor, each, eachV⟩ := exchanges exchanged exchangedV
    ⟨fun _ _ => rfl, fun _ _ => rfl, fun _ _ => rfl, fun _ _ => rfl, fun _ _ _ => ⟨rfl, room⟩⟩
    ⟨fun _ _ => rfl, fun _ _ => rfl, fun _ _ => rfl, fun _ _ => rfl, fun _ _ _ => ⟨rfl, rfl⟩⟩
    fun _ _ => rfl
  exact ⟨ready, ⟨by decide, run lists, run bases⟩, ⟨whole, join, run all, run allBase⟩,
    wholes, joinsFor, run each, run eachV⟩

/-! ## Rooted forms -/

/-- The calls of members of whom the root alone received something. -/
def receivedByRoot (ranks : List Nat) (root : Nat) (made : Nat → Call) (destination : Staged)
    (rank : Nat) : Call :=
  if ranks.idxOf rank = root then (made rank).withDestination destination else made rank

/-- The calls of members that all received the same. -/
def receivedByAll (made : Nat → Call) (destination : Staged) (rank : Nat) : Call :=
  (made rank).withDestination destination

/-- Writing a destination what it holds already changes nothing. -/
theorem Call.withDestination_destination {call : Call} {destination : Staged}
    (holds : call.buffers.destination = destination) : call.withDestination destination = call := by
  rw [Call.withDestination, ← holds, Buffers.withDestination_destination]

/-- What only the root receives is in the root's destination. -/
theorem Returns.byRoot {group : Nat} {ranks : List Nat} {root : Nat} {made : Nat → Call}
    {received : Payload} (returns : Returns group ranks made fun rank =>
      (made rank).receiving (if ranks.idxOf rank = root then received else .nothing))
    (something : received ≠ .nothing) :
    Returns group ranks made (receivedByRoot ranks root made received.staged) := by
  refine returns.congr fun rank _ => ?_
  rw [receivedByRoot]
  split
  · cases received with
    | nothing => exact absurd rfl something
    | one tensor => rfl
    | many parts => rfl
  · rfl

/-- A multicast in place leaves every member with what the sender sent: the others received it, and
the sender still has it. -/
theorem Concerted.returns_multicast_inPlace {group : Nat} {type : ElementType} {size : Nat}
    {ranks : List Nat} {inputs : Nat → Tensor} {made : Nat → Call}
    (shapes : ∀ rank ∈ ranks, (inputs rank).HasShape type size) {root source : Nat}
    (located : ranks[root]? = some source)
    (concerted : Concerted group .multicast ranks (fun rank => .single (inputs rank)) type
      (.single size) made)
    (rooted : ∀ rank ∈ ranks, (made rank).root = root)
    (everyone : ∀ rank ∈ ranks, (made rank).destinations = [])
    (inPlace : ∀ rank ∈ ranks, (made rank).buffers.output = none) :
    Returns group ranks made (receivedByAll made (.single (inputs source))) := by
  refine (concerted.returns_multicast shapes rooted located everyone).congr fun rank member => ?_
  split
  next here =>
    have found := List.getElem?_idxOf member
    rw [here, located] at found
    obtain rfl := Option.some.inj found
    have holds : (made source).buffers.destination = .single (inputs source) := by
      rw [Buffers.destination, inPlace source member, Option.getD_none,
        concerted.input source member]
    exact (Call.withDestination_destination holds).symm
  next => rfl

/-- Rooted forms of a collective agree with the others, in a group of any size, for any root, for
contributions of one type and length. The root gathers what every member gathers where all of them
do, and gets the reduction that every member gets where all of them do. Collecting from all members
in their order gives the root what it gathers. A multicast in place to everyone leaves what a
broadcast from the same root leaves. Scattering what the root gathered gives every member back what
it contributed, in a complete round and in the step after that of the gathering. -/
theorem rooted_forms_agree (group : Nat) (reduction : Reduction) {type : ElementType} {size : Nat}
    {ranks : List Nat} {inputs : Nat → Tensor}
    (shapes : ∀ rank ∈ ranks, (inputs rank).HasShape type size) {root source : Nat}
    (located : ranks[root]? = some source) :
    let single (rank : Nat) := Staged.single (inputs rank)
    let several := Extent.list ranks.length size
    let all := Staged.list (ranks.map inputs)
    let reduced := Staged.single (reducedTensor type reduction ranks inputs)
    let sent := Staged.single (inputs source)
    let Rooted (made : Nat → Call) := ∀ rank ∈ ranks, (made rank).root = root
    let Reducing (made : Nat → Call) := ∀ rank ∈ ranks, (made rank).reduction = reduction
    ((∀ made, Concerted group .gather ranks single type several made → Rooted made →
        Returns group ranks made (receivedByRoot ranks root made all)) ∧
      ∀ made, Concerted group .allGather ranks single type several made →
        Returns group ranks made (receivedByAll made all)) ∧
    ((∀ made, Concerted group .reduce ranks single type (.single size) made → Rooted made →
        Reducing made → Returns group ranks made (receivedByRoot ranks root made reduced)) ∧
      ∀ made, Concerted group .allReduce ranks single type (.single size) made → Reducing made →
        Returns group ranks made (receivedByAll made reduced)) ∧
    (∀ made, Concerted group .incast ranks single type several made → Rooted made →
      (∀ rank ∈ ranks, ranks.idxOf rank = root →
        (made rank).sources = List.range ranks.length) →
      Returns group ranks made (receivedByRoot ranks root made all)) ∧
    ((∀ made, Concerted group .multicast ranks single type (.single size) made → Rooted made →
        (∀ rank ∈ ranks, (made rank).destinations = []) →
        (∀ rank ∈ ranks, (made rank).buffers.output = none) →
        Returns group ranks made (receivedByAll made sent)) ∧
      ∀ made, Concerted group .broadcast ranks single type (.single size) made → Rooted made →
        Returns group ranks made (receivedByAll made sent)) ∧
    ∀ gather scatter lists, Concerted group .gather ranks single type several gather →
      Rooted gather → Concerted group .scatter ranks lists type (.single size) scatter →
      Rooted scatter → lists source = all →
      let own (rank : Nat) := (scatter rank).withDestination (single rank)
      Returns group ranks scatter own ∧
      ∀ exchange : Exchange, exchange.Ready group → exchange.world.members group = ranks →
        ∀ pause, pause * (ranks.length - 1) < exchange.world.timeoutMs →
          ∀ first second, first.Perm ranks → second.Perm ranks →
            let gathered := exchange.perform pause (oneEach gather first)
            let scattered := gathered.1.perform pause (oneEach scatter second)
            (gathered.2 = first.map fun rank => .ok (receivedByRoot ranks root gather all rank)) ∧
            scattered.2 = second.map fun rank => .ok (own rank) := by
  intro single several all reduced sent Rooted Reducing
  have gathers (made : Nat → Call)
      (concerted : Concerted group .gather ranks single type several made)
      (rooted : Rooted made) : Returns group ranks made (receivedByRoot ranks root made all) :=
    (concerted.returns_gather shapes rooted).byRoot (by simp)
  refine ⟨⟨gathers, ?_⟩, ⟨?_, ?_⟩, ?_, ⟨?_, ?_⟩, ?_⟩
  · intro made concerted
    exact concerted.returns_allGather shapes
  · intro made concerted rooted reductions
    exact (concerted.returns_reduce shapes rooted reductions).byRoot (by simp)
  · intro made concerted reductions
    exact concerted.returns_allReduce shapes reductions
  · intro made concerted rooted sources
    exact (concerted.returns_incast shapes rooted sources).byRoot (by simp)
  · intro made concerted rooted everyone inPlace
    exact concerted.returns_multicast_inPlace shapes located rooted everyone inPlace
  · intro made concerted rooted
    exact concerted.returns_broadcast shapes rooted located
  · intro gather scatter lists gathering gatherRooted scattering scatterRooted list own
    have found : ∀ rank ∈ ranks, (ranks.map inputs)[ranks.idxOf rank]? = some (inputs rank) := by
      intro rank member
      rw [List.getElem?_map, List.getElem?_idxOf member, Option.map_some]
    have scatters : Returns group ranks scatter own :=
      scattering.returns_scatter scatterRooted located list found shapes
    refine ⟨scatters, ?_⟩
    intro exchange ready members pause prompt first second firstOrder secondOrder
    exact (gathers gather gathering gatherRooted).andThen scatters ready members prompt firstOrder
      secondOrder

/-- Three ranks in a group with an order of its own, whose second member is the root. Only the root
has room for what it gathers. -/
theorem rooted_forms_agree_three :
    let ranks := [2, 0, 1]
    let input (rank : Nat) : Tensor := ⟨.u8, [rank, 7 * rank % 5]⟩
    let call (operation : Operation) (rank : Nat) (output : Option Staged) : Call :=
      { buffers := { operation, input := .single (input rank), output }, root := 1,
        sources := [0, 1, 2], group := 1, reduction := .max }
    let three := Staged.list (List.replicate 3 (.zeros 2 .u8))
    let one := Staged.single (.zeros 2 .u8)
    let byRoot (destination : Staged) (rank : Nat) := if rank = 0 then some destination else none
    let all := Staged.list (ranks.map input)
    let reduced := Staged.single (reducedTensor .u8 .max ranks input)
    let sent := Staged.single (input 0)
    let exchange := Exchange.create (World.create 3 [ranks] 1000) (List.range 3)
    let answers (made : Nat → Call) := (exchange.perform 1 (oneEach made [1, 0, 2])).2
    let returned (calls : Nat → Call) : List (Outcome Call) :=
      [1, 0, 2].map fun rank => .ok (calls rank)
    let gather (rank : Nat) := call .gather rank (byRoot three rank)
    let allGather (rank : Nat) := call .allGather rank (some three)
    let reduce (rank : Nat) := call .reduce rank (byRoot one rank)
    let allReduce (rank : Nat) := call .allReduce rank none
    let incast (rank : Nat) := call .incast rank (byRoot three rank)
    let multicast (rank : Nat) := call .multicast rank none
    let broadcast (rank : Nat) := call .broadcast rank none
    let scatter (_ : Nat) : Call :=
      { buffers := { operation := .scatter, input := all, output := some one }, root := 1,
        group := 1 }
    let gathered := exchange.perform 1 (oneEach gather [0, 1, 2])
    let scattered := gathered.1.perform 1 (oneEach scatter [2, 0, 1])
    exchange.Ready 1 ∧ reduced = .single ⟨.u8, [2, 4]⟩ ∧
      (answers gather = returned (receivedByRoot ranks 1 gather all) ∧
        answers allGather = returned (receivedByAll allGather all)) ∧
      (answers reduce = returned (receivedByRoot ranks 1 reduce reduced) ∧
        answers allReduce = returned (receivedByAll allReduce reduced)) ∧
      answers incast = returned (receivedByRoot ranks 1 incast all) ∧
      (answers multicast = returned (receivedByAll multicast sent) ∧
        answers broadcast = returned (receivedByAll broadcast sent)) ∧
      scattered.2 = [2, 0, 1].map fun rank =>
        .ok ((scatter rank).withDestination (.single (input rank))) := by
  intro ranks input call three one byRoot all reduced sent exchange answers returned
    gather allGather
    reduce allReduce incast multicast broadcast scatter gathered scattered
  have ready : exchange.Ready 1 :=
    ⟨Exchange.atRest_create (World.create 3 [ranks] 1000), by decide, by decide,
      Exchange.inStep_create _ _ 1⟩
  have shapes : ∀ rank ∈ ranks, (input rank).HasShape .u8 2 := fun _ _ => ⟨rfl, rfl⟩
  have run {made others : Nat → Call} (returns : Returns 1 ranks made others) :
      answers made = returned others :=
    (returns.step exchange ready rfl 1 (by decide) [1, 0, 2] (by decide)).1
  have room : three.Fits .u8 (.list 3 2) := by
    refine ⟨rfl, fun target listed => ?_⟩
    rw [List.eq_of_mem_replicate listed]
    exact ⟨rfl, rfl⟩
  have atRoot : ∀ rank ∈ ranks, ranks.idxOf rank = 1 → rank = 0 := by decide
  have roomAtRoot {extent : Extent} {destination : Staged} (fits : destination.Fits .u8 extent)
      (rank : Nat) (member : rank ∈ ranks) (here : ranks.idxOf rank = 1) :
      ((byRoot destination rank).getD (.single (input rank))).Fits .u8 extent := by
    rw [atRoot rank member here]
    exact fits
  have concerted (operation : Operation) {extent : Extent} (output : Nat → Option Staged)
      (peers : ∀ rank ∈ ranks, (call operation rank (output rank)).checkPeers rank 3 = .ok ())
      (fits : ∀ rank ∈ ranks, (call operation rank (output rank)).Receives (ranks.idxOf rank) →
        ((output rank).getD (.single (input rank))).Fits .u8 extent) :
      Concerted 1 operation ranks (fun rank => .single (input rank)) .u8 extent
        fun rank => call operation rank (output rank) :=
    ⟨fun _ _ => rfl, fun _ _ => rfl, fun _ _ => rfl, peers, fits⟩
  have gathering := concerted .gather (byRoot three) (fun _ _ => rfl) (roomAtRoot room)
  obtain ⟨⟨gathers, gathersAll⟩, ⟨reduces, reducesAll⟩, incasts, ⟨multicasts, broadcasts⟩,
    scatters⟩ := rooted_forms_agree 1 .max shapes (show ranks[1]? = some 0 from rfl)
  refine ⟨ready, by decide, ⟨run (gathers gather gathering fun _ _ => rfl), ?_⟩, ⟨?_, ?_⟩, ?_,
    ⟨?_, ?_⟩, ?_⟩
  · exact run (gathersAll allGather
      (concerted .allGather (fun _ => some three) (fun _ _ => rfl) fun _ _ _ => room))
  · exact run (reduces reduce
      (concerted .reduce (byRoot one) (fun _ _ => rfl) (roomAtRoot ⟨rfl, rfl⟩))
      (fun _ _ => rfl) fun _ _ => rfl)
  · exact run (reducesAll allReduce
      (concerted .allReduce (fun _ => none) (fun _ _ => rfl) fun _ _ _ => ⟨rfl, rfl⟩)
        fun _ _ => rfl)
  · exact run (incasts incast
      (concerted .incast (byRoot three) (fun _ _ => rfl) (roomAtRoot room))
      (fun _ _ => rfl) fun _ _ _ => rfl)
  · exact run (multicasts multicast
      (concerted .multicast (fun _ => none) (fun _ _ => rfl) fun _ _ _ => ⟨rfl, rfl⟩)
      (fun _ _ => rfl)
      (fun _ _ => rfl) fun _ _ => rfl)
  · exact run (broadcasts broadcast
      (concerted .broadcast (fun _ => none) (fun _ _ => rfl) fun _ _ _ => ⟨rfl, rfl⟩)
        fun _ _ => rfl)
  · have scattering : Concerted 1 .scatter ranks (fun _ => all) .u8 (.single 2) scatter :=
      ⟨fun _ _ => rfl, fun _ _ => rfl, fun _ _ => rfl, fun _ _ => rfl, fun _ _ _ => ⟨rfl, rfl⟩⟩
    have steps := (scatters gather scatter (fun _ => all) gathering (fun _ _ => rfl) scattering
      (fun _ _ => rfl) rfl).2
    exact (steps exchange ready rfl 1 (by decide) [0, 1, 2] [2, 0, 1] (by decide) (by decide)).2

end CollectiveBench
