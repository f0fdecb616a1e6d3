import Mathlib.Data.List.Perm.Basic
import CollectiveBench.Proofs.Delivery.Reducing

/-!
# Blocks of an uneven exchange

A split cuts items into blocks of its lengths, one after the other. The blocks in order are the
items (`flatMap_blockAt`), and cutting what was joined at the lengths of the parts gives back the
parts (`blockAt_flatMap`). In an uneven exchange each sender's split is a row of a matrix of
lengths, and a receiver joins its blocks of all senders.

Nothing is assumed of the items. Exchanging the places of the elements instead of the elements
tells where each element of a result comes from (`origins`); in all results together each place of
each input occurs once (`nodup_origins`, `mem_origins`).
-/

namespace CollectiveBench

variable {α β : Type}

/-- The block that a split assigns to a place: it begins where the blocks of all places before it
end. -/
def blockAt (split : List Nat) (items : List α) (place : Nat) : List α :=
  (items.drop (total (split.take place))).take (split.getD place 0)

/-- The split after its first entry cuts what the first block leaves. -/
theorem blockAt_cons_succ (length : Nat) (split : List Nat) (items : List α) (place : Nat) :
    blockAt (length :: split) items (place + 1) = blockAt split (items.drop length) place := by
  simp [blockAt, List.drop_drop]

/-- All blocks in order are the items. -/
theorem flatMap_blockAt {split : List Nat} {items : List α} (length : items.length = total split) :
    (List.range split.length).flatMap (blockAt split items) = items := by
  induction split generalizing items with
  | nil =>
    have nothing : items = [] := List.eq_nil_of_length_eq_zero length
    simp [nothing]
  | cons first rest inductionHypothesis =>
    rw [total_cons] at length
    have remaining : (items.drop first).length = total rest := by
      rw [List.length_drop]
      omega
    rw [List.length_cons, List.range_succ_eq_map, List.flatMap_cons, List.flatMap_map]
    simp only [Nat.succ_eq_add_one, blockAt_cons_succ]
    rw [inductionHypothesis remaining]
    simp [blockAt]

/-- Cutting at the lengths of the parts that were joined gives back the parts. -/
theorem blockAt_flatMap {parts : β → List α} {members : List β} {place : Nat} {member : β}
    (sits : members[place]? = some member) :
    blockAt (members.map fun other => (parts other).length) (members.flatMap parts) place =
      parts member := by
  induction members generalizing place with
  | nil => simp at sits
  | cons first rest inductionHypothesis =>
    cases place with
    | zero =>
      obtain rfl : first = member := by simpa using sits
      simp [blockAt]
    | succ place =>
      rw [List.map_cons, blockAt_cons_succ, List.flatMap_cons, List.drop_left]
      exact inductionHypothesis (by simpa using sits)

/-- A block of images consists of the images of the block. -/
theorem blockAt_map (image : α → β) (split : List Nat) (items : List α) (place : Nat) :
    blockAt split (items.map image) place = (blockAt split items place).map image := by
  rw [blockAt, ← List.map_drop, ← List.map_take, blockAt]

/-- The elements before the block of a place and the block itself are among those that the split
divides. -/
theorem total_take_add_le (split : List Nat) (place : Nat) :
    total (split.take place) + split.getD place 0 ≤ total split := by
  induction split generalizing place with
  | nil => simp
  | cons first rest inductionHypothesis =>
    cases place with
    | zero => simp
    | succ place =>
      have bound := inductionHypothesis place
      simp only [List.take_succ_cons, total_cons, List.getD_cons_succ]
      omega

/-- A block has the length that the split says. -/
theorem length_blockAt {split : List Nat} {items : List α} (length : items.length = total split)
    (place : Nat) : (blockAt split items place).length = split.getD place 0 := by
  have bound := total_take_add_le split place
  rw [blockAt, List.length_take, List.length_drop, length]
  omega

/-- A block can be cut out of a tensor that has as many elements as the split divides. -/
theorem slice_eq_blockAt {split : List Nat} {tensor : Tensor} (length : tensor.count = total split)
    (place : Nat) :
    tensor.slice (total (split.take place)) (split.getD place 0) =
      .ok ⟨tensor.type, blockAt split tensor.words place⟩ := by
  have bound := length ▸ total_take_add_le split place
  rw [Tensor.slice_exact, if_neg (Nat.not_lt.mpr bound)]
  rfl

/-- Equal parts sum up to their number times their count. -/
theorem total_replicate (parts count : Nat) :
    total (List.replicate parts count) = parts * count := by
  induction parts with
  | zero => simp
  | succ parts inductionHypothesis =>
    rw [List.replicate_succ, total_cons, inductionHypothesis, Nat.succ_mul, Nat.add_comm]

/-- An even split cuts chunks. -/
theorem blockAt_replicate {parts place : Nat} (size : Nat) (words : List Nat)
    (inside : place < parts) :
    blockAt (List.replicate parts size) words place = chunkAt size words place := by
  have before : total ((List.replicate parts size).take place) = place * size := by
    rw [List.take_replicate, Nat.min_eq_left (Nat.le_of_lt inside), total_replicate]
  have own : (List.replicate parts size).getD place 0 = size := by
    simp [List.getD_eq_getElem?_getD, inside]
  rw [blockAt, before, own, chunkAt]

/-- A split of what was joined cuts out the parts only if its entries are their lengths. -/
theorem blockAt_flatMap_iff {parts : β → List α} {members : List β} {split : List Nat}
    (size : split.length = members.length)
    (length : (members.flatMap parts).length = total split) :
    (∀ place member, members[place]? = some member →
        blockAt split (members.flatMap parts) place = parts member) ↔
      split = members.map fun member => (parts member).length := by
  constructor
  · intro cuts
    refine List.ext_getElem (size.trans (List.length_map _).symm) fun place inside listed => ?_
    have here : place < members.length := size ▸ inside
    have block := cuts place members[place] (List.getElem?_eq_getElem here)
    calc split[place]
        = split.getD place 0 := by simp [List.getD_eq_getElem?_getD, inside]
      _ = (blockAt split (members.flatMap parts) place).length := (length_blockAt length place).symm
      _ = (members.map fun member => (parts member).length)[place] := by rw [block,
        List.getElem_map]
  · rintro rfl place member sits
    exact blockAt_flatMap sits

/-- Cutting chunks of the size that all joined parts have gives back the parts. -/
theorem chunkAt_flatMap {parts : β → List Nat} {members : List β} {size place : Nat} {member : β}
    (sizes : ∀ other ∈ members, (parts other).length = size)
    (sits : members[place]? = some member) :
    chunkAt size (members.flatMap parts) place = parts member := by
  have even : (members.map fun other => (parts other).length) =
      List.replicate members.length size := by
    rw [← List.map_const']
    exact List.map_congr_left sizes
  have inside : place < members.length := (List.getElem?_eq_some_iff.mp sits).1
  rw [← blockAt_replicate size _ inside, ← even]
  exact blockAt_flatMap sits

/-! ## A matrix of lengths -/

section

/- The entry of `lengths` for a sender and a receiver says how many elements the one sends to the
other. -/
variable (ranks : List Nat) (lengths : Nat → Nat → Nat)

/-- The row of a sender. -/
def sentBy (sender : Nat) : List Nat := ranks.map (lengths sender)

/-- The column of a receiver. -/
def sentTo (receiver : Nat) : List Nat := ranks.map (lengths · receiver)

/-- What a receiver joins: its blocks of all senders, in the order of the group. -/
def exchanged (items : Nat → List α) (receiver : Nat) : List α :=
  ranks.flatMap fun sender =>
    blockAt (sentBy ranks lengths sender) (items sender) (ranks.idxOf receiver)

variable {ranks lengths}

/-- The entry of a receiver stands in a sender's row at the receiver's place. -/
theorem getD_sentBy {receiver : Nat} (member : receiver ∈ ranks) (sender : Nat) :
    (sentBy ranks lengths sender).getD (ranks.idxOf receiver) 0 = lengths sender receiver := by
  have sits := List.getElem?_idxOf member
  simp [sentBy, List.getD_eq_getElem?_getD, sits]

/-- A member's block of a sender. -/
theorem length_blockAt_sentBy {items : List α} {sender receiver : Nat}
    (length : items.length = total (sentBy ranks lengths sender)) (member : receiver ∈ ranks) :
    (blockAt (sentBy ranks lengths sender) items (ranks.idxOf receiver)).length =
      lengths sender receiver := by
  rw [length_blockAt length, getD_sentBy member]

/-- The blocks of a sender for all members are what it has to send. -/
theorem flatMap_blockAt_idxOf (distinct : ranks.Nodup) {items : List α} {sender : Nat}
    (length : items.length = total (sentBy ranks lengths sender)) :
    (ranks.flatMap fun receiver =>
      blockAt (sentBy ranks lengths sender) items (ranks.idxOf receiver)) = items := by
  have places : ranks.map ranks.idxOf = List.range (sentBy ranks lengths sender).length := by
    rw [map_idxOf distinct, sentBy, List.length_map]
  calc (ranks.flatMap fun receiver =>
        blockAt (sentBy ranks lengths sender) items (ranks.idxOf receiver))
      = (ranks.map ranks.idxOf).flatMap (blockAt (sentBy ranks lengths sender) items) := by
        rw [List.flatMap_map]
    _ = (List.range (sentBy ranks lengths sender).length).flatMap
        (blockAt (sentBy ranks lengths sender) items) := by rw [places]
    _ = items := flatMap_blockAt length

/-- A receiver joins as many elements as its column says. -/
theorem length_exchanged {items : Nat → List α}
    (length : ∀ sender ∈ ranks, (items sender).length = total (sentBy ranks lengths sender))
    {receiver : Nat} (member : receiver ∈ ranks) :
    (exchanged ranks lengths items receiver).length = total (sentTo ranks lengths receiver) := by
  have parts : ranks.map (fun sender =>
      (blockAt (sentBy ranks lengths sender) (items sender) (ranks.idxOf receiver)).length) =
        sentTo ranks lengths receiver :=
    List.map_congr_left fun sender present => length_blockAt_sentBy (length sender present) member
  rw [exchanged, List.length_flatMap, parts, total, List.sum]

/-- Exchanging back, with the columns as rows, gives every member its own again. -/
theorem exchanged_exchanged (distinct : ranks.Nodup) {items : Nat → List α}
    (length : ∀ sender ∈ ranks, (items sender).length = total (sentBy ranks lengths sender))
    {member : Nat} (present : member ∈ ranks) :
    exchanged ranks (fun receiver sender => lengths sender receiver)
      (exchanged ranks lengths items) member = items member := by
  have returned : ∀ receiver ∈ ranks,
      blockAt (sentTo ranks lengths receiver) (exchanged ranks lengths items receiver)
          (ranks.idxOf member) =
        blockAt (sentBy ranks lengths member) (items member) (ranks.idxOf receiver) := by
    intro receiver received
    have parts : sentTo ranks lengths receiver = ranks.map fun sender =>
        (blockAt (sentBy ranks lengths sender) (items sender) (ranks.idxOf receiver)).length :=
      List.map_congr_left fun sender sends =>
        (length_blockAt_sentBy (length sender sends) received).symm
    rw [parts]
    exact blockAt_flatMap (List.getElem?_idxOf present)
  calc exchanged ranks (fun receiver sender => lengths sender receiver)
        (exchanged ranks lengths items) member
      = ranks.flatMap fun receiver =>
          blockAt (sentBy ranks lengths member) (items member) (ranks.idxOf receiver) :=
        List.flatMap_congr returned
    _ = items member := flatMap_blockAt_idxOf distinct (length member present)

/-! ## Where elements come from -/

variable (ranks lengths)

/-- For each element that a receiver joins, in order: who sent it, and its place in what that
member had to send. -/
def origins (receiver : Nat) : List (Nat × Nat) :=
  exchanged ranks lengths
    (fun sender => (List.range (total (sentBy ranks lengths sender))).map (sender, ·)) receiver

variable {ranks lengths}

/-- What a receiver joins are the elements at their origins. -/
theorem exchanged_eq_origins {items : Nat → List α}
    (length : ∀ sender ∈ ranks, (items sender).length = total (sentBy ranks lengths sender))
    (receiver : Nat) :
    (exchanged ranks lengths items receiver).map some =
      (origins ranks lengths receiver).map fun origin => (items origin.1)[origin.2]? := by
  rw [origins, exchanged, exchanged, List.map_flatMap, List.map_flatMap]
  apply List.flatMap_congr
  intro sender sends
  have each : ((List.range (total (sentBy ranks lengths sender))).map (sender, ·)).map
      (fun origin => (items origin.1)[origin.2]?) = (items sender).map some := by
    apply List.ext_getElem (by simp [length sender sends])
    intro index inside _
    simp
  rw [← blockAt_map, ← blockAt_map, each]

/-- Joining over two lists in either order gives the same elements. -/
theorem flatMap_comm_perm (firsts seconds : List Nat) (part : Nat → Nat → List α) :
    (firsts.flatMap fun first => seconds.flatMap (part first)).Perm
      (seconds.flatMap fun second => firsts.flatMap (part · second)) := by
  induction firsts with
  | nil => simp
  | cons first rest inductionHypothesis =>
    simp only [List.flatMap_cons]
    exact (inductionHypothesis.append_left _).trans (List.flatMap_append_perm seconds _ _)

/-- All origins are the places of all that there is to send. -/
theorem origins_perm (distinct : ranks.Nodup) :
    (ranks.flatMap (origins ranks lengths)).Perm
      (ranks.flatMap fun sender =>
        (List.range (total (sentBy ranks lengths sender))).map (sender, ·)) := by
  refine (flatMap_comm_perm ranks ranks _).trans (.of_eq ?_)
  apply List.flatMap_congr
  intro sender _
  exact flatMap_blockAt_idxOf distinct (by simp)

/-- No element is received twice. -/
theorem nodup_origins (distinct : ranks.Nodup) :
    (ranks.flatMap (origins ranks lengths)).Nodup := by
  rw [(origins_perm distinct).nodup_iff, List.nodup_flatMap]
  refine ⟨fun sender _ => List.nodup_range.map fun _ _ same => (Prod.mk.inj same).2, ?_⟩
  refine distinct.imp fun apart => ?_
  intro origin first second
  obtain ⟨_, _, rfl⟩ := List.mem_map.mp first
  obtain ⟨_, _, same⟩ := List.mem_map.mp second
  exact apart (Prod.mk.inj same).1.symm

/-- Every element is received, and nothing else is. -/
theorem mem_origins (distinct : ranks.Nodup) (sender index : Nat) :
    (sender, index) ∈ ranks.flatMap (origins ranks lengths) ↔
      sender ∈ ranks ∧ index < total (sentBy ranks lengths sender) := by
  rw [(origins_perm distinct).mem_iff]
  constructor
  · intro listed
    obtain ⟨other, present, place⟩ := List.mem_flatMap.mp listed
    obtain ⟨_, inside, same⟩ := List.mem_map.mp place
    obtain ⟨rfl, rfl⟩ := Prod.mk.inj same
    exact ⟨present, List.mem_range.mp inside⟩
  · rintro ⟨present, inside⟩
    exact List.mem_flatMap.mpr
      ⟨sender, present, List.mem_map.mpr ⟨index, List.mem_range.mpr inside, rfl⟩⟩

/-! ## Delivery -/

/-- The block that a contribution has for a member. -/
theorem blockFor_eq {contribution : Contribution} {tensor : Tensor} {sender receiver : Nat}
    (input : contribution.input = .single tensor)
    (split : contribution.inSplit = some (sentBy ranks lengths sender))
    (length : tensor.count = total (sentBy ranks lengths sender)) (member : receiver ∈ ranks)
    (name : String) :
    blockFor name (ranks.idxOf receiver) ranks.length contribution =
      .ok ⟨tensor.type,
        blockAt (sentBy ranks lengths sender) tensor.words (ranks.idxOf receiver)⟩ := by
  have size : (sentBy ranks lengths sender).length = ranks.length := List.length_map _
  have entry : (sentBy ranks lengths sender)[ranks.idxOf receiver]? =
      some (lengths sender receiver) := by
    rw [sentBy, List.getElem?_map, List.getElem?_idxOf member, Option.map_some]
  have cut := slice_eq_blockAt length (ranks.idxOf receiver)
  rw [getD_sentBy member] at cut
  simp only [blockFor, split, Option.filter_some, size, decide_true, if_true, entry, input,
    Staged.expectSingle, bind, Except.bind, Arithmetic.word_exact, cut]

/-- In an uneven exchange whose splits are the rows of a matrix, a member receives its blocks of
all senders. -/
theorem payload_allToAllv {type : ElementType} {call : Call}
    (operation : call.operation = .allToAllv) {inputs : Nat → Tensor} {brought : Nat → Contribution}
    (input : ∀ sender ∈ ranks, (brought sender).input = .single (inputs sender))
    (split : ∀ sender ∈ ranks, (brought sender).inSplit = some (sentBy ranks lengths sender))
    (shapes : ∀ sender ∈ ranks,
      (inputs sender).HasShape type (total (sentBy ranks lengths sender)))
    {receiver : Nat} (member : receiver ∈ ranks) :
    payload call (ranks.idxOf receiver) (ranks.map brought) =
      .ok (.one ⟨type,
        exchanged ranks lengths (fun sender => (inputs sender).words) receiver⟩) := by
  have blocks : (ranks.map brought).mapM
      (blockFor Operation.allToAllv.name (ranks.idxOf receiver) ranks.length) =
      .ok (ranks.map fun sender => ⟨type, blockAt (sentBy ranks lengths sender)
        (inputs sender).words (ranks.idxOf receiver)⟩) := by
    apply mapM_map_eq_ok
    intro sender sends
    rw [blockFor_eq (input sender sends) (split sender sends) (shapes sender sends).2 member,
      (shapes sender sends).1]
  have joined : joinParts (ranks.map fun sender => ⟨type, blockAt (sentBy ranks lengths sender)
      (inputs sender).words (ranks.idxOf receiver)⟩) =
      .ok ⟨type, exchanged ranks lengths (fun sender => (inputs sender).words) receiver⟩ :=
    joinParts_eq (fun _ _ => rfl) (List.ne_nil_of_mem member)
  simp only [payload, operation, List.length_map, bind, Except.bind] at blocks ⊢
  rw [blocks]
  simp only [joined]
  rfl

end

/-- Sends a block of a tensor to every member. -/
def Call.allToAllv (group : Nat) (inSplit : List Nat) (outSplit : Option (List Nat))
    (input output : Tensor) : Call :=
  { buffers :=
      { operation := .allToAllv, input := .single input, output := some (.single output),
        inSplit := some inSplit, outSplit },
    group }

/-- An uneven exchange gives each member its blocks of all inputs, whatever the members noted of
the blocks that they expect. -/
theorem conclude_allToAllv (group : Nat) {type : ElementType} {ranks : List Nat}
    {lengths : Nat → Nat → Nat} {inputs outputs : Nat → Tensor}
    (expected : Nat → Option (List Nat))
    (inputShapes : ∀ rank ∈ ranks,
      (inputs rank).HasShape type (total (sentBy ranks lengths rank)))
    {rank : Nat} (member : rank ∈ ranks)
    (fits : (outputs rank).HasShape type (total (sentTo ranks lengths rank))) :
    let made (other : Nat) := Call.allToAllv group (sentBy ranks lengths other) (expected other)
      (inputs other) (outputs other)
    conclude (made rank) rank (ranks.idxOf rank)
      (ranks.map fun other => (made other).contribution) =
      .ok (.allToAllv group (sentBy ranks lengths rank) (expected rank) (inputs rank)
        ⟨type, exchanged ranks lengths (fun sender => (inputs sender).words) rank⟩) := by
  intro made
  have received : payload (made rank) (ranks.idxOf rank)
      (ranks.map fun other => (made other).contribution) =
      .ok (.one ⟨type, exchanged ranks lengths (fun sender => (inputs sender).words) rank⟩) :=
    payload_allToAllv rfl (fun _ _ => rfl) (fun _ _ => rfl) inputShapes member
  have size : (exchanged ranks lengths (fun sender => (inputs sender).words) rank).length =
      total (sentTo ranks lengths rank) :=
    length_exchanged (fun sender present => (inputShapes sender present).2) member
  have same : ∀ other ∈ ranks, (made other).operation = .allToAllv := fun _ _ => rfl
  rw [conclude_eq_deliver (agreed_of_map same member)]
  exact deliver_one received rfl ⟨fits.1, fits.2.trans size.symm⟩

end CollectiveBench
