import CollectiveBench.Proofs.Delivery.Blocks
import CollectiveBench.Proofs.Exchange.ScatterGather

/-!
# There and back

An uneven exchange along a matrix of lengths, and the exchange of its results along the transposed
matrix. The first brings each member its blocks of all inputs, so that each element of each input
is in one place of one result; the second brings each member its own input back.
-/

namespace CollectiveBench.Exchange

/-- In a group of different ranks, along any matrix of lengths: each member sends what its row
divides and has room for what its column adds up to. Every call succeeds. A member's result
joins, over all senders in the order of the group, the block that begins after the lengths of the
members before it and has the length that the sender's row says for it; its elements are those at
their origins, no place of an input is the origin of two elements of all results together, and
every place of an input is the origin of one. Sending the results along the transposed matrix
gives every member its input. It is so in complete rounds, and therefore in steps in which all
members issue their calls, in any order, before the first deadline. -/
theorem blocks_land_and_return (group : Nat) {type : ElementType} {ranks : List Nat}
    (distinct : ranks.Nodup) (lengths : Nat → Nat → Nat) (expected : Nat → Option (List Nat))
    {inputs outputs returns : Nat → Tensor}
    (inputShapes : ∀ rank ∈ ranks, (inputs rank).HasShape type (total (ranks.map (lengths rank))))
    (outputShapes : ∀ rank ∈ ranks,
      (outputs rank).HasShape type (total (ranks.map (lengths · rank))))
    (returnShapes : ∀ rank ∈ ranks,
      (returns rank).HasShape type (total (ranks.map (lengths rank)))) :
    let received (rank : Nat) : Tensor := ⟨type, ranks.flatMap fun sender =>
      blockAt (ranks.map (lengths sender)) (inputs sender).words (ranks.idxOf rank)⟩
    let there (rank : Nat) := Call.allToAllv group (ranks.map (lengths rank)) (expected rank)
      (inputs rank)
    let back (rank : Nat) := Call.allToAllv group (ranks.map (lengths · rank)) (expected rank)
      (received rank)
    (∀ rank ∈ ranks,
      conclude (there rank (outputs rank)) rank (ranks.idxOf rank)
          (ranks.map fun other => (there other (outputs other)).contribution) =
        .ok (there rank (received rank)) ∧
      conclude (back rank (returns rank)) rank (ranks.idxOf rank)
          (ranks.map fun other => (back other (returns other)).contribution) =
        .ok (back rank (inputs rank)) ∧
      (received rank).words.map some =
        (origins ranks lengths rank).map fun origin => (inputs origin.1).words[origin.2]?) ∧
    ((ranks.flatMap (origins ranks lengths)).Nodup ∧ ∀ sender index,
      (sender, index) ∈ ranks.flatMap (origins ranks lengths) ↔
        sender ∈ ranks ∧ index < total (ranks.map (lengths sender))) ∧
    ∀ exchange : Exchange, exchange.Ready group → exchange.world.members group = ranks →
      ∀ pause, pause * (ranks.length - 1) < exchange.world.timeoutMs →
        ∀ first second, first.Perm ranks → second.Perm ranks →
          let sent := exchange.perform pause (oneEach (fun rank => there rank (outputs rank)) first)
          let returned :=
            sent.1.perform pause (oneEach (fun rank => back rank (returns rank)) second)
          (sent.2 = first.map fun rank => .ok (there rank (received rank))) ∧
          returned.2 = second.map fun rank => .ok (back rank (inputs rank)) := by
  intro received there back
  have sizes : ∀ sender ∈ ranks,
      (inputs sender).words.length = total (sentBy ranks lengths sender) :=
    fun sender present => (inputShapes sender present).2
  have landed (rank : Nat) (member : rank ∈ ranks) :
      conclude (there rank (outputs rank)) rank (ranks.idxOf rank)
          (ranks.map fun other => (there other (outputs other)).contribution) =
        .ok (there rank (received rank)) :=
    conclude_allToAllv group expected inputShapes member (outputShapes rank member)
  have home (rank : Nat) (member : rank ∈ ranks) :
      conclude (back rank (returns rank)) rank (ranks.idxOf rank)
          (ranks.map fun other => (back other (returns other)).contribution) =
        .ok (back rank (inputs rank)) := by
    have receivedShapes : ∀ other ∈ ranks, (received other).HasShape type
        (total (sentBy ranks (fun receiver sender => lengths sender receiver) other)) :=
      fun other present => ⟨rfl, length_exchanged sizes present⟩
    have own : exchanged ranks (fun receiver sender => lengths sender receiver)
        (fun other => (received other).words) rank = (inputs rank).words :=
      exchanged_exchanged distinct sizes member
    have answer :=
      conclude_allToAllv group expected receivedShapes member (returnShapes rank member)
    rw [own, ← (inputShapes rank member).1] at answer
    exact answer
  refine ⟨fun rank member => ⟨landed rank member, home rank member, ?_⟩,
    ⟨nodup_origins distinct, mem_origins distinct⟩, ?_⟩
  · exact exchanged_eq_origins sizes rank
  rintro exchange ready rfl pause prompt first second goes comes
  have accepted (made : Nat → Call) (operation : ∀ rank, (made rank).operation = .allToAllv)
      (here : ∀ rank, (made rank).group = group)
      (peers : ∀ rank size, (made rank).checkPeers rank size = .ok ()) (rank : Nat)
      (member : rank ∈ exchange.world.members group) : exchange.world.accepts rank (made rank) :=
    World.accepts_of_mem (by simp [operation rank]) (peers rank) (here rank ▸ member)
  obtain ⟨sent, readyAgain, world⟩ := ready.perform_each (fun rank => there rank (outputs rank))
    (fun _ => rfl) (accepted _ (fun _ => rfl) (fun _ => rfl) fun _ _ => rfl) goes
    (goes.length_eq ▸ prompt)
  obtain ⟨returned, _, _⟩ := readyAgain.perform_each (fun rank => back rank (returns rank))
    (fun _ => rfl) (world ▸ accepted _ (fun _ => rfl) (fun _ => rfl) fun _ _ => rfl) (world ▸ comes)
    (by rw [world, comes.length_eq]; exact prompt)
  refine ⟨?_, ?_⟩
  · rw [sent]
    exact List.map_congr_left fun rank listed => landed rank (goes.mem_iff.mp listed)
  · rw [returned, world]
    exact List.map_congr_left fun rank listed => home rank (comes.mem_iff.mp listed)

/-- Three ranks in a group with an order of its own. Rank 0 has elements for rank 1 only, and all
blocks of the others differ in length. -/
theorem blocks_land_and_return_three :
    let ranks := [2, 0, 1]
    let lengths (sender receiver : Nat) := sender * (receiver + 1) + receiver % 2
    let input (rank : Nat) : Tensor :=
      ⟨.u8, (List.range (total (ranks.map (lengths rank)))).map (10 * rank + ·)⟩
    let output (rank : Nat) := Tensor.zeros (total (ranks.map (lengths · rank))) .u8
    let target (rank : Nat) := Tensor.zeros (total (ranks.map (lengths rank))) .u8
    let received (rank : Nat) : Tensor := ⟨.u8, ranks.flatMap fun sender =>
      blockAt (ranks.map (lengths sender)) (input sender).words (ranks.idxOf rank)⟩
    let there (rank : Nat) := Call.allToAllv 1 (ranks.map (lengths rank)) none (input rank)
    let back (rank : Nat) := Call.allToAllv 1 (ranks.map (lengths · rank)) none (received rank)
    let exchange := create (World.create 3 [ranks] 1000) (List.range 3)
    let sent := exchange.perform 1 (oneEach (fun rank => there rank (output rank)) [1, 0, 2])
    let returned := sent.1.perform 1 (oneEach (fun rank => back rank (target rank)) [0, 2, 1])
    exchange.Ready 1 ∧
      (∀ rank ∈ ranks, (input rank).HasShape .u8 (total (ranks.map (lengths rank)))) ∧
      (received 0).words = [26, 27, 13] ∧
      (sent.2 = [1, 0, 2].map fun rank => .ok (there rank (received rank))) ∧
      returned.2 = [0, 2, 1].map fun rank => .ok (back rank (input rank)) := by
  intro ranks lengths input output target received there back exchange sent returned
  have ready : exchange.Ready 1 :=
    ⟨atRest_create (World.create 3 [ranks] 1000), by decide, by decide, inStep_create _ _ 1⟩
  have inputShapes : ∀ rank ∈ ranks,
      (input rank).HasShape .u8 (total (ranks.map (lengths rank))) :=
    fun rank _ => ⟨rfl, by simp [input, Tensor.count]⟩
  have outputShapes : ∀ rank ∈ ranks,
      (output rank).HasShape .u8 (total (ranks.map (lengths · rank))) :=
    fun rank _ => ⟨rfl, List.length_replicate⟩
  have targetShapes : ∀ rank ∈ ranks,
      (target rank).HasShape .u8 (total (ranks.map (lengths rank))) :=
    fun rank _ => ⟨rfl, List.length_replicate⟩
  have steps := (blocks_land_and_return 1 (by decide) lengths (fun _ => none) inputShapes
    outputShapes targetShapes).2.2 exchange ready rfl 1 (by decide) [1, 0, 2] [0, 2, 1] (by decide)
    (by decide)
  exact ⟨ready, inputShapes, by decide, steps⟩

end CollectiveBench.Exchange
