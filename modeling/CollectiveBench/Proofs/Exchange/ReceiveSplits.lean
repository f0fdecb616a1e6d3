import CollectiveBench.Proofs.Delivery.Builds
import CollectiveBench.Proofs.Delivery.Uniform
import CollectiveBench.Proofs.Exchange.Collective
import CollectiveBench.Proofs.Exchange.Rendezvous

/-!
# Where received blocks lie

In an uneven exchange a call may note how long a block it expects of each member. The note is not
part of what a member contributes, and delivery does not look at it: the blocks are as long as the
senders' splits say, and they lie one after the other in the order of the group. What a call noted
is where the blocks lie exactly if the senders noted the same lengths (`Joined.cuts_iff`).
-/

namespace CollectiveBench

namespace Contribution

variable (contribution : Contribution) (me : Nat)

/-- How many elements the split has for a member. -/
def lengthFor : Nat := (contribution.inSplit.getD []).getD me 0

/-- The elements that the split has for a member. -/
def wordsFor : List Nat :=
  blockAt (contribution.inSplit.getD []) (contribution.input.tensors.flatMap Tensor.words) me

variable {contribution me}

/-- A block that is sent is the one that the sender's split has for the member, in full length. -/
theorem givesOnly_blockFor_words (name : String) (size : Nat) :
    GivesOnly (blockFor name me size contribution) fun block =>
      (block.words, block.count) = (contribution.wordsFor me, contribution.lengthFor me) := by
  obtain ⟨operation, input, inSplit⟩ := contribution
  rw [blockFor]
  split
  · exact givesOnly_error _
  next split usable =>
    obtain ⟨rfl, _⟩ := Option.filter_eq_some_iff.mp usable
    cases entry : split[me]? with
    | none => exact givesOnly_error _
    | some length =>
      cases input with
      | list tensors => exact givesOnly_error _
      | single tensor =>
        intro block cut
        change tensor.slice (total (split.take me)) length = .ok block at cut
        -- A slice is refused beyond the end, so the block is not cut short.
        obtain ⟨enough, rfl⟩ := Tensor.slice_eq_ok_iff.mp cut
        have count : ((tensor.words.drop (total (split.take me))).take length).length = length := by
          rw [Tensor.count] at enough
          rw [List.length_take, List.length_drop]
          omega
        simp [wordsFor, lengthFor, blockAt, entry, Staged.tensors, Tensor.count, count]

end Contribution

/-- The words are the blocks that the senders' splits have for a member, one after the other, and no
sender was short of words. -/
structure Joined (all : List Contribution) (me : Nat) (words : List Nat) : Prop where
  blocks : words = all.flatMap (·.wordsFor me)
  lengths : all.map (fun sender => (sender.wordsFor me).length) = all.map (·.lengthFor me)

namespace Joined

variable {all : List Contribution} {me : Nat} {words : List Nat}

/-- Each block begins after the lengths that the senders before it noted, and has the length that
its own sender noted. -/
theorem blockAt_eq (joined : Joined all me words) {place : Nat} {sender : Contribution}
    (sits : all[place]? = some sender) :
    (sender.wordsFor me).length = sender.lengthFor me ∧
      blockAt (all.map (·.lengthFor me)) words place = sender.wordsFor me := by
  constructor
  · exact List.map_inj_left.mp joined.lengths sender (List.mem_of_getElem? sits)
  · rw [joined.blocks, ← joined.lengths]
    exact blockAt_flatMap sits

/-- Of the splits that divide what was received, only that into the lengths that the senders noted
cuts out the blocks of the senders. -/
theorem cuts_iff (joined : Joined all me words) {split : List Nat}
    (size : split.length = all.length)
    (length : words.length = total split) :
    (∀ place sender, all[place]? = some sender → blockAt split words place = sender.wordsFor me) ↔
      split = all.map (·.lengthFor me) := by
  obtain ⟨rfl, lengths⟩ := joined
  rw [← lengths]
  exact blockAt_flatMap_iff size length

end Joined

/-! ## Delivery -/

variable {call returned : Call} {rank me : Nat} {all : List Contribution}

/-- A member of an uneven exchange receives the blocks that the senders have for it. -/
theorem givesOnly_payload_joined (uneven : call.operation = .allToAllv) :
    GivesOnly (payload call me all) fun received =>
      ∃ tensor, received = .one tensor ∧ Joined all me tensor.words := by
  simp only [payload, uneven]
  refine (givesOnly_mapM_map fun sender _ =>
    Contribution.givesOnly_blockFor_words _ _).bind fun blocks views => ?_
  refine (givesOnly_joinParts_words blocks).bind fun joined words => givesOnly_ok ⟨joined, rfl, ?_⟩
  have parts : blocks.map Tensor.words = all.map (·.wordsFor me) := by
    simpa [Function.comp_def] using congrArg (List.map Prod.fst) views
  have counts : blocks.map Tensor.count = all.map (·.lengthFor me) := by
    simpa [Function.comp_def] using congrArg (List.map Prod.snd) views
  constructor
  · rw [words, List.flatMap_def, parts, List.flatMap_def]
  · calc all.map (fun sender => (sender.wordsFor me).length)
        = (blocks.map Tensor.words).map List.length := by rw [parts, List.map_map]; rfl
      _ = blocks.map Tensor.count := by rw [List.map_map]; rfl
      _ = all.map (·.lengthFor me) := counts

/-- A single tensor that was taken over is the destination. -/
theorem givesOnly_accept_one (name : String) (destination : Staged) (tensor : Tensor) :
    GivesOnly (destination.accept name (.one tensor)) fun taken =>
      ∃ result, taken = .single result ∧ result.words = tensor.words := by
  cases destination with
  | list targets => exact givesOnly_error _
  | single target =>
    exact (target.givesOnly_copyFrom tensor).bind fun result copied =>
      givesOnly_ok ⟨result, rfl, copied.2⟩

/-- What comes back from an uneven exchange holds the blocks that the senders have for the
member. -/
theorem joined_of_conclude (concluded : conclude call rank me all = .ok returned)
    (uneven : call.operation = .allToAllv) :
    ∃ result, returned.buffers.destination = .single result ∧ Joined all me result.words := by
  rcases deliver_eq_ok (conclude_eq_ok concluded).2 with
    ⟨given, rfl⟩ | ⟨received, destination, given, _, taken, rfl⟩
  · obtain ⟨_, ⟨⟩, _⟩ := givesOnly_payload_joined uneven _ given
  · obtain ⟨tensor, rfl, joined⟩ := givesOnly_payload_joined uneven _ given
    obtain ⟨result, rfl, same⟩ := givesOnly_accept_one _ _ tensor _ taken
    exact ⟨result, Buffers.destination_withDestination _ _, same ▸ joined⟩

/-! ## Runs -/

namespace Exchange

variable {world : World} {exchange : Exchange} {events : List Event}
  {log : List (List Departure)} {clock : Nat}

/-- In any run of a world with one endpoint for each rank, whatever the members of its groups send
and note: when an uneven exchange is answered with a call, its destination holds a block of each
member of the group, taken from the call that this member made in the same round. The blocks lie one
after the other in the order of the group, and each is as long as the sender's split says. If the
call notes as many lengths as there are members, which add up to what it holds, then the blocks lie
where its notes say exactly if they are the lengths that the senders noted. This holds in every
build that holds the sum of each split that is sent, and the sizes of the tensors. -/
theorem blocks_lie_as_sent [Arithmetic]
    (history : History (create world (List.range world.size)) events log clock exchange)
    {event : Event} {answer : Answer} (given : answer ∈ (exchange.apply event).2) {returned : Call}
    (succeeded : answer.outcome = .ok returned) (uneven : returned.operation = .allToAllv)
    (held : ∀ departure ∈ exchange.departures event, departure.entry.call.contribution.Held) :
    ∃ departure ∈ exchange.departures event, ∃ (all : List Contribution) (result : Tensor),
      let group := departure.entry.key.group
      let me := departure.entry.position
      departure.entry.ticket = answer.ticket ∧
      all.length = (world.members group).length ∧
      (∀ place rank : Nat, (world.members group)[place]? = some rank →
        ∃ entry ∈ (exchange.departures event).map Departure.entry, entry.rank = rank ∧
          entry.key = departure.entry.key ∧ entry.call.operation = .allToAllv ∧
          all[place]? = some entry.call.contribution) ∧
      returned.buffers.destination = .single result ∧
      (∀ place sender, all[place]? = some sender →
        (sender.wordsFor me).length = sender.lengthFor me ∧
          blockAt (all.map (·.lengthFor me)) result.words place = sender.wordsFor me) ∧
      ∀ split, returned.buffers.outSplit = some split → split.length = all.length →
        result.count = total split →
        ((∀ place sender, all[place]? = some sender →
            blockAt split result.words place = sender.wordsFor me) ↔
          split = all.map (·.lengthFor me)) := by
  have rest := atRest_create world
  rcases (history.ledger rest).sound.mem_answers given with
    ⟨departure, departs, rfl⟩ | ⟨now, index, call, rfl, stays, rfl⟩
  · cases fate : departure.fate with
    | handed all =>
      have concluded : conclude departure.entry.call departure.entry.rank
          departure.entry.position all = .ok returned := by
        simpa only [Departure.answer, fate] using succeeded
      obtain ⟨agreed, delivered⟩ := conclude_eq_ok concluded
      have issued : departure.entry.call.operation = .allToAllv :=
        (deliver_operation delivered).symm.trans uneven
      obtain ⟨_, size, others⟩ := history.handed rest departs fate
      have whole : ∀ contribution ∈ all, contribution.Held := by
        intro contribution listed
        obtain ⟨place, sits⟩ := List.getElem?_of_mem listed
        have inside : place < (world.members departure.entry.key.group).length :=
          size ▸ (List.getElem?_eq_some_iff.mp sits).1
        obtain ⟨entry, left, _, _, _, own⟩ := others place _ (List.getElem?_eq_getElem inside)
        obtain ⟨leaving, departs, rfl⟩ := List.mem_map.mp left
        rw [Option.some.inj (sits.symm.trans own)]
        exact held leaving departs
      rw [conclude_of_held (fun _ => whole) (by simp [issued])] at concluded
      obtain ⟨result, holds, joined⟩ := joined_of_conclude concluded issued
      refine ⟨departure, departs, all, result, rfl, size, ?_, holds, ?_, ?_⟩
      · intro place rank sits
        obtain ⟨entry, left, sameRank, sameKey, _, contribution⟩ := others place rank sits
        have operation := agreed _ (List.mem_of_getElem? contribution)
        exact ⟨entry, left, sameRank, sameKey, operation.trans issued, contribution⟩
      · exact fun place sender sits => joined.blockAt_eq sits
      · exact fun split _ entries sum => joined.cuts_iff entries sum
    | timedOut => simp [Departure.answer, fate] at succeeded
    | abandoned => simp [Departure.answer, fate] at succeeded
    | refused => simp [Departure.answer, fate] at succeeded
  · rcases immediate_free stays succeeded with free | free <;> simp [free] at uneven

/-- A group of two whose second member issues its call first. The first member receives one element
of its own and three of the other. -/
theorem blocks_lie_as_sent_pair :
    let call (split note words room : List Nat) : Call :=
      .allToAllv 0 split (some note) ⟨.u8, words⟩ ⟨.u8, room⟩
    let first (room : List Nat) := call [1, 2] [1, 3] [10, 11, 12] room
    let second := call [3, 1] [2, 1] [20, 21, 22, 23] [0, 0, 0]
    let start := create (World.create 2 [] 1000) (List.range 2)
    let exchange := (@apply .wrapping start (.issue 0 1 second)).1
    let event := Event.issue 1 0 (first [0, 0, 0, 0])
    let received := [10, 20, 21, 22]
    @History .wrapping start [.issue 0 1 second] [[]] 0 exchange ∧
      ⟨1, .ok (first received)⟩ ∈ (@apply .wrapping exchange event).2 ∧
      ∃ departure ∈ exchange.departures event, departure.entry.ticket = 1 ∧
        ∃ all : List Contribution, all.length = 2 ∧ ∀ place sender, all[place]? = some sender →
          blockAt (all.map (·.lengthFor departure.entry.position)) received place =
            sender.wordsFor departure.entry.position := by
  intro call first second start exchange event received
  let _ : Arithmetic := .wrapping
  have history : @History .wrapping start [.issue 0 1 second] [[]] 0 exchange :=
    .step .start (.issue 0 1 second) (.inr rfl) trivial
  have given : ⟨1, .ok (first received)⟩ ∈ (@apply .wrapping exchange event).2 := by
    have answered : (1, Except.ok (first received)) ∈
        (@apply .wrapping exchange event).2.map fun answer => (answer.ticket, answer.outcome) := by
      decide +kernel
    obtain ⟨⟨_, _⟩, listed, same⟩ := List.mem_map.mp answered
    obtain ⟨rfl, rfl⟩ := Prod.mk.inj same
    exact listed
  have held : ∀ departure ∈ exchange.departures event,
      @Contribution.Held .wrapping departure.entry.call.contribution := by
    have bounded : ∀ departure ∈ exchange.departures event,
        (∀ tensor ∈ departure.entry.call.contribution.input.tensors,
          tensor.byteCount < Arithmetic.wordLimit) ∧
        ∀ lengths ∈ departure.entry.call.contribution.inSplit,
          total lengths < Arithmetic.wordLimit := by
      decide +kernel
    exact fun departure departs =>
      ⟨fun tensor listed => .inr ((bounded departure departs).1 tensor listed),
      fun _ lengths given => .inr ((bounded departure departs).2 lengths given)⟩
  obtain ⟨departure, departs, all, result, ticket, size, _, holds, blocks, _⟩ :=
    blocks_lie_as_sent history given rfl rfl held
  obtain rfl : ⟨.u8, received⟩ = result := Staged.single.inj holds
  have group : ∀ departure ∈ exchange.departures event, departure.entry.key.group = 0 := by
    decide +kernel
  rw [group departure departs] at size
  exact ⟨history, given, departure, departs, ticket, all, size,
    fun place sender sits => (blocks place sender sits).2⟩

/-- Two members note that they expect two elements of each of them. What they send adds up to as
many, but in blocks of one and three elements, so that both calls return and neither note says where
the blocks lie. -/
theorem blocks_lie_elsewhere :
    let call (rank : Nat) (room : List Nat) : Call :=
      .allToAllv 0 ([[1, 3], [3, 1]].getD rank []) (some [2, 2])
        ⟨.i32, (List.range 4).map (10 * rank + ·)⟩ ⟨.i32, room⟩
    let exchange := create (World.create 2 [] 1000) (List.range 2)
    let received (rank : Nat) := [[0, 10, 11, 12], [1, 2, 3, 13]].getD rank []
    let answers := (exchange.perform 1 (oneEach (call · [0, 0, 0, 0]) [0, 1])).2
    (answers = [0, 1].map fun rank => .ok (call rank (received rank))) ∧
      ∀ rank ∈ [0, 1], total [2, 2] = (received rank).length ∧
        blockAt [2, 2] (received rank) 0 ≠ (call 0 []).contribution.wordsFor rank ∧
        blockAt [2, 2] (received rank) 1 ≠ (call 1 []).contribution.wordsFor rank := by
  intro call exchange received answers
  refine ⟨?_, ?_⟩
  all_goals decide +kernel

end Exchange

end CollectiveBench
