import CollectiveBench.Proofs.Exchange.Collective
import CollectiveBench.Proofs.Staging

/-!
# Staged calls

Buffers that all members of a group stage for one message fit together, for every operation: a
complete round of their calls brings no error (`staged_calls_succeed`). Three things beyond the
message decide whether it is so. The senders that staging counts must exist in the group, a split
that the parameters have must be the even one, and no rank may be listed twice.
-/

namespace CollectiveBench

/-- Calls that suit common terms all take a seat, unless their operation waits for nobody. -/
theorem World.accepts_of_suits {world : World} {group : Nat} {terms : Terms} {made : Nat → Call}
    (members : world.members group = terms.ranks)
    (here : ∀ rank ∈ terms.ranks, (made rank).group = group)
    (suits : ∀ rank ∈ terms.ranks, (made rank).Suits terms rank) :
    (∀ rank ∈ terms.ranks, world.accepts rank (made rank)) ∨
      (terms.operation = .noop ∨ terms.operation = .wait) := by
  by_cases free : terms.operation = .noop ∨ terms.operation = .wait
  · exact .inr free
  · refine .inl fun rank member => accepts_of_peers ?_ ?_ ?_
    · rw [Call.operation, (suits rank member).buffers.operation]
      exact not_or.mp free
    · rw [here rank member, members]
      exact (suits rank member).peers
    · rwa [here rank member, members]

namespace Exchange

variable {exchange : Exchange}

/-- In a ready group every call of members that suit the terms is answered with what a complete
round gives it, whether its operation waits for the others or not, and the group is ready again. -/
theorem Ready.perform_suiting {group : Nat} (ready : exchange.Ready group) {terms : Terms}
    (members : exchange.world.members group = terms.ranks) {made : Nat → Call}
    (here : ∀ rank, (made rank).group = group)
    (suits : ∀ rank ∈ terms.ranks, (made rank).Suits terms rank) {order : List Nat}
    (everyone : order.Perm terms.ranks) {pause : Nat}
    (prompt : pause * (terms.ranks.length - 1) < exchange.world.timeoutMs) :
    (exchange.perform pause (oneEach made order)).2 = (order.map fun rank =>
        conclude (made rank) rank (terms.ranks.idxOf rank)
          (terms.ranks.map fun other => (made other).contribution)) ∧
      (exchange.perform pause (oneEach made order)).1.Ready group ∧
      (exchange.perform pause (oneEach made order)).1.world = exchange.world := by
  have operation (rank : Nat) (member : rank ∈ terms.ranks) :
      (made rank).operation = terms.operation := (suits rank member).buffers.operation
  rw [← everyone.length_eq] at prompt
  rw [← members] at everyone
  rcases World.accepts_of_suits members (fun rank _ => here rank) suits with accepted | free
  · rw [← members] at accepted ⊢
    exact ready.perform_each made here accepted everyone prompt
  · obtain ⟨answers, readyAgain, world⟩ := ready.perform_free made here
      (fun rank member => by rwa [operation rank (members ▸ member)]) everyone prompt
    refine ⟨answers.trans (List.map_congr_left fun rank listed => ?_), readyAgain, world⟩
    have still : terms.operation = .barrier ∨ terms.operation = .wait ∨
        terms.operation = .noop := by
      rcases free with same | same <;> simp [same]
    exact (conclude_still suits still (members ▸ everyone.mem_iff.mp listed)).symm

/-- The members of a group stage one message under the same parameters, on any devices, and issue
what they staged with a common root, the senders that staging counted and common receivers. The
peers exist in the group; messages from point to point have as many receivers as senders; and if
the parameters have a split for an uneven exchange, it divides the message evenly. Then every call
succeeds and only its buffers change. It is so in complete rounds, and therefore in steps in which
all members issue their calls, in any order, before the first deadline. -/
theorem staged_calls_succeed {supported : List Operation} (world : World) {params : Params}
    {descriptor : Descriptor} {operation : Operation} {count : Nat} (root : Nat)
    (destinations : List Nat) (reduction : Reduction) (devices : Nat → Device)
    (buffers : Nat → Buffers)
    (resolved : Operation.resolve supported (Plan.nameOf params descriptor) = .ok operation)
    (asks : descriptor.AsksFor count) :
    let group := descriptor.group.getD World.defaultGroup
    let ranks := world.members group
    let made (rank : Nat) : Call :=
      { buffers := buffers rank, root, sources := params.sources, destinations, group, reduction }
    (∀ rank ∈ ranks,
      (stage supported world params descriptor true (devices rank)).1 = .ok (buffers rank)) →
    (operation = .allToAllv → ∀ split, params.inSplit = some split →
      split = evenSplit count ranks.length) →
    (operation.isRooted → root < ranks.length) →
    (∀ peer ∈ params.sources ++ destinations, peer < ranks.length) →
    (operation = .pt2pt ∨ operation = .recv → params.sources.length = destinations.length) →
    (∀ rank ∈ ranks, ∃ after,
      conclude (made rank) rank (ranks.idxOf rank)
          (ranks.map fun other => (made other).contribution) =
        .ok { made rank with buffers := after }) ∧
    ∀ exchange : Exchange, exchange.Ready group → exchange.world.members group = ranks →
      ∀ pause, pause * (ranks.length - 1) < exchange.world.timeoutMs →
        ∀ order, order.Perm ranks → ∃ after : Nat → Buffers,
          (exchange.perform pause (oneEach made order)).2 =
            order.map fun rank => .ok { made rank with buffers := after rank } := by
  intro group ranks made staged even rooted peers paired
  let terms := Terms.message ranks operation (descriptor.type.getD params.type)
    params.sources.length count
  have suits : ∀ rank ∈ terms.ranks, (made rank).Suits terms rank := fun rank member =>
    (Buffers.suits_of_staged resolved asks member (staged rank member) even).call rfl rooted peers
      paired
  have rounds (rank : Nat) (member : rank ∈ ranks) : ∃ after,
      conclude (made rank) rank (ranks.idxOf rank)
          (ranks.map fun other => (made other).contribution) =
        .ok { made rank with buffers := after } := by
    obtain ⟨_, answer, _, after, rfl⟩ := gives_conclude suits member
    exact ⟨after, answer⟩
  refine ⟨rounds, ?_⟩
  intro exchange ready members pause prompt order everyone
  have meeting : exchange.world.members group = terms.ranks := members
  obtain ⟨answers, _, _⟩ := ready.perform_suiting meeting (fun _ => rfl) suits everyone prompt
  choose! after concluded using rounds
  refine ⟨after, answers.trans (List.map_congr_left fun rank listed => ?_)⟩
  exact concluded rank (everyone.mem_iff.mp listed)

/-- Three ranks in a group with an order of its own. The second member collects from the first and
from itself, so the list that it stages has a tensor for each of the two. -/
theorem staged_calls_succeed_three :
    let world := World.create 3 [[2, 0, 1]] 1000
    let params : Params := { sources := [0, 1] }
    let descriptor := { Descriptor.of "incast" 2 2 .i32 with group := some 1 }
    let staged (rank : Nat) :=
      (stage Operation.all world params descriptor true (Device.create 7 rank)).1
    let buffers (rank : Nat) := (staged rank).toOption.getD { operation := .noop }
    let made (rank : Nat) : Call :=
      { buffers := buffers rank, root := 1, sources := params.sources, destinations := [2],
        group := 1, reduction := .sum }
    let exchange := create world (List.range 3)
    exchange.Ready 1 ∧ (∀ rank ∈ [2, 0, 1], staged rank = .ok (buffers rank)) ∧
      ∃ after : Nat → Buffers, (exchange.perform 1 (oneEach made [0, 1, 2])).2 =
        [0, 1, 2].map fun rank => .ok { made rank with buffers := after rank } := by
  intro world params descriptor staged buffers made exchange
  have ready : exchange.Ready 1 := ⟨atRest_create world, by decide, by decide, inStep_create _ _ 1⟩
  have each : ∀ rank ∈ [2, 0, 1], staged rank = .ok (buffers rank) := by decide +kernel
  have known : Operation.incast ∈ Operation.all := by decide
  have resolved :
      Operation.resolve Operation.all (Plan.nameOf params descriptor) = .ok .incast := by
    rw [show Plan.nameOf params descriptor = Operation.incast.name from rfl]
    exact Operation.resolve_name known
  have asks : descriptor.AsksFor 2 := ⟨rfl, rfl, rfl⟩
  have steps := (staged_calls_succeed world 1 [2] .sum (Device.create 7) buffers resolved asks
    each (by decide) (by decide) (by decide) (by decide)).2
  exact ⟨ready, each, steps exchange ready rfl 1 (by decide) [0, 1, 2] (by decide)⟩

/-- Two ranks stage one message and both fail: in an uneven exchange whose parameters have an
uneven split, in a broadcast whose parameters name a sender that does not exist, and in a group
that lists the first of them twice. -/
theorem staged_calls_can_fail :
    let staged (world : World) (params : Params) (descriptor : Descriptor) (rank : Nat) :=
      (stage Operation.all world params descriptor true (Device.create 0 rank)).1
    let made (world : World) (params : Params) (descriptor : Descriptor) (rank : Nat) : Call :=
      { buffers := (staged world params descriptor rank).toOption.getD { operation := .noop }
        sources := params.sources
        group := descriptor.group.getD World.defaultGroup }
    let answers (world : World) (params : Params) (descriptor : Descriptor) :=
      ((create world [0, 1]).perform 1 (oneEach (made world params descriptor) [0, 1])).2
    let together (world : World) (params : Params) (descriptor : Descriptor) : Prop :=
      ∀ rank ∈ [0, 1], staged world params descriptor rank =
        .ok (made world params descriptor rank).buffers
    let pair := World.create 2 [] 1000
    let uneven : Params := { inSplit := some [1, 3] }
    let blocks := Descriptor.of "all_to_allv" 4 4 .i32
    let foreign : Params := { sources := [5] }
    let message := Descriptor.of "broadcast" 1 1 .i32
    let repeating := World.create 2 [[0, 0, 1]] 1000
    let sum := { Descriptor.of "all_reduce" 1 1 .i32 with group := some 1 }
    (together pair uneven blocks ∧ answers pair uneven blocks =
      [.error (.bufferSizeMismatch 4 2), .error (.bufferSizeMismatch 4 6)]) ∧
    (together pair foreign message ∧ answers pair foreign message =
      [.error (.invalidRank 5 2), .error (.invalidRank 5 2)]) ∧
    (together repeating {} sum ∧ answers repeating {} sum =
      [.error (.collectiveTimeout "all_reduce" 0 1000),
        .error (.collectiveFailed "all_reduce" 1 "round abandoned")]) := by
  intro staged made answers together pair uneven blocks foreign message repeating sum
  refine ⟨⟨?_, ?_⟩, ⟨?_, ?_⟩, ?_, ?_⟩
  all_goals decide +kernel

end Exchange

end CollectiveBench
