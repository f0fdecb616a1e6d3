import CollectiveBench.Proofs.Delivery.Sums
import CollectiveBench.Proofs.Exchange.ValidatedCalls

/-!
# Validated reductions

All ranks stage one message for a reduction, reset what they staged to ones and sum. A rank's call
comes back in every case, and it passes the check exactly where the type adds the ones up to what
the number of ranks is stored as, where there are no elements, or where the rank is not the one that
the result is for (`sums_pass_iff`). Beyond the numbers that a type adds up, the check fails though
nothing went wrong (`sums_raise_false_alarm`): the result wraps around or stops growing, and the
expected value is rounded and held within the range of the type only once.
-/

namespace CollectiveBench

open Numeric

/-- The result of a reduction is one tensor, which is empty only if the message is. -/
theorem Layout.destination_reduced {operation : Operation} (reduces : operation.isReduction)
    {count size : Nat} (inhabited : 0 < size)
    (divides : operation = .reduceScatter ∨ operation = .reduceScatterBase → size ∣ count)
    (senders : Nat) :
    ∃ elements, (Layout.of operation count count size senders).destination = .single elements ∧
      (elements = 0 ↔ count = 0) := by
  have share (divides : size ∣ count) : count / size = 0 ↔ count = 0 := by
    obtain ⟨elements, rfl⟩ := divides
    rw [Nat.mul_div_cancel_left _ inhabited, Nat.mul_eq_zero]
    exact (or_iff_right (Nat.ne_of_gt inhabited)).symm
  cases operation <;> try exact absurd reduces (by decide)
  case allReduce | reduce => exact ⟨count, rfl, Iff.rfl⟩
  case reduceScatter => exact ⟨_, rfl, share (divides (.inl rfl))⟩
  case reduceScatterBase => exact ⟨_, rfl, share (divides (.inr rfl))⟩

/-- In a reduction not only the root sends. -/
theorem Checker.onlyRootSends_of_isReduction {operation : Operation}
    (reduces : operation.isReduction) : onlyRootSends operation = false := by
  cases operation <;> first | rfl | cases reduces

/-- What a rank is expected to hold after a sum of ones, if it is checked at all. -/
theorem Checker.expected_summed {operation : Operation} (reduces : operation.isReduction)
    {rank root : Nat} (ends : operation = .reduce → rank = root) (type : ElementType)
    (size : Nat) :
    Checker.expected ⟨.one⟩ operation type rank root size =
      if type = .bool then .one else .ofNat size * .one := by
  have reduced : isReduced operation rank root := by
    cases operation <;> try exact absurd reduces (by decide)
    case reduce => simp [isReduced, ends rfl]
    all_goals rfl
  by_cases truth : type = .bool <;> simp [expected, reduced, truth]

/-- A rank that a sum is not for passes, whatever it holds. -/
theorem Checker.check_bystander (checker : Checker) {call : Call} {rank : Nat}
    (reduce : call.operation = .reduce) (apart : rank ≠ call.root) (size sizeBytes : Nat) :
    checker.check call rank size sizeBytes = .ok () := by
  have unneeded : shouldCheck call rank = false := by simp [shouldCheck, reduce, apart]
  rw [check, unneeded]
  rfl

/-- A sum of ones passes at a rank that it is for if the type adds that many ones, or if it has no
elements. -/
theorem Checker.check_summed_iff {call : Call} {result : Tensor} {type : ElementType}
    {rank size : Nat} (reduces : call.operation.isReduction)
    (ends : call.operation = .reduce → rank = call.root)
    (destination : call.buffers.destination = .single result)
    (uniform : result.IsUniform type (type.onePlus (size - 1))) (inhabited : 0 < size)
    (small : size < powerOfTwo 32) (sizeBytes : Nat) :
    Checker.check ⟨.one⟩ call rank size sizeBytes = .ok () ↔ result.count = 0 ∨ type.Sums size := by
  have needed : shouldCheck call rank = true := by
    cases operation : call.operation <;> simp_all [shouldCheck, Operation.isReduction]
  have counted : size - 1 + 1 = size := by omega
  have adds := type.beq_onePlus (counted.symm ▸ small)
  rw [counted, ← expected_summed reduces ends type size] at adds
  rw [check_uniform_iff destination uniform, needed, adds]
  simp

variable {terms : Terms} {made : Nat → Call} {size root : Nat}

/-- In a complete round of all ranks that hold ones, every call of a sum comes back, and it passes
exactly where the type adds that many ones, where there is nothing to add, or where the result is
for another rank. -/
theorem Terms.gives_summed (suits : ∀ rank ∈ terms.ranks, (made rank).Suits terms rank)
    (everyone : terms.ranks = List.range size) (reduces : terms.operation.isReduction)
    (divides : terms.operation = .reduceScatter ∨ terms.operation = .reduceScatterBase →
      size ∣ terms.count)
    (sum : ∀ rank, (made rank).reduction = .sum) (sameRoot : ∀ rank, (made rank).root = root)
    (ones : ∀ rank ∈ terms.ranks, (made rank).buffers.input.Holds (terms.type.encode .one))
    (small : size < powerOfTwo 32) {rank : Nat} (member : rank ∈ terms.ranks) (sizeBytes : Nat) :
    Gives (conclude (made rank) rank (terms.ranks.idxOf rank)
        (terms.ranks.map fun other => (made other).contribution)) fun returned =>
      (Checker.check ⟨.one⟩ returned rank size sizeBytes = .ok () ↔
        terms.count = 0 ∨ terms.type.Sums size ∨ terms.operation = .reduce ∧ rank ≠ root) := by
  have inside : rank < size := by simpa [everyone] using member
  have place : terms.ranks.idxOf rank = rank := everyone ▸ idxOf_range inside
  have length : terms.ranks.length = size := by simp [everyone]
  have allocates : terms.operation.isSyncOnly = false := by
    cases operation : terms.operation <;> simp_all [Operation.isReduction, Operation.isSyncOnly]
  have even : terms.operation ≠ .allToAllv := by
    intro uneven
    rw [uneven] at reduces
    cases reduces
  have issued : (made rank).operation = terms.operation := (suits rank member).buffers.operation
  have uniform : ∀ contribution ∈ terms.ranks.map fun other => (made other).contribution,
      ∀ tensor ∈ contribution.input.tensors,
        tensor.IsUniform terms.type (terms.type.encode .one) := by
    rw [List.forall_mem_map]
    intro other present tensor listed
    exact ⟨((suits other present).buffers.shapes allocates).input.types tensor listed,
      ones other present tensor listed⟩
  obtain ⟨returned, concluded, after, buffers, shape⟩ := gives_conclude suits member
  have operation : returned.operation = terms.operation := after.buffers.operation
  have rooted : returned.root = root := by
    rw [shape]
    exact sameRoot rank
  refine ⟨returned, concluded, ?_⟩
  rw [place] at concluded
  rcases deliver_eq_ok (conclude_eq_ok concluded).2 with
    ⟨nothing, _⟩ | ⟨received, destination, brought, some, taken, written⟩
  · -- Only a rank that the result is not for receives nothing.
    rcases givesOnly_summed (issued ▸ reduces) (sum rank) uniform _ nothing with
      ⟨_, reduce, apart⟩ | ⟨tensor, absent, _⟩
    · rw [issued] at reduce
      rw [sameRoot] at apart
      refine iff_of_true ?_ (.inr (.inr ⟨reduce, apart⟩))
      exact Checker.check_bystander _ (operation.trans reduce) (rooted ▸ apart) size sizeBytes
    · cases absent
  · -- The destination is one tensor of the message's size, and it takes the sum.
    obtain ⟨elements, layout, empty⟩ := Layout.destination_reduced reduces
      (Nat.zero_lt_of_lt inside) divides terms.senders
    have fits := (after.buffers.shapes allocates).destination
    have holder : returned.buffers.destination = destination := by
      rw [written]
      exact Buffers.destination_withDestination _ _
    rw [Terms.layout_even even, length, layout, holder] at fits
    rcases givesOnly_summed (issued ▸ reduces) (sum rank) uniform _ brought with
      ⟨absent, _⟩ | ⟨tensor, rfl, summed, recipient⟩
    · exact absurd absent some
    · rw [issued, sameRoot] at recipient
      rw [List.length_map, length] at summed
      have one : (Payload.one tensor).Holds (terms.type.onePlus (size - 1)) := by
        simpa [Payload.Holds, Payload.tensors] using summed.2
      have own := ((suits rank member).buffers.shapes allocates).destination.types
      obtain ⟨types, holds⟩ := givesOnly_accept own one some _ destination taken
      cases destination with
      | list tensors => exact fits.elim
      | single result =>
        have count : result.count = elements := fits.2
        have ends : returned.operation = .reduce → rank = returned.root := by
          rw [operation, rooted]
          exact recipient
        have elsewhere : ¬ (terms.operation = .reduce ∧ rank ≠ root) :=
          fun apart => apart.2 (recipient apart.1)
        rw [Checker.check_summed_iff (operation ▸ reduces) ends holder
          ⟨types result (List.mem_singleton_self result),
            holds result (List.mem_singleton_self result)⟩
          (Nat.zero_lt_of_lt inside) small, count, empty]
        simp [elsewhere]

/-- A reduction that leaves each rank a chunk is staged for messages that the ranks divide. -/
theorem dvd_of_staged {supported : List Operation} {world : World} {params : Params}
    {descriptor : Descriptor} {operation : Operation} {device : Device} {buffers : Buffers}
    {rank count : Nat}
    (resolved : Operation.resolve supported (Plan.nameOf params descriptor) = .ok operation)
    (asks : descriptor.AsksFor count)
    (member : rank ∈ world.members (descriptor.group.getD World.defaultGroup))
    (staged : (stage supported world params descriptor true device).1 = .ok buffers)
    (divided : operation = .reduceScatter ∨ operation = .reduceScatterBase) :
    (world.members (descriptor.group.getD World.defaultGroup)).length ∣ count := by
  obtain ⟨plan, made, _⟩ := stage_eq_ok staged
  obtain ⟨known, inhabited⟩ := World.groupSize_of_mem member
  obtain ⟨_, _, _, decided⟩ := Plan.of_make made resolved known inhabited
  have allocates : operation.isSyncOnly = false := by rcases divided with rfl | rfl <;> rfl
  obtain ⟨_, checked⟩ := decided allocates
  have divisible : checkDivisible operation count
      (world.members (descriptor.group.getD World.defaultGroup)).length = .ok () := by
    rw [← asks.output]
    rcases divided with rfl | rfl <;> exact checked
  rw [checkDivisible] at divisible
  split at divisible
  next whole => exact Nat.dvd_of_mod_eq_zero whole
  next => cases divisible

/-- What a rank issues for a validated sum: what it staged, reset to ones. -/
def Buffers.summed (buffers : Buffers) (rank root : Nat) (sources destinations : List Nat)
    (stale : Scalar) : Call :=
  { buffers := Checker.reset ⟨.one⟩ buffers rank root stale, root, sources, destinations,
    group := World.defaultGroup, reduction := .sum }

/-- Staged and reset calls of a sum suit the terms of the message, and a complete round of them
gives each rank a result that passes as the type adds. -/
theorem summed_rounds {supported : List Operation} (size : Nat) (subgroups : List (List Nat))
    (timeoutMs : Nat) {params : Params} {descriptor : Descriptor} {operation : Operation}
    {count : Nat} (root : Nat) (destinations : List Nat) (devices : Nat → Device)
    (buffers : Nat → Buffers) (stale : Nat → Scalar) (sizeBytes : Nat)
    (resolved : Operation.resolve supported (Plan.nameOf params descriptor) = .ok operation)
    (reduces : operation.isReduction) (asks : descriptor.AsksFor count)
    (here : descriptor.group.getD World.defaultGroup = World.defaultGroup)
    (small : size < powerOfTwo 32)
    (staged : ∀ rank ∈ List.range size,
      (stage supported (World.create size subgroups timeoutMs) params descriptor true
        (devices rank)).1 = .ok (buffers rank))
    (rooted : operation.isRooted → root < size)
    (peers : ∀ peer ∈ params.sources ++ destinations, peer < size) :
    let type := descriptor.type.getD params.type
    let made (rank : Nat) : Call :=
      (buffers rank).summed rank root params.sources destinations (stale rank)
    (∀ rank ∈ List.range size, (made rank).Suits
      (.message (List.range size) operation type params.sources.length count) rank) ∧
    ∀ rank ∈ List.range size, ∃ returned,
      conclude (made rank) rank rank
          ((List.range size).map fun other => (made other).contribution) = .ok returned ∧
      (Checker.check ⟨.one⟩ returned rank size sizeBytes = .ok () ↔
        count = 0 ∨ type.Sums size ∨ operation = .reduce ∧ rank ≠ root) := by
  intro type made
  let terms := Terms.message (List.range size) operation type params.sources.length count
  have members : (World.create size subgroups timeoutMs).members
      (descriptor.group.getD World.defaultGroup) = terms.ranks := by
    rw [here]
    rfl
  have length : terms.ranks.length = size := List.length_range
  have suits : ∀ rank ∈ terms.ranks, (made rank).Suits terms rank := by
    intro rank member
    have suits := Buffers.suits_of_staged resolved asks (members ▸ member) (staged rank member) (by
      rintro rfl
      cases reduces)
    rw [members] at suits
    refine Buffers.Suits.call (Checker.suits_reset _ rank root (stale rank) suits) rfl ?_ ?_ ?_
    · exact length.symm ▸ rooted
    · exact length.symm ▸ peers
    · rintro (rfl | rfl) <;> cases reduces
  have ones : ∀ rank ∈ terms.ranks, (made rank).buffers.input.Holds (type.encode .one) := by
    intro rank member
    refine (Checker.prepared_of_staged ⟨.one⟩ root (stale rank) resolved (members ▸ member)
      (staged rank member)).sends fun alone => ?_
    rw [Checker.onlyRootSends_of_isReduction reduces] at alone
    cases alone
  refine ⟨suits, fun rank (member : rank ∈ terms.ranks) => ?_⟩
  have divides : operation = .reduceScatter ∨ operation = .reduceScatterBase → size ∣ count := by
    intro divided
    have whole := dvd_of_staged resolved asks (members ▸ member) (staged rank member) divided
    rwa [members, length] at whole
  obtain ⟨returned, concluded, judged⟩ := Terms.gives_summed suits rfl reduces divides
    (fun _ => rfl) (fun _ => rfl) ones small member sizeBytes
  rw [show terms.ranks.idxOf rank = rank from idxOf_range (List.mem_range.mp member)] at concluded
  exact ⟨returned, concluded, judged⟩

namespace Exchange

/-- All ranks of a world stage one message for a reduction, on any devices, reset what they staged
to ones, each with values of its own where nothing is sent, and issue it as a sum with a common
root. The peers exist. Then every call comes back, in complete rounds and in steps in which all
ranks issue their calls in any order before the first deadline. A rank's result passes the check
exactly if the type adds up as many ones as there are ranks, if there are no elements, or if the
result is for another rank. -/
theorem sums_pass_iff {supported : List Operation} (size : Nat) (subgroups : List (List Nat))
    (timeoutMs : Nat) {params : Params} {descriptor : Descriptor} {operation : Operation}
    {count : Nat} (root : Nat) (destinations : List Nat) (devices : Nat → Device)
    (buffers : Nat → Buffers) (stale : Nat → Scalar) (sizeBytes : Nat)
    (resolved : Operation.resolve supported (Plan.nameOf params descriptor) = .ok operation)
    (reduces : operation.isReduction) (asks : descriptor.AsksFor count)
    (here : descriptor.group.getD World.defaultGroup = World.defaultGroup)
    (small : size < powerOfTwo 32) :
    let type := descriptor.type.getD params.type
    let world := World.create size subgroups timeoutMs
    let ranks := List.range size
    let made (rank : Nat) : Call :=
      (buffers rank).summed rank root params.sources destinations (stale rank)
    let passes (rank : Nat) (returned : Call) : Prop :=
      Checker.check ⟨.one⟩ returned rank size sizeBytes = .ok ()
    let adds (rank : Nat) : Prop := count = 0 ∨ type.Sums size ∨ operation = .reduce ∧ rank ≠ root
    (∀ rank ∈ ranks,
      (stage supported world params descriptor true (devices rank)).1 = .ok (buffers rank)) →
    (operation.isRooted → root < size) →
    (∀ peer ∈ params.sources ++ destinations, peer < size) →
    (∀ rank ∈ ranks, ∃ returned,
      conclude (made rank) rank rank (ranks.map fun other => (made other).contribution) =
        .ok returned ∧ (passes rank returned ↔ adds rank)) ∧
    ∀ exchange : Exchange, exchange.Ready World.defaultGroup →
      exchange.world.members World.defaultGroup = ranks →
        ∀ pause, pause * (size - 1) < exchange.world.timeoutMs →
          ∀ order, order.Perm ranks → ∃ returned : Nat → Call,
            (exchange.perform pause (oneEach made order)).2 =
              (order.map fun rank => .ok (returned rank)) ∧
            ∀ rank ∈ ranks, passes rank (returned rank) ↔ adds rank := by
  intro type world ranks made passes adds staged rooted peers
  obtain ⟨suits, rounds⟩ := summed_rounds size subgroups timeoutMs root destinations devices buffers
    stale sizeBytes resolved reduces asks here small staged rooted peers
  refine ⟨rounds, ?_⟩
  intro exchange ready known pause prompt order everyone
  let terms := Terms.message ranks operation type params.sources.length count
  have meeting : exchange.world.members World.defaultGroup = terms.ranks := known
  have length : terms.ranks.length = size := List.length_range
  obtain ⟨answers, _, _⟩ := ready.perform_suiting meeting (fun _ => rfl) suits everyone
    (by rwa [length])
  choose! returned concluded judged using rounds
  refine ⟨returned, answers.trans (List.map_congr_left fun rank listed => ?_), judged⟩
  have member := everyone.mem_iff.mp listed
  rw [← concluded rank member, show terms.ranks.idxOf rank = rank from
    idxOf_range (List.mem_range.mp member)]
  rfl

/-- Three ranks of which each keeps two elements of the sum. -/
theorem sums_pass_iff_three :
    let world := World.create 3 [] 1000
    let params : Params := {}
    let descriptor := Descriptor.of "reduce_scatter_base" 6 6 .bf16
    let staged (rank : Nat) :=
      (stage Operation.all world params descriptor true (Device.create 7 rank)).1
    let buffers (rank : Nat) := (staged rank).toOption.getD { operation := .noop }
    let made (rank : Nat) : Call := (buffers rank).summed rank 0 [] [] (.ofNat rank)
    let exchange := create world (List.range 3)
    exchange.Ready World.defaultGroup ∧ (∀ rank ∈ [0, 1, 2], staged rank = .ok (buffers rank)) ∧
      ∃ returned : Nat → Call, (exchange.perform 1 (oneEach made [2, 0, 1])).2 =
        ([2, 0, 1].map fun rank => .ok (returned rank)) ∧
        ∀ rank ∈ [0, 1, 2], Checker.check ⟨.one⟩ (returned rank) rank 3 12 = .ok () := by
  intro world params descriptor staged buffers made exchange
  have ready : exchange.Ready World.defaultGroup :=
    ⟨atRest_create world, by decide, by decide, inStep_create _ _ _⟩
  have each : ∀ rank ∈ [0, 1, 2], staged rank = .ok (buffers rank) := by decide +kernel
  have known : Operation.reduceScatterBase ∈ Operation.all := by decide
  have resolved : Operation.resolve Operation.all (Plan.nameOf params descriptor) =
      .ok .reduceScatterBase := by
    rw [show Plan.nameOf params descriptor = Operation.reduceScatterBase.name from rfl]
    exact Operation.resolve_name known
  obtain ⟨returned, answers, judged⟩ := (sums_pass_iff 3 [] 1000 0 [] (Device.create 7) buffers
    Scalar.ofNat 12 resolved rfl ⟨rfl, rfl, rfl⟩ rfl (by decide) each (by decide)
    (by decide)).2 exchange ready rfl 1 (by decide) [2, 0, 1] (by decide)
  have adds : ElementType.Sums .bf16 3 := by
    show 3 ≤ Format.bfloat16.limit + 1
    decide
  exact ⟨ready, each, returned, answers, fun rank member =>
    (judged rank member).mpr (.inr (.inl adds))⟩

/-- With 256 ranks a sum of bytes comes around to zero, and no rank's result passes the check,
which expects 255. -/
theorem sums_raise_false_alarm :
    let ranks := List.range 256
    let descriptor := Descriptor.of "all_reduce" 1 1 .u8
    let made (buffers : Nat → Buffers) (rank : Nat) : Call :=
      (buffers rank).summed rank 0 [] [] .zero
    ∃ buffers : Nat → Buffers,
      (∀ rank ∈ ranks, (stage Operation.all (.create 256 [] 1000) {} descriptor true
        (Device.create 7 rank)).1 = .ok (buffers rank)) ∧
      ∀ rank ∈ ranks, ∃ returned,
        conclude (made buffers rank) rank rank
            (ranks.map fun other => (made buffers other).contribution) = .ok returned ∧
          Checker.check ⟨.one⟩ returned rank 256 1 ≠ .ok () := by
  intro ranks descriptor made
  have resolved : Operation.resolve Operation.all (Plan.nameOf {} descriptor) =
      .ok .allReduce := by
    rw [show Plan.nameOf {} descriptor = Operation.allReduce.name from rfl]
    exact Operation.resolve_name (by decide)
  have planned : Plan.make Operation.all (.create 256 [] 1000) {} descriptor =
      .ok (.forGroup .allReduce {} descriptor 256) := by
    have known : World.groupSize (.create 256 [] 1000) World.defaultGroup = .ok 256 :=
      congrArg Except.ok List.length_range
    rw [Plan.make_eq resolved rfl known (by decide)]
    rfl
  let buffers (rank : Nat) : Buffers :=
    ((Plan.forGroup .allReduce {} descriptor 256).allocate {} (Device.create 7 rank)).1
  have staged : ∀ rank ∈ ranks, (stage Operation.all (.create 256 [] 1000) {} descriptor true
      (Device.create 7 rank)).1 = .ok (buffers rank) := by
    intro rank _
    rw [stage_exact, planned]
    rfl
  have rounds := (summed_rounds 256 [] 1000 0 [] (Device.create 7) buffers (fun _ => .zero) 1
    resolved rfl ⟨rfl, rfl, rfl⟩ rfl (by decide) staged (by decide) (by simp)).2
  refine ⟨buffers, staged, fun rank member => ?_⟩
  obtain ⟨returned, concluded, judged⟩ := rounds rank member
  refine ⟨returned, concluded, fun passes => ?_⟩
  have wraps : ¬ ElementType.Sums .u8 256 := by simp [ElementType.Sums]
  rcases judged.mp passes with none | adds | ⟨elsewhere, _⟩
  · cases none
  · exact wraps adds
  · cases elsewhere

end Exchange

end CollectiveBench
