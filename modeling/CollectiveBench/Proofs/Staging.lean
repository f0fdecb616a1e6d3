import CollectiveBench.Proofs.Delivery.Terms
import CollectiveBench.Proofs.Exchange.Event

/-!
# Staged buffers

Staging decides first and allocates afterwards. What it decides is a plan, and a plan suits the
terms of a round when its layout is that of the terms; then the buffers that are allocated suit
them too (`Plan.Suits.allocate`), whatever the device has drawn before. `Plan.make_eq` says what a
plan consists of once the operation is resolved and the group found, and `Plan.suits_message` holds
it against the terms of a descriptor that asks every member for the same message.
-/

namespace CollectiveBench

/-! ## Allocation -/

/-- As many words are drawn as were asked for. -/
theorem Generator.length_words [Halves] (type : ElementType) (scale : Numeric.Scalar) (count : Nat)
    (generator : Generator) : (generator.words type scale count).1.length = count := by
  induction count generalizing generator with
  | zero => rfl
  | succ count inductionHypothesis => simp [words, inductionHypothesis]

/-- A tensor holds all of its elements if there can be a buffer for them. -/
theorem Device.held_of_allots [Arithmetic] {filling : Filling} {type : ElementType} {count : Nat}
    (allots : Arithmetic.Allots count type.size) : filling.held type count = .ok count := by
  have whole : count * type.size / type.size = count := Nat.mul_div_cancel _ type.size_pos
  refine bind_eq_of_eq_ok (Arithmetic.room_of_allots allots) ?_
  cases filling with
  | ones value => exact congrArg Except.ok whole
  | random scale =>
    rw [whole]
    exact if_neg (Nat.lt_irrefl count)

/-- Any filling gives a tensor of the shape that was asked for. -/
theorem Device.hasShape_filled [Halves] (device : Device) (filling : Filling) (type : ElementType)
    (count : Nat) : (device.filled filling type count).1.HasShape type count := by
  cases filling with
  | ones value => exact ⟨rfl, List.length_replicate⟩
  | random scale => exact ⟨rfl, device.generator.length_words type scale count⟩

/-- New tensors of a list have the shape that was asked for. -/
theorem Device.eachOf_filledList [Halves] (filling : Filling) (type : ElementType)
    (count parts : Nat)
    (device : Device) :
    EachOf parts (·.HasShape type count) (filledList filling type count parts device).1 := by
  induction parts generalizing device with
  | zero => exact ⟨rfl, by simp [filledList]⟩
  | succ parts inductionHypothesis =>
    exact EachOf.cons (device.hasShape_filled filling type count) (inductionHypothesis _)

/-- A buffer is allocated as its extent says. -/
theorem Device.fits_allocate [Halves] (device : Device) (filling : Filling) (type : ElementType)
    (extent : Extent) : (device.allocate filling type extent).1.Fits type extent := by
  cases extent with
  | single count => exact device.hasShape_filled filling type count
  | list parts count => exact eachOf_filledList filling type count parts device

/-- Allocation leaves what the plan decided. -/
theorem Plan.allocate_decided [Halves] (plan : Plan) (params : Params) (device : Device) :
    (plan.allocate params device).1.operation = plan.operation ∧
      (plan.allocate params device).1.inSplit = plan.inSplit ∧
      (plan.allocate params device).1.outSplit = plan.outSplit := by
  rw [allocate]
  cases plan.layout with
  | none => exact ⟨rfl, rfl, rfl⟩
  | some layout => cases output : layout.output <;> simp [output, unallocated]

/-- Buffers are allocated as the layout says. -/
theorem Plan.fits_allocate [Halves] {plan : Plan} {layout : Layout}
    (chosen : plan.layout = some layout)
    (params : Params) (device : Device) :
    (plan.allocate params device).1.Fits plan.type layout := by
  obtain ⟨input, output⟩ := layout
  rw [allocate, chosen]
  cases output with
  | none => exact ⟨device.fits_allocate _ plan.type input, by simp [unallocated, chosen]⟩
  | some extent =>
    exact ⟨device.fits_allocate _ plan.type input,
      .some (Device.fits_allocate _ _ plan.type extent)⟩

/-- Where every count is held, a buffer has the shape that it is to have. -/
theorem Extent.held_exact (filling : Device.Filling) (type : ElementType) (extent : Extent) :
    extent.held filling type = .ok extent := by
  have counted (count : Nat) : filling.held type count = .ok count :=
    Device.held_of_allots (Arithmetic.allots_exact _ _)
  match extent with
  | .single count => exact bind_eq_of_eq_ok (counted count) rfl
  | .list 0 count => rfl
  | .list (parts + 1) count => exact bind_eq_of_eq_ok (counted count) rfl

/-- Where every count is held, buffers have the shapes of the layout. -/
theorem Plan.held_exact (plan : Plan) (params : Params) : plan.held params = .ok plan := by
  obtain ⟨operation, layout, type, scale, inSplit, outSplit⟩ := plan
  cases layout with
  | none => rfl
  | some layout =>
    obtain ⟨input, output⟩ := layout
    refine bind_eq_of_eq_ok (Extent.held_exact _ _ input) ?_
    cases output with
    | none => rfl
    | some output => exact bind_eq_of_eq_ok (Extent.held_exact _ _ output) rfl

/-- Where every count is held, staging allocates by its plan. -/
theorem stage_exact [Halves] (supported : List Operation) (world : World) (params : Params)
    (descriptor : Descriptor) (allocate : Bool) (device : Device) :
    stage supported world params descriptor allocate device =
      match Plan.make supported world params descriptor with
      | .error error => (.error error, device)
      | .ok plan =>
        if allocate then
          (.ok (plan.allocate params device).1, (plan.allocate params device).2)
        else (.ok plan.unallocated, device) := by
  rw [stage]
  cases Plan.make supported world params descriptor with
  | error error => rfl
  | ok plan =>
    simp only [Plan.held_exact]

variable {terms : Terms} {rank : Nat}

/-- What a plan decides is what the terms say of a member. -/
structure Plan.Suits (terms : Terms) (rank : Nat) (plan : Plan) : Prop where
  operation : plan.operation = terms.operation
  type : plan.type = terms.type
  layout : terms.operation.isSyncOnly = false → plan.layout = some (terms.layout rank)
  split : terms.operation = .allToAllv →
    plan.inSplit = some (sentBy terms.ranks terms.lengths rank)

/-- Buffers that are allocated by a plan suit the terms that the plan suits. -/
theorem Plan.Suits.allocate [Halves] {plan : Plan} (suits : plan.Suits terms rank) (params : Params)
    (device : Device) : (plan.allocate params device).1.Suits terms rank := by
  obtain ⟨operation, inSplit, _⟩ := plan.allocate_decided params device
  refine ⟨operation.trans suits.operation, fun allocates => ?_, fun uneven => ?_⟩
  · rw [← suits.type]
    exact plan.fits_allocate (suits.layout allocates) params device
  · rw [inSplit, suits.split uneven]

/-- Staging that succeeds allocates by a plan. -/
theorem stage_eq_ok [Halves] {supported : List Operation} {world : World} {params : Params}
    {descriptor : Descriptor} {device : Device} {buffers : Buffers}
    (staged : (stage supported world params descriptor true device).1 = .ok buffers) :
    ∃ plan, Plan.make supported world params descriptor = .ok plan ∧
      buffers = (plan.allocate params device).1 := by
  rw [stage_exact] at staged
  cases made : Plan.make supported world params descriptor with
  | error error => simp [made] at staged
  | ok plan =>
    refine ⟨plan, rfl, ?_⟩
    simpa [made, eq_comm] using staged

/-! ## Plans -/

section

variable {supported : List Operation} {world : World} {params : Params} {descriptor : Descriptor}
  {operation : Operation}

/-- The plan of an operation for a group of a size. -/
def Plan.forGroup (operation : Operation) (params : Params) (descriptor : Descriptor) (size : Nat) :
    Plan where
  operation
  type := descriptor.type.getD params.type
  layout := some (.of operation descriptor.inElements descriptor.outElements size
    params.sources.length)
  scale := .ofNat descriptor.outElements * .ofNat descriptor.outElements
  inSplit := if operation = .allToAllv then
    some ((descriptor.inSplit <|> params.inSplit).getD (evenSplit descriptor.inElements size))
    else none
  outSplit := if operation = .allToAllv then
    some ((descriptor.outSplit <|> params.outSplit).getD (evenSplit descriptor.outElements size))
    else none

section

variable [Arithmetic]

/-- Operations that only synchronise need no group to be planned. -/
theorem Plan.make_syncOnly
    (resolved : Operation.resolve supported (nameOf params descriptor) = .ok operation)
    (synchronises : operation.isSyncOnly = true) :
    make supported world params descriptor =
      .ok { operation, type := descriptor.type.getD params.type } := by
  simp only [make, resolved, bind, Except.bind, synchronises, if_true, pure, Except.pure]

/-- All other operations are planned for the size of their group once the counts are in order. -/
theorem Plan.make_eq
    (resolved : Operation.resolve supported (nameOf params descriptor) = .ok operation)
    (allocates : operation.isSyncOnly = false) {size : Nat}
    (known : world.groupSize (descriptor.group.getD World.defaultGroup) = .ok size)
    (inhabited : size ≠ 0) :
    make supported world params descriptor = do
      checkCounts operation descriptor.inElements descriptor.outElements size
        (descriptor.inSplit <|> params.inSplit) (descriptor.outSplit <|> params.outSplit)
      return .forGroup operation params descriptor size := by
  simp only [make, resolved, bind, Except.bind, allocates, known, inhabited, if_false,
    Bool.false_eq_true, pure, Except.pure]
  rfl

/-- A plan is that of the operation for the size of the group, and its counts are in order. -/
theorem Plan.of_make {plan : Plan}
    (made : make supported world params descriptor = .ok plan)
    (resolved : Operation.resolve supported (nameOf params descriptor) = .ok operation) {size : Nat}
    (known : world.groupSize (descriptor.group.getD World.defaultGroup) = .ok size)
    (inhabited : size ≠ 0) :
    plan.operation = operation ∧ plan.type = descriptor.type.getD params.type ∧
      (operation.isSyncOnly = true → plan.layout = none) ∧
      (operation.isSyncOnly = false → plan = forGroup operation params descriptor size ∧
        checkCounts operation descriptor.inElements descriptor.outElements size
          (descriptor.inSplit <|> params.inSplit) (descriptor.outSplit <|> params.outSplit) =
            .ok ()) := by
  cases synchronises : operation.isSyncOnly with
  | true =>
    rw [make_syncOnly resolved synchronises] at made
    obtain rfl := Except.ok.inj made
    exact ⟨rfl, rfl, fun _ => rfl, by simp⟩
  | false =>
    rw [make_eq resolved synchronises known inhabited] at made
    obtain ⟨⟨⟩, checked, same⟩ := bind_eq_ok made
    obtain rfl := Except.ok.inj same
    exact ⟨rfl, rfl, by simp, fun _ => ⟨rfl, checked⟩⟩

/-- An operation that moves elements is only planned for a group that has members. -/
theorem Plan.group_of_make {plan : Plan} (made : make supported world params descriptor = .ok plan)
    (resolved : Operation.resolve supported (nameOf params descriptor) = .ok operation)
    (allocates : operation.isSyncOnly = false) :
    ∃ size, world.groupSize (descriptor.group.getD World.defaultGroup) = .ok size ∧ size ≠ 0 := by
  simp only [make, resolved, bind, Except.bind, allocates, Bool.false_eq_true, if_false] at made
  cases known : world.groupSize (descriptor.group.getD World.defaultGroup) with
  | error error => simp [known] at made
  | ok size =>
    refine ⟨size, rfl, fun empty => ?_⟩
    simp [known, empty, throw, throwThe, MonadExceptOf.throw] at made

/-- What a plan was made from: its operation was resolved, and unless that only synchronises the
group has members and the counts were checked. -/
theorem Plan.make_eq_ok_iff {plan : Plan} :
    make supported world params descriptor = .ok plan ↔
      ∃ operation, Operation.resolve supported (nameOf params descriptor) = .ok operation ∧
        ((operation.isSyncOnly = true ∧
            plan = { operation, type := descriptor.type.getD params.type }) ∨
          (operation.isSyncOnly = false ∧ ∃ size,
            world.groupSize (descriptor.group.getD World.defaultGroup) = .ok size ∧ size ≠ 0 ∧
            checkCounts operation descriptor.inElements descriptor.outElements size
              (descriptor.inSplit <|> params.inSplit) (descriptor.outSplit <|> params.outSplit) =
                .ok () ∧
            plan = forGroup operation params descriptor size)) := by
  constructor
  · intro made
    have resolving := made
    rw [make] at resolving
    obtain ⟨operation, resolved, _⟩ := bind_eq_ok resolving
    refine ⟨operation, resolved, ?_⟩
    cases synchronises : operation.isSyncOnly with
    | true =>
      rw [make_syncOnly resolved synchronises] at made
      exact .inl ⟨rfl, (Except.ok.inj made).symm⟩
    | false =>
      refine .inr ⟨rfl, ?_⟩
      obtain ⟨size, known, inhabited⟩ := group_of_make made resolved synchronises
      obtain ⟨_, _, _, decided⟩ := of_make made resolved known inhabited
      obtain ⟨same, checked⟩ := decided synchronises
      exact ⟨size, known, inhabited, checked, same⟩
  · rintro ⟨operation, resolved, ⟨synchronises, rfl⟩ |
      ⟨allocates, size, known, inhabited, checked, rfl⟩⟩
    · exact make_syncOnly resolved synchronises
    · rw [make_eq resolved allocates known inhabited, checked]
      rfl

end

/-- The size of a group that has a member. -/
theorem World.groupSize_of_mem {group rank : Nat} (member : rank ∈ world.members group) :
    world.groupSize group = .ok (world.members group).length ∧
      (world.members group).length ≠ 0 := by
  cases located : world.groups[group]? with
  | none => simp [members, located] at member
  | some ranks =>
    have known : world.members group = ranks := by simp [members, located]
    refine ⟨?_, Nat.ne_of_gt (List.length_pos_of_mem member)⟩
    rw [groupSize, World.group, located, known]
    rfl

/-! ## One message for every member -/

/-- The descriptor asks every member for a message of so many elements, and leaves it open how an
uneven exchange divides them. -/
structure Descriptor.AsksFor (descriptor : Descriptor) (count : Nat) : Prop where
  input : descriptor.inElements = count
  output : descriptor.outElements = count
  split : descriptor.inSplit = none

/-- The terms of one message for every member. An uneven exchange gives all members equal
shares. -/
def Terms.message (ranks : List Nat) (operation : Operation) (type : ElementType)
    (senders count : Nat) : Terms :=
  { ranks, operation, type, senders, count, lengths := fun _ _ => count / ranks.length }

/-- A row and a column of equal shares add up to the message. -/
theorem Terms.layout_message {ranks : List Nat} {type : ElementType} {senders count : Nat}
    (whole : operation = .allToAllv → total (evenSplit count ranks.length) = count) (rank : Nat) :
    (message ranks operation type senders count).layout rank =
      .of operation count count ranks.length senders := by
  by_cases uneven : operation = .allToAllv
  · have shares := whole uneven
    subst uneven
    rw [layout_uneven rfl]
    rw [evenSplit] at shares
    simp [message, sentBy, sentTo, List.map_const', shares, Layout.of]
  · exact layout_even uneven rank

/-- Where every sum is held, a split is held against its length and its sum. -/
theorem checkSplits_exact (operation : Operation) (split : List Nat) (count size : Nat) :
    checkSplits operation (some split) count size =
      if split.length = size ∧ total split = count then .ok ()
      else .error (.splitMismatch operation.name split count size) := by
  by_cases length : split.length = size
  · simp only [checkSplits, length, ne_eq, not_true_eq_false, if_false, true_and]
    rfl
  · simp only [checkSplits, length, ne_eq, not_false_eq_true, if_true, false_and, if_false]

/-- Equal shares are a whole if they divide it, or if they were checked to be its split. -/
theorem total_of_checkSplits {split : Option (List Nat)} {count size : Nat}
    (checked : checkSplits operation split count size = .ok ())
    (even : ∀ chosen, split = some chosen → chosen = evenSplit count size) :
    total (evenSplit count size) = count := by
  cases split with
  | none =>
    by_cases divides : count % size = 0
    · rw [evenSplit, total_replicate, Nat.mul_div_cancel' (Nat.dvd_of_mod_eq_zero divides)]
    · simp [checkSplits, checkDivisible, divides] at checked
  | some chosen =>
    rw [← even chosen rfl]
    by_cases matching : chosen.length = size ∧ total chosen = count
    · exact matching.2
    · rw [checkSplits_exact, if_neg matching] at checked
      cases checked

/-- A descriptor that asks every member for the same message is planned as the terms of that
message say. Where the parameters have a split of their own, an uneven exchange follows it, and
then it must be the even one. -/
theorem Plan.suits_message {plan : Plan} {count : Nat}
    (made : make supported world params descriptor = .ok plan)
    (resolved : Operation.resolve supported (nameOf params descriptor) = .ok operation)
    (asks : descriptor.AsksFor count)
    (member : rank ∈ world.members (descriptor.group.getD World.defaultGroup))
    (even : operation = .allToAllv → ∀ split, params.inSplit = some split →
      split = evenSplit count (world.members (descriptor.group.getD World.defaultGroup)).length) :
    plan.Suits (.message (world.members (descriptor.group.getD World.defaultGroup)) operation
      (descriptor.type.getD params.type) params.sources.length count) rank := by
  obtain ⟨known, inhabited⟩ := World.groupSize_of_mem member
  obtain ⟨sameOperation, sameType, _, decided⟩ := of_make made resolved known inhabited
  generalize world.members (descriptor.group.getD World.defaultGroup) = ranks at *
  refine ⟨sameOperation, sameType, fun allocates => ?_, fun uneven => ?_⟩
  · obtain ⟨rfl, checked⟩ := decided allocates
    rw [Terms.layout_message fun uneven => ?_, forGroup, asks.input, asks.output]
    subst uneven
    rw [asks.input, asks.output, asks.split] at checked
    obtain ⟨⟨⟩, divided, _⟩ := bind_eq_ok checked
    exact total_of_checkSplits divided (even rfl)
  · obtain rfl : operation = .allToAllv := uneven
    obtain ⟨rfl, _⟩ := decided rfl
    have chosen : params.inSplit.getD (evenSplit count ranks.length) =
        evenSplit count ranks.length := by
      cases inherited : params.inSplit with
      | none => rfl
      | some split => exact even rfl split inherited
    rw [forGroup, asks.input, asks.split, if_pos rfl]
    change some (params.inSplit.getD (evenSplit count ranks.length)) = _
    rw [chosen]
    simp [Terms.message, sentBy, evenSplit, List.map_const']

/-- What members stage for one message suits the terms of the message. -/
theorem Buffers.suits_of_staged [Halves] {count : Nat} {device : Device} {buffers : Buffers}
    (resolved : Operation.resolve supported (Plan.nameOf params descriptor) = .ok operation)
    (asks : descriptor.AsksFor count)
    (member : rank ∈ world.members (descriptor.group.getD World.defaultGroup))
    (staged : (stage supported world params descriptor true device).1 = .ok buffers)
    (even : operation = .allToAllv → ∀ split, params.inSplit = some split →
      split = evenSplit count (world.members (descriptor.group.getD World.defaultGroup)).length) :
    buffers.Suits (.message (world.members (descriptor.group.getD World.defaultGroup)) operation
      (descriptor.type.getD params.type) params.sources.length count) rank := by
  obtain ⟨plan, made, rfl⟩ := stage_eq_ok staged
  exact (Plan.suits_message made resolved asks member even).allocate params device

end

end CollectiveBench
