import CollectiveBench.Proofs.Staging

/-!
# Staging in a build

Staging adds up the splits that it is given, and it multiplies the counts of its tensors by the
sizes of their elements. A build that holds these sums and has room for the tensors stages what it
would stage without any bounds (`stage_of_holds`). Whatever a build stages was planned from counts
that passed its checks, and the buffers are those of the plan unless the size of a tensor lost its
upper bits (`stage_eq_allocate`).
-/

namespace CollectiveBench

variable [arithmetic : Arithmetic] {operation : Operation} {count inCount outCount size : Nat}
  {split inSplit outSplit : Option (List Nat)} {supported : List Operation} {world : World}
  {params : Params} {descriptor : Descriptor} {plan : Plan} {filling : Device.Filling}
  {type : ElementType} {extent : Extent}

/-! ## Sums of splits -/

/-- A split whose sum is held is checked against its length and its sum. -/
theorem checkSplits_of_holds
    (holds : ∀ lengths, split = some lengths → Arithmetic.Holds (total lengths)) :
    checkSplits operation split count size = @checkSplits .exact operation split count size := by
  cases split with
  | none => rfl
  | some lengths =>
    simp only [checkSplits, Arithmetic.word_of_holds (holds lengths rfl), Arithmetic.word_exact]

/-- Splits whose sums are held are checked as if all sums were. -/
theorem checkCounts_of_holds
    (sent : operation = .allToAllv → ∀ lengths, inSplit = some lengths →
      Arithmetic.Holds (total lengths))
    (received : operation = .allToAllv → ∀ lengths, outSplit = some lengths →
      Arithmetic.Holds (total lengths)) :
    checkCounts operation inCount outCount size inSplit outSplit =
      @checkCounts .exact operation inCount outCount size inSplit outSplit := by
  cases operation
  case allToAllv =>
    simp only [checkCounts, checkSplits_of_holds (sent rfl), checkSplits_of_holds (received rfl)]
  all_goals rfl

omit arithmetic in
/-- No tensor of an operation has more elements than the larger count of the descriptor. -/
theorem Layout.part_le (operation : Operation) (inCount outCount size senders : Nat) :
    (of operation inCount outCount size senders).input.part ≤ max inCount outCount ∧
      ∀ output, (of operation inCount outCount size senders).output = some output →
        output.part ≤ max inCount outCount := by
  have input : inCount ≤ max inCount outCount := Nat.le_max_left _ _
  have output : outCount ≤ max inCount outCount := Nat.le_max_right _ _
  generalize max inCount outCount = most at input output ⊢
  have sent (divisor : Nat) : inCount / divisor ≤ most := Nat.le_trans (Nat.div_le_self _ _) input
  have received (divisor : Nat) : outCount / divisor ≤ most :=
    Nat.le_trans (Nat.div_le_self _ _) output
  have gathered : inCount / size * size ≤ most := Nat.le_trans (Nat.div_mul_le_self _ _) input
  cases operation <;> simp [of, Extent.part, input, output, sent, received, gathered]

/-- A buffer has the shape that it is to have if there is room for each of its tensors. -/
theorem Extent.held_of_allots (allots : Arithmetic.Allots extent.part type.size) :
    extent.held filling type = .ok extent := by
  match extent with
  | .single count => exact bind_eq_of_eq_ok (Device.held_of_allots allots) rfl
  | .list 0 count => rfl
  | .list (parts + 1) count => exact bind_eq_of_eq_ok (Device.held_of_allots allots) rfl

/-- No shape of a plan has tensors of more elements than the larger count of its descriptor. -/
theorem Plan.part_le (made : make supported world params descriptor = .ok plan) :
    plan.type = descriptor.type.getD params.type ∧ ∀ layout, plan.layout = some layout →
      layout.input.part ≤ max descriptor.inElements descriptor.outElements ∧
        ∀ output, layout.output = some output →
          output.part ≤ max descriptor.inElements descriptor.outElements := by
  obtain ⟨operation, -, ⟨-, rfl⟩ | ⟨-, size, -, -, -, rfl⟩⟩ := make_eq_ok_iff.mp made
  · exact ⟨rfl, nofun⟩
  · refine ⟨rfl, ?_⟩
    rintro _ ⟨⟩
    exact Layout.part_le operation _ _ _ _

/-- The splits of an uneven exchange have sums that a word holds. -/
structure Descriptor.Summed (supported : List Operation) (params : Params)
    (descriptor : Descriptor) :
    Prop where
  sent : Operation.resolve supported (Plan.nameOf params descriptor) = .ok .allToAllv →
    ∀ lengths, (descriptor.inSplit <|> params.inSplit) = some lengths →
      Arithmetic.Holds (total lengths)
  received : Operation.resolve supported (Plan.nameOf params descriptor) = .ok .allToAllv →
    ∀ lengths, (descriptor.outSplit <|> params.outSplit) = some lengths →
      Arithmetic.Holds (total lengths)

/-- Where the sums of splits are held, a descriptor is planned as if all sums were. -/
theorem Plan.make_of_summed (summed : descriptor.Summed supported params) :
    make supported world params descriptor = @make .exact supported world params descriptor := by
  cases resolved : Operation.resolve supported (nameOf params descriptor) with
  | error error => simp only [make, resolved, bind, Except.bind]
  | ok operation =>
    have counts (size : Nat) :
        checkCounts operation descriptor.inElements descriptor.outElements size
            (descriptor.inSplit <|> params.inSplit) (descriptor.outSplit <|> params.outSplit) =
          @checkCounts .exact operation descriptor.inElements descriptor.outElements size
            (descriptor.inSplit <|> params.inSplit) (descriptor.outSplit <|> params.outSplit) :=
      checkCounts_of_holds (fun same => summed.sent (same ▸ resolved))
        fun same => summed.received (same ▸ resolved)
    simp only [make, resolved, bind, Except.bind, counts]

/-- The buffers of a plan have the shapes of its layout if there is room for the counts. -/
theorem Plan.held_of_allots (made : make supported world params descriptor = .ok plan)
    (allots : Arithmetic.Allots (max descriptor.inElements descriptor.outElements)
      (descriptor.type.getD params.type).size) (filler : Params) :
    plan.held filler = .ok plan := by
  obtain ⟨same, bounded⟩ := part_le made
  rw [← same] at allots
  obtain ⟨operation, layout, type, scale, inSplit, outSplit⟩ := plan
  cases layout with
  | none => rfl
  | some layout =>
    obtain ⟨sends, receives⟩ := bounded layout rfl
    refine bind_eq_of_eq_ok (Extent.held_of_allots (allots.mono sends)) ?_
    obtain ⟨input, output⟩ := layout
    cases output with
    | none => rfl
    | some output =>
      exact bind_eq_of_eq_ok (Extent.held_of_allots (allots.mono (receives output rfl))) rfl

section

variable [Halves] {allocate : Bool} {device : Device}

/-- Where the sums of splits are held and there is room for the tensors, a build stages what is
staged without any bounds. -/
theorem stage_of_holds (summed : descriptor.Summed supported params)
    (allots : allocate = true → Arithmetic.Allots (max descriptor.inElements descriptor.outElements)
      (descriptor.type.getD params.type).size) :
    stage supported world params descriptor allocate device =
      @stage .exact _ supported world params descriptor allocate device := by
  have planned : Plan.make supported world params descriptor =
      @Plan.make .exact supported world params descriptor := Plan.make_of_summed summed
  rw [stage, stage_exact, ← planned]
  cases made : Plan.make supported world params descriptor with
  | error error => rfl
  | ok plan =>
    cases allocate with
    | false => rfl
    | true => simp only [Plan.held_of_allots made (allots rfl)]

end

end CollectiveBench
