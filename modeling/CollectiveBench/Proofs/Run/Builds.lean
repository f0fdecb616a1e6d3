import CollectiveBench.Proofs.Delivery.Builds
import CollectiveBench.Proofs.Operation
import CollectiveBench.Proofs.Run.Items
import CollectiveBench.Proofs.Staging.Builds

/-!
# Items in a build

A rank adds up the splits that it sees of an uneven exchange, and it multiplies counts by the sizes
of elements. Where a build holds these sums and has room for the tensors (`Item.Fits`), a rank
describes and stages an item as it would without any bounds.
-/

namespace CollectiveBench

variable [Arithmetic] {item : Item} {params : Params} {size rank : Nat}

namespace Item

/-- The sums of the splits that a rank sees are held. -/
structure Summed (params : Params) (size rank : Nat) : Prop where
  sent : ∀ lengths, (splits params size rank).1 = some lengths → Arithmetic.Holds (total lengths)
  received : ∀ lengths, (splits params size rank).2 = some lengths →
    Arithmetic.Holds (total lengths)

instance (params : Params) (size rank : Nat) : Decidable (Summed params size rank) :=
  decidable_of_iff
    ((∀ lengths ∈ (splits params size rank).1, Arithmetic.Holds (total lengths)) ∧
      ∀ lengths ∈ (splits params size rank).2, Arithmetic.Holds (total lengths))
    ⟨fun holds => ⟨holds.1, holds.2⟩, fun summed => ⟨summed.sent, summed.received⟩⟩

/-- A rank can add up the splits of an item, and there is room for its tensors. -/
structure Fits (item : Item) (params : Params) (size rank : Nat) : Prop where
  summed : item.operation = .allToAllv → Summed params size rank
  room : Arithmetic.Allots (max (item.descriptor params size rank).inElements
    (item.descriptor params size rank).outElements) params.type.size

instance (item : Item) (params : Params) (size rank : Nat) :
    Decidable (item.Fits params size rank) :=
  decidable_of_iff
    ((item.operation = .allToAllv → Summed params size rank) ∧
      Arithmetic.Allots (max (item.descriptor params size rank).inElements
        (item.descriptor params size rank).outElements) params.type.size)
    ⟨fun fits => ⟨fits.1, fits.2⟩, fun fits => ⟨fits.summed, fits.room⟩⟩

omit [Arithmetic] in
/-- Without any bounds every item fits. -/
theorem fits_exact (item : Item) (params : Params) (size rank : Nat) :
    @Fits .exact item params size rank :=
  @Fits.mk .exact _ _ _ _
    (fun _ => @Summed.mk .exact _ _ _ (fun _ _ => .inl rfl) fun _ _ => .inl rfl)
    (.inl rfl)

/-- Of splits whose sums are held, the whole sums are held. -/
theorem held_total {split : Option (List Nat)}
    (holds : ∀ lengths, split = some lengths → Arithmetic.Holds (total lengths)) :
    (split.map fun lengths => Arithmetic.held (total lengths)) = split.map total := by
  cases split with
  | none => rfl
  | some lengths => exact congrArg some (Arithmetic.held_of_holds (holds lengths rfl))

/-- A rank describes an item by the sums of its splits. -/
theorem descriptor_of_summed (summed : item.operation = .allToAllv → Summed params size rank) :
    item.descriptor params size rank = @descriptor .exact item params size rank := by
  unfold descriptor
  by_cases same : item.operation = .allToAllv
  · simp only [same, if_true, held_total (summed same).sent, held_total (summed same).received]
    rfl
  · simp only [same, if_false]

/-- The sums of the splits are not too large. -/
theorem checkSums_of_summed (summed : item.operation = .allToAllv → Summed params size rank) :
    item.checkSums params size rank = .ok () := by
  have counted {split : Option (List Nat)}
      (holds : ∀ lengths, split = some lengths → Arithmetic.Holds (total lengths)) :
      (split.mapM fun lengths => Arithmetic.word (total lengths)) = .ok (split.map total) := by
    cases split with
    | none => rfl
    | some lengths => exact bind_eq_of_eq_ok (Arithmetic.word_of_holds (holds lengths rfl)) rfl
  unfold checkSums
  by_cases same : item.operation = .allToAllv
  · rw [if_pos same]
    exact bind_eq_of_eq_ok (counted (summed same).sent)
      (bind_eq_of_eq_ok (counted (summed same).received) rfl)
  · exact if_neg same

omit [Arithmetic] in
/-- Where no side of the splits is known, none is given. -/
theorem splits_eq_none (params : Params) (size rank : Nat) :
    ((splits params size rank).1 = none → params.inSplit = none) ∧
      ((splits params size rank).2 = none → params.outSplit = none) := by
  cases input : params.inSplit <;> cases output : params.outSplit <;>
    simp [splits, input, output]

/-- The splits of a descriptor have sums that are held. -/
theorem summed_descriptor (summed : item.operation = .allToAllv → Summed params size rank)
    (supported : List Operation) :
    (item.descriptor params size rank).Summed supported (item.stagingParams params size) := by
  have uneven (resolved : Operation.resolve supported (Plan.nameOf (item.stagingParams params size)
      (item.descriptor params size rank)) = .ok .allToAllv) : item.operation = .allToAllv := by
    have named := (Operation.resolve_eq_ok_iff.mp resolved).1
    rw [Plan.nameOf, (item.descriptor_names params size rank).1, Option.getD_some,
      Operation.ofName?_name] at named
    exact Option.some.inj named
  obtain ⟨unsent, unreceived⟩ := splits_eq_none params size rank
  constructor
  · intro resolved lengths chosen
    have same := uneven resolved
    rw [descriptor, if_pos same] at chosen
    refine (summed same).sent lengths ?_
    cases side : (splits params size rank).1 with
    | some own => simpa [side] using chosen
    | none => simp [side, stagingParams, unsent side] at chosen
  · intro resolved lengths chosen
    have same := uneven resolved
    rw [descriptor, if_pos same] at chosen
    refine (summed same).received lengths ?_
    cases side : (splits params size rank).2 with
    | some own => simpa [side] using chosen
    | none => simp [side, stagingParams, unreceived side] at chosen

/-- The given side of a split that a descriptor and the parameters agree on is the one that a rank
sees. -/
theorem inSplit_descriptor (same : item.operation = .allToAllv) :
    ((item.descriptor params size rank).inSplit <|> params.inSplit) =
    (splits params size rank).1 := by
  rw [descriptor, if_pos same]
  cases side : (splits params size rank).1 with
  | some own => simp [side]
  | none => simp [side, (splits_eq_none params size rank).1 side]

/-- The terms of an item that fits at every rank are held. -/
theorem terms_held (divides : params.Divides size)
    (fits : ∀ rank < size, item.Fits params size rank) : (item.terms params size).Held := by
  intro rank listed
  have inside : rank < size := List.mem_range.mp listed
  have room := (fits rank inside).room
  rw [descriptor_of_summed (fits rank inside).summed] at room
  refine (room.mono ?_).holds
  by_cases same : item.operation = .allToAllv
  · rw [Terms.layout_uneven same]
    exact Nat.le_trans (Nat.le_of_eq (item.uneven same divides inside).input.symm)
      (Nat.le_max_left _ _)
  · rw [Terms.layout_even same, descriptor_even same]
    exact (Layout.part_le _ _ _ _ _).1

section

variable [Halves] {supported : List Operation} {world : World} {allocate : Bool} {device : Device}

/-- A rank stages an item as it would without any bounds. -/
theorem stage_of_summed (summed : item.operation = .allToAllv → Summed params size rank)
    (room : allocate = true →
      Arithmetic.Allots (max (item.descriptor params size rank).inElements
        (item.descriptor params size rank).outElements) params.type.size) :
    stage supported world (item.stagingParams params size) (item.descriptor params size rank)
        allocate device =
      @stage .exact _ supported world (item.stagingParams params size)
        (@descriptor .exact item params size rank) allocate device := by
  have type := (item.descriptor_names params size rank).2.2
  rw [stage_of_holds (summed_descriptor summed supported) (by rw [type]; exact room),
    descriptor_of_summed summed]

end

end Item

end CollectiveBench
