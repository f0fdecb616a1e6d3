import CollectiveBench.Proofs.Checking
import CollectiveBench.Proofs.Run.Items
import CollectiveBench.Proofs.Run.Participants
import CollectiveBench.Run.Bench

/-!
# Plans of all ranks

Every rank plans an item for itself, and all ranks come to a plan or none does (`Item.plans_alike`).
The counts of a descriptor are in order unless a configured split lacks an entry for some rank, and
such a split is refused by every rank. Splits that are given for both sides of an uneven exchange
are planned without regard to each other: by the one the ranks send, and by the other they make
room. Only where the two match are the plans those of one exchange (`Item.uneven_of_matches`).

What a run does with buffers keeps them as their plan decided (`Buffers.Follows`): allocating them,
taking them over from the iteration before, and resetting them for a check.
-/

namespace CollectiveBench

/-! ## Buffers of a plan -/

/-- The buffers are as a plan decides, whatever they hold. -/
structure Buffers.Follows (plan : Plan) (buffers : Buffers) : Prop where
  operation : buffers.operation = plan.operation
  fits : ∀ layout, plan.layout = some layout → buffers.Fits plan.type layout
  split : plan.operation = .allToAllv → buffers.inSplit = plan.inSplit

namespace Plan

variable {plan : Plan} {buffers : Buffers}

/-- Buffers that were allocated for a plan follow it. -/
theorem follows_allocate [Halves] (plan : Plan) (params : Params) (device : Device) :
    (plan.allocate params device).1.Follows plan where
  operation := (plan.allocate_decided params device).1
  fits _ chosen := fits_allocate chosen params device
  split _ := (plan.allocate_decided params device).2.1

/-- Buffers without tensors take over those of a plan that decided the same. -/
theorem follows_reuseFrom (follows : buffers.Follows plan) :
    (plan.unallocated.reuseFrom buffers).Follows plan where
  operation := rfl
  fits layout chosen := ⟨(follows.fits layout chosen).input, (follows.fits layout chosen).output⟩
  split _ := rfl

/-- Buffers that were reset follow their plan. -/
theorem follows_reset [Halves] (checker : Checker) (rank root : Nat) (other : Numeric.Scalar)
    (follows : buffers.Follows plan) : (checker.reset buffers rank root other).Follows plan where
  operation := follows.operation
  fits layout chosen := checker.fits_reset rank root other (follows.fits layout chosen)
  split := follows.split

/-- Where a plan suits the terms, the buffers of the plan are those that suit the terms. -/
theorem Suits.follows_iff {terms : Terms} {rank : Nat} (suits : plan.Suits terms rank)
    (still : plan.operation.isSyncOnly = true → plan.layout = none) :
    buffers.Follows plan ↔ buffers.Suits terms rank := by
  have operation := suits.operation
  constructor
  · rintro ⟨same, fits, split⟩
    refine ⟨same.trans operation, fun allocates => ?_, fun uneven => ?_⟩
    · rw [← suits.type]
      exact fits _ (suits.layout allocates)
    · rw [split (operation.trans uneven), suits.split uneven]
  · rintro ⟨same, shapes, split⟩
    refine ⟨same.trans operation.symm, fun layout chosen => ?_, fun uneven => ?_⟩
    · cases synchronises : plan.operation.isSyncOnly with
      | true =>
        rw [still synchronises] at chosen
        cases chosen
      | false =>
        rw [operation] at synchronises
        rw [suits.layout synchronises] at chosen
        cases chosen
        rw [suits.type]
        exact shapes synchronises
    · rw [operation] at uneven
      rw [split uneven, suits.split uneven]

end Plan

/-! ## Splits for both sides -/

/-- Every split that is given has an entry for each rank. -/
def Params.Covers (params : Params) (size : Nat) : Prop :=
  ∀ split, params.inSplit = some split ∨ params.outSplit = some split → split.length = size

/-- If a split is given for both sides, a rank makes room for as many elements as it is sent. -/
def Params.Matches (params : Params) (size rank : Nat) : Prop :=
  ∀ sent received, params.inSplit = some sent → params.outSplit = some received →
    size * sent.getD rank 0 = total received

/-- The splits match at all ranks or at none. -/
def Params.Concordant (params : Params) (size : Nat) : Prop :=
  (∀ rank < size, params.Matches size rank) ∨ ∀ rank < size, ¬ params.Matches size rank

namespace Item

variable {item : Item} {params : Params} {size rank : Nat}

/-- With a split for both sides a rank's descriptor follows both. -/
theorem descriptor_both (same : item.operation = .allToAllv) {sent received : List Nat}
    (input : params.inSplit = some sent) (output : params.outSplit = some received)
    (size rank : Nat) :
    (item.descriptor params size rank).inElements = total sent ∧
      (item.descriptor params size rank).outElements = total received ∧
      ((item.descriptor params size rank).inSplit <|> params.inSplit) = some sent ∧
      ((item.descriptor params size rank).outSplit <|> params.outSplit) = some received := by
  have sides : splits params size rank = (some sent, some received) := by
    simp only [splits, input, output]
  have shape := descriptor_uneven same params size rank
  rw [sides] at shape
  rw [shape]
  exact ⟨rfl, rfl, rfl, rfl⟩

/-- With a split for one side at most, ranks that the splits cover can divide their messages. -/
theorem divides_of_covers (covers : params.Covers size)
    (single : params.inSplit = none ∨ params.outSplit = none) : params.Divides size where
  single
  input split given := covers split (.inl given)
  output split given := covers split (.inr given)

/-- A split of a wrong length is refused. -/
theorem checkSplits_refused {split : List Nat} (length : split.length ≠ size)
    (operation : Operation) (count : Nat) :
    checkSplits operation (some split) count size =
      .error (.splitMismatch operation.name split count size) := by
  rw [checkSplits_exact]
  exact if_neg fun both => length both.1

/-- Splits with an entry for each rank are in order at every rank. -/
theorem counts_covered (same : item.operation = .allToAllv) (covers : params.Covers size)
    (inside : rank < size) :
    checkCounts .allToAllv (item.descriptor params size rank).inElements
      (item.descriptor params size rank).outElements size
      ((item.descriptor params size rank).inSplit <|> params.inSplit)
      ((item.descriptor params size rank).outSplit <|> params.outSplit) = .ok () := by
  cases input : params.inSplit with
  | none => exact input ▸ (item.uneven same (divides_of_covers covers (.inl input)) inside).counts
  | some sent =>
    cases output : params.outSplit with
    | none =>
      have counts := (item.uneven same (divides_of_covers covers (.inr output)) inside).counts
      rwa [input, output] at counts
    | some received =>
      obtain ⟨sends, receives, split, room⟩ := descriptor_both same input output size rank
      rw [← input, ← output, sends, receives, split, room]
      change (do checkSplits _ (some _) (total _) size; checkSplits _ (some _) (total _) size) = _
      rw [checkSplits_total (covers sent (.inl input))]
      exact checkSplits_total (covers received (.inr output))

/-- Where some split does not have an entry for each rank, it is that for what is sent, or only that
for what is received. -/
theorem exists_short (uncovered : ¬ params.Covers size) :
    (∃ sent, params.inSplit = some sent ∧ sent.length ≠ size) ∨
      (∀ sent, params.inSplit = some sent → sent.length = size) ∧
        ∃ received, params.outSplit = some received ∧ received.length ≠ size := by
  by_contra others
  rw [not_or, not_and_or] at others
  obtain ⟨sends, others⟩ := others
  have fits : ∀ sent, params.inSplit = some sent → sent.length = size := by
    intro sent input
    by_contra short
    exact sends ⟨sent, input, short⟩
  rcases others with unfit | receives
  · exact unfit fits
  · refine uncovered fun split given => ?_
    rcases given with input | output
    · exact fits split input
    · by_contra short
      exact receives ⟨split, output, short⟩

/-- A split that does not have an entry for each rank is refused by every rank. -/
theorem counts_refused (same : item.operation = .allToAllv) (uncovered : ¬ params.Covers size)
    (inhabited : 0 < size) (rank : Nat) :
    ∃ split count, checkCounts .allToAllv (item.descriptor params size rank).inElements
      (item.descriptor params size rank).outElements size
      ((item.descriptor params size rank).inSplit <|> params.inSplit)
      ((item.descriptor params size rank).outSplit <|> params.outSplit) =
        .error (.splitMismatch Operation.allToAllv.name split count size) := by
  have shape := descriptor_uneven same params size rank
  rcases exists_short uncovered with ⟨sent, input, short⟩ | ⟨fits, received, output, short⟩
  · -- What is sent is checked first, whatever is received.
    have first : (item.descriptor params size rank).inElements = total sent ∧
        ((item.descriptor params size rank).inSplit <|> params.inSplit) = some sent := by
      cases output : params.outSplit with
      | none =>
        have sides : splits params size rank = (some sent, none) := by
          simp only [splits, input, output, if_neg short]
        rw [sides] at shape
        rw [shape]
        exact ⟨rfl, rfl⟩
      | some received =>
        obtain ⟨sends, _, split, _⟩ := descriptor_both same input output size rank
        exact ⟨sends, split⟩
    refine ⟨sent, total sent, ?_⟩
    rw [first.1, first.2]
    change (do checkSplits _ (some sent) (total sent) size; _) = _
    rw [checkSplits_refused short]
    rfl
  · -- What is sent passes, with an explicit split or in equal shares.
    refine ⟨received, total received, ?_⟩
    cases input : params.inSplit with
    | none =>
      have sides : splits params size rank = (none, some received) := by
        simp only [splits, input, output, if_neg short]
      have divides : item.elements params size % size = 0 :=
        elements_divisible (by rw [same]; rfl) inhabited
      rw [sides] at shape
      rw [shape]
      change (do
        checkDivisible .allToAllv (item.elements params size) size
        checkSplits .allToAllv (some received) (total received) size) = _
      rw [checkDivisible, if_pos divides]
      exact checkSplits_refused short _ _
    | some sent =>
      obtain ⟨sends, receives, split, room⟩ := descriptor_both same input output size rank
      rw [← input, sends, receives, split, room]
      change (do checkSplits _ (some _) (total _) size; checkSplits _ (some _) (total _) size) = _
      rw [checkSplits_total (fits sent input)]
      exact checkSplits_refused short _ _

/-- Splits that match at a rank are those of an exchange that the rank can take part in. -/
theorem uneven_of_matches (same : item.operation = .allToAllv) (covers : params.Covers size)
    (matching : params.Matches size rank) (inside : rank < size) :
    item.Uneven params size rank := by
  cases input : params.inSplit with
  | none => exact item.uneven same (divides_of_covers covers (.inl input)) inside
  | some sent =>
    cases output : params.outSplit with
    | none => exact item.uneven same (divides_of_covers covers (.inr output)) inside
    | some received =>
      have length := covers sent (.inl input)
      obtain ⟨sends, receives, split, _⟩ := descriptor_both same input output size rank
      have each (sender receiver : Nat) :
          item.lengths params size sender receiver = sent.getD receiver 0 := by
        simp only [lengths, input]
      have row : sentBy (List.range size) (item.lengths params size) rank = sent :=
        (List.map_congr_left fun receiver _ => each rank receiver).trans (map_range_getD length)
      have column : sentTo (List.range size) (item.lengths params size) rank =
          List.replicate size (sent.getD rank 0) := map_range_const fun _ => each _ _
      refine ⟨by rw [sends, row], ?_, by rw [split, row]; rfl, ?_⟩
      · rw [receives, column, total_replicate, matching sent received input output]
      · exact counts_covered same covers inside

/-! ## Plans -/

variable {bench : Bench}

/-- What a rank plans for an item. -/
def plan (bench : Bench) (item : Item) (rank : Nat) : Outcome Plan :=
  Plan.make bench.supported bench.world (item.stagingParams bench.params bench.worldSize)
    (item.descriptor bench.params bench.worldSize rank)

/-- A plan is one of the item's operation, and decides shapes unless the operation only
synchronises. -/
theorem of_plan (known : item.operation ∈ bench.supported)
    (spans : bench.world.members World.defaultGroup = List.range bench.worldSize)
    (inside : rank < bench.worldSize) {made : Plan} (planned : plan bench item rank = .ok made) :
    made.operation = item.operation ∧
      (item.operation.isSyncOnly = true → made.layout = none) ∧
      (item.operation.isSyncOnly = false → made = .forGroup item.operation
        (item.stagingParams bench.params bench.worldSize)
        (item.descriptor bench.params bench.worldSize rank) bench.worldSize) := by
  have someone : rank ∈ bench.world.members World.defaultGroup := by
    rw [spans]
    exact List.mem_range.mpr inside
  obtain ⟨sameSize, inhabited⟩ := World.groupSize_of_mem someone
  rw [spans, List.length_range] at sameSize inhabited
  have group := (item.descriptor_names bench.params bench.worldSize rank).2.1
  obtain ⟨operation, _, still, decided⟩ := Plan.of_make planned
    (resolve_nameOf known bench.params bench.worldSize rank) (by rw [group]; exact sameSize)
    inhabited
  exact ⟨operation, still, fun allocates => (decided allocates).1⟩

/-- An item can be staged by all ranks or by none. -/
theorem plans_alike (known : item.operation ∈ bench.supported)
    (spans : bench.world.members World.defaultGroup = List.range bench.worldSize) :
    (∀ rank < bench.worldSize, ∃ made, plan bench item rank = .ok made) ∨
      ∀ rank < bench.worldSize, FailsAlone (plan bench item rank) := by
  by_cases same : item.operation = .allToAllv
  · have planned {rank : Nat} (inside : rank < bench.worldSize) :=
      make_eq bench.params known spans inside (by rw [same]; rfl)
    by_cases covers : bench.params.Covers bench.worldSize
    · refine .inl fun rank inside => ?_
      have made := planned inside
      rw [same, counts_covered same covers inside] at made
      exact ⟨_, made⟩
    · refine .inr fun rank inside => ?_
      obtain ⟨split, count, refused⟩ :=
        counts_refused same covers (Nat.zero_lt_of_lt inside) rank
      have made := planned inside
      rw [same, refused] at made
      exact ⟨_, made, id⟩
  · refine .inl fun rank inside => ?_
    obtain ⟨made, planned, _⟩ := gives_make bench.params known spans
      (fun uneven => absurd uneven same) inside
    exact ⟨made, planned⟩

/-- What staging gives is decided by the plan. -/
theorem stage_eq [Halves] (bench : Bench) (item : Item) (rank : Nat) (allocate : Bool)
    (device : Device) :
    (stage bench.supported bench.world (item.stagingParams bench.params bench.worldSize)
        (item.descriptor bench.params bench.worldSize rank) allocate device).1 =
      (plan bench item rank).map fun made =>
        if allocate then (made.allocate (item.stagingParams bench.params bench.worldSize) device).1
        else made.unallocated := by
  rw [stage_exact, ← plan]
  cases plan bench item rank with
  | error error => rfl
  | ok made => cases allocate <;> rfl

end Item

end CollectiveBench
