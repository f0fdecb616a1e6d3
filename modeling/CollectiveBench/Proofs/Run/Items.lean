import CollectiveBench.Proofs.RankList
import CollectiveBench.Proofs.Staging
import CollectiveBench.Run.Item

/-!
# Items and their terms

Every rank has a descriptor of its own for an item, because a split on one side of an uneven
exchange determines the other side differently for each rank. The descriptors still fit together:
they are those of the members of one round, whose terms `Item.terms` gives. Messages were rounded so
that they can be divided, and a configured split has an entry for each rank, so every rank can stage
what its descriptor asks for (`Item.gives_stage`).
-/

namespace CollectiveBench

variable {params : Params} {size : Nat}

/-- What is asked of the parameters for the splits of an item: a split is given on one side at
most, and it has an entry for each rank. -/
structure Params.Divides (params : Params) (size : Nat) : Prop where
  single : params.inSplit = none ∨ params.outSplit = none
  input : ∀ split, params.inSplit = some split → split.length = size
  output : ∀ split, params.outSplit = some split → split.length = size

/-- What is asked of the ranks that the parameters name: they exist. -/
structure Params.Names (params : Params) (size : Nat) : Prop where
  root : params.root < size
  sources : ∀ source ∈ params.sources, source < size
  destinations : ∀ destination ∈ params.destinations, destination < size

namespace Item

variable {item : Item} {rank : Nat}

/-- Elements that a sender has for a receiver in an uneven exchange. A split that all ranks share
says on the sending side what each receiver gets, and on the receiving side what each sender
gives. -/
def lengths (item : Item) (params : Params) (size sender receiver : Nat) : Nat :=
  match params.inSplit, params.outSplit with
  | some split, _ => split.getD receiver 0
  | none, some split => split.getD sender 0
  | none, none => item.elements params size / size

/-- The terms of an item for a world of a size. -/
def terms (item : Item) (params : Params) (size : Nat) : Terms where
  ranks := List.range size
  operation := item.operation
  type := params.type
  senders := (peers params size item.operation).1.length
  count := item.elements params size
  lengths := item.lengths params size

/-- A message that is cut into chunks can be divided among the ranks. -/
theorem elements_divisible (split : item.operation.isSplit) (inhabited : 0 < size) :
    item.elements params size % size = 0 := by
  simp [elements, split, inhabited]

/-- A split is made of its entries. -/
theorem map_range_getD {split : List Nat} (length : split.length = size) :
    (List.range size).map (split.getD · 0) = split := by
  apply List.ext_getElem (by simp [length])
  intro place _ inside
  simp [List.getD_eq_getElem?_getD, List.getElem?_eq_getElem inside]

/-- Equal entries make an even split. -/
theorem map_range_const {value : Nat → Nat} {count : Nat} (same : ∀ place, value place = count) :
    (List.range size).map value = List.replicate size count := by
  rw [funext same, List.map_const', List.length_range]

/-- What a split on one side says of the other side, for a rank that the split has an entry for. -/
theorem opposite_eq {split : List Nat} (length : split.length = size) (inside : rank < size) :
    (if split.length = size then (split[rank]?).map (List.replicate size ·) else none) =
      some (List.replicate size (split.getD rank 0)) := by
  have found := List.getElem?_eq_getElem (length.symm ▸ inside : rank < split.length)
  rw [if_pos length, List.getD_eq_getElem?_getD, found]
  rfl

/-- What a rank's descriptor says of an uneven exchange. -/
structure Uneven (item : Item) (params : Params) (size rank : Nat) : Prop where
  input : (item.descriptor params size rank).inElements =
    total (sentBy (List.range size) (item.lengths params size) rank)
  output : (item.descriptor params size rank).outElements =
    total (sentTo (List.range size) (item.lengths params size) rank)
  split : ((item.descriptor params size rank).inSplit <|> params.inSplit).getD
      (evenSplit (item.descriptor params size rank).inElements size) =
    sentBy (List.range size) (item.lengths params size) rank
  counts : checkCounts .allToAllv (item.descriptor params size rank).inElements
    (item.descriptor params size rank).outElements size
    ((item.descriptor params size rank).inSplit <|> params.inSplit)
    ((item.descriptor params size rank).outSplit <|> params.outSplit) = .ok ()

/-- A split with an entry for each rank divides its sum. -/
theorem checkSplits_total {operation : Operation} {split : List Nat}
    (length : split.length = size) :
    checkSplits operation (some split) (total split) size = .ok () := by
  rw [checkSplits_exact]
  exact if_pos ⟨length, rfl⟩

/-- The descriptor of an operation that exchanges equally much with all ranks. -/
theorem descriptor_even (even : item.operation ≠ .allToAllv) (params : Params) (size rank : Nat) :
    item.descriptor params size rank =
      { Descriptor.of item.operation.name (item.elements params size) (item.elements params size)
          params.type with
        root := some params.root
        group := some World.defaultGroup
        worldSize := some size } := by
  rw [descriptor, if_neg even]

/-- The descriptor of an uneven exchange, from its splits. -/
theorem descriptor_uneven (same : item.operation = .allToAllv) (params : Params) (size rank : Nat) :
    item.descriptor params size rank =
      { Descriptor.of item.operation.name (item.elements params size) (item.elements params size)
          params.type with
        root := some params.root
        group := some World.defaultGroup
        worldSize := some size
        inSplit := (splits params size rank).1
        outSplit := (splits params size rank).2
        inCount := some (((splits params size rank).1.map total).getD (item.elements params size))
        outCount := some (((splits params size rank).2.map total).getD
          (item.elements params size)) } := by
  rw [descriptor, if_pos same]
  rfl

/-- Where a rank's splits are its row and its column, its descriptor is that of a member. -/
theorem uneven_of_splits (same : item.operation = .allToAllv)
    (sides : splits params size rank =
      (some (sentBy (List.range size) (item.lengths params size) rank),
        some (sentTo (List.range size) (item.lengths params size) rank))) :
    item.Uneven params size rank := by
  have row : (sentBy (List.range size) (item.lengths params size) rank).length = size := by
    simp [sentBy]
  have column : (sentTo (List.range size) (item.lengths params size) rank).length = size := by
    simp [sentTo]
  have shape := descriptor_uneven same params size rank
  rw [sides] at shape
  refine ⟨by rw [shape]; rfl, by rw [shape]; rfl, by rw [shape]; rfl, ?_⟩
  rw [shape]
  change (do checkSplits _ (some _) (total _) size; checkSplits _ (some _) (total _) size) = _
  rw [checkSplits_total row]
  exact checkSplits_total column

/-- Without splits an uneven exchange is an even one. -/
theorem uneven_of_none (same : item.operation = .allToAllv) (input : params.inSplit = none)
    (output : params.outSplit = none) (inhabited : 0 < size) : item.Uneven params size rank := by
  have shape := descriptor_uneven same params size rank
  have sides : splits params size rank = (none, none) := by simp only [splits, input, output]
  rw [sides] at shape
  have divides : item.elements params size % size = 0 :=
    elements_divisible (by rw [same]; rfl) inhabited
  have whole : size * (item.elements params size / size) = item.elements params size :=
    Nat.mul_div_cancel' (Nat.dvd_of_mod_eq_zero divides)
  have each (sender receiver : Nat) :
      item.lengths params size sender receiver = item.elements params size / size := by
    simp only [lengths, input, output]
  have row : sentBy (List.range size) (item.lengths params size) rank =
      evenSplit (item.elements params size) size := map_range_const fun _ => each _ _
  have column : sentTo (List.range size) (item.lengths params size) rank =
      evenSplit (item.elements params size) size := map_range_const fun _ => each _ _
  have checked : checkDivisible .allToAllv (item.elements params size) size = .ok () :=
    if_pos divides
  refine ⟨?_, ?_, ?_, ?_⟩
  · rw [shape, row, evenSplit, total_replicate, whole]
    rfl
  · rw [shape, column, evenSplit, total_replicate, whole]
    rfl
  · rw [shape, row, input]
    rfl
  · rw [shape, input, output]
    change (do checkDivisible _ (item.elements params size) size
               checkDivisible _ (item.elements params size) size) = _
    rw [checked]
    rfl

/-- Where a split is given on one side, a rank's splits are its row and its column. -/
theorem splits_eq (item : Item) (divides : params.Divides size) (inside : rank < size) :
    params.inSplit = none ∧ params.outSplit = none ∨
      splits params size rank =
        (some (sentBy (List.range size) (item.lengths params size) rank),
          some (sentTo (List.range size) (item.lengths params size) rank)) := by
  cases input : params.inSplit with
  | some split =>
    have output : params.outSplit = none := by
      rcases divides.single with none | none
      · rw [input] at none
        cases none
      · exact none
    have length := divides.input split input
    have each (sender receiver : Nat) :
        item.lengths params size sender receiver = split.getD receiver 0 := by
      simp only [lengths, input]
    have row : sentBy (List.range size) (item.lengths params size) rank = split :=
      (List.map_congr_left fun receiver _ => each rank receiver).trans (map_range_getD length)
    have column : sentTo (List.range size) (item.lengths params size) rank =
        List.replicate size (split.getD rank 0) := map_range_const fun _ => each _ _
    right
    rw [row, column]
    simp only [splits, input, output, opposite_eq length inside]
  | none =>
    cases output : params.outSplit with
    | some split =>
      have length := divides.output split output
      have each (sender receiver : Nat) :
          item.lengths params size sender receiver = split.getD sender 0 := by
        simp only [lengths, input, output]
      have row : sentBy (List.range size) (item.lengths params size) rank =
          List.replicate size (split.getD rank 0) := map_range_const fun _ => each _ _
      have column : sentTo (List.range size) (item.lengths params size) rank = split :=
        (List.map_congr_left fun sender _ => each sender rank).trans (map_range_getD length)
      right
      rw [row, column]
      simp only [splits, input, output, opposite_eq length inside]
    | none => exact .inl ⟨rfl, rfl⟩

/-- In an uneven exchange the descriptors of the ranks are the rows and columns of one matrix. -/
theorem uneven (same : item.operation = .allToAllv) (divides : params.Divides size)
    (inside : rank < size) : item.Uneven params size rank := by
  rcases item.splits_eq divides inside with ⟨input, output⟩ | sides
  · exact uneven_of_none same input output (Nat.zero_lt_of_lt inside)
  · exact uneven_of_splits same sides

/-- The counts of a descriptor are in order. -/
theorem counts_ok (fits : item.operation = .allToAllv → item.Uneven params size rank)
    (inside : rank < size) :
    checkCounts item.operation (item.descriptor params size rank).inElements
      (item.descriptor params size rank).outElements size
      ((item.descriptor params size rank).inSplit <|> params.inSplit)
      ((item.descriptor params size rank).outSplit <|> params.outSplit) = .ok () := by
  by_cases same : item.operation = .allToAllv
  · rw [same]
    exact (fits same).counts
  · have shape := descriptor_even same params size rank
    have input : (item.descriptor params size rank).inElements = item.elements params size := by
      rw [shape]
      rfl
    have output : (item.descriptor params size rank).outElements = item.elements params size := by
      rw [shape]
      rfl
    have divisible (split : item.operation.isSplit) :
        checkDivisible item.operation (item.elements params size) size = .ok () :=
      if_pos (elements_divisible split (Nat.zero_lt_of_lt inside))
    rw [input, output]
    cases operation : item.operation <;> rw [operation] at divisible same
    case allToAllv => exact absurd rfl same
    case allToAll =>
      change (do checkDivisible _ _ size; checkDivisible _ _ size) = _
      rw [divisible rfl]
      rfl
    all_goals
      first
        | rfl
        | exact divisible rfl

/-- The plan of a descriptor suits the terms of the item. -/
theorem suits_forGroup (fits : item.operation = .allToAllv → item.Uneven params size rank) :
    (Plan.forGroup item.operation (item.stagingParams params size)
      (item.descriptor params size rank) size).Suits (item.terms params size) rank := by
  have length : (List.range size).length = size := List.length_range
  by_cases same : item.operation = .allToAllv
  · have uneven := fits same
    have type : (item.descriptor params size rank).type = some params.type := by
      rw [descriptor_uneven same]
      rfl
    refine ⟨rfl, ?_, fun _ => ?_, fun _ => ?_⟩
    · rw [Plan.forGroup, type]
      rfl
    · rw [Terms.layout_uneven same, Plan.forGroup, same, uneven.input, uneven.output]
      rfl
    · rw [Plan.forGroup, same, if_pos rfl]
      exact congrArg some uneven.split
  · have shape := descriptor_even same params size rank
    refine ⟨rfl, by rw [shape]; rfl, fun _ => ?_, fun uneven => absurd uneven same⟩
    rw [Terms.layout_even same, shape]
    change some (Layout.of _ _ _ size _) = some (Layout.of _ _ _ (List.range size).length _)
    rw [length]
    rfl

/-- A descriptor names its operation and the group that spans the world. -/
theorem descriptor_names [Arithmetic] (item : Item) (params : Params) (size rank : Nat) :
    (item.descriptor params size rank).name = some item.operation.name ∧
      (item.descriptor params size rank).group = some World.defaultGroup ∧
      (item.descriptor params size rank).type = some params.type := by
  rw [descriptor]
  split <;> exact ⟨rfl, rfl, rfl⟩

section

variable {supported : List Operation} {world : World}

/-- The operation of an item is the one that its descriptor names. -/
theorem resolve_nameOf (known : item.operation ∈ supported) (params : Params) (size rank : Nat) :
    Operation.resolve supported (Plan.nameOf (item.stagingParams params size)
      (item.descriptor params size rank)) = .ok item.operation := by
  rw [Plan.nameOf, (item.descriptor_names params size rank).1]
  exact Operation.resolve_name known

/-- An item that allocates is planned for all ranks once the counts are in order. -/
theorem make_eq (params : Params) (known : item.operation ∈ supported)
    (members : world.members World.defaultGroup = List.range size) (inside : rank < size)
    (allocates : item.operation.isSyncOnly = false) :
    Plan.make supported world (item.stagingParams params size)
        (item.descriptor params size rank) = do
      checkCounts item.operation (item.descriptor params size rank).inElements
        (item.descriptor params size rank).outElements size
        ((item.descriptor params size rank).inSplit <|> params.inSplit)
        ((item.descriptor params size rank).outSplit <|> params.outSplit)
      return .forGroup item.operation (item.stagingParams params size)
        (item.descriptor params size rank) size := by
  have someone : rank ∈ world.members World.defaultGroup := by
    rw [members]
    exact List.mem_range.mpr inside
  obtain ⟨sameSize, inhabited⟩ := World.groupSize_of_mem someone
  rw [members, List.length_range] at sameSize inhabited
  have group := (item.descriptor_names params size rank).2.1
  exact Plan.make_eq (resolve_nameOf known params size rank) allocates
    (by rw [group]; exact sameSize) inhabited

/-- Every rank can plan an item, and the plan suits the terms of the item. -/
theorem gives_make (params : Params) (known : item.operation ∈ supported)
    (members : world.members World.defaultGroup = List.range size)
    (fits : item.operation = .allToAllv → item.Uneven params size rank) (inside : rank < size) :
    Gives (Plan.make supported world (item.stagingParams params size)
        (item.descriptor params size rank)) (·.Suits (item.terms params size) rank) := by
  cases synchronises : item.operation.isSyncOnly with
  | true =>
    have type := (item.descriptor_names params size rank).2.2
    refine ⟨_, Plan.make_syncOnly (resolve_nameOf known params size rank) synchronises, rfl,
      by rw [type]; rfl, ?_, ?_⟩
    · intro allocates
      rw [show (item.terms params size).operation = item.operation from rfl, synchronises]
        at allocates
      cases allocates
    · intro same
      rw [show item.operation = .allToAllv from same] at synchronises
      cases synchronises
  | false =>
    refine ⟨_, ?_, suits_forGroup fits⟩
    rw [make_eq params known members inside synchronises, counts_ok fits inside]
    rfl

/-- Every rank can stage an item, and what it stages suits the terms of the item. -/
theorem gives_stage [Halves] (known : item.operation ∈ supported)
    (members : world.members World.defaultGroup = List.range size)
    (divides : params.Divides size) (inside : rank < size) (device : Device) :
    Gives (stage supported world (item.stagingParams params size)
        (item.descriptor params size rank) true device).1
      (·.Suits (item.terms params size) rank) := by
  obtain ⟨plan, made, suits⟩ :=
    gives_make params known members (fun same => item.uneven same divides inside) inside
  refine ⟨(plan.allocate (item.stagingParams params size) device).1, ?_, suits.allocate _ device⟩
  rw [stage_exact, made]
  rfl

end

/-! ## Calls of items -/

/-- Configured or not, the peers of an item are as wanted where the configured lists, the list of
all ranks but the root, the first and the last rank and the empty list are. -/
theorem peers_hold (wanted : List Nat → Prop) (sources : wanted params.sources)
    (destinations : wanted params.destinations) (nobody : wanted [])
    (others : wanted ((List.range size).filter (· ≠ params.root)))
    (first : wanted [0]) (last : wanted [size - 1]) (operation : Operation) :
    wanted (peers params size operation).1 ∧ wanted (peers params size operation).2 := by
  cases operation
  case incast =>
    simp only [peers]
    split
    · exact ⟨others, nobody⟩
    · exact ⟨sources, destinations⟩
  case multicast =>
    simp only [peers]
    split
    · exact ⟨nobody, others⟩
    · exact ⟨sources, destinations⟩
  case pt2pt | recv =>
    simp only [peers]
    split
    · exact ⟨first, last⟩
    · exact ⟨sources, destinations⟩
  all_goals exact ⟨sources, destinations⟩

/-- Configured or not, the peers of an item are different ranks of the world, in a world of one rank
as well. -/
theorem areRanks_peers (inhabited : 0 < size) (sources : AreRanks size params.sources)
    (destinations : AreRanks size params.destinations) (operation : Operation) :
    AreRanks size (peers params size operation).1 ∧
      AreRanks size (peers params size operation).2 := by
  have alone {rank : Nat} (inside : rank < size) : AreRanks size [rank] :=
    ⟨List.nodup_singleton rank, by simpa using inside⟩
  refine peers_hold (AreRanks size) sources destinations .nil ⟨List.nodup_range.filter _, ?_⟩
    (alone inhabited) (alone (by omega)) operation
  exact fun rank listed => List.mem_range.mp (List.mem_of_mem_filter listed)

/-- Configured or not, the peers of an item exist. -/
theorem peers_inside (names : params.Names size) (operation : Operation) :
    ∀ peer ∈ (peers params size operation).1 ++ (peers params size operation).2, peer < size := by
  have some : 0 < size := Nat.zero_lt_of_lt names.root
  have alone {rank : Nat} (inside : rank < size) : ∀ peer ∈ [rank], peer < size := by
    simpa using inside
  refine List.forall_mem_append.mpr
    (peers_hold (fun list => ∀ peer ∈ list, peer < size) names.sources names.destinations
      (by simp) ?_ (alone some) (alone (by omega)) operation)
  exact fun rank listed => List.mem_range.mp (List.mem_of_mem_filter listed)

/-- Messages from point to point have as many receivers as senders where the configured lists are
equally long. -/
theorem peers_paired {operation : Operation}
    (paired : params.sources.length = params.destinations.length)
    (single : operation = .pt2pt ∨ operation = .recv) :
    (peers params size operation).1.length = (peers params size operation).2.length := by
  rcases single with rfl | rfl
  all_goals
    simp only [peers]
    split
    · rfl
    · exact paired

/-- An item's call on buffers that suit the terms of the item suits them. -/
theorem suits_callOn {buffers : Buffers} (suits : buffers.Suits (item.terms params size) rank)
    (names : params.Names size)
    (paired : item.operation = .pt2pt ∨ item.operation = .recv →
      params.sources.length = params.destinations.length) :
    (item.callOn params size buffers).Suits (item.terms params size) rank := by
  have length : (item.terms params size).ranks.length = size := List.length_range
  refine Buffers.Suits.call suits rfl (fun _ => ?_) ?_ fun single => ?_
  · rw [length]
    exact names.root
  · rw [length]
    exact peers_inside names item.operation
  · exact peers_paired (paired single) single

end Item

end CollectiveBench
