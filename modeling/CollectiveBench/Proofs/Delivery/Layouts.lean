import CollectiveBench.Proofs.Delivery.Shapes

/-!
# Layouts and delivery

Staging chooses the shapes of buffers by operation, and delivery decides by operation what a member
receives. Here the two are held against each other. Where every member's input has the shape that
the layout of the operation has for one element count, what a member receives has the shape of the
layout's destination (`gives_payload`). An uneven exchange is different, because its members need
not agree on a count; there the rows and columns of a matrix take the place of the count
(`payload_allToAllv`).
-/

namespace CollectiveBench

variable {type : ElementType} {count : Nat} {all : List Contribution}

/-- The single tensors of all contributions. -/
theorem gives_mapM_single (name : String)
    (fits : ∀ contribution ∈ all, contribution.input.Fits type (.single count)) :
    Gives (all.mapM fun contribution => contribution.input.expectSingle name)
      (EachOf all.length (·.HasShape type count)) :=
  gives_mapM fun contribution present => (fits contribution present).gives_single name

/-- The parts of all contributions for a member. -/
theorem gives_mapM_part {parts me : Nat} (name : String) (inside : me < parts)
    (fits : ∀ contribution ∈ all, contribution.input.Fits type (.list parts count)) :
    Gives (all.mapM fun contribution => contribution.input.part name me)
      (EachOf all.length (·.HasShape type count)) :=
  gives_mapM fun contribution present => (fits contribution present).gives_part inside name

/-- The single tensor of the contribution of a rank. -/
theorem gives_one_of {rank : Nat} (name : String) (inside : rank < all.length)
    (fits : ∀ contribution ∈ all, contribution.input.Fits type (.single count)) :
    Gives (do return .one (← (← contributionOf all rank).input.expectSingle name))
      (Payload.Fits type (.single count)) :=
  (gives_contributionOf inside).bind fun contribution present =>
    ((fits contribution present).gives_single name).bind fun _ shape => gives_ok shape

/-- A sender that is paired with a member is one of the senders. -/
theorem mem_of_senderTo {me source : Nat} {sources destinations : List Nat}
    (paired : senderTo me sources destinations = some source) : source ∈ sources := by
  obtain ⟨pair, last, rfl⟩ := Option.map_eq_some_iff.mp paired
  exact (List.of_mem_zip (List.mem_of_mem_filter (List.mem_of_getLast? last))).1

/-- The chunk of a member lies within what is divided among all. -/
theorem chunk_within {me members : Nat} (inside : me < members) (count : Nat) :
    me * (count / members) + count / members ≤ count := by
  have within : (me + 1) * (count / members) ≤ members * (count / members) :=
    Nat.mul_le_mul_right _ inside
  rw [← Nat.succ_mul]
  exact Nat.le_trans within (Nat.mul_div_le count members)

/-- The layout of a call for one element count on both sides. -/
def Call.layout (call : Call) (count members : Nat) : Layout :=
  .of call.operation count count members call.sources.length

/-- Where the inputs of all members have the layout of an operation, a member receives what fits
the layout's destination. -/
theorem gives_payload {call : Call} {me : Nat} (inside : me < all.length)
    (even : call.operation ≠ .allToAllv)
    (inputs : ∀ contribution ∈ all,
      contribution.input.Fits type (call.layout count all.length).input)
    (destination : call.buffers.destination.Fits type (call.layout count all.length).destination)
    (root : call.operation.isRooted → call.root < all.length)
    (sources : ∀ source ∈ call.sources, source < all.length) :
    Gives (payload call me all) (·.Fits type (call.layout count all.length).destination) := by
  have someone : all ≠ [] := List.ne_nil_of_length_pos (Nat.zero_lt_of_lt inside)
  -- A case for each operation: what it fetches, and what becomes of it.
  cases operation : call.operation <;>
    simp only [Call.layout, operation, Layout.of, Layout.destination, Option.getD_some,
      Option.getD_none, Operation.isRooted, forall_const] at inputs destination root ⊢ <;>
    simp only [payload, operation]
  case allToAllv => exact absurd operation even
  case allToAll =>
    exact (gives_mapM_part _ inside inputs).bind fun _ parts => gives_ok parts
  case allReduce =>
    exact (gives_reduceAll (fun contribution present =>
      (inputs contribution present).gives_single _) someone _).bind fun _ shape => gives_ok shape
  case broadcast =>
    exact gives_one_of _ root inputs
  case gather =>
    split
    · exact (gives_mapM_single _ inputs).bind fun _ parts => gives_ok parts
    · exact gives_ok trivial
  case allGather =>
    exact (gives_mapM_single _ inputs).bind fun _ parts => gives_ok parts
  case allGatherBase =>
    exact (gives_mapM_single _ inputs).bind fun _ parts =>
      (gives_joinParts (Nat.zero_lt_of_lt inside) parts).bind fun _ shape => gives_ok shape
  case reduce =>
    split
    · exact (gives_reduceAll (fun contribution present =>
        (inputs contribution present).gives_single _) someone _).bind fun _ shape => gives_ok shape
    · exact gives_ok trivial
  case reduceScatter =>
    exact (gives_reduceAll (fun contribution present =>
      (inputs contribution present).gives_part inside _) someone _).bind fun _ shape =>
        gives_ok shape
  case reduceScatterBase =>
    refine (destination.gives_single _).bind fun target room => ?_
    have cut : ∀ contribution ∈ all, Gives (do
        (← contribution.input.expectSingle Operation.reduceScatterBase.name).slice
          (me * target.count) target.count) (·.HasShape type (count / all.length)) := by
      intro contribution present
      refine ((inputs contribution present).gives_single _).bind fun tensor shape => ?_
      rw [room.2]
      exact shape.gives_slice (chunk_within inside count)
    refine (gives_mapM cut).bind fun parts shapes => ?_
    have some : parts ≠ [] := List.ne_nil_of_length_pos (shapes.1 ▸ Nat.zero_lt_of_lt inside)
    exact (gives_reduceAll (fun part present => gives_ok (shapes.2 part present)) some _).bind
      fun _ shape => gives_ok shape
  case scatter =>
    refine (gives_contributionOf root).bind fun contribution present => ?_
    exact ((inputs contribution present).gives_part inside _).bind fun _ shape => gives_ok shape
  case incast =>
    split
    · refine (gives_mapM fun source present => ?_).bind fun _ parts => gives_ok parts
      exact (gives_contributionOf (sources source present)).bind fun contribution listed =>
        (inputs contribution listed).gives_single _
    · exact gives_ok trivial
  case multicast =>
    split
    · exact gives_one_of _ root inputs
    · exact gives_ok trivial
  case pt2pt =>
    split
    next source paired =>
      exact gives_one_of _ (sources source (mem_of_senderTo paired)) inputs
    next => exact gives_ok trivial
  case recv =>
    split
    next source paired =>
      exact gives_one_of _ (sources source (mem_of_senderTo paired)) inputs
    next => exact gives_ok trivial
  all_goals exact gives_ok trivial

end CollectiveBench
