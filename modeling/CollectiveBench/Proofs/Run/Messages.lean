import CollectiveBench.Proofs.Run.Items
import CollectiveBench.Proofs.Staging.Admission
import CollectiveBench.Proofs.Sweep
import CollectiveBench.Proofs.Sweep.FirstSize
import CollectiveBench.Run.Bench

/-!
# Messages of a sweep

A sweep starts late enough that its first message holds what every rank needs of it
(`Sweep.firstSize_eq`), and its further messages are larger. Rounding a message down to whole
elements, and to a multiple of the number of ranks where it is cut into chunks, takes nothing of
that away: what is needed is a whole number of elements for each rank (`Item.needed_le_elements`).
So every message of a sweep can be staged as it is rounded, and it moves no more bytes than its size
says (`Bench.swept_messages_stage`).
-/

namespace CollectiveBench

namespace Sweep

/-- Steps that grow stay between the first and the last size. A sweep whose first size is beyond
the last one has no sizes. -/
theorem within_sizes {first last factor stepBytes : Nat} (counted : last ≤ ceiling)
    (grows : 1 ≤ factor ∨ 1 ≤ stepBytes) {message : Nat}
    (swept : message ∈ (sizes first last factor stepBytes).1) : first ≤ message ∧
      message ≤ last := by
  by_cases upper : first ≤ last
  · have onward (size : Nat) (_ : first ≤ size) (inside : size ≤ last) :
        size ≤ next factor stepBytes size :=
      le_next (Nat.le_trans inside counted) fun still vanishing => by omega
    exact (isSweep_sizesFrom onward 99 (Nat.le_refl first) upper).within message swept
  · rw [sizes, limit, sizesFrom, if_pos (Nat.lt_of_not_le upper)] at swept
    cases swept

end Sweep

namespace Item

variable {item : Item} {params : Params} {worldSize rank : Nat}

/-- Rounding down takes no element that is needed. -/
theorem needed_le_elements (item : Item) {bitwidth quantDim : Nat}
    (enough : Sweep.needed item.operation worldSize bitwidth quantDim * params.type.size ≤
      item.sizeBytes) :
    Sweep.needed item.operation worldSize bitwidth quantDim ≤ item.elements params worldSize := by
  have whole : Sweep.needed item.operation worldSize bitwidth quantDim ≤
      item.sizeBytes / params.type.size :=
    (Nat.le_div_iff_mul_le params.type.size_pos).mpr enough
  rw [elements]
  by_cases cut : item.operation.isSplit ∧ 0 < worldSize
  · rw [if_pos cut, ← Nat.div_mul_cancel (Sweep.dvd_needed cut.1)]
    exact Nat.mul_le_mul_right worldSize (Nat.div_le_div_right whole)
  · rwa [if_neg cut]

/-- Rounding down adds no bytes. -/
theorem elements_mul_size_le (item : Item) (params : Params) (worldSize : Nat) :
    item.elements params worldSize * params.type.size ≤ item.sizeBytes := by
  have fewer : item.elements params worldSize ≤ item.sizeBytes / params.type.size := by
    rw [elements]
    split
    · exact Nat.div_mul_le_self _ worldSize
    · exact Nat.le_refl _
  exact Nat.le_trans (Nat.mul_le_mul_right _ fewer) (Nat.div_mul_le_self _ _)

/-- A rounded message can be divided as its operation asks, on both sides. -/
theorem checkCounts_elements (item : Item) (inhabited : 0 < worldSize) :
    checkCounts item.operation (item.elements params worldSize) (item.elements params worldSize)
      worldSize none none = .ok () := by
  have divides (split : item.operation.isSplit) : worldSize ∣ item.elements params worldSize :=
    Nat.dvd_of_mod_eq_zero (elements_divisible split inhabited)
  rw [checkCounts_eq_ok_iff]
  cases chosen : item.operation <;> rw [chosen] at divides
  case allToAllv | allToAll => exact ⟨divides rfl, divides rfl⟩
  case gather | allGather | allGatherBase => exact divides rfl
  case scatter | reduceScatter | reduceScatterBase => exact divides rfl
  all_goals trivial

/-- The descriptor of a rank asks for the message as it is rounded, in both directions and without
splits. -/
structure AsksEvenly (item : Item) (params : Params) (worldSize rank : Nat) : Prop where
  input : (item.descriptor params worldSize rank).inElements = item.elements params worldSize
  output : (item.descriptor params worldSize rank).outElements = item.elements params worldSize
  inSplit : (item.descriptor params worldSize rank).inSplit = none
  outSplit : (item.descriptor params worldSize rank).outSplit = none

/-- Only a configured split of an uneven exchange asks for anything else. -/
theorem asksEvenly
    (even : item.operation = .allToAllv → params.inSplit = none ∧ params.outSplit = none) :
    item.AsksEvenly params worldSize rank := by
  by_cases same : item.operation = .allToAllv
  · obtain ⟨input, output⟩ := even same
    have sides : splits params worldSize rank = (none, none) := by simp only [splits, input, output]
    have shape := descriptor_uneven same params worldSize rank
    rw [sides] at shape
    constructor <;> rw [shape] <;> rfl
  · have shape := descriptor_even same params worldSize rank
    constructor <;> rw [shape] <;> rfl

end Item

/-! ## Messages of a run -/

/-- Every message that a run sweeps is staged. The sweep of an operation begins at some size, and
its messages hold, rounded to whole elements and to a multiple of the number of ranks where they are
cut into chunks, at least one element for each rank if they are cut, as many as the quantised
dimension asks for if they are quantised as well, and one element if they are reduced. The elements
can be divided as the operation asks and take no more bytes than the size says, and without
configured splits every rank asks for just these elements, on both sides, and reports their bytes.
Then the ranks of a group that spans the world can stage them. The last size is one that a machine
can count to, and sizes grow by a factor or by a step. -/
theorem Bench.swept_messages_stage (bench : Bench) (operation : Operation) (bitwidth : Nat)
    (inhabited : 0 < bench.worldSize) (counted : bench.params.endSize ≤ Sweep.ceiling)
    (grows : 1 ≤ bench.params.stepFactor ∨ 1 ≤ bench.params.stepBytes) :
    ∃ first, Sweep.firstSize bench.params.beginSize operation bench.params.type.size
        bench.worldSize bitwidth bench.params.quantDim = .ok first ∧
      (bench.bitwidth.1 = bitwidth → bench.sizes operation = Sweep.sizes first bench.params.endSize
        bench.params.stepFactor bench.params.stepBytes) ∧
      ∀ size ∈ (Sweep.sizes first bench.params.endSize bench.params.stepFactor
          bench.params.stepBytes).1,
        let item : Item := ⟨operation, size⟩
        let count := item.elements bench.params bench.worldSize
        (operation.isSplit → bench.worldSize ≤ count ∧
          (bitwidth < 32 → bench.params.quantDim * bench.worldSize ≤ count)) ∧
        (operation = .allReduce ∨ operation = .reduce → 1 ≤ count) ∧
        checkCounts operation count count bench.worldSize none none = .ok () ∧
        count * bench.params.type.size ≤ size ∧
        ∀ rank, (operation = .allToAllv →
            bench.params.inSplit = none ∧ bench.params.outSplit = none) →
          item.AsksEvenly bench.params bench.worldSize rank ∧
          item.bytes bench.params bench.worldSize rank ≤ size ∧
          (operation ∈ bench.supported → rank < bench.worldSize →
            bench.world.members World.defaultGroup = List.range bench.worldSize →
            ∀ device, ∃ buffers, (stage bench.supported bench.world
              (item.stagingParams bench.params bench.worldSize)
              (item.descriptor bench.params bench.worldSize rank) true device).1 =
                .ok buffers) := by
  have begins : Sweep.firstSize bench.params.beginSize operation bench.params.type.size
      bench.worldSize bitwidth bench.params.quantDim = .ok (max bench.params.beginSize
        (Sweep.needed operation bench.worldSize bitwidth bench.params.quantDim *
          bench.params.type.size)) :=
    Sweep.firstSize_eq bench.params.beginSize bench.params.type.size_pos inhabited
  refine ⟨_, begins, fun travels => ?_, fun size swept => ?_⟩
  · simp only [Bench.sizes, travels, begins]
  · intro item count
    have enough : Sweep.needed operation bench.worldSize bitwidth bench.params.quantDim *
        bench.params.type.size ≤ size :=
      Nat.le_trans (Nat.le_max_right _ _) (Sweep.within_sizes counted grows swept).1
    have holds : Sweep.needed operation bench.worldSize bitwidth bench.params.quantDim ≤ count :=
      item.needed_le_elements enough
    have fits : count * bench.params.type.size ≤ size := item.elements_mul_size_le _ _
    refine ⟨fun cut => ?_, fun reduces => ?_, item.checkCounts_elements inhabited, fits,
      fun rank even => ?_⟩
    · obtain ⟨each, quantised⟩ := Sweep.le_needed_split cut
      exact ⟨Nat.le_trans each holds, fun narrow => Nat.le_trans (quantised narrow) holds⟩
    · rwa [Sweep.needed_reduction reduces] at holds
    · have asks : item.AsksEvenly bench.params bench.worldSize rank := Item.asksEvenly even
      refine ⟨asks, ?_, fun known inside spans device => ?_⟩
      · rw [Item.bytes, asks.input]
        exact fits
      · have fair (same : item.operation = .allToAllv) :
            item.Uneven bench.params bench.worldSize rank :=
          Item.uneven_of_none same (even same).1 (even same).2 inhabited
        obtain ⟨plan, made, -⟩ := item.gives_make bench.params known spans fair inside
        exact exists_stage_iff.mpr ⟨plan, made⟩

/-- Three ranks sweep an all-gather of quantised half-precision elements from one byte. The first
message has two elements for each rank, and the second one, with seven bytes more, no further
ones. -/
theorem Bench.swept_messages_stage_three :
    let bench : Bench :=
      { world := World.create 3 [] 1000, quantizes := true
        params := { beginSize := 1, endSize := 20, stepBytes := 7, type := .f16, bitwidth := 8,
                    quantDim := 2 } }
    0 < bench.worldSize ∧ bench.params.endSize ≤ Sweep.ceiling ∧
      (1 ≤ bench.params.stepFactor ∨ 1 ≤ bench.params.stepBytes) ∧
      bench.sizes .allGather = ([12, 19], []) ∧
      ∀ size ∈ (bench.sizes .allGather).1,
        2 * 3 ≤ Item.elements ⟨.allGather, size⟩ bench.params 3 ∧
          Item.elements ⟨.allGather, size⟩ bench.params 3 * 2 ≤ size := by
  intro bench
  have inhabited : 0 < bench.worldSize := by decide
  have counted : bench.params.endSize ≤ Sweep.ceiling := by decide
  have grows : 1 ≤ bench.params.stepFactor ∨ 1 ≤ bench.params.stepBytes := by decide
  obtain ⟨first, -, sweeps, messages⟩ :=
    bench.swept_messages_stage .allGather 8 inhabited counted grows
  refine ⟨inhabited, counted, grows, by decide +kernel, fun size swept => ?_⟩
  rw [sweeps (by decide)] at swept
  obtain ⟨chunks, -, -, fits, -⟩ := messages size swept
  exact ⟨(chunks rfl).2 (by decide), fits⟩

end CollectiveBench
