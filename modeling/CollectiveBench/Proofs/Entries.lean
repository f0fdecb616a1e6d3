import Mathlib.Data.List.Basic

/-!
# Entries under keys

Tables of names, variables of an environment and outstanding requests are lists of entries, and the
first entry under a key is the one that counts. Where no key occurs twice, every entry is the first
one under its key.
-/

namespace CollectiveBench

variable {α β : Type} [BEq α] [LawfulBEq α] {entries : List (α × β)} {key : α} {value : β}

/-- A list of entries with different keys gives for a key exactly what its entry says. -/
theorem lookup_eq_some_iff_mem (distinct : (entries.map Prod.fst).Nodup) :
    entries.lookup key = some value ↔ (key, value) ∈ entries := by
  rw [List.lookup_eq_some_iff]
  constructor
  · rintro ⟨before, after, rfl, -⟩
    simp
  · intro listed
    obtain ⟨before, after, rfl⟩ := List.append_of_mem listed
    refine ⟨before, after, rfl, fun earlier present => bne_iff_ne.mpr ?_⟩
    rw [List.map_append, List.nodup_append] at distinct
    exact (distinct.2.2 _ (List.mem_map_of_mem present) _ (by simp)).symm

end CollectiveBench
