import CollectiveBench.Descriptor

/-!
# How a descriptor is read from the fields of an object

A descriptor is read from the values of its keys. So nothing is seen of the order of the
fields, since a key that occurs twice is refused before a value is looked up; nothing of a
field that descriptors do not have; and nothing of a key that holds `null`, which is what an
absent key holds. Objects that differ in such things only are read alike.
-/

namespace CollectiveBench.Descriptor

open Json

variable {fields others : List (Option (List Char) × Json)}

/-! ### What is looked at -/

/-- Reading looks at the values of the descriptor's keys only. -/
theorem ofFields?_congr {get other : String → Json} (same : ∀ key ∈ keys, get key = other key) :
    ofFields? get = ofFields? other := by
  simp only [keys, List.mem_cons, forall_eq_or_imp, List.not_mem_nil, false_implies,
    implies_true, and_true] at same
  simp only [ofFields?, same]

/-- The fields whose keys have a text. -/
def named (fields : List (Option (List Char) × Json)) : List (String × Json) :=
  fields.filterMap fun (key, value) => key.map fun key => (String.ofList key, value)

/-- An object is refused when one of its keys has no text. -/
theorem namedFields?_eq (fields : List (Option (List Char) × Json)) :
    namedFields? fields =
      if fields.all (fun field => field.1.isSome) then some (named fields) else none := by
  induction fields with
  | nil => rfl
  | cons field rest inductionHypothesis =>
    obtain ⟨_ | key, value⟩ := field
    · rfl
    · simp only [namedFields?, List.mapM_cons] at inductionHypothesis ⊢
      rw [inductionHypothesis]
      by_cases texts : rest.all (fun field => field.1.isSome) = true
      · simp [texts, named]
      · simp [texts]

/-- A field with a text for its key is one of the named fields. -/
theorem named_field (key : String) (value : Json) (fields : List (Option (List Char) × Json)) :
    named (field key value :: fields) = (key, value) :: named fields := by
  simp [named, field]

/-- The first field has the value of its key. -/
theorem fieldValue_cons (first key : String) (value : Json) (rest : List (String × Json)) :
    fieldValue ((first, value) :: rest) key =
      if key = first then value else fieldValue rest key := by
  by_cases same : key = first
  · simp [fieldValue, same]
  · have skipped : (key == first) = false := by simpa using same
    simp [fieldValue, List.lookup_cons, skipped, same]

/-- The value of a key is that of the first field with the key. -/
theorem fieldValue_eq (fields : List (String × Json)) (key : String) :
    fieldValue fields key =
      (((fields.filter fun field => field.1 == key).head?).map Prod.snd).getD .null := by
  induction fields with
  | nil => rfl
  | cons field rest inductionHypothesis =>
    obtain ⟨first, value⟩ := field
    rw [fieldValue_cons, inductionHypothesis]
    by_cases same : key = first
    · simp [same]
    · have skipped : (first == key) = false := by simpa using fun equal => same equal.symm
      rw [if_neg same, List.filter_cons_of_neg (by simp [skipped])]

/-- A further field repeats no key of a descriptor, unless another field has its key. -/
theorem repeatsKey_cons (key : String) (value : Json) (rest : List (String × Json))
    (fresh : key ∈ keys → ∀ field ∈ rest, field.1 ≠ key) :
    repeatsKey ((key, value) :: rest) = repeatsKey rest := by
  rw [Bool.eq_iff_iff]
  simp only [repeatsKey, List.any_eq_true, decide_eq_true_eq]
  refine exists_congr fun other => and_congr_right fun member => ?_
  by_cases same : key = other
  · subst same
    have alone : rest.countP (fun field => field.1 == key) = 0 := by
      rw [List.countP_eq_zero]
      intro field inside
      simpa using fresh member field inside
    simp [alone]
  · simp [same]

/-! ### Objects that are read alike -/

/-- Two objects are read alike when both or neither have texts for keys and repeat a key, and
they have the same value for every key of a descriptor. -/
theorem ofJson?_object_congr
    (texts : fields.all (fun field => field.1.isSome) = others.all (fun field => field.1.isSome))
    (repeats : repeatsKey (named fields) = repeatsKey (named others))
    (values : repeatsKey (named fields) = false →
      ∀ key ∈ keys, fieldValue (named fields) key = fieldValue (named others) key) :
    ofJson? (.object fields) = ofJson? (.object others) := by
  simp only [ofJson?, namedFields?_eq, texts]
  by_cases textual : others.all (fun field => field.1.isSome) = true
  · simp only [textual, if_true, repeats]
    cases repeated : repeatsKey (named others) with
    | true => rfl
    | false => exact ofFields?_congr (values (repeats.trans repeated))
  · simp only [textual]
    rfl

/-- The order of the fields does not matter: where no key is repeated, one field at most has
the value of a key. -/
theorem ofJson?_perm (same : fields.Perm others) :
    ofJson? (.object fields) = ofJson? (.object others) := by
  have chosen : (named fields).Perm (named others) := same.filterMap _
  apply ofJson?_object_congr same.all_eq
  · simp only [repeatsKey, chosen.countP_eq]
  · intro single key member
    have most : ((named fields).filter fun field => field.1 == key).length ≤ 1 := by
      simp only [repeatsKey, List.any_eq_false] at single
      simpa [List.countP_eq_length_filter] using single key member
    have alike := chosen.filter fun field => field.1 == key
    have found : ((named fields).filter fun field => field.1 == key) =
        (named others).filter fun field => field.1 == key := by
      rcases listed : (named fields).filter fun field => field.1 == key with
        _ | ⟨field, _ | ⟨next, rest⟩⟩
      · rw [listed] at alike ⊢
        exact (List.nil_perm.mp alike).symm
      · rw [listed] at alike ⊢
        exact List.singleton_perm.mp alike
      · rw [listed] at most
        simp at most
    rw [fieldValue_eq, fieldValue_eq, found]

/-- A field that descriptors do not have is skipped. -/
theorem ofJson?_unknown {key : String} (value : Json)
    (fields : List (Option (List Char) × Json)) (foreign : key ∉ keys) :
    ofJson? (.object (field key value :: fields)) = ofJson? (.object fields) := by
  have different : ∀ other ∈ keys, other ≠ key := by
    rintro other member rfl
    exact foreign member
  apply ofJson?_object_congr
  · simp [field]
  · rw [named_field, repeatsKey_cons key value _ fun known => absurd known foreign]
  · intro _ other member
    rw [named_field, fieldValue_cons, if_neg (different other member)]

/-- A key that stands for nothing may as well be left out. -/
theorem ofJson?_omitted {key : String}
    (absent : some key.toList ∉ fields.map Prod.fst) :
    ofJson? (.object (field key .null :: fields)) = ofJson? (.object fields) := by
  have fresh : ∀ entry ∈ named fields, entry.1 ≠ key := by
    rintro entry member rfl
    obtain ⟨⟨_ | spelled, value⟩, inside, same⟩ := List.mem_filterMap.mp member
    · cases same
    · obtain rfl := Option.some.inj same
      exact absent (List.mem_map.mpr ⟨_, inside, by simp⟩)
  apply ofJson?_object_congr
  · simp [field]
  · rw [named_field, repeatsKey_cons key .null _ fun _ => fresh]
  · intro _ other _
    rw [named_field, fieldValue_cons]
    split
    case isTrue same =>
      subst same
      have nothing : (named fields).filter (fun field => field.1 == other) = [] := by
        rw [List.filter_eq_nil_iff]
        intro entry member
        simpa using fresh entry member
      rw [fieldValue_eq, nothing]
      rfl
    case isFalse => rfl

/-- Lists of fields that say the same of a descriptor: their order does not matter, nor does a
field that descriptors do not have, nor whether `null` stands for a key or nothing does. -/
inductive SameFields :
    List (Option (List Char) × Json) → List (Option (List Char) × Json) → Prop where
  | reordered {fields others : List (Option (List Char) × Json)} (same : fields.Perm others) :
      SameFields fields others
  | unknown {key : String} (value : Json) (fields : List (Option (List Char) × Json))
      (foreign : key ∉ keys) : SameFields (field key value :: fields) fields
  | omitted {key : String} {fields : List (Option (List Char) × Json)}
      (absent : some key.toList ∉ fields.map Prod.fst) :
      SameFields (field key .null :: fields) fields
  | symm {fields others : List (Option (List Char) × Json)} (same : SameFields fields others) :
      SameFields others fields
  | trans {fields others last : List (Option (List Char) × Json)}
      (first : SameFields fields others) (second : SameFields others last) :
      SameFields fields last

/-- Objects whose fields say the same are read alike. -/
theorem SameFields.ofJson? (same : SameFields fields others) :
    Descriptor.ofJson? (.object fields) = Descriptor.ofJson? (.object others) := by
  induction same with
  | reordered same => exact ofJson?_perm same
  | unknown value fields foreign => exact ofJson?_unknown value fields foreign
  | omitted absent => exact ofJson?_omitted absent
  | symm _ inductionHypothesis => exact inductionHypothesis.symm
  | trans _ _ first second => exact first.trans second

end CollectiveBench.Descriptor
