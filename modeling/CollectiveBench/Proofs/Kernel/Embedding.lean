import CollectiveBench.Kernel.Embedding
import CollectiveBench.Proofs.Delivery.Payloads
import CollectiveBench.Proofs.Kernel.Rows
import CollectiveBench.Proofs.Outcomes
import Mathlib.Data.List.GetD
import Mathlib.Data.List.Induction

/-!
# Sums of embedding bags

Offsets cut a tail of the indices into bags. If they do not fall, do not pass the end of the indices
and all rows that are looked up exist, every index from the first offset on lies in exactly one bag,
and each bag is summed column by column, in the order of its indices. Everything else is refused,
for the table, for a bag that does not fit or for a row that does not exist
(`embedding_bags_summed`).
-/

namespace CollectiveBench

open Numeric

/-! ## Bags -/

/-- The position lies in the bag: the bag begins there or before, and the next one, if any, later.
-/
def InBag (offsets : List Nat) (bag position : Nat) : Prop :=
  (∃ start ∈ offsets[bag]?, start ≤ position) ∧ ∀ next ∈ offsets[bag + 1]?, position < next

instance (offsets : List Nat) (bag position : Nat) : Decidable (InBag offsets bag position) :=
  inferInstanceAs (Decidable (_ ∧ _))

/-- The rows that are looked up for a bag, in the order of the indices. -/
def bagRows (indices offsets : List Nat) (bag : Nat) : List Nat :=
  (indices.zipIdx.filter fun (_, position) => InBag offsets bag position).map Prod.fst

/-- The sum of some rows of a table in one column, from left to right. -/
def columnSum (table : Tensor) (dimension : Nat) (rows : List Nat) (column : Nat) : Scalar :=
  rows.foldl (fun total row => total + table.values.getD (row * dimension + column) .zero) .zero

/-- The offsets cut a tail of the indices into bags, and the rows that are looked up there exist. -/
structure AreBags (height : Nat) (indices offsets : List Nat) : Prop where
  ascending : offsets.Pairwise (· ≤ ·)
  within : ∀ last ∈ offsets.getLast?, last ≤ indices.length
  inside : ∀ first ∈ offsets.head?, ∀ row ∈ indices.drop first, row < height

variable {offsets indices : List Nat} {bag other position : Nat}

/-- From the first offset on, every position lies in a bag. -/
theorem exists_inBag {first : Nat} (begins : first ∈ offsets.head?) (passed : first ≤ position) :
    ∃ bag, InBag offsets bag position := by
  induction offsets generalizing first with
  | nil => cases begins
  | cons start rest inductionHypothesis =>
    obtain rfl := Option.some.inj begins
    by_cases further : ∃ next ∈ rest.head?, next ≤ position
    · obtain ⟨next, follows, reached⟩ := further
      obtain ⟨bag, lies⟩ := inductionHypothesis follows reached
      exact ⟨bag + 1, lies⟩
    · refine ⟨0, ⟨start, rfl, passed⟩, fun next follows => Nat.lt_of_not_le fun reached => ?_⟩
      exact further ⟨next, by simpa [List.head?_eq_getElem?] using follows, reached⟩

/-- Offsets that do not fall stand in order. -/
theorem offset_le {start stop : Nat} (ascending : offsets.Pairwise (· ≤ ·))
    (here : offsets[bag]? = some start) (there : offsets[other]? = some stop)
    (order : bag ≤ other) :
    start ≤ stop := by
  rcases Nat.lt_or_eq_of_le order with before | rfl
  · obtain ⟨_, rfl⟩ := List.getElem?_eq_some_iff.mp here
    obtain ⟨_, rfl⟩ := List.getElem?_eq_some_iff.mp there
    exact List.pairwise_iff_getElem.mp ascending bag other _ _ before
  · exact Nat.le_of_eq (Option.some.inj (here.symm.trans there))

/-- No position lies in a bag and in a later one. -/
theorem InBag.not_later (ascending : offsets.Pairwise (· ≤ ·)) (here : InBag offsets bag position)
    (order : bag < other) : ¬ InBag offsets other position := by
  rintro ⟨⟨start, begins, reached⟩, -⟩
  obtain ⟨bound, _⟩ := List.getElem?_eq_some_iff.mp begins
  have further : bag + 1 < offsets.length := Nat.lt_of_le_of_lt order bound
  have next : offsets[bag + 1]? = some offsets[bag + 1] := List.getElem?_eq_getElem further
  have passed : position < offsets[bag + 1] := here.2 _ next
  exact absurd (Nat.le_trans (offset_le ascending next begins order) reached)
    (Nat.not_le.mpr passed)

/-- No position lies in two bags. -/
theorem InBag.unique (ascending : offsets.Pairwise (· ≤ ·)) (here : InBag offsets bag position)
    (there : InBag offsets other position) : bag = other := by
  rcases Nat.lt_trichotomy bag other with before | same | behind
  · exact absurd there (here.not_later ascending before)
  · exact same
  · exact absurd here (there.not_later ascending behind)

/-- A position that lies in a bag is not before the first one. -/
theorem InBag.first_le (ascending : offsets.Pairwise (· ≤ ·)) (lies : InBag offsets bag position) :
    ∃ first ∈ offsets.head?, first ≤ position := by
  obtain ⟨⟨start, begins, reached⟩, -⟩ := lies
  obtain ⟨bound, _⟩ := List.getElem?_eq_some_iff.mp begins
  have nonempty : 0 < offsets.length := Nat.zero_lt_of_lt bound
  have first : offsets[0]? = some offsets[0] := List.getElem?_eq_getElem nonempty
  refine ⟨_, List.head?_eq_getElem?.trans first, ?_⟩
  exact Nat.le_trans (offset_le ascending first begins (Nat.zero_le bag)) reached

/-! ## Rows of a bag -/

/-- The items between two positions. -/
theorem filter_zipIdx_eq {α : Type} (items : List α) (before start stop : Nat) :
    ((items.zipIdx before).filter fun (_, position) => start ≤ position ∧ position < stop).map
      Prod.fst = (items.take (stop - before)).drop (start - before) := by
  induction items generalizing before with
  | nil => simp
  | cons item rest inductionHypothesis =>
    rw [List.zipIdx_cons, List.filter_cons]
    by_cases early : before < start
    · rw [if_neg (by simp; omega), inductionHypothesis]
      rcases Nat.lt_or_ge before stop with inside | beyond
      · rw [show stop - before = stop - (before + 1) + 1 by omega,
          show start - before = start - (before + 1) + 1 by omega]
        rfl
      · simp [Nat.sub_eq_zero_of_le beyond, Nat.sub_eq_zero_of_le (Nat.le_succ_of_le beyond)]
    · rw [Nat.sub_eq_zero_of_le (Nat.not_lt.mp early), List.drop_zero]
      have later : start - (before + 1) = 0 := by omega
      rcases Nat.lt_or_ge before stop with inside | beyond
      · rw [if_pos (by simp; omega), List.map_cons, inductionHypothesis, later, List.drop_zero,
          show stop - before = stop - (before + 1) + 1 by omega]
        rfl
      · rw [if_neg (by simp; omega), inductionHypothesis]
        simp [Nat.sub_eq_zero_of_le beyond, Nat.sub_eq_zero_of_le (Nat.le_succ_of_le beyond)]

/-- The rows of a bag stand from its offset up to the next one, or to the end. -/
theorem bagRows_eq (bounded : bag < offsets.length) : bagRows indices offsets bag =
    (indices.take (offsets.getD (bag + 1) indices.length)).drop (offsets.getD bag 0) := by
  have begins : offsets[bag]? = some offsets[bag] := List.getElem?_eq_getElem bounded
  have interval := filter_zipIdx_eq indices 0 (offsets.getD bag 0)
    (offsets.getD (bag + 1) indices.length)
  rw [Nat.sub_zero, Nat.sub_zero] at interval
  rw [bagRows, ← interval]
  refine congrArg (List.map Prod.fst) (List.filter_congr fun entry listed => ?_)
  obtain ⟨row, position⟩ := entry
  obtain ⟨present, -⟩ := List.getElem?_eq_some_iff.mp (List.mem_zipIdx_iff_getElem?.mp listed)
  refine decide_eq_decide.mpr ?_
  cases next : offsets[bag + 1]? <;>
    simp [InBag, List.getD_eq_getElem?_getD, begins, next, present]

/-- The rows of a bag are those that its positions name. -/
theorem mem_bagRows_iff {row : Nat} : row ∈ bagRows indices offsets bag ↔
    ∃ position, indices[position]? = some row ∧ InBag offsets bag position := by
  simp [bagRows, List.mem_zipIdx_iff_getElem?]

/-- The bag ends no earlier than it begins and no later than the indices do, and its rows exist. -/
structure Fits (height : Nat) (indices offsets : List Nat) (bag : Nat) : Prop where
  forward : offsets.getD bag 0 ≤ offsets.getD (bag + 1) indices.length
  within : offsets.getD (bag + 1) indices.length ≤ indices.length
  inside : ∀ row ∈ bagRows indices offsets bag, row < height

variable {height : Nat}

/-- No offset is beyond the end of the indices. -/
theorem AreBags.offset_le_length (bags : AreBags height indices offsets) {start : Nat}
    (begins : offsets[bag]? = some start) : start ≤ indices.length := by
  obtain ⟨bound, _⟩ := List.getElem?_eq_some_iff.mp begins
  have final : offsets.length - 1 < offsets.length := by omega
  have last : offsets[offsets.length - 1]? = some offsets[offsets.length - 1] :=
    List.getElem?_eq_getElem final
  refine Nat.le_trans (offset_le bags.ascending begins last (by omega)) (bags.within _ ?_)
  exact List.getLast?_eq_getElem?.trans last

/-- Each one of well-formed bags fits. -/
theorem AreBags.fits (bags : AreBags height indices offsets) (bounded : bag < offsets.length) :
    Fits height indices offsets bag := by
  have begins : offsets[bag]? = some offsets[bag] := List.getElem?_eq_getElem bounded
  refine ⟨?_, ?_, fun row listed => ?_⟩
  · rw [List.getD_eq_getElem?_getD, begins, List.getD_eq_getElem?_getD]
    cases next : offsets[bag + 1]? with
    | none => exact bags.offset_le_length begins
    | some stop => exact offset_le bags.ascending begins next (Nat.le_succ bag)
  · rw [List.getD_eq_getElem?_getD]
    cases next : offsets[bag + 1]? with
    | none => exact Nat.le_refl _
    | some stop => exact bags.offset_le_length next
  · obtain ⟨position, found, lies⟩ := mem_bagRows_iff.mp listed
    obtain ⟨first, front, passed⟩ := lies.first_le bags.ascending
    obtain ⟨bound, rfl⟩ := List.getElem?_eq_some_iff.mp found
    refine bags.inside first front _
      (List.mem_drop_iff_getElem.mpr ⟨position - first, by omega, ?_⟩)
    congr
    omega

/-- The offsets make bags where every single bag fits. -/
theorem areBags_iff :
    AreBags height indices offsets ↔ ∀ bag < offsets.length, Fits height indices offsets bag := by
  refine ⟨fun bags bag => bags.fits, fun fits => ⟨?_, fun last ends => ?_, ?_⟩⟩
  · refine List.isChain_iff_pairwise.mp (List.isChain_iff_getElem.mpr fun bag bounded => ?_)
    have forward := (fits bag (Nat.lt_of_succ_lt bounded)).forward
    rwa [List.getD_eq_getElem _ _ (Nat.lt_of_succ_lt bounded), List.getD_eq_getElem _ _ bounded]
      at forward
  · rw [List.getLast?_eq_getElem?] at ends
    obtain ⟨bound, rfl⟩ := List.getElem?_eq_some_iff.mp ends
    have forward := (fits _ bound).forward
    rwa [List.getD_eq_getElem _ _ bound, List.getD_eq_default _ _ (by omega)] at forward
  · intro first front row listed
    obtain ⟨further, bound, rfl⟩ := List.mem_drop_iff_getElem.mp listed
    obtain ⟨bag, lies⟩ := exists_inBag front (Nat.le_add_right first further)
    obtain ⟨start, begins, _⟩ := lies.1
    obtain ⟨bounded, _⟩ := List.getElem?_eq_some_iff.mp begins
    exact (fits bag bounded).inside _ (mem_bagRows_iff.mpr ⟨_, List.getElem?_eq_getElem _, lies⟩)

/-! ## Sums -/

/-- Some sums with further rows added to them. -/
def sumOnto (rows : List (List Scalar)) (total : List Scalar) (members : List Nat) :
    Outcome (List Scalar) :=
  members.foldlM (fun total row => do return List.zipWith (· + ·) total (← rowAt rows row)) total

/-- The row sums of a bag by itself. -/
def bagSum (dimension : Nat) (rows : List (List Scalar)) (members : List Nat) :
    Outcome (List Scalar) :=
  sumOnto rows (List.replicate dimension .zero) members

/-- The row sums of a bag that begins and ends at two positions. -/
def spanSum (dimension : Nat) (rows : List (List Scalar)) (indices : List Nat)
    (span : Nat × Nat × Nat) : Outcome (List Scalar) :=
  let (bag, start, stop) := span
  if start ≤ stop ∧ stop ≤ indices.length then
    bagSum dimension rows ((indices.take stop).drop start)
  else
    .error (.configuration ("bag " ++ toString bag ++ " spans " ++ toString start ++ ".."
      ++ toString stop ++ " beyond " ++ toString indices.length ++ " indices"))

/-- The sums of all bags, each computed by itself. -/
def separateBags [Halves] (table : Tensor) (dimension : Nat) (indices offsets : List Nat) :
    Outcome Tensor :=
  if dimension = 0 ∨ table.count % dimension ≠ 0 then
    .error (.configuration ("embedding table of " ++ toString table.count
      ++ " elements is not a multiple of dim " ++ toString dimension))
  else do
    let rows := pieces dimension (table.count / dimension) table.values
    let sums ← (bags offsets indices.length).mapM (spanSum dimension rows indices)
    return .ofValues sums.flatten table.type

variable {table : Tensor} {dimension : Nat} {rows : List (List Scalar)} {members : List Nat}

/-- A row that there is has its values. -/
theorem rowAt_eq_ok {row : Nat} {values : List Scalar} (found : rowAt rows row = .ok values) :
    rows[row]? = some values := by
  rw [rowAt] at found
  split at found
  next there => rw [there, Except.ok.inj found]
  next => cases found

/-- A further row is added to the sum so far. -/
theorem bagSum_concat (row : Nat) : bagSum dimension rows (members ++ [row]) =
    bagSum dimension rows members >>= fun total => do
      return List.zipWith (· + ·) total (← rowAt rows row) := by
  rw [bagSum, sumOnto, List.foldlM_append]
  simp only [List.foldlM_cons, List.foldlM_nil, bind_pure]
  rfl

/-- A bag has a sum only if its rows exist. -/
theorem lt_length_of_bagSum {sums : List Scalar}
    (succeeds : bagSum dimension rows members = .ok sums) : ∀ row ∈ members, row < rows.length := by
  induction members using List.reverseRecOn generalizing sums with
  | nil => simp
  | append_singleton front row inductionHypothesis =>
    rw [bagSum_concat] at succeeds
    obtain ⟨total, earlier, added⟩ := bind_eq_ok succeeds
    obtain ⟨values, found, -⟩ := bind_eq_ok added
    exact List.forall_mem_append.mpr ⟨inductionHypothesis earlier,
      List.forall_mem_singleton.mpr (List.getElem?_eq_some_iff.mp (rowAt_eq_ok found)).1⟩

/-- A bag has a sum for each column. -/
theorem length_of_spanSum {span : Nat × Nat × Nat} {sums : List Scalar}
    (table : ∀ row ∈ rows, row.length = dimension)
    (succeeds : spanSum dimension rows indices span = .ok sums) : sums.length = dimension := by
  obtain ⟨bag, start, stop⟩ := span
  rw [spanSum] at succeeds
  split at succeeds
  · generalize (indices.take stop).drop start = members at succeeds
    induction members using List.reverseRecOn generalizing sums with
    | nil =>
      obtain rfl := Except.ok.inj succeeds
      exact List.length_replicate
    | append_singleton front row inductionHypothesis =>
      rw [bagSum_concat] at succeeds
      obtain ⟨total, earlier, added⟩ := bind_eq_ok succeeds
      obtain ⟨values, found, same⟩ := bind_eq_ok added
      obtain rfl := Except.ok.inj same
      rw [List.length_zipWith, inductionHypothesis earlier,
        table values (List.mem_of_getElem? (rowAt_eq_ok found)), Nat.min_self]
  · cases succeeds

/-- Rows that exist are summed column by column. -/
theorem bagSum_eq (whole : table.count = height * dimension)
    (inside : ∀ row ∈ members, row < height) :
    bagSum dimension (pieces dimension height table.values) members =
      .ok ((List.range dimension).map (columnSum table dimension members)) := by
  have length : table.values.length = height * dimension := by
    rw [Tensor.values, List.length_map]
    exact whole
  induction members using List.reverseRecOn with
  | nil =>
    have zeros : columnSum table dimension [] = fun _ => .zero := rfl
    rw [zeros, List.map_const', List.length_range]
    rfl
  | append_singleton front row inductionHypothesis =>
    have bound : row < height := inside row (by simp)
    rw [bagSum_concat, inductionHypothesis fun other listed =>
      inside other (by simp [listed]), rowAt,
      getElem?_pieces bound, take_drop_eq_map .zero length bound]
    refine congrArg Except.ok ?_
    rw [List.zipWith_map, List.zipWith_self]
    refine List.map_congr_left fun column _ => ?_
    rw [columnSum, columnSum, List.foldl_append, List.foldl_cons, List.foldl_nil]

/-! ## Lookups -/

/-- The bags by their numbers. -/
theorem bags_eq (offsets : List Nat) (count : Nat) :
    bags offsets count = (List.range offsets.length).map fun bag =>
      (bag, offsets.getD bag 0, offsets.getD (bag + 1) count) := by
  apply List.ext_getElem
  · simp [bags]
  · intro bag here there
    have bounded : bag < offsets.length := by simpa [bags] using here
    rw [List.getElem_map, List.getElem_range, List.getD_eq_getElem _ _ bounded]
    simp [bags]

/-- What is computed for each bag is computed for all of them in order. -/
theorem mapM_bags {β : Type} {count : Nat} {compute : Nat × Nat × Nat → Outcome β}
    {result : Nat → β} (each : ∀ bag < offsets.length,
      compute (bag, offsets.getD bag 0, offsets.getD (bag + 1) count) = .ok (result bag)) :
    (bags offsets count).mapM compute = .ok ((List.range offsets.length).map result) := by
  rw [bags_eq]
  exact mapM_map_eq_ok fun bag listed => each bag (List.mem_range.mp listed)

/-- What is refused is a mistake in the request. -/
theorem separateBags_refuses [Halves] (table : Tensor) (dimension : Nat)
    (indices offsets : List Nat) :
    FailsOnly (separateBags table dimension indices offsets)
      fun error => ∃ text, error = .configuration text := by
  rw [separateBags]
  split
  · exact failsOnly_error ⟨_, rfl⟩
  refine (failsOnly_mapM fun span _ => ?_).bind fun _ => failsOnly_ok _
  obtain ⟨bag, start, stop⟩ := span
  rw [spanSum]
  split
  · refine failsOnly_foldlM (fun total row => ?_) _
    refine FailsOnly.bind ?_ fun _ => failsOnly_ok _
    rw [rowAt]
    split
    · exact failsOnly_ok _
    · exact failsOnly_error ⟨_, rfl⟩
  · exact failsOnly_error ⟨_, rfl⟩

/-- Bags that fit are summed one after the other. -/
theorem separateBags_eq [Halves] (wide : 0 < dimension) (whole : dimension ∣ table.count)
    (areBags : AreBags (table.count / dimension) indices offsets) :
    separateBags table dimension indices offsets =
      .ok (.ofValues ((List.range offsets.length).flatMap fun bag =>
        (List.range dimension).map (columnSum table dimension (bagRows indices offsets bag)))
        table.type) := by
  have divides : ¬ (dimension = 0 ∨ table.count % dimension ≠ 0) := by
    rw [Nat.mod_eq_zero_of_dvd whole]
    simp [Nat.ne_of_gt wide]
  rw [separateBags, if_neg divides]
  refine bind_eq_of_eq_ok (mapM_bags (show ∀ bag < offsets.length, _ = Except.ok
    ((List.range dimension).map (columnSum table dimension (bagRows indices offsets bag)))
    from fun bag bounded => ?_)) rfl
  have fits := areBags.fits bounded
  rw [spanSum]
  rw [if_pos ⟨fits.forward, fits.within⟩, ← bagRows_eq bounded]
  exact bagSum_eq (Nat.div_mul_cancel whole).symm fits.inside

/-- Only bags that fit are summed, and only in a table with a whole number of rows. -/
theorem areBags_of_separateBags [Halves] {sums : Tensor}
    (succeeds : separateBags table dimension indices offsets = .ok sums) :
    0 < dimension ∧ dimension ∣ table.count ∧
      AreBags (table.count / dimension) indices offsets := by
  rw [separateBags] at succeeds
  split at succeeds
  · cases succeeds
  next divides =>
    rw [not_or, not_not] at divides
    refine ⟨Nat.pos_of_ne_zero divides.1, Nat.dvd_of_mod_eq_zero divides.2, areBags_iff.mpr ?_⟩
    intro bag bounded
    obtain ⟨values, summed, -⟩ := bind_eq_ok succeeds
    obtain ⟨value, here⟩ := exists_of_mapM summed
      (bag, offsets.getD bag 0, offsets.getD (bag + 1) indices.length) (by
        rw [bags_eq]
        exact List.mem_map_of_mem (List.mem_range.mpr bounded))
    rw [spanSum] at here
    split at here
    next fits =>
      rw [← bagRows_eq bounded] at here
      refine ⟨fits.1, fits.2, fun row listed => ?_⟩
      rw [← length_pieces dimension (table.count / dimension) table.values]
      exact lt_length_of_bagSum here row listed
    next => cases here

/-- Sums of bags have a row for each bag, whose elements are the sums of the columns of its rows. -/
theorem get_separateBags [Halves] {sums : Tensor}
    (succeeds : separateBags table dimension indices offsets = .ok sums) :
    sums.type = table.type ∧ sums.count = offsets.length * dimension ∧
      ∀ bag < offsets.length, ∀ column < dimension, sums.get (bag * dimension + column) =
        .ok (table.type.cast (columnSum table dimension (bagRows indices offsets bag) column)) := by
  obtain ⟨wide, whole, areBags⟩ := areBags_of_separateBags succeeds
  rw [separateBags_eq wide whole areBags] at succeeds
  obtain rfl := Except.ok.inj succeeds
  refine ⟨rfl, ?_, fun bag bounded column within => ?_⟩
  · simp [Tensor.ofValues, Tensor.count, List.length_flatMap]
  · have sizes (bag : Nat) : ((List.range dimension).map
        (columnSum table dimension (bagRows indices offsets bag))).length = dimension := by simp
    have found := getElem?_flatMap_range sizes bounded within
    rw [List.getElem?_map, List.getElem?_range within] at found
    simp only [Tensor.get, Tensor.ofValues, List.getElem?_map, found]
    rfl

/-! ## One buffer of sums -/

section

variable [arithmetic : Arithmetic] {bag : Nat} {front middle back values : List Scalar}

/-- A row is added to the sums of its bag, and to no others. -/
theorem addRow_eq (before : front.length = bag * dimension) (own : middle.length = dimension)
    (holds : Arithmetic.Holds ((bag + 1) * dimension)) (values : List Scalar) :
    addRow dimension bag values (front ++ (middle ++ back)) =
      .ok (front ++ (List.zipWith (· + ·) middle values ++ back)) := by
  have ends : (bag + 1) * dimension = front.length + middle.length := by
    rw [Nat.succ_mul, before, own]
  have inside : ¬((bag + 1) * dimension < bag * dimension ∨
      (front ++ (middle ++ back)).length < (bag + 1) * dimension) := by
    rw [ends, ← before, List.length_append, List.length_append]
    omega
  refine bind_eq_of_eq_ok
    (Arithmetic.word_of_holds (holds.mono (Nat.mul_le_mul_right _ (by omega))))
    (bind_eq_of_eq_ok (Arithmetic.word_of_holds holds) ?_)
  have rest : (front ++ (middle ++ back)).drop (front.length + middle.length) = back := by
    rw [← List.drop_drop, List.drop_left, List.drop_left]
  rw [if_neg inside, ends, ← before, List.take_left, List.drop_left, Nat.add_sub_cancel_left,
    List.take_left, rest]
  rfl

/-- The rows of a bag are added as if they were summed by themselves. The induction is on the rows
that have been added. -/
theorem addBag_eq (table : ∀ row ∈ rows, row.length = dimension)
    (before : front.length = bag * dimension)
    (holds : Arithmetic.Holds ((bag + 1) * dimension)) (start stop : Nat) :
    addBag dimension rows indices (front ++ (List.replicate dimension .zero ++ back))
        (bag, start, stop) =
      (spanSum dimension rows indices (bag, start, stop)).map fun sums =>
        front ++ (sums ++ back) := by
  have added (members : List Nat) : ∀ middle : List Scalar, middle.length = dimension →
      members.foldlM (fun sums row => do addRow dimension bag (← rowAt rows row) sums)
          (front ++ (middle ++ back)) =
        (sumOnto rows middle members).map fun sums => front ++ (sums ++ back) := by
    induction members with
    | nil => exact fun middle own => rfl
    | cons row members inductionHypothesis =>
      intro middle own
      rw [List.foldlM_cons, sumOnto, List.foldlM_cons]
      cases found : rowAt rows row with
      | error error => rfl
      | ok values =>
        have length := table values (List.mem_of_getElem? (rowAt_eq_ok found))
        show (addRow dimension bag values (front ++ (middle ++ back)) >>= _) = _
        rw [addRow_eq before own holds]
        exact inductionHypothesis _ (by rw [List.length_zipWith, own, length, Nat.min_self])
  rw [addBag, spanSum]
  split
  · exact added _ _ List.length_replicate
  · rfl

/-- The bags are summed one after the other as each by itself. The induction is on the bags that are
left, for which the sums are zero. -/
theorem foldlM_addBag (table : ∀ row ∈ rows, row.length = dimension)
    (holds : Arithmetic.Holds (offsets.length * dimension)) :
    (bags offsets indices.length).foldlM (addBag dimension rows indices)
        (List.replicate (offsets.length * dimension) .zero) =
      ((bags offsets indices.length).mapM (spanSum dimension rows indices)).map List.flatten := by
  have onward (count : Nat) : ∀ (bag : Nat) (front : List Scalar), bag + count = offsets.length →
      front.length = bag * dimension →
      ((List.range' bag count).map fun bag =>
          (bag, offsets.getD bag 0, offsets.getD (bag + 1) indices.length)).foldlM
          (addBag dimension rows indices) (front ++ List.replicate (count * dimension) .zero) =
        (((List.range' bag count).map fun bag =>
          (bag, offsets.getD bag 0, offsets.getD (bag + 1) indices.length)).mapM
          (spanSum dimension rows indices)).map fun sums => front ++ sums.flatten := by
    induction count with
    | zero =>
      intro bag front _ _
      rw [Nat.zero_mul]
      rfl
    | succ count inductionHypothesis =>
      intro bag front reaches before
      have counted : Arithmetic.Holds ((bag + 1) * dimension) :=
        holds.mono (Nat.mul_le_mul_right _ (by omega))
      have room : List.replicate ((count + 1) * dimension) Scalar.zero =
          List.replicate dimension .zero ++ List.replicate (count * dimension) .zero := by
        rw [List.replicate_append_replicate, Nat.succ_mul, Nat.add_comm]
      rw [List.range'_succ, List.map_cons, List.foldlM_cons, List.mapM_cons, room,
        addBag_eq table before counted]
      cases summed : spanSum dimension rows indices
          (bag, offsets.getD bag 0, offsets.getD (bag + 1) indices.length) with
      | error error => rfl
      | ok sums =>
        have length := length_of_spanSum table summed
        have rest := inductionHypothesis (bag + 1) (front ++ sums) (by omega)
          (by rw [List.length_append, before, length, Nat.succ_mul])
        show List.foldlM _ (front ++ (sums ++ _)) _ = _
        rw [← List.append_assoc, rest]
        cases List.mapM (spanSum dimension rows indices) ((List.range' (bag + 1) count).map _) with
        | error error => rfl
        | ok others =>
          show Except.ok (front ++ sums ++ others.flatten) =
            Except.ok (front ++ (sums :: others).flatten)
          rw [List.flatten_cons, List.append_assoc]
  have whole := onward offsets.length 0 [] (Nat.zero_add _) (Nat.zero_mul _).symm
  rw [bags_eq, List.range_eq_range']
  simpa using whole

/-- The sums of all bags are those of each by itself, where there is room for them. -/
theorem embeddingBags_eq_separateBags [Halves] (held : Arithmetic.Allots table.count 8)
    (fits : Arithmetic.Allots (offsets.length * dimension) 8) :
    embeddingBags table dimension indices offsets =
      separateBags table dimension indices offsets := by
  rw [embeddingBags, separateBags]
  split
  · rfl
  next divides =>
    rw [not_or, not_not] at divides
    have rows : ∀ row ∈ pieces dimension (table.count / dimension) table.values,
        row.length = dimension := by
      have whole : table.values.length = table.count / dimension * dimension := by
        rw [Tensor.values, List.length_map, Nat.div_mul_cancel (Nat.dvd_of_mod_eq_zero divides.2)]
        rfl
      rw [pieces_eq_map .zero whole]
      simp
    have counted : Arithmetic.Holds (offsets.length * dimension) := fits.holds_count (by decide)
    refine bind_eq_of_eq_ok (Arithmetic.items_of_allots held)
      (bind_eq_of_eq_ok (Arithmetic.word_of_holds counted)
        (bind_eq_of_eq_ok (Arithmetic.items_of_allots fits) ?_))
    dsimp only
    rw [foldlM_addBag rows counted]
    generalize (bags offsets indices.length).mapM
      (spanSum dimension (pieces dimension (table.count / dimension) table.values) indices) = sums
    cases sums <;> rfl

end

/-- Where every count is held, there is room for all sums. -/
theorem embeddingBags_exact [Halves] (table : Tensor) (dimension : Nat)
    (indices offsets : List Nat) :
    embeddingBags table dimension indices offsets = separateBags table dimension indices offsets :=
  embeddingBags_eq_separateBags (.inl rfl) (.inl rfl)

/-- In every build in which there is room for the numbers of the table and for the sums: embedding
bags are summed exactly if the table has a whole number of rows of some columns, the offsets neither
fall nor pass the end of the indices, and every index from the first offset on names a row. The
result has a row for each bag, with the type of the table; its elements are the columns of the rows
of the bag, summed from left to right. No index lies in two bags, and those from the first offset on
lie in one. Everything else is refused as a mistake in the request. -/
theorem embedding_bags_summed [arithmetic : Arithmetic] [Halves] (table : Tensor) (dimension : Nat)
    (indices offsets : List Nat) (held : Arithmetic.Allots table.count 8)
    (fits : Arithmetic.Allots (offsets.length * dimension) 8) :
    ((∃ sums, embeddingBags table dimension indices offsets = .ok sums) ↔
      1 ≤ dimension ∧ dimension ∣ table.count ∧
        AreBags (table.count / dimension) indices offsets) ∧
    (∀ sums, embeddingBags table dimension indices offsets = .ok sums →
      sums.type = table.type ∧ sums.count = offsets.length * dimension ∧
      (∀ bag < offsets.length, ∀ column < dimension, sums.get (bag * dimension + column) =
        .ok (table.type.cast (columnSum table dimension (bagRows indices offsets bag) column))) ∧
      ∀ position < indices.length,
        (∀ bag other, InBag offsets bag position → InBag offsets other position → bag = other) ∧
        ((∃ bag, InBag offsets bag position) ↔ ∃ first ∈ offsets.head?, first ≤ position)) ∧
    ((¬ ∃ sums, embeddingBags table dimension indices offsets = .ok sums) ↔
      ∃ text, embeddingBags table dimension indices offsets = .error (.configuration text)) := by
  rw [embeddingBags_eq_separateBags held fits]
  refine ⟨⟨?_, ?_⟩, fun sums succeeds => ?_, ?_⟩
  · rintro ⟨sums, succeeds⟩
    exact areBags_of_separateBags succeeds
  · rintro ⟨wide, whole, areBags⟩
    exact ⟨_, separateBags_eq wide whole areBags⟩
  · have ascending := (areBags_of_separateBags succeeds).2.2.ascending
    obtain ⟨type, count, elements⟩ := get_separateBags succeeds
    refine ⟨type, count, elements, fun position _ =>
      ⟨fun bag other here => here.unique ascending, ?_⟩⟩
    constructor
    · rintro ⟨bag, lies⟩
      exact lies.first_le ascending
    · rintro ⟨first, begins, passed⟩
      exact exists_inBag begins passed
  · cases outcome : separateBags table dimension indices offsets with
    | ok sums => simp
    | error error =>
      obtain ⟨text, rfl⟩ := separateBags_refuses table dimension indices offsets error outcome
      simp

/-- The first index names no row, but no bag begins before it is over; it is looked up for none, and
the other ones are summed in two bags. -/
theorem embedding_bags_summed_skipping :
    let table : Tensor := .ofValues ([1, 1, 2, 2, 3, 5].map Scalar.ofNat) .f32
    (¬ ∃ bag, InBag [1, 3] bag 0) ∧
      ∃ sums, @embeddingBags .checked .nearest table 2 [9, 0, 2, 1] [1, 3] = .ok sums ∧
        sums.count = 4 ∧ sums.get 1 = .ok (.ofNat 6) := by
  intro table
  have areBags : AreBags (table.count / 2) [9, 0, 2, 1] [1, 3] :=
    ⟨by decide, by decide, by decide⟩
  obtain ⟨exist, elements, -⟩ :=
    @embedding_bags_summed .checked .nearest table 2 [9, 0, 2, 1] [1, 3]
    (.inr (by decide)) (.inr (by decide))
  obtain ⟨sums, succeeds⟩ := exist.mpr ⟨by decide, by decide, areBags⟩
  obtain ⟨-, count, elements, lies⟩ := elements sums succeeds
  refine ⟨?_, sums, succeeds, count, (elements 0 (by decide) 1 (by decide)).trans ?_⟩
  · rw [(lies 0 (by decide)).2]
    decide
  · exact congrArg Except.ok (by decide +kernel)

/-- An empty table has no rows of any size, and an offset behind the end of the indices is a mistake
in the request. But the room for the sums is asked for first: where there cannot be any, every build
stops at that. -/
theorem embedding_bags_summed_overflowing :
    let table : Tensor := ⟨.f32, []⟩
    let dimension := powerOfTwo 61
    @embeddingBags .checked .nearest table dimension [] [5] = .error (.defect .overflow) ∧
    @embeddingBags .wrapping .nearest table dimension [] [5] = .error (.defect .overflow) ∧
    ∃ text, embeddingBags table 1 [] [5] = .error (.configuration text) := by
  refine ⟨rfl, rfl, ?_⟩
  exact ⟨_, rfl⟩

end CollectiveBench
