import Mathlib.Algebra.Group.Nat.Defs
import CollectiveBench.Proofs.Descriptor.Fields
import CollectiveBench.Proofs.Json.Forms

/-!
# The written form of a descriptor is read back

A descriptor has an entry for each of its keys, and the entries that hold something are
written. Looking up a key in what is written finds its entry again, so every field is read
from its own form. Only descriptors whose numbers fit their widths are ever read; for these
writing and reading are inverse, and what is written for one that was read is the canonical
form of the text it was read from.
-/

namespace CollectiveBench.Descriptor

open Json

/-- The fields of a descriptor hold numbers of their widths: 64 bits for counts, sequence and
request numbers and times, 32 bits for groups, world sizes and ranks. -/
structure Representable (descriptor : Descriptor) : Prop where
  sequence : descriptor.sequence < Text.bound64
  request : ∀ number ∈ descriptor.request, number < Text.bound64
  inCount : ∀ number ∈ descriptor.inCount, number < Text.bound64
  outCount : ∀ number ∈ descriptor.outCount, number < Text.bound64
  inSplit : ∀ counts ∈ descriptor.inSplit, ∀ number ∈ counts, number < Text.bound64
  outSplit : ∀ counts ∈ descriptor.outSplit, ∀ number ∈ counts, number < Text.bound64
  startTime : ∀ number ∈ descriptor.startTime, number < Text.bound64
  group : ∀ number ∈ descriptor.group, number < Text.bound32
  worldSize : ∀ number ∈ descriptor.worldSize, number < Text.bound32
  root : ∀ number ∈ descriptor.root, number < Text.bound32

/-! ### The entries of a descriptor -/

/-- An element type is written as its short name. -/
theorem faithful_type :
    Faithful (fun type : ElementType => text type.tag) (member? ElementType.ofTag?)
      (fun _ => True) where
  written := fun type => .string type.tag.toList
  not_null := by
    intro type null
    cases null
  read_write := by
    intro type _
    simp [member?, text, tag?, ElementType.ofTag?_tag]
  admitted_of_read := fun _ _ _ => trivial

/-- Numbers of elements are written as the array of their numerals. -/
def writeCounts (numbers : List Nat) : Json := .array (numbers.map count)

/-- What a descriptor has to write for each key; nothing where a field is unset, apart from the
name, which is always written. -/
def entries (descriptor : Descriptor) : List (String × Option Json) :=
  [("comms", some ((descriptor.name.map text).getD .null)),
   ("seqnum", some (count descriptor.sequence)),
   ("req", descriptor.request.map count),
   ("in_msg_size", descriptor.inCount.map count),
   ("out_msg_size", descriptor.outCount.map count),
   ("dtype", descriptor.type.map fun type => text type.tag),
   ("in_split", descriptor.inSplit.map writeCounts),
   ("out_split", descriptor.outSplit.map writeCounts),
   ("startTime_ns", descriptor.startTime.map count),
   ("pg_id", descriptor.group.map count),
   ("world_size", descriptor.worldSize.map count),
   ("root", descriptor.root.map count)]

/-- The entries that have something to write. -/
def present (entries : List (String × Option Json)) : List (String × Json) :=
  entries.filterMap fun (key, value) => value.map (key, ·)

/-- The fields of an object with the given texts for keys. -/
def fieldsOf (named : List (String × Json)) : List (Option (List Char) × Json) :=
  named.map fun (key, value) => field key value

/-- An entry is written when it is set. -/
theorem fieldsOf_present_cons {α : Type} (key : String) (write : α → Json) (value : Option α)
    (rest : List (String × Option Json)) :
    fieldsOf (present ((key, value.map write) :: rest)) =
      optionalField key write value ++ fieldsOf (present rest) := by
  cases value <;> rfl

/-- A descriptor is written as the object of its entries. -/
theorem toJson_eq (descriptor : Descriptor) :
    descriptor.toJson = .object (fieldsOf (present descriptor.entries)) := by
  have first : ∀ name rest, fieldsOf (present
      (("comms", some ((Option.map text name).getD .null)) ::
        ("seqnum", some (count descriptor.sequence)) :: rest)) =
      [field "comms" ((name.map text).getD .null), field "seqnum" (count descriptor.sequence)] ++
        fieldsOf (present rest) := fun _ _ => rfl
  have nothing : fieldsOf (present []) = [] := rfl
  cases named : descriptor.name <;>
    simp only [toJson, entries, first, named, fieldsOf_present_cons, nothing, List.append_assoc,
      List.append_nil] <;>
    rfl

/-- An object with texts for keys has just these keys. -/
theorem namedFields?_fieldsOf (entries : List (String × Json)) :
    namedFields? (fieldsOf entries) = some entries := by
  have texts : (fieldsOf entries).all (fun field => field.1.isSome) = true := by
    simp [fieldsOf, field]
  have same : named (fieldsOf entries) = entries := by
    rw [named, fieldsOf, List.filterMap_map]
    refine Eq.trans
      (congrArg (List.filterMap · entries) (funext fun entry => ?_)) List.filterMap_some
    simp [field]
  rw [namedFields?_eq, if_pos texts, same]

/-- The keys of what is written are among the keys of the entries, in their order. -/
theorem sublist_present (entries : List (String × Option Json)) :
    ((present entries).map Prod.fst).Sublist (entries.map Prod.fst) := by
  induction entries with
  | nil => exact .slnil
  | cons entry rest inductionHypothesis =>
    obtain ⟨key, _ | value⟩ := entry
    · exact inductionHypothesis.cons key
    · exact inductionHypothesis.cons_cons key

/-- Where no two entries have one key, none is written twice. -/
theorem repeatsKey_present (entries : List (String × Option Json))
    (distinct : (entries.map Prod.fst).Nodup) : repeatsKey (present entries) = false := by
  have once : ((present entries).map Prod.fst).Nodup := (sublist_present entries).nodup distinct
  simp only [repeatsKey, List.any_eq_false]
  intro key _
  have most : ((present entries).map Prod.fst).count key ≤ 1 := List.nodup_iff_count.mp once key
  rw [List.count, List.countP_map] at most
  simpa [Function.comp_def] using most

/-- Where no two entries have one key, the value of a key is what its entry has to write. -/
theorem fieldValue_present (entries : List (String × Option Json))
    (distinct : (entries.map Prod.fst).Nodup) (key : String) :
    fieldValue (present entries) key = ((entries.lookup key).join).getD .null := by
  induction entries with
  | nil => rfl
  | cons entry rest inductionHypothesis =>
    obtain ⟨first, value⟩ := entry
    have left := inductionHypothesis (List.nodup_cons.mp distinct).2
    by_cases same : key = first
    · subst same
      have absent : rest.lookup key = none := by
        rw [List.lookup_eq_none_iff]
        intro entry member
        have different : key ≠ entry.1 := by
          rintro rfl
          exact (List.nodup_cons.mp distinct).1 (List.mem_map.mpr ⟨entry, member, rfl⟩)
        simpa using different
      cases value with
      | none => simpa [present, absent] using left
      | some value => simp [present, fieldValue_cons]
    · have skipped : (key == first) = false := by simpa using same
      cases value with
      | none => simpa [present, List.lookup_cons, skipped] using left
      | some value => simpa [present, fieldValue_cons, same, List.lookup_cons, skipped] using left

/-- The keys of the entries are the keys of a descriptor, in their order. -/
theorem entries_keys (descriptor : Descriptor) : descriptor.entries.map Prod.fst = keys := rfl

/-- No two fields of a descriptor have one key. -/
theorem keys_nodup : keys.Nodup := by decide

/-! ### Reading what was written -/

/-- A representable descriptor is read from what it has to write. -/
theorem ofFields?_entries (descriptor : Descriptor) (fits : descriptor.Representable) :
    ofFields? (fun key => ((descriptor.entries.lookup key).join).getD .null) =
      some descriptor := by
  have counts := faithful_count Text.bound64
  have ranks := faithful_count Text.bound32
  have lists := counts.list
  have name : optional? text? ((descriptor.name.map text).getD .null) = some descriptor.name :=
    faithful_text.optional?_write _ (fun _ _ => trivial)
  have type : optional? (member? ElementType.ofTag?)
      ((descriptor.type.map fun type => text type.tag).getD .null) = some descriptor.type :=
    faithful_type.optional?_write _ (fun _ _ => trivial)
  have inSplit : optional? (list? (count? Text.bound64))
      ((descriptor.inSplit.map writeCounts).getD .null) = some descriptor.inSplit :=
    lists.optional?_write _ fits.inSplit
  have outSplit : optional? (list? (count? Text.bound64))
      ((descriptor.outSplit.map writeCounts).getD .null) = some descriptor.outSplit :=
    lists.optional?_write _ fits.outSplit
  have sequence := counts.read_write _ fits.sequence
  have request := counts.optional?_write _ fits.request
  have inCount := counts.optional?_write _ fits.inCount
  have outCount := counts.optional?_write _ fits.outCount
  have startTime := counts.optional?_write _ fits.startTime
  have group := ranks.optional?_write _ fits.group
  have worldSize := ranks.optional?_write _ fits.worldSize
  have root := ranks.optional?_write _ fits.root
  simp [ofFields?, entries, List.lookup_cons, name, type, inSplit, outSplit, sequence, request,
    inCount, outCount, startTime, group, worldSize, root]

/-- Only representable descriptors are read. -/
theorem representable_of_ofFields? {get : String → Json} {descriptor : Descriptor}
    (read : ofFields? get = some descriptor) : descriptor.Representable := by
  have counts := faithful_count Text.bound64
  have ranks := faithful_count Text.bound32
  have lists := counts.list
  simp only [ofFields?, Option.bind_eq_bind, Option.bind_eq_some_iff] at read
  obtain ⟨name, _, sequence, sequenced, request, requested, inCount, contributed, outCount,
    received, type, _, inSplit, divided, outSplit, gathered, startTime, started, group, grouped,
    worldSize, sized, root, rooted, same⟩ := read
  obtain rfl := Option.some.inj same
  exact {
    sequence := counts.admitted_of_read _ _ sequenced
    request := counts.admitted_of_optional? requested
    inCount := counts.admitted_of_optional? contributed
    outCount := counts.admitted_of_optional? received
    inSplit := lists.admitted_of_optional? divided
    outSplit := lists.admitted_of_optional? gathered
    startTime := counts.admitted_of_optional? started
    group := ranks.admitted_of_optional? grouped
    worldSize := ranks.admitted_of_optional? sized
    root := ranks.admitted_of_optional? rooted }

/-- Whatever is read, from an object or from an array, is representable. -/
theorem representable_of_read? {text : String} {descriptor : Descriptor}
    (read : read? text = some descriptor) : descriptor.Representable := by
  obtain ⟨value, _, form⟩ := Option.bind_eq_some_iff.mp read
  unfold ofJson? at form
  split at form
  case h_1 =>
    split at form
    · exact representable_of_ofFields? form
    · cases form
  case h_2 =>
    split at form
    · split at form
      · cases form
      · exact representable_of_ofFields? form
    · cases form
  case h_3 => cases form

/-- What a descriptor is written as is a value that writing makes. -/
theorem written_toJson (descriptor : Descriptor) : descriptor.toJson.Written := by
  have counts := faithful_count Text.bound64
  have lists := counts.list
  have name : ((descriptor.name.map text).getD .null).Written := by
    cases descriptor.name with
    | none => exact .null
    | some name => exact .string name.toList
  have each : ∀ entry ∈ descriptor.entries, ∀ value ∈ entry.2, value.Written := by
    simp only [entries, List.forall_mem_cons, Option.mem_some_iff, forall_eq']
    exact ⟨name, .count _, counts.written_map _, counts.written_map _, counts.written_map _,
      faithful_type.written_map _, lists.written_map _, lists.written_map _,
      counts.written_map _, counts.written_map _, counts.written_map _, counts.written_map _,
      by simp⟩
  rw [toJson_eq]
  apply Written.object
  · intro field member
    obtain ⟨entry, _, rfl⟩ := List.mem_map.mp member
    rfl
  · intro field member
    obtain ⟨⟨key, value⟩, chosen, rfl⟩ := List.mem_map.mp member
    obtain ⟨entry, inside, set⟩ := List.mem_filterMap.mp chosen
    obtain ⟨_, found, same⟩ := Option.map_eq_some_iff.mp set
    obtain ⟨_, rfl⟩ := Prod.mk.inj same
    exact each entry inside _ found

/-- A representable descriptor is read back from its written form. -/
theorem read?_write {descriptor : Descriptor} (fits : descriptor.Representable) :
    read? descriptor.write = some descriptor := by
  have distinct : (descriptor.entries.map Prod.fst).Nodup := by
    rw [entries_keys]
    exact keys_nodup
  have parsed : Json.parse? descriptor.write.toList = some descriptor.toJson := by
    simp only [write, String.toList_ofList]
    exact Json.parse?_compact (written_toJson descriptor)
  have values : fieldValue (present descriptor.entries) =
      fun key => ((descriptor.entries.lookup key).join).getD .null := by
    funext key
    exact fieldValue_present descriptor.entries distinct key
  simp only [read?, parsed, Option.bind_some, toJson_eq, ofJson?, namedFields?_fieldsOf,
    repeatsKey_present _ distinct, values, ofFields?_entries descriptor fits]
  rfl

/-- Descriptors survive their exchange form. Each representable one is read back from what is
written for it. A text that can be read has a canonical form, which is read as the same
descriptor and is its own canonical form. And objects that differ in the order of their
fields, in fields that descriptors do not have, or in writing `null` where others write
nothing, are read alike. -/
theorem written_form_faithful :
    (∀ descriptor : Descriptor, descriptor.Representable →
      read? descriptor.write = some descriptor) ∧
    (∀ text canonical : String, (read? text).map write = some canonical →
      read? canonical = read? text ∧ (read? canonical).map write = some canonical) ∧
    (∀ text other : String, ∀ fields others : List (Option (List Char) × Json),
      Json.parse? text.toList = some (.object fields) →
      Json.parse? other.toList = some (.object others) →
      SameFields fields others → read? text = read? other) := by
  refine ⟨fun descriptor fits => read?_write fits, ?_, ?_⟩
  · intro text canonical rewritten
    obtain ⟨descriptor, read, rfl⟩ := Option.map_eq_some_iff.mp rewritten
    have back : read? descriptor.write = some descriptor :=
      read?_write (representable_of_read? read)
    exact ⟨back.trans read.symm, by rw [back]; rfl⟩
  · intro text other fields others parsed parsedOther same
    simp only [read?, parsed, parsedOther, Option.bind_some]
    exact same.ofJson?

/-- A quote, a control character, a character beyond sixteen bits, the largest numbers and an
empty split survive; an order, an unknown field and a `null` are not seen. -/
theorem written_form_faithful_edges :
    read? (write { (of "\"\u0001😀" 0 (2 ^ 64 - 1) .bf16) with
        inSplit := some [], root := some (2 ^ 32 - 1) }) =
      some { (of "\"\u0001😀" 0 (2 ^ 64 - 1) .bf16) with
        inSplit := some [], root := some (2 ^ 32 - 1) } ∧
    ((read? "\x7b \"seqnum\":7, \"req\":null\x7d").map write =
        some "\x7b\"comms\":null,\"seqnum\":7\x7d" ∧
      read? "\x7b\"comms\":null,\"seqnum\":7\x7d" = read? "\x7b \"seqnum\":7, \"req\":null\x7d") ∧
    read? "\x7b\"seqnum\":7,\"x\":\"\\ud800\"\x7d" =
      read? "\x7b \"root\":null,\"seqnum\":7 \x7d" := by
  have canonical : (read? "\x7b \"seqnum\":7, \"req\":null\x7d").map write =
      some "\x7b\"comms\":null,\"seqnum\":7\x7d" := by
    decide +kernel
  refine ⟨written_form_faithful.1 _ ?_,
    ⟨canonical, (written_form_faithful.2.1 _ _ canonical).1⟩,
    written_form_faithful.2.2 _ _ [field "seqnum" (count 7), field "x" (.string none)]
      [field "root" .null, field "seqnum" (count 7)] ?_ ?_ ?_⟩
  · constructor <;> simp [of, Text.bound64, Text.bound32, powerOfTwo]
  · cbv
  · cbv
  · have reordered : SameFields [field "seqnum" (count 7), field "x" (.string none)]
        [field "x" (.string none), field "seqnum" (count 7)] := .reordered (.swap _ _ _)
    have skipped : SameFields [field "x" (.string none), field "seqnum" (count 7)]
        [field "seqnum" (count 7)] := .unknown _ _ (by decide)
    have omitted : SameFields [field "root" .null, field "seqnum" (count 7)]
        [field "seqnum" (count 7)] := .omitted (by decide)
    exact (reordered.trans skipped).trans omitted.symm

end CollectiveBench.Descriptor
