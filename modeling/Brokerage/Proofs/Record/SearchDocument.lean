import Brokerage.Proofs.Predicate.Survivors
import Brokerage.Proofs.Record.Inverse
import Brokerage.Search.Builder

namespace Brokerage

namespace Predicate

/-- Every condition among the entries compares with a sorted value. -/
def SortedValues (entries : List Entry) : Prop :=
  ∀ c ∈ entries.filterMap Entry.condition?, c.value.IsSorted

private theorem isSorted_everyRow : everyRow.IsSorted :=
  rfl

private theorem isSorted_triple_normalize {c : Condition} (h : c.value.IsSorted) :
    ∀ v ∈ c.normalize.triple, v.IsSorted := by
  have hlisted : (Condition.listed (Text.uppercase c.operator) c.value).IsSorted := by
    unfold Condition.listed
    split
    · exact Json.isSorted_array_iff.mpr (by simpa using h)
    · exact h
  simp only [Condition.triple, Condition.normalize, List.forall_mem_cons]
  exact ⟨rfl, rfl, hlisted, List.forall_mem_nil _⟩

mutual

/-- An item is written with sorted values if the values in its conditions are
    sorted. Everything else in it is text and lists. -/
theorem Item.isSorted_encode (item : Item) (h : ∀ c ∈ item.conditions, c.value.IsSorted) :
    ∀ v ∈ item.encode, v.IsSorted := by
  cases item with
  | condition c => exact isSorted_triple_normalize (h c List.mem_cons_self)
  | group items =>
    rw [Item.encode]
    intro v hv
    rw [List.mem_singleton.mp hv, Json.isSorted_array_iff]
    exact isSorted_encodeForest items h

theorem isSorted_encodeForest (items : Forest) (h : ∀ c ∈ forestConditions items, c.value.IsSorted) :
    ∀ v ∈ encodeForest items, v.IsSorted := by
  match items with
  | [] => exact nofun
  | (_, item) :: items =>
    rw [forestConditions, List.forall_mem_append] at h
    rw [encodeForest, List.forall_mem_append]
    exact ⟨item.isSorted_encode h.1, isSorted_encodeOthers items h.2⟩

theorem isSorted_encodeOthers (items : Forest) (h : ∀ c ∈ forestConditions items, c.value.IsSorted) :
    ∀ v ∈ encodeOthers items, v.IsSorted := by
  match items with
  | [] => exact nofun
  | (connective, item) :: items =>
    rw [forestConditions, List.forall_mem_append] at h
    rw [encodeOthers, List.forall_mem_cons, List.forall_mem_append]
    exact ⟨rfl, item.isSorted_encode h.1, isSorted_encodeOthers items h.2⟩

end

theorem isSorted_whereClause {items : Forest} (h : ∀ c ∈ forestConditions items, c.value.IsSorted) :
    (whereClause items).IsSorted := by
  unfold whereClause
  split
  · exact isSorted_everyRow
  · next group =>
    refine Json.isSorted_array_iff.mpr (isSorted_encodeForest group fun c hc => h c ?_)
    simpa [forestConditions, Item.conditions] using hc
  · exact Json.isSorted_array_iff.mpr (isSorted_encodeForest items h)

/-- Compiling brings nothing unsorted into a predicate. It makes no objects, so
    that only the values of the conditions have to be sorted. -/
theorem isSorted_of_compile {entries : List Entry} {clause : Json} (h : SortedValues entries)
    (hcompile : compile entries = .ok clause) : clause.IsSorted := by
  rw [compile, map_eq_ok_iff] at hcompile
  obtain ⟨items, hitems, rfl⟩ := hcompile
  have hdescribes : Describes entries items := forest_eq_ok_iff.mp hitems
  apply isSorted_whereClause
  rw [pruneForest_eq_survivors, forestConditions_survivors, hdescribes.forestConditions_eq]
  exact h

end Predicate

namespace Document

theorem unambiguous_fields : Record.Unambiguous fields :=
  Record.unambiguous_named (by decide)

/-- Members are written under the names of fields, in the order of the
    fields. -/
theorem map_fst_sublist {d : Document} {members : List (String × Json)} (h : d.toJson = .object members) :
    (members.map Prod.fst).Sublist (fields.map Record.Field.name) := by
  cases h
  simp only [List.map_append]
  exact ((((((List.Sublist.refl ["Context", "Select", "Where"]).append
    (Record.map_fst_memberIfSome_sublist ..)).append (Record.map_fst_memberIfSome_sublist ..)).append
    (Record.map_fst_memberIfSome_sublist ..)).append (Record.map_fst_memberIfSome_sublist ..)).append
    (Record.map_fst_memberIfSome_sublist ..)).append (Record.map_fst_ite_member_sublist ..)

/-- What a document is written as, member by member. Parts that are not set are
    left out, and the mode is written only where it is on. -/
theorem get?_toJson (d : Document) :
    d.toJson.get? "Context" = some (.string d.context) ∧
      d.toJson.get? "Select" = some (.array (d.columns.map Projection.toJson)) ∧
      d.toJson.get? "Where" = some d.whereClause ∧
      d.toJson.get? "GroupBy" = d.groupBy.map Json.string ∧
      d.toJson.get? "SortBy" = d.sortBy.map Json.string ∧
      d.toJson.get? "SortDir" = d.sortDirection.map SortDirection.toJson ∧
      d.toJson.get? "Limit" = d.limit.map Json.ofUInt64 ∧
      d.toJson.get? "Offset" = d.offset.map Json.ofUInt64 ∧
      d.toJson.get? "FloatMode" = if d.floatMode then some (.bool true) else none := by
  simp only [toJson, Json.get?, List.lookup_append, Record.lookup_member, Record.lookup_memberIfSome,
    Record.lookup_ite_member]
  simp

/-- The members of what a document is written as, and no others. -/
theorem mem_members_iff {d : Document} {members : List (String × Json)} (h : d.toJson = .object members)
    {m : String × Json} :
    m ∈ members ↔ m = ("Context", .string d.context) ∨ m = ("Select", .array (d.columns.map Projection.toJson)) ∨
      m = ("Where", d.whereClause) ∨ (∃ column, d.groupBy = some column ∧ m = ("GroupBy", .string column)) ∨
      (∃ column, d.sortBy = some column ∧ m = ("SortBy", .string column)) ∨
      (∃ direction, d.sortDirection = some direction ∧ m = ("SortDir", direction.toJson)) ∨
      (∃ limit, d.limit = some limit ∧ m = ("Limit", .ofUInt64 limit)) ∨
      (∃ offset, d.offset = some offset ∧ m = ("Offset", .ofUInt64 offset)) ∨
      d.floatMode = true ∧ m = ("FloatMode", .bool true) := by
  cases h
  simp only [List.mem_append, Record.mem_member_iff, Record.mem_memberIfSome_iff, Record.mem_ite_member_iff, or_assoc]

/-- A document is read back from what it is written as. The predicate is its one
    part of free form, and has to be sorted; all else is text, numbers and lists
    of these. -/
theorem ofJson?_sorted {d : Document} (h : d.whereClause.IsSorted) : ofJson? d.toJson.sorted = some d := by
  obtain ⟨known, hread, hlookup⟩ := Record.read?_sorted_object (v := d.toJson) rfl unambiguous_fields
    (map_fst_sublist rfl)
  simp only [List.lookup_append, Record.lookup_member, Record.lookup_memberIfSome, Record.lookup_ite_member] at hlookup
  have hgroupBy : Record.optional Json.asString? "GroupBy" known = some d.groupBy :=
    Json.inverts_string.optional_of_lookup_map rfl (by simp [hlookup])
  have hsortBy : Record.optional Json.asString? "SortBy" known = some d.sortBy :=
    Json.inverts_string.optional_of_lookup_map rfl (by simp [hlookup])
  have hsortDirection : Record.optional SortDirection.ofJson? "SortDir" known = some d.sortDirection :=
    SortDirection.inverts.optional_of_lookup_map rfl (by simp [hlookup])
  have hlimit : Record.optional Json.asUInt64? "Limit" known = some d.limit :=
    Json.inverts_uint64.optional_of_lookup_map rfl (by simp [hlookup])
  have hoffset : Record.optional Json.asUInt64? "Offset" known = some d.offset :=
    Json.inverts_uint64.optional_of_lookup_map rfl (by simp [hlookup])
  have hfloatMode : Record.defaulted false Json.asBool? "FloatMode" known = some d.floatMode := by
    cases hwritten : d.floatMode <;> simp [Record.defaulted, hlookup, hwritten, Json.sorted, Json.asBool?]
  simp [ofJson?, hread, Record.required, hgroupBy, hsortBy, hsortDirection, hlimit, hoffset, hfloatMode, hlookup,
    Projection.inverts.list d.columns, h.sorted_eq]

theorem isSorted_whereClause {v : Json} {d : Document} (hv : v.IsSorted) (h : ofJson? v = some d) :
    d.whereClause.IsSorted := by
  simp only [ofJson?, Option.bind_eq_bind, Option.bind_eq_some_iff, Option.pure_def, Option.some.injEq,
    Record.required] at h
  obtain ⟨known, hread, -, -, -, -, _, ⟨_, hwhere, rfl⟩, -, -, -, -, -, -, -, -, -, -, -, -, rfl⟩ := h
  exact Record.isSorted_of_read? hv hread _ (Json.mem_of_lookup hwhere)

end Document

private theorem Builder.compile_entries_of_compile {b : Builder} {d : Document} (h : b.compile = .ok d) :
    Predicate.compile b.entries = .ok d.whereClause := by
  rw [compile] at h
  cases hcontext : b.context with
  | none =>
    rw [hcontext] at h
    cases h
  | some context =>
    rw [hcontext] at h
    obtain ⟨columns, -, h⟩ := bind_eq_ok_iff.mp h
    obtain ⟨whereClause, hwhere, h⟩ := bind_eq_ok_iff.mp h
    cases h
    exact hwhere

/-- A compiled search is recovered from what is sent to the server, if the
    values in its conditions are sorted. -/
theorem Builder.ofJson?_toParams_of_compile {b : Builder} {d : Document} (h : Predicate.SortedValues b.entries)
    (hcompile : b.compile = .ok d) : Document.ofJson? d.toParams = some d :=
  Document.ofJson?_sorted (Predicate.isSorted_of_compile h (compile_entries_of_compile hcompile))

end Brokerage
