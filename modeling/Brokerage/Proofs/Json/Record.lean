import Brokerage.Json.Record
import Brokerage.Proofs.Json.Sorted

namespace Brokerage.Record

variable {α : Type} {fields : List Field} {names : List String} {members known : List (String × Json)} {name : String}

theorem lookup_member (name other : String) (v : Json) :
    (member other v).lookup name = if name = other then some v else none :=
  Json.lookup_cons_eq_ite name other v []

theorem lookup_memberIfSome (encode : α → Json) (name other : String) (o : Option α) :
    (memberIfSome encode other o).lookup name = if name = other then o.map encode else none := by
  cases o with
  | none => exact (ite_self none).symm
  | some a => exact lookup_member name other (encode a)

theorem lookup_ite_member (written : Bool) (name other : String) (v : Json) :
    (if written then member other v else []).lookup name =
      if name = other then (if written then some v else none) else none := by
  cases written with
  | false => exact (ite_self none).symm
  | true => exact lookup_member name other v

theorem map_fst_ite_member_sublist (written : Bool) (name : String) (v : Json) :
    ((if written then member name v else []).map Prod.fst).Sublist [name] := by
  cases written with
  | false => exact List.nil_sublist [name]
  | true => exact List.Sublist.refl [name]

theorem map_fst_memberIfSome_sublist (encode : α → Json) (name : String) (o : Option α) :
    ((memberIfSome encode name o).map Prod.fst).Sublist [name] := by
  cases o with
  | none => exact List.nil_sublist [name]
  | some a => exact List.Sublist.refl [name]

theorem mem_member_iff {name : String} {v : Json} {m : String × Json} : m ∈ member name v ↔ m = (name, v) :=
  List.mem_singleton

theorem mem_memberIfSome_iff {encode : α → Json} {name : String} {o : Option α} {m : String × Json} :
    m ∈ memberIfSome encode name o ↔ ∃ a, o = some a ∧ m = (name, encode a) := by
  cases o <;> simp [memberIfSome]

theorem mem_ite_member_iff {written : Bool} {name : String} {v : Json} {m : String × Json} :
    m ∈ (if written then member name v else []) ↔ written = true ∧ m = (name, v) := by
  cases written <;> simp [member]

/-- The test for names given twice is the absence of duplicates among them. -/
theorem distinctNames_iff : distinctNames members = true ↔ (members.map Prod.fst).Nodup := by
  induction members with
  | nil => simp [distinctNames]
  | cons m members ih =>
    rw [distinctNames, Bool.and_eq_true, ih, Option.isNone_iff_eq_none, Json.lookup_eq_none_iff_not_mem, List.map_cons,
      List.nodup_cons]

/-- No field answers to the name of another one. -/
structure Unambiguous (fields : List Field) : Prop where
  nodup : (fields.map Field.name).Nodup
  fieldName?_eq : ∀ f ∈ fields, fieldName? fields f.name = some f.name

/-- Fields with one name each answer to that name and to no other. -/
theorem fieldName?_named (names : List String) (name : String) :
    fieldName? (names.map Field.named) name = if name ∈ names then some name else none := by
  induction names with
  | nil => rfl
  | cons first names ih =>
    rw [fieldName?, List.map_cons, List.find?_cons]
    by_cases hname : name = first
    · subst hname
      simp [Field.answers, Field.named]
    · have hanswers : (Field.named first).answers name = false := by simp [Field.answers, Field.named, hname]
      rw [hanswers]
      simp only [List.mem_cons, hname, false_or]
      exact ih

/-- Fields with one name each are unambiguous if the names differ. -/
theorem unambiguous_named {names : List String} (h : names.Nodup) : Unambiguous (names.map Field.named) where
  nodup := by simpa [Function.comp_def, Field.named] using h
  fieldName?_eq := by
    intro f hf
    obtain ⟨name, hname, rfl⟩ := List.mem_map.mp hf
    exact (fieldName?_named names name).trans (if_pos hname)

private theorem knownMembers_eq_self (h : ∀ m ∈ members, fieldName? fields m.1 = some m.1) :
    knownMembers fields members = members := by
  have heach (m : String × Json) (hm : m ∈ members) :
      (fieldName? fields m.1).map (fun field => (field, m.2)) = some m := by
    rw [h m hm]
    rfl
  exact (List.filterMap_congr heach).trans List.filterMap_some

/-- The members known to fields with one name each are those with these names,
    as they were given. -/
theorem knownMembers_named (names : List String) (members : List (String × Json)) :
    knownMembers (names.map Field.named) members = members.filter fun m => m.1 ∈ names := by
  have heach (m : String × Json) :
      (fieldName? (names.map Field.named) m.1).map (fun field => (field, m.2)) =
        Option.guard (fun m => decide (m.1 ∈ names)) m := by
    rw [fieldName?_named]
    by_cases hname : m.1 ∈ names <;> simp [Option.guard, hname]
  exact (List.filterMap_congr fun m _ => heach m).trans (congrFun List.filterMap_eq_filter members)

/-- Sorted members are read under the names of the fields, and none of them is
    refused. Being sorted they have no name twice, for which a record is
    refused. -/
theorem read?_named_object (names : List String) (h : Json.Ascending members) :
    ∃ known, read? (names.map Field.named) (.object members) = some known ∧
      ∀ name ∈ names, known.lookup name = members.lookup name := by
  have hnodup : ((members.filter fun m => m.1 ∈ names).map Prod.fst).Nodup := (h.sublist List.filter_sublist).nodup
  rw [read?, ofObject?, knownMembers_named, if_pos (distinctNames_iff.mpr hnodup)]
  refine ⟨_, rfl, fun name hname => ?_⟩
  rw [Json.lookup_filter fun name => name ∈ names, if_pos (by simpa using hname)]

/-- The items of a list are read as the fields in their order, and trailing ones
    may be missing. -/
theorem lookup_zip {i : Nat} (hnames : names.Nodup) (hname : names[i]? = some name) (items : List Json) :
    (names.zip items).lookup name = items[i]? := by
  induction names generalizing i items with
  | nil => cases hname
  | cons first names ih =>
    cases items with
    | nil => rfl
    | cons item items =>
      rw [List.zip_cons_cons, Json.lookup_cons_eq_ite]
      cases i with
      | zero =>
        cases hname
        exact if_pos rfl
      | succ i =>
        have hne : name ≠ first := by
          rintro rfl
          exact (List.nodup_cons.mp hnames).1 (List.mem_of_getElem? hname)
        rw [if_neg hne]
        exact ih (List.nodup_cons.mp hnames).2 hname items

/-- What is written under names of fields is read under the same names. The
    fields must not answer to each other's names, and no field is written twice;
    some may be left out. -/
theorem read?_sorted_object {v : Json} (hv : v = .object members) (hfields : Unambiguous fields)
    (hnames : (members.map Prod.fst).Sublist (fields.map Field.name)) :
    ∃ known, read? fields v.sorted = some known ∧
      ∀ name, known.lookup name = (members.lookup name).map Json.sorted := by
  have hnodup : (members.map Prod.fst).Nodup := hfields.nodup.sublist hnames
  have hlookup := Json.lookup_sortMembers_sortedValues hnodup
  refine ⟨Json.sortMembers (Json.sortedValues members), ?_, hlookup⟩
  have hknown : knownMembers fields (Json.sortMembers (Json.sortedValues members)) =
      Json.sortMembers (Json.sortedValues members) := by
    apply knownMembers_eq_self
    intro m hm
    have hmem : m.1 ∈ members.map Prod.fst := by
      rw [← Json.map_fst_sortedValues]
      exact List.mem_map_of_mem (Json.mem_of_mem_sortMembers hm)
    obtain ⟨f, hf, hname⟩ := List.mem_map.mp (hnames.subset hmem)
    exact hname ▸ hfields.fieldName?_eq f hf
  have hdistinct : distinctNames (Json.sortMembers (Json.sortedValues members)) = true :=
    distinctNames_iff.mpr (Json.ascending_sortMembers _).nodup
  rw [hv, Json.sorted, read?, ofObject?, hknown]
  exact if_pos hdistinct

/-- What is read are values of members, or items. So whatever holds of all parts
    of a value holds of the fields read from it. -/
theorem mem_of_read? {v : Json} (hread : read? fields v = some known) {m : String × Json} (hm : m ∈ known) :
    (∃ members member, v = .object members ∧ member ∈ members ∧ m.2 = member.2) ∨
      ∃ items, v = .array items ∧ m.2 ∈ items := by
  cases v with
  | object members =>
    rw [read?, ofObject?] at hread
    split at hread
    · cases hread
      obtain ⟨member, hmember, hfield⟩ := List.mem_filterMap.mp hm
      obtain ⟨field, _, rfl⟩ := Option.map_eq_some_iff.mp hfield
      exact .inl ⟨members, member, rfl, hmember, rfl⟩
    · cases hread
  | array items =>
    rw [read?, ofItems?] at hread
    split at hread
    · cases hread
      exact .inr ⟨items, rfl, (List.of_mem_zip hm).2⟩
    · cases hread
  | _ => cases hread

/-- The fields that a sorted value holds are sorted. -/
theorem isSorted_of_read? {v : Json} (hv : v.IsSorted) (hread : read? fields v = some known) :
    ∀ m ∈ known, m.2.IsSorted := by
  intro m hm
  rcases mem_of_read? hread hm with ⟨members, member, rfl, hmember, heq⟩ | ⟨items, rfl, hitem⟩
  · exact heq ▸ (Json.isSorted_object_iff.mp hv).2 member hmember
  · exact Json.isSorted_array_iff.mp hv m.2 hitem

/-- The fields that a value holds are parts of it, which is why reading a record
    in a record ends. -/
theorem sizeOf_lt_of_read? {v : Json} (hread : read? fields v = some known) : ∀ m ∈ known, sizeOf m.2 < sizeOf v := by
  intro m hm
  rcases mem_of_read? hread hm with ⟨members, member, rfl, hmember, heq⟩ | ⟨items, rfl, hitem⟩
  · have hsize := List.sizeOf_lt_of_mem hmember
    obtain ⟨name, w⟩ := member
    simp only [Prod.mk.sizeOf_spec] at hsize
    simp only [heq, Json.object.sizeOf_spec]
    omega
  · have hsize := List.sizeOf_lt_of_mem hitem
    simp only [Json.array.sizeOf_spec]
    omega

section reading

variable {decode : Json → Option α}

private theorem optional_of_lookup {o : Option α}
    (hnone : o = none → known.lookup name = none ∨ known.lookup name = some .null)
    (hsome : ∀ a, o = some a → ∃ v, known.lookup name = some v ∧ v ≠ .null ∧ decode v = some a) :
    optional decode name known = some o := by
  unfold optional
  cases o with
  | none => rcases hnone rfl with h | h <;> rw [h]
  | some a =>
    obtain ⟨v, h, hnull, hdecode⟩ := hsome a rfl
    simp [h, hdecode]

/-- An optional field is read back where its absence is written by leaving it
    out. Its value must not be written as null, which reads as absence. -/
theorem optional_of_lookup_map (encode : α → Json) {o : Option α}
    (h : known.lookup name = (o.map encode).map Json.sorted)
    (hencode : ∀ a, o = some a → (encode a).sorted ≠ .null ∧ decode (encode a).sorted = some a) :
    optional decode name known = some o := by
  refine optional_of_lookup ?_ ?_
  · rintro rfl
    exact .inl h
  · rintro a rfl
    exact ⟨_, h, hencode a rfl⟩

/-- An optional field is read back where its absence is written as null. Its
    value must not be written as null itself. -/
theorem optional_of_lookup_getD (encode : α → Json) {o : Option α}
    (h : known.lookup name = some ((o.map encode).getD .null).sorted)
    (hencode : ∀ a, o = some a → (encode a).sorted ≠ .null ∧ decode (encode a).sorted = some a) :
    optional decode name known = some o := by
  refine optional_of_lookup ?_ ?_
  · rintro rfl
    exact .inr h
  · rintro a rfl
    exact ⟨_, h, hencode a rfl⟩

/-- A field read as an optional value of any kind was given, and not as null.
    With null given the field is read as if it were left out. -/
theorem lookup_of_optional_some {v : Json} (h : optional some name known = some (some v)) :
    known.lookup name = some v ∧ v ≠ .null := by
  unfold optional at h
  split at h
  · cases h
  · cases h
  · next w hnull hlookup =>
    cases h
    exact ⟨hlookup, hnull⟩

/-- A field of any form that may be left out or null is read whatever stands
    there. -/
theorem exists_optional_some (name : String) (members : List (String × Json)) :
    ∃ o, optional some name members = some o := by
  unfold optional
  split
  · exact ⟨_, rfl⟩
  · exact ⟨_, rfl⟩
  · exact ⟨_, rfl⟩

/-- Such a field holds any value but null. -/
theorem optional_some_of_lookup {v : Json} (hv : known.lookup name = some v) (hnull : v ≠ .null) :
    optional some name known = some (some v) :=
  optional_of_lookup nofun fun _ ha => ⟨v, hv, hnull, ha⟩

end reading

end Brokerage.Record
