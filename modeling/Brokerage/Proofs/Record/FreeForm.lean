import Brokerage.Market.Record
import Brokerage.Proofs.Record.Inverse
import Brokerage.Remote.Envelope

namespace Brokerage

/-- A finite number is written as it is. The others have no text as a value and
    are written as null. -/
theorem Json.asBinary64?_sorted_of_finite {x : Binary64} (h : ∃ s n, x = .finite s n) :
    (ofBinary64 x).sorted.asBinary64? = some x := by
  obtain ⟨s, n, rfl⟩ := h
  rfl

namespace Record

/-- A value that may be left out is never null, and sorted. -/
def FreeForm (o : Option Json) : Prop :=
  ∀ v, o = some v → v ≠ .null ∧ v.IsSorted

variable {fields : List Field} {members known others own : List (String × Json)} {name : String} {v : Json}

/-- What is read from sorted members for a field of any form is never null, and
    sorted. -/
theorem freeForm_of_optional {o : Option Json} (hknown : ∀ m ∈ known, m.2.IsSorted)
    (h : optional some name known = some o) : FreeForm o := by
  rintro w rfl
  obtain ⟨hlookup, hnull⟩ := lookup_of_optional_some h
  exact ⟨hnull, hknown _ (Json.mem_of_lookup hlookup)⟩

private theorem FreeForm.sorted_ne_null {o : Option Json} (h : FreeForm o) (w : Json) (hw : o = some w) :
    w.sorted ≠ .null ∧ some w.sorted = some w := by
  obtain ⟨hnull, hsorted⟩ := h w hw
  rw [hsorted.sorted_eq]
  exact ⟨hnull, rfl⟩

/-- A value of any form is read back where its absence is written by leaving it
    out. It must not be null, which reads as absence, and has to be sorted, as
    it comes out sorted. -/
theorem FreeForm.optional_of_lookup_map {o : Option Json} (h : FreeForm o)
    (hlookup : known.lookup name = o.map Json.sorted) : optional some name known = some o :=
  Record.optional_of_lookup_map (fun w => w) (by simpa using hlookup) h.sorted_ne_null

/-- A value of any form is read back where its absence is written as null, under
    the same premises. -/
theorem FreeForm.optional_of_lookup_getD {o : Option Json} (h : FreeForm o)
    (hlookup : known.lookup name = some (o.getD .null).sorted) : optional some name known = some o :=
  Record.optional_of_lookup_getD (fun w => w) (by simpa using hlookup) h.sorted_ne_null

/-- The members are ascending and sorted, and belong to no field. -/
structure Outside (fields : List Field) (others : List (String × Json)) : Prop where
  ascending : Json.Ascending others
  isSorted : ∀ m ∈ others, m.2.IsSorted
  fieldName? : ∀ m ∈ others, fieldName? fields m.1 = none

/-- The members that belong to no field are ascending and sorted if all members
    are. -/
theorem outside_otherMembers (fields : List Field) (h : (Json.object members).IsSorted) :
    Outside fields (otherMembers fields members) := by
  obtain ⟨hascending, hvalues⟩ := Json.isSorted_object_iff.mp h
  refine ⟨hascending.sublist List.filter_sublist, fun m hm => hvalues m (List.mem_of_mem_filter hm), ?_⟩
  intro m hm
  exact Option.isNone_iff_eq_none.mp (List.mem_filter.mp hm).2

/-- Under a name that no field answers to, the other members hold what all
    members do. -/
theorem lookup_otherMembers (fields : List Field) (members : List (String × Json)) (name : String) :
    (otherMembers fields members).lookup name =
      if fieldName? fields name = none then members.lookup name else none :=
  (Json.lookup_filter (fun name => (fieldName? fields name).isNone) members name).trans
    (by simp only [Option.isNone_iff_eq_none])

private theorem fieldName?_ne_none (hfields : Unambiguous fields) (hown : own.map Prod.fst = fields.map Field.name) :
    ∀ name ∈ own.map Prod.fst, fieldName? fields name ≠ none := by
  intro name hmem hnone
  rw [hown] at hmem
  obtain ⟨f, hf, rfl⟩ := List.mem_map.mp hmem
  rw [hfields.fieldName?_eq f hf] at hnone
  cases hnone

/-- The other members of a row have other names than its fields. The fields have
    to be unambiguous, and a row is written under their own names and no
    aliases. -/
theorem nodup_row (hfields : Unambiguous fields) (hown : own.map Prod.fst = fields.map Field.name)
    (hothers : Outside fields others) : ((own ++ others).map Prod.fst).Nodup := by
  rw [List.map_append]
  refine (hown ▸ hfields.nodup).append hothers.ascending.nodup ?_
  intro name hmem hother
  obtain ⟨m, hm, rfl⟩ := List.mem_map.mp hother
  exact fieldName?_ne_none hfields hown m.1 hmem (hothers.fieldName? m hm)

/-- A row is written as an object with its fields and, unchanged, the other
    members. These have to be sorted and outside the fields; then sorting the
    object only puts the members in order. -/
theorem sorted_row (hv : v = .object (own ++ others)) (hfields : Unambiguous fields)
    (hown : own.map Prod.fst = fields.map Field.name) (hothers : Outside fields others) :
    ∃ members, v.sorted = .object members ∧
      (∀ name, members.lookup name = ((own ++ others).lookup name).map Json.sorted) ∧
      otherMembers fields members = others := by
  have hname := fieldName?_ne_none hfields hown
  have hnodup := nodup_row hfields hown hothers
  have hlookup := Json.lookup_sortMembers_sortedValues hnodup
  refine ⟨_, congrArg Json.sorted hv, hlookup, ?_⟩
  have hascending : Json.Ascending (otherMembers fields (Json.sortMembers (Json.sortedValues (own ++ others)))) :=
    (Json.ascending_sortMembers _).sublist List.filter_sublist
  -- Both lists ascend, so they are equal if each name is found in both or in neither.
  apply hascending.eq_of_lookup_eq hothers.ascending
  intro name
  rw [lookup_otherMembers, hlookup, List.lookup_append]
  split
  · next hnone =>
    have hown : own.lookup name = none := Json.lookup_eq_none_iff_not_mem.mpr fun hmem => hname name hmem hnone
    rw [hown, Option.none_or]
    cases hother : others.lookup name with
    | none => rfl
    | some w => exact congrArg some (hothers.isSorted _ (Json.mem_of_lookup hother))
  · next hsome =>
    symm
    rw [Json.lookup_eq_none_iff_not_mem]
    intro hmem
    obtain ⟨m, hm, rfl⟩ := List.mem_map.mp hmem
    exact hsome (hothers.fieldName? m hm)

namespace RowForm

variable {α : Type} {form : RowForm α} {row : Row α}

/-- The four names differ, the second number is read from exactly the value it
    is written as, and its default is written as zero. A written number holds no
    other value, so sorting leaves it. -/
structure Lawful (form : RowForm α) : Prop where
  names : ["Id", "Name", form.first, form.second].Nodup
  decode_eq_some_iff : ∀ v a, form.decode v = some a ↔ v = form.encode a
  encode_default : form.encode form.default = .ofInt64 0
  sorted_encode : ∀ a, (form.encode a).sorted = form.encode a

/-- A row is read from the object it is written as, provided its other members
    are not taken for fields and are sorted already: sorting the object sorts
    the values in it too. -/
theorem read?_sorted_write (hform : form.Lawful) (h : Outside form.fields row.others) :
    form.read? (form.write row).sorted = some row := by
  have hfields : Unambiguous form.fields := unambiguous_named hform.names
  obtain ⟨members, hsorted, hlookup, hothers⟩ := sorted_row (v := form.write row) rfl hfields rfl h
  have hnames := hform.names
  simp only [List.nodup_cons, List.mem_cons, not_or] at hnames
  obtain ⟨⟨-, hidFirst, hidSecond, -⟩, ⟨hnameFirst, hnameSecond, -⟩, ⟨hne, -⟩, -⟩ := hnames
  have hsecond : form.decode (form.encode row.second).sorted = some row.second :=
    (hform.decode_eq_some_iff _ _).mpr (hform.sorted_encode _)
  simp [hsorted, read?, required, defaulted, hlookup, Json.lookup_cons_eq_ite, hothers, hsecond, Ne.symm hidFirst,
    Ne.symm hidSecond, Ne.symm hnameFirst, Ne.symm hnameSecond, Ne.symm hne]

/-- The members that a row keeps are ascending, sorted and outside its fields if
    it was read from a sorted value. -/
theorem outside_others {v : Json} (hv : v.IsSorted) (h : form.read? v = some row) :
    Outside form.fields row.others := by
  cases v with
  | object members =>
    simp only [read?, Option.bind_eq_bind, Option.bind_eq_some_iff, Option.pure_def, Option.some.injEq] at h
    obtain ⟨-, -, -, -, -, -, -, -, rfl⟩ := h
    exact outside_otherMembers form.fields hv
  | _ => cases h

end RowForm

end Record

section

variable {v : Json}

/-- The symbol table has rows of the shared form, its second number an
    identifier with a sign. -/
theorem SymbolInfo.lawful_form : form.Lawful where
  names := by decide
  decode_eq_some_iff _ _ := Json.asInt64?_eq_some_iff
  encode_default := rfl
  sorted_encode _ := rfl

/-- The currency table has rows of the shared form, both numbers without a
    sign. -/
theorem CurrencyInfo.lawful_form : form.Lawful where
  names := by decide
  decode_eq_some_iff _ _ := Json.asUInt32?_eq_some_iff
  encode_default := rfl
  sorted_encode _ := rfl

/-- The parameters for a new password are read back, if the login, which may be
    of any form, is sorted. -/
theorem PasswordSetParams.ofJson?_sorted {p : PasswordSetParams} (h : p.login.IsSorted) :
    ofJson? p.toJson.sorted = some p := by
  have hfields : Record.Unambiguous fields := Record.unambiguous_named (by decide)
  obtain ⟨known, hread, hlookup⟩ := Record.read?_sorted_object (v := p.toJson) rfl hfields (.refl _)
  simp [ofJson?, hread, Record.required, hlookup, Json.lookup_cons_eq_ite, h.sorted_eq]

theorem PasswordSetParams.isSorted_login {p : PasswordSetParams} (hv : v.IsSorted) (h : ofJson? v = some p) :
    p.login.IsSorted := by
  simp only [ofJson?, Option.bind_eq_bind, Option.bind_eq_some_iff, Option.pure_def, Option.some.injEq,
    Record.required] at h
  obtain ⟨known, hread, -, -, _, ⟨_, hlogin, rfl⟩, -, -, -, -, rfl⟩ := h
  exact Record.isSorted_of_read? hv hread _ (Json.mem_of_lookup hlogin)

/-- The parameters for checking a password are read back, if the login, which
    may be of any form, is sorted. -/
theorem PasswordCheckParams.ofJson?_sorted {p : PasswordCheckParams} (h : p.login.IsSorted) :
    ofJson? p.toJson.sorted = some p := by
  have hfields : Record.Unambiguous fields := Record.unambiguous_named (by decide)
  obtain ⟨known, hread, hlookup⟩ := Record.read?_sorted_object (v := p.toJson) rfl hfields (.refl _)
  simp [ofJson?, hread, Record.required, hlookup, Json.lookup_cons_eq_ite, h.sorted_eq]

theorem PasswordCheckParams.isSorted_login {p : PasswordCheckParams} (hv : v.IsSorted) (h : ofJson? v = some p) :
    p.login.IsSorted := by
  simp only [ofJson?, Option.bind_eq_bind, Option.bind_eq_some_iff, Option.pure_def, Option.some.injEq,
    Record.required] at h
  obtain ⟨known, hread, _, ⟨_, hlogin, rfl⟩, -, -, -, -, rfl⟩ := h
  exact Record.isSorted_of_read? hv hread _ (Json.mem_of_lookup hlogin)

/-- A request is read back, if its parameters are sorted and not null.
    Parameters that are null are written as such and read as none. -/
theorem RequestEnvelope.ofJson?_sorted {r : RequestEnvelope} (h : Record.FreeForm r.params) :
    ofJson? r.toJson.sorted = some r := by
  have hfields : Record.Unambiguous fields := Record.unambiguous_named (by decide)
  obtain ⟨known, hread, hlookup⟩ := Record.read?_sorted_object (v := r.toJson) rfl hfields (by
    simp only [List.map_append]
    exact (List.Sublist.refl ["jsonrpc", "id", "method"]).append (Record.map_fst_memberIfSome_sublist ..))
  have hparams : Record.optional some "params" known = some r.params := by
    apply h.optional_of_lookup_map
    simp [hlookup, List.lookup_append, Record.lookup_member, Record.lookup_memberIfSome]
  simp [ofJson?, hread, Record.required, hparams, hlookup, List.lookup_append, Record.lookup_member]

theorem RequestEnvelope.freeForm_params {r : RequestEnvelope} (hv : v.IsSorted) (h : ofJson? v = some r) :
    Record.FreeForm r.params := by
  simp only [ofJson?, Option.bind_eq_bind, Option.bind_eq_some_iff, Option.pure_def, Option.some.injEq] at h
  obtain ⟨known, hread, -, -, -, -, -, -, params, hparams, rfl⟩ := h
  exact Record.freeForm_of_optional (Record.isSorted_of_read? hv hread) hparams

/-- A payload is read back, if its two parts of any form are sorted and not
    null. -/
theorem ErrorPayload.ofJson?_sorted {p : ErrorPayload} (hdata : Record.FreeForm p.data)
    (herror : Record.FreeForm p.error) : ofJson? p.toJson.sorted = some p := by
  have hfields : Record.Unambiguous fields := Record.unambiguous_named (by decide)
  obtain ⟨known, hread, hlookup⟩ := Record.read?_sorted_object (v := p.toJson) rfl hfields (by
    simp only [List.map_append]
    exact ((List.Sublist.refl ["code", "message"]).append (Record.map_fst_memberIfSome_sublist ..)).append
      (Record.map_fst_memberIfSome_sublist ..))
  have hdata : Record.optional some "data" known = some p.data := by
    apply hdata.optional_of_lookup_map
    simp [hlookup, List.lookup_append, Record.lookup_member, Record.lookup_memberIfSome]
  have herror : Record.optional some "error" known = some p.error := by
    apply herror.optional_of_lookup_map
    simp [hlookup, List.lookup_append, Record.lookup_member, Record.lookup_memberIfSome]
  simp [ofJson?, hread, Record.defaulted, hdata, herror, hlookup, List.lookup_append, Record.lookup_member]

/-- The parts of any form in a payload that is read from a sorted value are
    sorted and not null. -/
theorem ErrorPayload.freeForm_data_error {p : ErrorPayload} (hv : v.IsSorted) (h : ofJson? v = some p) :
    Record.FreeForm p.data ∧ Record.FreeForm p.error := by
  simp only [ofJson?, Option.bind_eq_bind, Option.bind_eq_some_iff, Option.pure_def, Option.some.injEq] at h
  obtain ⟨known, hread, -, -, -, -, data, hdata, error, herror, rfl⟩ := h
  have hknown := Record.isSorted_of_read? hv hread
  exact ⟨Record.freeForm_of_optional hknown hdata, Record.freeForm_of_optional hknown herror⟩

/-- A reply of the terminal is read back, if the error in it is sorted and not
    null. -/
theorem TraderAuthResult.ofJson?_sorted {r : TraderAuthResult} (h : Record.FreeForm r.error) :
    ofJson? r.toJson.sorted = some r := by
  have hfields : Record.Unambiguous fields := Record.unambiguous_named (by decide)
  obtain ⟨known, hread, hlookup⟩ := Record.read?_sorted_object (v := r.toJson) rfl hfields (.refl _)
  have htoken : Record.optional Json.asString? "jwt" known = some r.token := by
    apply Json.inverts_string.optional_of_lookup_getD rfl
    simp [hlookup]
  have herror : Record.optional some "error" known = some r.error := by
    apply h.optional_of_lookup_getD
    simp [hlookup, Json.lookup_cons_eq_ite]
  simp [ofJson?, hread, ofMembers?, htoken, herror]

theorem TraderAuthResult.freeForm_error {known : List (String × Json)} {r : TraderAuthResult}
    (hknown : ∀ m ∈ known, m.2.IsSorted) (h : ofMembers? known = some r) : Record.FreeForm r.error := by
  simp only [ofMembers?, Option.bind_eq_bind, Option.bind_eq_some_iff, Option.pure_def, Option.some.injEq] at h
  obtain ⟨-, -, error, herror, rfl⟩ := h
  exact Record.freeForm_of_optional hknown herror

/-- A money record is read back. Its numbers have to be finite, as others are
    written as null, and its other members sorted and outside its fields. -/
theorem MoneyInfo.ofJson?_sorted {m : MoneyInfo} (hfree : ∃ s n, m.free = .finite s n)
    (hcredit : ∃ s n, m.credit = .finite s n) (h : Record.Outside fields m.others) :
    ofJson? m.toJson.sorted = some m := by
  have hfields : Record.Unambiguous fields := Record.unambiguous_named (by decide)
  obtain ⟨members, hsorted, hlookup, hothers⟩ := Record.sorted_row (v := m.toJson) rfl hfields rfl h
  simp [hsorted, ofJson?, Record.defaulted, hlookup, Json.lookup_cons_eq_ite, hothers,
    Json.asBinary64?_sorted_of_finite hfree, Json.asBinary64?_sorted_of_finite hcredit]

/-- A money record that is read from a sorted value satisfies what
    `MoneyInfo.ofJson?_sorted` asks of it. -/
theorem MoneyInfo.outside_others {m : MoneyInfo} (hv : v.IsSorted) (h : ofJson? v = some m) :
    (∃ s n, m.free = .finite s n) ∧ (∃ s n, m.credit = .finite s n) ∧ Record.Outside fields m.others := by
  cases v with
  | object members =>
    simp only [ofJson?, Option.bind_eq_bind, Option.bind_eq_some_iff, Option.pure_def, Option.some.injEq] at h
    obtain ⟨free, hfree, credit, hcredit, rfl⟩ := h
    exact ⟨exists_finite_of_defaulted hfree, exists_finite_of_defaulted hcredit,
      Record.outside_otherMembers fields hv⟩
  | _ => cases h

end

end Brokerage
