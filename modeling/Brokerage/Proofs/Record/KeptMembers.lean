import Brokerage.Proofs.Record.FreeForm

namespace Brokerage

namespace Json

/-- An integer from `least` on and below `bound`. -/
def IsIntegerIn (least bound : Int) (v : Json) : Prop :=
  ∃ n lower upper, v = .number (.integer n lower upper) ∧ least ≤ n ∧ n < bound

/-- An integer that fits in 64 bits with a sign. -/
def IsSigned64 : Json → Prop :=
  IsIntegerIn (-0x8000000000000000) 0x8000000000000000

/-- An integer that fits in 32 bits without a sign. -/
def IsUnsigned32 : Json → Prop :=
  IsIntegerIn 0 0x100000000

def IsString (v : Json) : Prop :=
  ∃ s, v = .string s

def IsNumber (v : Json) : Prop :=
  ∃ n, v = .number n

variable {v : Json}

/-- The values that are read as integers of 64 bits with a sign are the integers
    in that range. -/
theorem exists_asInt64?_iff : (∃ n, v.asInt64? = some n) ↔ v.IsSigned64 := by
  constructor
  · rintro ⟨n, h⟩
    obtain rfl := asInt64?_eq_some_iff.mp h
    exact ⟨_, _, _, rfl, Int64.le_toInt n, Int64.toInt_lt n⟩
  · rintro ⟨n, lower, upper, rfl, -, hbound⟩
    exact ⟨_, by rw [asInt64?, asInt?, Option.bind_some, if_pos hbound]⟩

/-- The values that are read as integers of 32 bits without a sign are the
    integers in that range. -/
theorem exists_asUInt32?_iff : (∃ n, v.asUInt32? = some n) ↔ v.IsUnsigned32 := by
  constructor
  · rintro ⟨n, h⟩
    obtain rfl := asUInt32?_eq_some_iff.mp h
    have hbound := n.toNat_lt
    exact ⟨_, _, _, rfl, Int.natCast_nonneg _, by rw [UInt32.toNat_toUInt64]; omega⟩
  · rintro ⟨n, lower, upper, rfl, hleast, hbound⟩
    exact ⟨_, by rw [asUInt32?, asNatBelow?, asInt?, Option.bind_some, if_pos ⟨hleast, hbound⟩, Option.map_some]⟩

/-- A string is read from the value that writes it and from no other. -/
theorem asString?_eq_some_iff {s : String} : v.asString? = some s ↔ v = .string s := by
  constructor
  · intro h
    unfold asString? at h
    split at h <;> cases h
    rfl
  · rintro rfl
    rfl

theorem exists_asString?_iff : (∃ s, v.asString? = some s) ↔ v.IsString :=
  exists_congr fun _ => asString?_eq_some_iff

/-- Every number of a value is read as a binary64 number, integers being
    rounded. -/
theorem exists_asBinary64?_iff : (∃ x, v.asBinary64? = some x) ↔ v.IsNumber := by
  constructor
  · rintro ⟨x, h⟩
    unfold asBinary64? at h
    split at h
    · exact ⟨_, rfl⟩
    · exact ⟨_, rfl⟩
    · cases h
  · rintro ⟨n, rfl⟩
    cases n with
    | integer value lower upper => exact ⟨_, rfl⟩
    | real negative magnitude => exact ⟨_, rfl⟩

private theorem isSorted_ofBinary64 (x : Binary64) : (ofBinary64 x).IsSorted := by
  cases x <;> rfl

end Json

namespace Record

/-- What a record asks of a member: the form of its value, and whether it has to
    be there. -/
structure Demand where
  name : String
  form : Json → Prop
  needed : Bool

def Demand.MetBy (d : Demand) (members : List (String × Json)) : Prop :=
  match members.lookup d.name with
  | some v => d.form v
  | none => d.needed = false

/-- The value is an object whose members meet the demands; it may have any other
    members. -/
def Meets (demands : List Demand) (v : Json) : Prop :=
  ∃ members, v = .object members ∧ ∀ d ∈ demands, d.MetBy members

/-- The members with one more, if none of its name is there. -/
def addMissing (name : String) (value : Json) (members : List (String × Json)) : List (String × Json) :=
  if (members.lookup name).isSome then members else Json.insertMember name value members

/-- The record is written with no name twice, and as a value it is the object
    with these members. -/
structure WritesBack (row : Json) (members : List (String × Json)) : Prop where
  once : ∃ written, row = .object written ∧ (written.map Prod.fst).Nodup
  value : row.sorted = .object members

variable {α : Type} {decode : Json → Option α} {members own : List (String × Json)} {name : String}

/-- Without a need for it a member only has to be of its form where it
    stands. -/
theorem Demand.metBy_iff_forall {form : Json → Prop} :
    (Demand.mk name form false).MetBy members ↔ ∀ v, members.lookup name = some v → form v := by
  rw [MetBy]
  cases members.lookup name <;> simp

/-- A member that has to be there is read exactly if it is, and of its form. The
    premise says what the reader of its value accepts, null included. -/
theorem exists_required_iff {form : Json → Prop} (h : ∀ v, (∃ a, decode v = some a) ↔ form v) :
    (∃ a, required decode name members = some a) ↔ (Demand.mk name form true).MetBy members := by
  rw [required, Demand.MetBy]
  cases members.lookup name with
  | none => simp
  | some v => exact h v

/-- A member that may be left out is read exactly if it is of its form where it
    stands. Null is a value like any other here, and not absence. -/
theorem exists_defaulted_iff {form : Json → Prop} (h : ∀ v, (∃ a, decode v = some a) ↔ form v) (default : α) :
    (∃ a, defaulted default decode name members = some a) ↔ (Demand.mk name form false).MetBy members := by
  rw [defaulted, Demand.MetBy]
  cases members.lookup name with
  | none => simp
  | some v => exact h v

/-- A member that had to be there is written as it was. Its reader has to take
    nothing but what is written for a value, which the reader of a float does
    not do. -/
theorem lookup_of_required (encode : α → Json) (hdecode : ∀ v a, decode v = some a ↔ v = encode a) {a : α}
    (h : required decode name members = some a) : members.lookup name = some (encode a) := by
  obtain ⟨v, hv, ha⟩ := Option.bind_eq_some_iff.mp h
  rw [hv, (hdecode v a).mp ha]

/-- A member with a value of its own is written as it was, or with that
    value. -/
theorem getD_of_defaulted (encode : α → Json) (hdecode : ∀ v a, decode v = some a ↔ v = encode a) {default a : α}
    (h : defaulted default decode name members = some a) : (members.lookup name).getD (encode default) = encode a := by
  unfold defaulted at h
  split at h
  · next hnone =>
    rw [hnone, Option.getD_none, Option.some.inj h]
  · next v hv => rw [hv, Option.getD_some, (hdecode v a).mp h]

/-- Adding a missing member leaves all others, and the member itself if it is
    there. -/
theorem lookup_addMissing (name other : String) (value : Json) (members : List (String × Json)) :
    (addMissing name value members).lookup other =
      if other = name then some ((members.lookup name).getD value) else members.lookup other := by
  rw [addMissing]
  by_cases hother : other = name
  · subst hother
    cases h : members.lookup other with
    | none => simp [Json.lookup_insertMember]
    | some v => simp [h]
  · cases h : members.lookup name with
    | none => simp [Json.lookup_insertMember, hother]
    | some v => simp [hother]

/-- A record that is read from sorted members and keeps those it has no field
    for writes back any members that are what it writes under the names of its
    fields, and what it was read from everywhere else. -/
theorem writesBack (names : List String) {expected : List (String × Json)} (hmembers : (Json.object members).IsSorted)
    (hnames : names.Nodup) (hown : own.map Prod.fst = names) (hexpected : (Json.object expected).IsSorted)
    (hwritten : ∀ m ∈ own, expected.lookup m.1 = some m.2)
    (hkept : ∀ name, name ∉ names → expected.lookup name = members.lookup name) :
    WritesBack (.object (own ++ otherMembers (names.map Field.named) members)) expected := by
  have hfields := unambiguous_named hnames
  have hothers := outside_otherMembers (names.map Field.named) hmembers
  have hfieldNames : own.map Prod.fst = (names.map Field.named).map Field.name := by
    simpa [Function.comp_def, Field.named] using hown
  have hnodup := nodup_row hfields hfieldNames hothers
  obtain ⟨hascending, hvalues⟩ := Json.isSorted_object_iff.mp hexpected
  refine ⟨⟨_, rfl, hnodup⟩, congrArg Json.object ?_⟩
  apply (Json.ascending_sortMembers _).eq_of_lookup_eq hascending
  intro name
  -- What is expected is sorted already, so it is enough that it is what is written.
  have hsorted : (expected.lookup name).map Json.sorted = expected.lookup name := by
    cases h : expected.lookup name with
    | none => rfl
    | some v => exact congrArg some (hvalues _ (Json.mem_of_lookup h))
  rw [Json.lookup_sortMembers_sortedValues hnodup, ← hsorted, List.lookup_append, lookup_otherMembers,
    fieldName?_named]
  by_cases hname : name ∈ names
  · obtain ⟨m, hm, rfl⟩ := List.mem_map.mp (hown ▸ hname)
    rw [Json.lookup_of_mem (hown ▸ hnames) hm, hwritten m hm, Option.some_or]
  · have hnone : own.lookup name = none := Json.lookup_eq_none_iff_not_mem.mpr (hown ▸ hname)
    rw [hnone, Option.none_or, if_neg hname, if_pos rfl, hkept name hname]

private theorem isSorted_insertMember (name : String) {value : Json} (hvalue : value.IsSorted)
    (h : (Json.object members).IsSorted) : (Json.object (Json.insertMember name value members)).IsSorted := by
  obtain ⟨hascending, hvalues⟩ := Json.isSorted_object_iff.mp h
  refine Json.isSorted_object_iff.mpr ⟨hascending.insertMember name value, fun m hm => ?_⟩
  rcases Json.eq_or_mem_of_mem_insertMember name value hm with rfl | hm
  · exact hvalue
  · exact hvalues m hm

private theorem isSorted_addMissing (name : String) {value : Json} (hvalue : value.IsSorted)
    (h : (Json.object members).IsSorted) : (Json.object (addMissing name value members)).IsSorted := by
  rw [addMissing]
  split
  · exact h
  · exact isSorted_insertMember name hvalue h

end Record

namespace Record

/-- What a row asks of its members. -/
def rowDemands (first second : String) (form : Json → Prop) : List Demand :=
  [⟨"Id", Json.IsSigned64, true⟩, ⟨"Name", Json.IsString, true⟩, ⟨first, Json.IsUnsigned32, false⟩,
    ⟨second, form, false⟩]

/-- The members with zero for the two numbers where they are left out. -/
def completed (first second : String) (members : List (String × Json)) : List (String × Json) :=
  addMissing first (.ofInt64 0) (addMissing second (.ofInt64 0) members)

namespace RowForm

variable {α : Type} {form : RowForm α} {row : Row α} {members : List (String × Json)}

/-- The row is what the members are read as, field by field. -/
structure Reads (form : RowForm α) (members : List (String × Json)) (row : Row α) : Prop where
  id : required Json.asInt64? "Id" members = some row.id
  name : required Json.asString? "Name" members = some row.name
  first : defaulted 0 Json.asUInt32? form.first members = some row.first
  second : defaulted form.default form.decode form.second members = some row.second
  others : row.others = otherMembers form.fields members

/-- A row is read from members exactly if each of its fields is. -/
theorem read?_object_eq_some_iff : form.read? (.object members) = some row ↔ form.Reads members row := by
  simp only [read?, Option.bind_eq_bind, Option.bind_eq_some_iff, Option.pure_def, Option.some.injEq]
  constructor
  · rintro ⟨id, hid, name, hname, first, hfirst, second, hsecond, rfl⟩
    exact ⟨hid, hname, hfirst, hsecond, rfl⟩
  · intro h
    exact ⟨_, h.id, _, h.name, _, h.first, _, h.second, by rw [← h.others]⟩

/-- The values that read as rows are the objects that meet the demands. Which
    values the second number is read from is all that has to be known of the
    table. -/
theorem exists_read?_iff {P : Json → Prop} (h : ∀ v, (∃ a, form.decode v = some a) ↔ P v) {v : Json} :
    (∃ row, form.read? v = some row) ↔ Meets (rowDemands form.first form.second P) v := by
  cases v with
  | object members =>
    simp only [Meets, Json.object.injEq, exists_eq_left', rowDemands, List.forall_mem_cons,
      ← exists_required_iff fun _ => Json.exists_asInt64?_iff, ← exists_required_iff fun _ => Json.exists_asString?_iff,
      ← exists_defaulted_iff (fun _ => Json.exists_asUInt32?_iff) 0, ← exists_defaulted_iff h form.default,
      read?_object_eq_some_iff]
    constructor
    · rintro ⟨row, hrow⟩
      exact ⟨⟨_, hrow.id⟩, ⟨_, hrow.name⟩, ⟨_, hrow.first⟩, ⟨_, hrow.second⟩, List.forall_mem_nil _⟩
    · rintro ⟨⟨id, hid⟩, ⟨name, hname⟩, ⟨first, hfirst⟩, ⟨second, hsecond⟩, -⟩
      exact ⟨⟨id, name, first, second, _⟩, ⟨hid, hname, hfirst, hsecond, rfl⟩⟩
  | _ => simp [read?, Meets]

/-- A row is written as the members it was read from, completed. The members
    have to be sorted, as those of every value that is parsed are: the row keeps
    them as they stand, and what is written is compared with its names in
    order. -/
theorem Lawful.writesBack (hform : form.Lawful) (hmembers : (Json.object members).IsSorted)
    (h : form.read? (.object members) = some row) :
    WritesBack (form.write row) (completed form.first form.second members) := by
  have hrow := read?_object_eq_some_iff.mp h
  have hid := lookup_of_required .ofInt64 (fun _ _ => Json.asInt64?_eq_some_iff) hrow.id
  have hname := lookup_of_required .string (fun _ _ => Json.asString?_eq_some_iff) hrow.name
  have hfirst : (members.lookup form.first).getD (.ofInt64 0) = .ofUInt64 row.first.toUInt64 :=
    getD_of_defaulted (fun n : UInt32 => .ofUInt64 n.toUInt64) (fun _ _ => Json.asUInt32?_eq_some_iff) hrow.first
  have hsecond : (members.lookup form.second).getD (.ofInt64 0) = form.encode row.second :=
    hform.encode_default ▸ getD_of_defaulted form.encode hform.decode_eq_some_iff hrow.second
  rw [write, hrow.others]
  refine Record.writesBack _ hmembers hform.names rfl (isSorted_addMissing _ rfl (isSorted_addMissing _ rfl hmembers))
    ?_ ?_
  · have hnames := hform.names
    simp only [List.nodup_cons, List.mem_cons, not_or] at hnames
    obtain ⟨⟨-, hidFirst, hidSecond, -⟩, ⟨hnameFirst, hnameSecond, -⟩, ⟨hne, -⟩, -⟩ := hnames
    simp only [List.forall_mem_cons, completed, lookup_addMissing]
    simp only [hidFirst, hidSecond, hnameFirst, hnameSecond, hne, Ne.symm hne, if_true, if_false, hid, hname, hfirst,
      hsecond]
    exact ⟨trivial, trivial, trivial, trivial, List.forall_mem_nil _⟩
  · intro other hother
    simp only [List.mem_cons, not_or] at hother
    obtain ⟨-, -, hotherFirst, hotherSecond, -⟩ := hother
    rw [completed, lookup_addMissing, if_neg hotherFirst, lookup_addMissing, if_neg hotherSecond]

end RowForm

end Record

private theorem exists_map_eq_some_iff {α β : Type} {f : α → β} {o : Option α} :
    (∃ b, o.map f = some b) ↔ ∃ a, o = some a := by
  cases o <;> simp

section

variable {v : Json} {members : List (String × Json)}

/-- The values that read as symbols are the objects that meet the demands of
    their table. -/
theorem SymbolInfo.exists_ofJson?_iff :
    (∃ s, ofJson? v = some s) ↔
      Record.Meets (Record.rowDemands "FractionalDigits" "MarginCurrencyId" Json.IsSigned64) v :=
  exists_map_eq_some_iff.trans (Record.RowForm.exists_read?_iff fun _ => Json.exists_asInt64?_iff)

/-- The values that read as currencies are the objects that meet the demands of
    their table. -/
theorem CurrencyInfo.exists_ofJson?_iff :
    (∃ c, ofJson? v = some c) ↔
      Record.Meets (Record.rowDemands "VolumeFractionalDigits" "DepositFractionalDigits" Json.IsUnsigned32) v :=
  exists_map_eq_some_iff.trans (Record.RowForm.exists_read?_iff fun _ => Json.exists_asUInt32?_iff)

/-- The number that a member shows: what the server wrote, rounded if it is an
    integer, and zero for no member. It is always finite. -/
inductive MoneyInfo.Shows : Option Json → Binary64 → Prop
  | missing : Shows none .zero
  | integer (n : Int) (lower : -0x8000000000000000 ≤ n) (upper : n < 0x10000000000000000) {s : Bool}
    {m : Binary64.Magnitude} (rounded : Binary64.ofInt n = .finite s m) :
    Shows (some (.number (.integer n lower upper))) (.finite s m)
  | real (s : Bool) (m : Binary64.Magnitude) : Shows (some (.number (.real s m))) (.finite s m)

/-- A number of a money record is the one that its member shows. -/
theorem MoneyInfo.shows_of_defaulted {name : String} {x : Binary64}
    (h : Record.defaulted .zero Json.asBinary64? name members = some x) : Shows (members.lookup name) x := by
  unfold Record.defaulted at h
  split at h
  · next hnone =>
    rw [hnone, ← Option.some.inj h]
    exact .missing
  · next w hw =>
    rw [hw]
    obtain ⟨s, m, rfl⟩ := Json.exists_finite_of_asBinary64? h
    unfold Json.asBinary64? at h
    split at h
    · next n lower upper => exact .integer n lower upper (Option.some.inj h)
    · next negative magnitude =>
      rw [← Option.some.inj h]
      exact .real negative magnitude
    · cases h

/-- A money record is read from members exactly if each of its fields is. -/
theorem MoneyInfo.ofJson?_object_eq_some_iff {m : MoneyInfo} :
    ofJson? (.object members) = some m ↔
      Record.defaulted .zero Json.asBinary64? "Free" members = some m.free ∧
        Record.defaulted .zero Json.asBinary64? "Credit" members = some m.credit ∧
        m.others = Record.otherMembers fields members := by
  simp only [ofJson?, Option.bind_eq_bind, Option.bind_eq_some_iff, Option.pure_def, Option.some.injEq]
  constructor
  · rintro ⟨free, hfree, credit, hcredit, rfl⟩
    exact ⟨hfree, hcredit, rfl⟩
  · rintro ⟨hfree, hcredit, hothers⟩
    exact ⟨_, hfree, _, hcredit, by rw [← hothers]⟩

/-- The members with these two numbers in the place of those that money is read
    from. -/
def MoneyInfo.restated (free credit : Binary64) (members : List (String × Json)) : List (String × Json) :=
  Json.insertMember "Free" (.ofBinary64 free) (Json.insertMember "Credit" (.ofBinary64 credit) members)

/-- What a money record asks of its members. -/
def MoneyInfo.demands : List Record.Demand :=
  [⟨"Free", Json.IsNumber, false⟩, ⟨"Credit", Json.IsNumber, false⟩]

/-- The values that read as money records are the objects whose two numbers,
    where they stand, are numbers. -/
theorem MoneyInfo.exists_ofJson?_iff : (∃ m, ofJson? v = some m) ↔ Record.Meets demands v := by
  cases v with
  | object members =>
    simp only [Record.Meets, demands, Json.object.injEq, exists_eq_left', List.forall_mem_cons,
      ← Record.exists_defaulted_iff (fun _ => Json.exists_asBinary64?_iff) .zero]
    constructor
    · rintro ⟨m, h⟩
      obtain ⟨hfree, hcredit, -⟩ := ofJson?_object_eq_some_iff.mp h
      exact ⟨⟨_, hfree⟩, ⟨_, hcredit⟩, List.forall_mem_nil _⟩
    · rintro ⟨⟨free, hfree⟩, ⟨credit, hcredit⟩, -⟩
      exact ⟨⟨free, credit, _⟩, ofJson?_object_eq_some_iff.mpr ⟨hfree, hcredit, rfl⟩⟩
  | _ => simp [ofJson?, Record.Meets]

/-- A money record is written as the members it was read from, with the numbers
    that were read in the place of those given. Integers may have been rounded,
    and numbers left out are written as zero. -/
theorem MoneyInfo.writesBack {m : MoneyInfo} (hv : (Json.object members).IsSorted)
    (h : ofJson? (.object members) = some m) : Record.WritesBack m.toJson (restated m.free m.credit members) := by
  obtain ⟨hfree, hcredit, hothers⟩ := ofJson?_object_eq_some_iff.mp h
  rw [toJson, hothers]
  refine Record.writesBack ["Free", "Credit"] hv (by decide) rfl ?_ ?_ ?_
  · exact Record.isSorted_insertMember _ (Json.isSorted_ofBinary64 _)
      (Record.isSorted_insertMember _ (Json.isSorted_ofBinary64 _) hv)
  · simp [restated, Json.lookup_insertMember]
  · intro other hother
    simp only [List.mem_cons, not_or] at hother
    obtain ⟨hnotFree, hnotCredit, -⟩ := hother
    rw [restated, Json.lookup_insertMember, if_neg hnotFree, Json.lookup_insertMember, if_neg hnotCredit]

/-- Rows and money records are the objects whose members have the forms of their
    fields. A row is written back as it was read, with zero for the numbers that
    were left out; a money record is written back with the numbers that it
    shows, and otherwise as it was read. -/
theorem rows_keep_members (hv : v.IsSorted) :
    ((∃ s, SymbolInfo.ofJson? v = some s) ↔
      Record.Meets (Record.rowDemands "FractionalDigits" "MarginCurrencyId" Json.IsSigned64) v) ∧
    ((∃ c, CurrencyInfo.ofJson? v = some c) ↔
      Record.Meets (Record.rowDemands "VolumeFractionalDigits" "DepositFractionalDigits" Json.IsUnsigned32) v) ∧
    ((∃ m, MoneyInfo.ofJson? v = some m) ↔ Record.Meets MoneyInfo.demands v) ∧
    ∀ members, v = .object members →
      (∀ s, SymbolInfo.ofJson? v = some s →
        Record.WritesBack s.toJson (Record.completed "FractionalDigits" "MarginCurrencyId" members)) ∧
      (∀ c, CurrencyInfo.ofJson? v = some c →
        Record.WritesBack c.toJson (Record.completed "VolumeFractionalDigits" "DepositFractionalDigits" members)) ∧
      ∀ m, MoneyInfo.ofJson? v = some m →
        MoneyInfo.Shows (members.lookup "Free") m.free ∧ MoneyInfo.Shows (members.lookup "Credit") m.credit ∧
          Record.WritesBack m.toJson (MoneyInfo.restated m.free m.credit members) := by
  refine ⟨SymbolInfo.exists_ofJson?_iff, CurrencyInfo.exists_ofJson?_iff, MoneyInfo.exists_ofJson?_iff, ?_⟩
  rintro members rfl
  refine ⟨fun s h => ?_, fun c h => ?_, fun m h => ?_⟩
  · obtain ⟨row, hrow, rfl⟩ := Option.map_eq_some_iff.mp h
    exact SymbolInfo.lawful_form.writesBack hv hrow
  · obtain ⟨row, hrow, rfl⟩ := Option.map_eq_some_iff.mp h
    exact CurrencyInfo.lawful_form.writesBack hv hrow
  · obtain ⟨hfree, hcredit, -⟩ := MoneyInfo.ofJson?_object_eq_some_iff.mp h
    exact ⟨MoneyInfo.shows_of_defaulted hfree, MoneyInfo.shows_of_defaulted hcredit, MoneyInfo.writesBack hv h⟩

/-- A symbol without a margin currency, with hours that no field is for. -/
def symbolWithHours : List (String × Json) :=
  [("FractionalDigits", .ofInt64 5),
    ("Hours", .object [("Close", .string "17:00"), ("Days", .array [.ofInt64 1, .null])]), ("Id", .ofInt64 1),
    ("Name", .string "EURUSD")]

/-- The margin currency is added to it, and nothing else changes. -/
theorem rows_keep_members_hours :
    (Json.object symbolWithHours).IsSorted ∧
      ∃ s, SymbolInfo.ofJson? (.object symbolWithHours) = some s ∧
        Record.WritesBack s.toJson
          (symbolWithHours.take 3 ++ ("MarginCurrencyId", .ofInt64 0) :: symbolWithHours.drop 3) := by
  have hsorted : (Json.object symbolWithHours).IsSorted := rfl
  obtain ⟨hsymbol, -, -, hback⟩ := rows_keep_members hsorted
  obtain ⟨hback, -, -⟩ := hback _ rfl
  have hmeets : Record.Meets (Record.rowDemands "FractionalDigits" "MarginCurrencyId" Json.IsSigned64)
      (.object symbolWithHours) := by
    refine ⟨_, rfl, ?_⟩
    simp only [Record.rowDemands, List.forall_mem_cons]
    exact ⟨⟨1, _, _, rfl, by decide⟩, ⟨_, rfl⟩, ⟨5, _, _, rfl, by decide⟩, rfl, List.forall_mem_nil _⟩
  obtain ⟨s, hs⟩ := hsymbol.mpr hmeets
  have hcompleted : Record.completed "FractionalDigits" "MarginCurrencyId" symbolWithHours =
      symbolWithHours.take 3 ++ ("MarginCurrencyId", .ofInt64 0) :: symbolWithHours.drop 3 := by
    decide
  exact ⟨hsorted, s, hs, hcompleted ▸ hback s hs⟩

end

end Brokerage
