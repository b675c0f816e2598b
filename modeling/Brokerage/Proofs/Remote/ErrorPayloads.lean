import Brokerage.Proofs.Http.ServerErrors
import Brokerage.Proofs.Record.KeptMembers

namespace Brokerage

namespace ErrorPayload

/-- The names of the fields, in the order of a list. -/
def names : List String :=
  ["code", "message", "data", "error"]

/-- What a payload asks of its members. The others may be anything. -/
def demands : List Record.Demand :=
  [⟨"code", Json.IsSigned64, false⟩, ⟨"message", Json.IsString, false⟩]

private theorem demands_names : ∀ d ∈ demands, d.name ∈ names := by
  simp [demands, names]

/-- The value has the form of a payload: it is an object, or a list of the
    fields in their order that may end early. -/
inductive HasForm : Json → Prop
  | object {members : List (String × Json)} (met : ∀ d ∈ demands, d.MetBy members) : HasForm (.object members)
  | array {items : List Json} (fits : items.length ≤ 4) (code : ∀ v, items[0]? = some v → v.IsSigned64)
    (message : ∀ v, items[1]? = some v → v.IsString) : HasForm (.array items)

/-- The error can be had back from the payload, which holds it whole or is
    written with all of its members that are not null. -/
def Recovers (p : ErrorPayload) (error : Json) : Prop :=
  p.error = some error ∨
    ∃ members, error = .object members ∧
      ∀ name v, members.lookup name = some v → v ≠ .null → p.toJson.get? name = some v

variable {error : Json} {p : ErrorPayload} {known members : List (String × Json)} {name : String}

/-- A payload is read from the fields of a record, two with values of their own
    where they are left out and two of any form. -/
theorem ofJson?_eq_some_iff :
    ofJson? error = some p ↔ ∃ known, Record.read? fields error = some known ∧
      Record.defaulted 0 Json.asInt64? "code" known = some p.code ∧
      Record.defaulted "" Json.asString? "message" known = some p.message ∧
      Record.optional some "data" known = some p.data ∧ Record.optional some "error" known = some p.error := by
  simp only [ofJson?, Option.bind_eq_bind, Option.bind_eq_some_iff, Option.pure_def, Option.some.injEq]
  constructor
  · rintro ⟨known, hread, code, hcode, message, hmessage, data, hdata, error, herror, rfl⟩
    exact ⟨known, hread, hcode, hmessage, hdata, herror⟩
  · rintro ⟨known, hread, hcode, hmessage, hdata, herror⟩
    exact ⟨known, hread, _, hcode, _, hmessage, _, hdata, _, herror, rfl⟩

/-- Only the code and the message of a payload can be of a wrong form. What else
    it holds is read as any value, and null as nothing. -/
theorem exists_ofJson?_iff_met (hread : Record.read? fields error = some known) :
    (∃ p, ofJson? error = some p) ↔ ∀ d ∈ demands, d.MetBy known := by
  simp only [demands, List.forall_mem_cons, ← Record.exists_defaulted_iff (fun _ => Json.exists_asInt64?_iff) 0,
    ← Record.exists_defaulted_iff (fun _ => Json.exists_asString?_iff) ""]
  constructor
  · rintro ⟨p, h⟩
    obtain ⟨known', hread', hcode, hmessage, -, -⟩ := ofJson?_eq_some_iff.mp h
    cases hread.symm.trans hread'
    exact ⟨⟨_, hcode⟩, ⟨_, hmessage⟩, List.forall_mem_nil _⟩
  · rintro ⟨⟨code, hcode⟩, ⟨message, hmessage⟩, -⟩
    obtain ⟨data, hdata⟩ := Record.exists_optional_some "data" known
    obtain ⟨error, herror⟩ := Record.exists_optional_some "error" known
    exact ⟨⟨code, message, data, error⟩, ofJson?_eq_some_iff.mpr ⟨known, hread, hcode, hmessage, hdata, herror⟩⟩

private theorem not_exists_ofJson? (hread : Record.read? fields error = none) : ¬∃ p, ofJson? error = some p := by
  rintro ⟨p, h⟩
  obtain ⟨known, hknown, -⟩ := ofJson?_eq_some_iff.mp h
  cases hread.symm.trans hknown

/-- A payload is read from exactly the values that have its form. Being sorted,
    an object has no name twice, for which it would be refused. -/
theorem exists_ofJson?_iff_hasForm (hsorted : error.IsSorted) : (∃ p, ofJson? error = some p) ↔ HasForm error := by
  cases error with
  | object members =>
    obtain ⟨known, hread, hlookup⟩ := Record.read?_named_object names (Json.isSorted_object_iff.mp hsorted).1
    have hmet : (∀ d ∈ demands, d.MetBy known) ↔ ∀ d ∈ demands, d.MetBy members := by
      refine forall₂_congr fun d hd => ?_
      rw [Record.Demand.MetBy, Record.Demand.MetBy, hlookup d.name (demands_names d hd)]
    rw [exists_ofJson?_iff_met hread, hmet]
    constructor
    · exact .object
    · rintro ⟨hmet⟩
      exact hmet
  | array items =>
    by_cases hfits : items.length ≤ 4
    · have hread : Record.read? fields (.array items) = some (names.zip items) := if_pos hfits
      have hnodup : names.Nodup := by decide
      rw [exists_ofJson?_iff_met hread]
      simp only [demands, List.forall_mem_cons, Record.Demand.metBy_iff_forall, Record.lookup_zip (i := 0) hnodup rfl,
        Record.lookup_zip (i := 1) hnodup rfl]
      constructor
      · rintro ⟨hcode, hmessage, -⟩
        exact .array hfits hcode hmessage
      · rintro (_ | ⟨-, hcode, hmessage⟩)
        exact ⟨hcode, hmessage, List.forall_mem_nil _⟩
    · refine iff_of_false (not_exists_ofJson? (if_neg hfits)) ?_
      rintro (_ | ⟨hlength, -, -⟩)
      exact hfits hlength
  | null | bool _ | number _ | string _ =>
    refine iff_of_false (not_exists_ofJson? rfl) ?_
    intro h
    cases h

/-- What is read is a part of the error, so it is not the error. -/
theorem error_ne (h : ofJson? error = some p) : p.error ≠ some error := by
  intro hwhole
  obtain ⟨known, hread, -, -, -, herror⟩ := ofJson?_eq_some_iff.mp h
  rw [hwhole] at herror
  have hmem := Json.mem_of_lookup (Record.lookup_of_optional_some herror).1
  exact absurd (Record.sizeOf_lt_of_read? hread _ hmem) (lt_irrefl _)

/-- A payload is written under the names of its fields and no other. So whatever
    else the error held is lost once it has been read as a payload. -/
theorem get?_toJson_eq_none (p : ErrorPayload) (hname : name ∉ names) : p.toJson.get? name = none := by
  simp only [names, List.mem_cons, List.not_mem_nil, or_false, not_or] at hname
  obtain ⟨hcode, hmessage, hdata, herror⟩ := hname
  simp [toJson, Json.get?, List.lookup_append, Record.lookup_member, Record.lookup_memberIfSome, hcode, hmessage, hdata,
    herror]

/-- A member that a payload has a field for is written as it was, if it was not
    null. -/
theorem get?_toJson_of_lookup (hsorted : (Json.object members).IsSorted) (h : ofJson? (.object members) = some p)
    (hname : name ∈ names) {v : Json} (hv : members.lookup name = some v) (hnull : v ≠ .null) :
    p.toJson.get? name = some v := by
  obtain ⟨known, hread, hcode, hmessage, hdata, herror⟩ := ofJson?_eq_some_iff.mp h
  obtain ⟨known', hread', hlookup⟩ := Record.read?_named_object names (Json.isSorted_object_iff.mp hsorted).1
  cases hread.symm.trans hread'
  have hfield := (hlookup name hname).trans hv
  simp only [names, List.mem_cons, List.not_mem_nil, or_false] at hname
  rcases hname with rfl | rfl | rfl | rfl
  · have hwritten := Record.getD_of_defaulted .ofInt64 (fun _ _ => Json.asInt64?_eq_some_iff) hcode
    rw [hfield, Option.getD_some] at hwritten
    rw [hwritten]
    rfl
  · have hwritten := Record.getD_of_defaulted .string (fun _ _ => Json.asString?_eq_some_iff) hmessage
    rw [hfield, Option.getD_some] at hwritten
    rw [hwritten]
    rfl
  · rw [Record.optional_some_of_lookup hfield hnull] at hdata
    simp [toJson, Json.get?, List.lookup_append, Record.lookup_member, Record.lookup_memberIfSome,
      ← Option.some.inj hdata]
  · rw [Record.optional_some_of_lookup hfield hnull] at herror
    simp [toJson, Json.get?, List.lookup_append, Record.lookup_member, Record.lookup_memberIfSome,
      ← Option.some.inj herror]

/-- An error that was read as a payload can be had back exactly if it is an
    object whose members, but for nulls, all belong to fields. A list of the
    fields cannot, since it can no more be told from an object with them. -/
theorem recovers_iff_of_ofJson? (hsorted : error.IsSorted) (h : ofJson? error = some p) :
    p.Recovers error ↔ ∃ members, error = .object members ∧
      ∀ name v, members.lookup name = some v → v ≠ .null → name ∈ names := by
  constructor
  · rintro (hwhole | ⟨members, rfl, hmembers⟩)
    · exact absurd hwhole (error_ne h)
    · refine ⟨members, rfl, fun name v hv hnull => ?_⟩
      by_contra hname
      cases (get?_toJson_eq_none p hname).symm.trans (hmembers name v hv hnull)
  · rintro ⟨members, rfl, hnames⟩
    exact .inr ⟨members, rfl, fun name v hv hnull =>
      get?_toJson_of_lookup hsorted h (hnames name v hv hnull) hv hnull⟩

end ErrorPayload

namespace Http

open ErrorPayload

/-- The error that the reply reports can be had back from the payload it is
    passed on as. -/
def KeepsError (reply error : Json) : Prop :=
  ∃ p, ReplyEnvelope.decode reply = .error (.server p) ∧ p.Recovers error

variable {reply error : Json}

private theorem ReportsError.isSorted (hreply : reply.IsSorted) (h : ReportsError reply error) : error.IsSorted := by
  obtain ⟨members, rfl, hlookup⟩ := h.exists_object
  exact (Json.isSorted_object_iff.mp hreply).2 _ (Json.mem_of_lookup hlookup)

private theorem payload_of_not_hasForm (hsorted : error.IsSorted) (h : ¬HasForm error) :
    ReplyEnvelope.payload error = ⟨-32603, error.unquoted, none, some error⟩ := by
  cases hread : ErrorPayload.ofJson? error with
  | none => rw [ReplyEnvelope.payload, hread, Option.getD_none]
  | some p => exact absurd ((exists_ofJson?_iff_hasForm hsorted).mp ⟨p, hread⟩) h

/-- Whether the error of a reply is kept depends on the payload alone. The
    premise says that the reply reports the error, in place of a result or
    beside one. -/
theorem keepsError_iff_recovers (h : ReportsError reply error) :
    KeepsError reply error ↔ (ReplyEnvelope.payload error).Recovers error := by
  rw [KeepsError, h.decode_eq]
  constructor
  · rintro ⟨p, ⟨⟩, hrecovers⟩
    exact hrecovers
  · intro hrecovers
    exact ⟨_, rfl, hrecovers⟩

/-- An error without the form of a payload is passed on whole. One with that
    form is kept if it is an object with nothing but the fields of a payload and
    nulls, and otherwise it is lost: members under other names are not written,
    and a list of the fields is written as an object. -/
theorem keepsError_iff (hreply : reply.IsSorted) (h : ReportsError reply error) :
    KeepsError reply error ↔ ¬HasForm error ∨
      ∃ members, error = .object members ∧
        ∀ name v, members.lookup name = some v → v ≠ .null → name ∈ names := by
  have hsorted := h.isSorted hreply
  rw [keepsError_iff_recovers h]
  by_cases hform : HasForm error
  · obtain ⟨p, hp⟩ := (exists_ofJson?_iff_hasForm hsorted).mpr hform
    rw [ReplyEnvelope.payload, hp, Option.getD_some, recovers_iff_of_ofJson? hsorted hp]
    exact ⟨.inr, fun hor => hor.resolve_left (not_not_intro hform)⟩
  · rw [payload_of_not_hasForm hsorted hform]
    exact iff_of_true (.inl rfl) (.inl hform)

/-- A reply with this error and nothing else. -/
def refusedWith (error : Json) : Json :=
  .object [("error", error)]

/-- The server's own name for an error is kept. -/
def methodNotFound : List (String × Json) :=
  [("code", .ofInt64 (-32601)), ("error", .string "MethodNotFound"), ("message", .string "Method not found")]

/-- An error with no members but those of a payload is kept whole. -/
theorem keepsError_methodNotFound :
    (refusedWith (.object methodNotFound)).IsSorted ∧
      ReportsError (refusedWith (.object methodNotFound)) (.object methodNotFound) ∧
      KeepsError (refusedWith (.object methodNotFound)) (.object methodNotFound) := by
  have hsorted : (refusedWith (.object methodNotFound)).IsSorted := rfl
  have hreports : ReportsError (refusedWith (.object methodNotFound)) (.object methodNotFound) := ⟨rfl, nofun⟩
  refine ⟨hsorted, hreports, (keepsError_iff hsorted hreports).mpr (.inr ⟨_, rfl, fun name v hv _ => ?_⟩)⟩
  have hname : name ∈ methodNotFound.map Prod.fst := List.mem_map_of_mem (Json.mem_of_lookup hv)
  simp only [methodNotFound, List.map_cons, List.map_nil, List.mem_cons, List.not_mem_nil, or_false] at hname
  rcases hname with rfl | rfl | rfl <;> decide

/-- An explanation beside the message is lost. -/
def explained : List (String × Json) :=
  [("code", .ofInt64 1), ("details", .string "x"), ("message", .string "m")]

/-- An error with a member beside those of a payload is decoded as a payload,
    and the member is gone. -/
theorem not_keepsError :
    (refusedWith (.object explained)).IsSorted ∧ ReportsError (refusedWith (.object explained)) (.object explained) ∧
      ¬KeepsError (refusedWith (.object explained)) (.object explained) := by
  have hreports : ReportsError (refusedWith (.object explained)) (.object explained) := ⟨rfl, nofun⟩
  refine ⟨rfl, hreports, fun h => ?_⟩
  have hpayload : ReplyEnvelope.payload (.object explained) = ⟨1, "m", none, none⟩ := by decide +kernel
  rw [keepsError_iff_recovers hreports, hpayload] at h
  rcases h with hwhole | ⟨members, heq, hmembers⟩
  · cases hwhole
  · cases heq
    cases hmembers "details" (.string "x") rfl nofun

end Http

end Brokerage
