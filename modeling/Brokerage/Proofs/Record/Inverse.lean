import Brokerage.Account.Record
import Brokerage.Client.Terminal
import Brokerage.Market.Order
import Brokerage.Proofs.Account.Money
import Brokerage.Proofs.Json.Record
import Brokerage.Search.Document

namespace Brokerage

variable {α : Type}

/-- What one writes, the other reads from the value with its members sorted, as
    it is sent. -/
def Inverts (decode : Json → Option α) (encode : α → Json) : Prop :=
  ∀ a, decode (encode a).sorted = some a

namespace Json

@[simp]
theorem sorted_string (s : String) : (string s).sorted = string s :=
  rfl

@[simp]
theorem sorted_ofInt64 (n : Int64) : (ofInt64 n).sorted = ofInt64 n :=
  rfl

@[simp]
theorem sorted_ofUInt64 (n : UInt64) : (ofUInt64 n).sorted = ofUInt64 n :=
  rfl

@[simp]
theorem asString?_string (s : String) : (string s).asString? = some s :=
  rfl

@[simp]
theorem asInt64?_ofInt64 (n : Int64) : (ofInt64 n).asInt64? = some n :=
  asInt64?_eq_some_iff.mpr rfl

private theorem asNatBelow?_ofUInt64 {bound : Nat} {n : UInt64} (h : n.toNat < bound) :
    (ofUInt64 n).asNatBelow? bound = some n.toNat := by
  simp [asNatBelow?, ofUInt64, asInt?, h]

@[simp]
theorem asUInt64?_ofUInt64 (n : UInt64) : (ofUInt64 n).asUInt64? = some n := by
  rw [asUInt64?, asNatBelow?_ofUInt64 n.toNat_lt]
  exact congrArg some n.ofNat_toNat

@[simp]
theorem asUInt32?_ofUInt64 (n : UInt32) : (ofUInt64 n.toUInt64).asUInt32? = some n := by
  rw [asUInt32?, asNatBelow?_ofUInt64 n.toNat_lt]
  exact congrArg some n.ofNat_toNat

/-- An integer is read from the numbers that are written without point and
    exponent, and from no float of the same value. -/
theorem asInt?_eq_some_iff {v : Json} {n : Int} :
    v.asInt? = some n ↔ ∃ lower upper, v = .number (.integer n lower upper) := by
  unfold asInt?
  split
  · next m lower upper =>
    constructor
    · rintro ⟨⟩
      exact ⟨lower, upper, rfl⟩
    · rintro ⟨_, _, h⟩
      cases h
      rfl
  · next hother =>
    constructor
    · intro h
      cases h
    · rintro ⟨lower, upper, rfl⟩
      exact absurd rfl (hother n lower upper)

/-- An integer of 32 bits without a sign is read from exactly the value that
    writes it. -/
theorem asUInt32?_eq_some_iff {v : Json} {n : UInt32} : v.asUInt32? = some n ↔ v = .ofUInt64 n.toUInt64 := by
  constructor
  · intro h
    obtain ⟨m, hm, rfl⟩ := Option.map_eq_some_iff.mp h
    obtain ⟨value, hvalue, hrange⟩ := Option.bind_eq_some_iff.mp hm
    obtain ⟨lower, upper, rfl⟩ := asInt?_eq_some_iff.mp hvalue
    split at hrange
    · next hbounds =>
      cases hrange
      have hsmall : value < 4294967296 := hbounds.2
      simp only [ofUInt64, UInt32.toNat_toUInt64, UInt32.toNat_ofNat', number.injEq, Number.integer.injEq]
      omega
    · cases hrange
  · rintro rfl
    exact asUInt32?_ofUInt64 n

@[simp]
theorem asUInt16?_ofUInt64 (n : UInt16) : (ofUInt64 n.toUInt64).asUInt16? = some n := by
  rw [asUInt16?, asNatBelow?_ofUInt64 n.toNat_lt]
  exact congrArg some n.ofNat_toNat

end Json

/-- A list is read back if its items are, each in its place; a single item that
    is not read would lose them all. -/
theorem Inverts.list {decode : Json → Option α} {encode : α → Json} (h : Inverts decode encode) :
    Inverts (Json.asList? decode) fun items => .array (items.map encode) := by
  intro items
  rw [Json.sorted, Json.sortedItems_eq_map, Json.asList?, mapM_eq_some_iff, List.map_map, List.map_map]
  exact List.map_congr_left fun a _ => h a

section

variable {decode : Json → Option α} {encode : α → Json} {known : List (String × Json)} {name : String}

private theorem Inverts.sorted_ne_null (h : Inverts decode encode) (hnull : decode .null = none) (a : α) :
    (encode a).sorted ≠ .null := by
  intro heq
  have ha := h a
  rw [heq, hnull] at ha
  cases ha

/-- A part that is left out when there is none is read back, unless null is one
    of the values it can have. -/
theorem Inverts.optional_of_lookup_map {o : Option α} (h : Inverts decode encode) (hnull : decode .null = none)
    (hlookup : known.lookup name = (o.map encode).map Json.sorted) : Record.optional decode name known = some o :=
  Record.optional_of_lookup_map encode hlookup fun a _ => ⟨h.sorted_ne_null hnull a, h a⟩

/-- A part that is written as null when there is none is read back, unless null
    is one of the values it can have. -/
theorem Inverts.optional_of_lookup_getD {o : Option α} (h : Inverts decode encode) (hnull : decode .null = none)
    (hlookup : known.lookup name = some ((o.map encode).getD .null).sorted) :
    Record.optional decode name known = some o :=
  Record.optional_of_lookup_getD encode hlookup fun a _ => ⟨h.sorted_ne_null hnull a, h a⟩

end

theorem Json.inverts_string : Inverts asString? string :=
  asString?_string

private theorem Json.inverts_int64 : Inverts asInt64? ofInt64 :=
  asInt64?_ofInt64

theorem Json.inverts_uint64 : Inverts asUInt64? ofUInt64 :=
  asUInt64?_ofUInt64

theorem AccountNumberKind.inverts : Inverts ofJson? toJson := by
  intro k
  cases k <;> rfl

theorem TradeCommand.inverts : Inverts ofJson? toJson := by
  intro c
  cases c <;> rfl

namespace Expression

mutual

/-- A node is written as strings and lists only, so there is nothing to sort in
    it. -/
theorem Node.isSorted_toJson : (n : Node) → n.toJson.IsSorted
  | .token _ => rfl
  | .group nodes => congrArg Json.array (sortedItems_nodesToJson nodes)

private theorem sortedItems_nodesToJson : (nodes : List Node) → Json.sortedItems (nodesToJson nodes) = nodesToJson nodes
  | [] => rfl
  | n :: ns => congrArg₂ List.cons (Node.isSorted_toJson n) (sortedItems_nodesToJson ns)

end

mutual

/-- A node is read back from what it is written as, by recursion into its
    groups. -/
theorem Node.ofJson?_toJson : (n : Node) → Node.ofJson? n.toJson = some n
  | .token _ => rfl
  | .group nodes => by rw [Node.toJson, Node.ofJson?, nodesOfJson?_nodesToJson nodes, Option.map_some]

/-- The nodes of a group are read back one by one. -/
theorem nodesOfJson?_nodesToJson : (nodes : List Node) → nodesOfJson? (nodesToJson nodes) = some nodes
  | [] => rfl
  | n :: ns => by
    rw [nodesToJson, nodesOfJson?, Node.ofJson?_toJson n, nodesOfJson?_nodesToJson ns]
    rfl

end

/-- Nodes are read back, whether token or group. -/
theorem Node.inverts : Inverts Node.ofJson? Node.toJson := by
  intro n
  rw [n.isSorted_toJson]
  exact n.ofJson?_toJson

theorem isSorted_toJson (e : Expression) : e.toJson.IsSorted :=
  congrArg Json.array (sortedItems_nodesToJson e)

theorem inverts : Inverts ofJson? toJson := by
  intro e
  rw [isSorted_toJson e]
  exact nodesOfJson?_nodesToJson e

end Expression

theorem SortDirection.inverts : Inverts ofJson? toJson := by
  intro d
  cases d <;> rfl

/-- A projected column is read back, plain or computed. The two forms are told
    apart by what is written: a text, or an object. -/
theorem Projection.inverts : Inverts ofJson? toJson := by
  intro p
  cases p with
  | column name => rfl
  | computed expression label =>
    have hnodup : ([("Expr", expression.toJson), ("As", Json.string label)].map Prod.fst).Nodup := by simp
    have hlookup := Json.lookup_sortMembers_sortedValues hnodup
    simp [ofJson?, toJson, Json.sorted, Record.required, hlookup, Json.lookup_cons_eq_ite, Json.asString?,
      Expression.inverts expression]

theorem IdParams.inverts : Inverts ofJson? toJson := by
  intro p
  have hfields : Record.Unambiguous [.named "Id"] := Record.unambiguous_named (by decide : ["Id"].Nodup)
  obtain ⟨known, hread, hlookup⟩ := Record.read?_sorted_object (v := p.toJson) rfl hfields (.refl _)
  simp [ofJson?, hread, Record.required, hlookup]

theorem QuotesParams.inverts : Inverts ofJson? toJson := by
  intro p
  have hfields : Record.Unambiguous [.named "Symbols"] := Record.unambiguous_named (by decide : ["Symbols"].Nodup)
  obtain ⟨known, hread, hlookup⟩ := Record.read?_sorted_object (v := p.toJson) rfl hfields (.refl _)
  simp [ofJson?, hread, Record.required, hlookup, Json.inverts_string.list p.symbols]

/-- A new account is read back, the fields that may be left out included. -/
theorem NewAccount.inverts : Inverts ofJson? toJson := by
  intro a
  have hfields : Record.Unambiguous fields := Record.unambiguous_named (by decide)
  obtain ⟨known, hread, hlookup⟩ := Record.read?_sorted_object (v := a.toJson) rfl hfields (.refl _)
  have hagent : Record.optional Json.asInt64? "AgentAccount" known = some a.agentAccount := by
    apply Json.inverts_int64.optional_of_lookup_getD rfl
    simp [hlookup, Json.lookup_cons_eq_ite]
  simp [ofJson?, hread, Record.required, hagent, hlookup, Json.lookup_cons_eq_ite]

theorem NewAccountNumber.inverts : Inverts ofJson? toJson := by
  intro n
  have hfields : Record.Unambiguous fields := Record.unambiguous_named (by decide)
  obtain ⟨known, hread, hlookup⟩ := Record.read?_sorted_object (v := n.toJson) rfl hfields (.refl _)
  simp [ofJson?, hread, Record.required, Record.defaulted, hlookup, Json.lookup_cons_eq_ite,
    Json.inverts_string.list n.tags, AccountNumberKind.inverts n.kind]

/-- The parameters of a question for money are read back. Their two lists are
    written alike, under names of their own. -/
theorem MoneyInfoParams.inverts : Inverts ofJson? toJson := by
  intro p
  have hfields : Record.Unambiguous fields := Record.unambiguous_named (by decide)
  obtain ⟨known, hread, hlookup⟩ := Record.read?_sorted_object (v := p.toJson) rfl hfields (by
    rw [List.map_append]
    exact (List.Sublist.refl ["AccountNumbers"]).append (Record.map_fst_memberIfSome_sublist ..))
  have hcurrency : Record.optional Json.asString? "Currency" known = some p.currency := by
    apply Json.inverts_string.optional_of_lookup_map rfl
    simp [hlookup, List.lookup_append, Record.lookup_member, Record.lookup_memberIfSome]
  simp [ofJson?, hread, Record.required, hcurrency, hlookup, List.lookup_append, Record.lookup_member,
    Json.inverts_int64.list p.accountNumbers]

theorem BalanceParams.inverts : Inverts ofJson? toJson := by
  intro p
  have hfields : Record.Unambiguous fields := Record.unambiguous_named (by decide)
  obtain ⟨known, hread, hlookup⟩ := Record.read?_sorted_object (v := p.toJson) rfl hfields (.refl _)
  simp [ofJson?, hread, Record.required, hlookup, Json.lookup_cons_eq_ite]

theorem OrderOpen.inverts : Inverts ofJson? toJson := by
  intro o
  have hfields : Record.Unambiguous fields := Record.unambiguous_named (by decide)
  obtain ⟨known, hread, hlookup⟩ := Record.read?_sorted_object (v := o.toJson) rfl hfields (.refl _)
  simp [ofJson?, hread, Record.required, Record.defaulted, hlookup, Json.lookup_cons_eq_ite,
    TradeCommand.inverts o.command]

theorem TraderAuthParams.inverts : Inverts ofJson? toJson := by
  intro p
  have hfields : Record.Unambiguous fields := Record.unambiguous_named (by decide)
  obtain ⟨known, hread, hlookup⟩ := Record.read?_sorted_object (v := p.toJson) rfl hfields (.refl _)
  simp [ofJson?, hread, Record.required, hlookup, Json.lookup_cons_eq_ite]

private theorem Settings.unambiguous_fields : Record.Unambiguous fields where
  nodup := by decide
  fieldName?_eq := by
    intro f hf
    simp only [fields, List.mem_cons, List.not_mem_nil, or_false] at hf
    rcases hf with rfl | rfl | rfl | rfl | rfl | rfl <;> rfl

/-- Settings are read back from what they are written as, which has every field
    under its own name; the aliases are for reading only, and none of them is
    the name of another field. -/
theorem Settings.inverts : Inverts ofJson? toJson := by
  intro s
  obtain ⟨known, hread, hlookup⟩ := Record.read?_sorted_object (v := s.toJson) rfl unambiguous_fields (by
    simp only [List.map_append]
    exact (((List.Sublist.refl ["host", "port", "broker_id", "password"]).append
      (Record.map_fst_memberIfSome_sublist ..)).append (.refl ["timeout_ms"])))
  have hterminal : Record.optional Json.asString? "terminal_url" known = some s.terminalUrl := by
    apply Json.inverts_string.optional_of_lookup_map rfl
    simp [hlookup, List.lookup_append, Record.lookup_member, Record.lookup_memberIfSome]
  simp [ofJson?, hread, ofMembers?, Record.defaulted, hterminal, hlookup, List.lookup_append, Record.lookup_member,
    Record.lookup_memberIfSome]

end Brokerage
