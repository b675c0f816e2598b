import Brokerage.Account.Money
import Brokerage.Proofs.Binary64.Rounding
import Brokerage.Proofs.Json.Sorted
import Brokerage.Proofs.Outcome

namespace Brokerage

/-- An integer of 64 bits with a sign is read from exactly the value that writes
    it. -/
theorem Json.asInt64?_eq_some_iff {v : Json} {n : Int64} : v.asInt64? = some n ↔ v = .ofInt64 n := by
  constructor
  · intro h
    obtain ⟨value, hvalue, hn⟩ := Option.bind_eq_some_iff.mp h
    split at hn
    case isFalse => cases hn
    case isTrue hupper =>
      cases hn
      unfold asInt? at hvalue
      split at hvalue
      · next lower upper =>
        cases hvalue
        simp [ofInt64, Int64.toInt_ofInt_of_le lower hupper]
      · cases hvalue
  · rintro rfl
    simpa [asInt64?, ofInt64, asInt?] using Int64.toInt_lt n

/-- The ticket of an answer is its member of that name, if that is an integer of
    64 bits other than zero. -/
theorem ticket?_eq_some_iff {v : Json} {t : Int64} :
    ticket? v = some t ↔ v.get? "Ticket" = some (.ofInt64 t) ∧ t ≠ 0 := by
  rw [ticket?, Option.filter_eq_some_iff, Option.bind_eq_some_iff]
  simp only [Json.asInt64?_eq_some_iff, exists_eq_right, bne_iff_ne]

theorem Json.ofInt64_inj {m n : Int64} (h : ofInt64 m = ofInt64 n) : m = n :=
  Option.some.inj ((asInt64?_eq_some_iff.mpr rfl).symm.trans (asInt64?_eq_some_iff.mpr h))

/-- No infinity and no NaN is read from a value: integers are rounded to finite
    numbers, and the reals of a value are finite. -/
theorem Json.exists_finite_of_asBinary64? {v : Json} {x : Binary64} (h : v.asBinary64? = some x) :
    ∃ s m, x = .finite s m := by
  unfold asBinary64? at h
  split at h
  · next n lower upper =>
    obtain ⟨m, hm, -⟩ := @Binary64.exists_ofInt_eq_finite n (by omega)
    exact ⟨_, m, by rw [← Option.some.inj h, hm]⟩
  · cases h
    exact ⟨_, _, rfl⟩
  · cases h

/-- A number that is zero where it is left out is finite, whatever the members
    hold. -/
theorem exists_finite_of_defaulted {name : String} {members : List (String × Json)} {x : Binary64}
    (h : Record.defaulted .zero Json.asBinary64? name members = some x) : ∃ s m, x = .finite s m := by
  unfold Record.defaulted at h
  split at h
  · cases h
    exact ⟨_, _, rfl⟩
  · exact Json.exists_finite_of_asBinary64? h

namespace MoneyInfo

/-- What can be withdrawn is a number, if perhaps an infinite one. Both numbers
    of the record are finite, so their difference cannot be indefinite. -/
theorem withdrawable_ne_nan {v : Json} {money : MoneyInfo} (h : ofJson? v = some money) :
    money.withdrawable ≠ .nan := by
  unfold ofJson? at h
  split at h
  · obtain ⟨free, hfree, h⟩ := Option.bind_eq_some_iff.mp h
    obtain ⟨credit, hcredit, h⟩ := Option.bind_eq_some_iff.mp h
    cases h
    obtain ⟨s, m, rfl⟩ := exists_finite_of_defaulted hfree
    obtain ⟨t, n, rfl⟩ := exists_finite_of_defaulted hcredit
    exact Binary64.sub_finite_ne_nan s t m n
  · cases h

/-- The value is a map of money records, with these members. Every member has to
    be one, also under names that nobody asks for. -/
def IsMap (v : Json) (members : List (String × Json)) : Prop :=
  v = .object members ∧ ∀ m ∈ members, ∃ info, ofJson? m.2 = some info

variable {v : Json} {members : List (String × Json)} {table : List (String × MoneyInfo)}

theorem tableOfJson?_object (members : List (String × Json)) :
    tableOfJson? (.object members) = members.mapM fun m => (ofJson? m.2).map fun info => (m.1, info) :=
  rfl

private theorem tableOfJson?_object_eq_none_iff :
    tableOfJson? (.object members) = none ↔ ∃ m ∈ members, ofJson? m.2 = none := by
  simp only [tableOfJson?_object, mapM_eq_none_iff, Option.map_eq_none_iff]

private theorem isMap_object_iff : IsMap (.object members) members ↔ ∃ table, tableOfJson? (.object members) = some table := by
  rw [← Option.isSome_iff_exists, Option.isSome_iff_ne_none, Ne, tableOfJson?_object_eq_none_iff, IsMap]
  simp only [true_and, not_exists, not_and, Option.ne_none_iff_exists', ← Ne.eq_def]

theorem IsMap.exists_table (h : IsMap v members) : ∃ table, tableOfJson? (.object members) = some table := by
  obtain ⟨rfl, hmembers⟩ := h
  exact isMap_object_iff.mp ⟨rfl, hmembers⟩

/-- A table is read from a map of money records and from nothing else. A list of
    records is refused as a whole, and so is a map with one member that is
    none. -/
theorem exists_isMap_of_tableOfJson? (h : tableOfJson? v = some table) : ∃ members, IsMap v members := by
  cases v with
  | object members => exact ⟨members, isMap_object_iff.mpr ⟨table, h⟩⟩
  | _ => cases h

/-- Each member of a map that was read is a money record. -/
theorem exists_info_of_lookup (h : tableOfJson? (.object members) = some table) {name : String} {entry : Json}
    (hentry : members.lookup name = some entry) : ∃ info, ofJson? entry = some info :=
  (isMap_object_iff.mpr ⟨table, h⟩).2 _ (Json.mem_of_lookup hentry)

/-- The record of a name is read from the member of that name, so the other
    members have no effect on it. -/
theorem lookup_of_tableOfJson? (h : tableOfJson? (.object members) = some table) (name : String) :
    table.lookup name = (members.lookup name).bind ofJson? := by
  have hmap := mapM_eq_some_iff.mp h
  clear h
  induction members generalizing table with
  | nil =>
    obtain rfl := List.map_eq_nil_iff.mp hmap.symm
    rfl
  | cons m members ih =>
    cases table with
    | nil => cases hmap
    | cons entry table =>
      obtain ⟨hm, hmembers⟩ := List.cons.inj hmap
      obtain ⟨info, hinfo, rfl⟩ := Option.map_eq_some_iff.mp hm
      rw [List.lookup_cons, List.lookup_cons, ih hmembers]
      cases name == m.1
      · rfl
      · exact hinfo.symm

/-- Money found in a table was read from a member of what the table was read
    from. So whatever holds of money that is read holds of money that is
    found. -/
theorem exists_ofJson?_of_lookup {name : String} {money : MoneyInfo} (htable : tableOfJson? v = some table)
    (hmoney : table.lookup name = some money) : ∃ member, ofJson? member = some money := by
  obtain ⟨members, rfl, -⟩ := exists_isMap_of_tableOfJson? htable
  rw [lookup_of_tableOfJson? htable] at hmoney
  obtain ⟨member, -, hmember⟩ := Option.bind_eq_some_iff.mp hmoney
  exact ⟨member, hmember⟩

end MoneyInfo

end Brokerage
