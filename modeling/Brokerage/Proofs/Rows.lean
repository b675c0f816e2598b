import Brokerage.Proofs.Json.Sorted
import Brokerage.Search.Rows
import Mathlib.Data.List.Forall2

namespace Brokerage.ResultSet

/-- What a row holds in a column: its member of that name, and null where it has
    none. -/
inductive Holds (column : String) : Json → Json → Prop
  | member {members : List (String × Json)} {v : Json} (h : members.lookup column = some v) :
    Holds column (.object members) v
  | absent {members : List (String × Json)} (h : members.lookup column = none) : Holds column (.object members) .null
  | notObject {row : Json} (h : ∀ members, row ≠ .object members) : Holds column row .null

/-- The text under which a value stands in an index: a string itself, and any
    other value in compact form. -/
inductive KeyText : Json → String → Prop
  | string (s : String) : KeyText (.string s) s
  | compact {v : Json} (h : ∀ s, v ≠ .string s) : KeyText v v.compact

/-- The row has this text in the key column. -/
def Keyed (key text : String) (row : Json) : Prop :=
  ∃ v, Holds key row v ∧ KeyText v text

/-- Of the rows with this text in the key column it is the last. -/
def LastRow (r : ResultSet) (key text : String) (row : Json) : Prop :=
  ∃ before after, r.rows = before ++ row :: after ∧ Keyed key text row ∧ ∀ later ∈ after, ¬Keyed key text later

private theorem holds_iff {column : String} {row v : Json} : Holds column row v ↔ cell row column = v := by
  constructor
  · intro h
    cases h with
    | member h => rw [cell, Json.get?, h, Option.getD_some]
    | absent h => rw [cell, Json.get?, h, Option.getD_none]
    | notObject h =>
      cases row with
      | object members => exact absurd rfl (h members)
      | _ => rfl
  · rintro rfl
    cases row with
    | object members =>
      cases h : members.lookup column with
      | none => rw [cell, Json.get?, h]; exact .absent h
      | some v => rw [cell, Json.get?, h]; exact .member h
    | _ => exact .notObject fun _ h => by cases h

private theorem keyText_iff {v : Json} {text : String} : KeyText v text ↔ v.unquoted = text := by
  constructor
  · intro h
    cases h with
    | string => rfl
    | compact h =>
      cases v with
      | string s => exact absurd rfl (h s)
      | _ => rfl
  · rintro rfl
    cases v with
    | string s => exact .string s
    | _ => exact .compact fun _ h => by cases h

private theorem keyed_iff {key text : String} {row : Json} : Keyed key text row ↔ (cell row key).unquoted = text := by
  simp only [Keyed, holds_iff, keyText_iff, exists_eq_left']

variable {r : ResultSet} {key text : String}

private theorem lookup_map_eq_find? {α : Type} (name : α → String) (content : α → Json) (items : List α) (text : String) :
    (items.map fun a => (name a, content a)).lookup text = (items.find? fun a => name a == text).map content := by
  induction items with
  | nil => rfl
  | cons a items ih =>
    rw [List.map_cons, Json.lookup_cons_eq_ite, List.find?_cons, ih]
    by_cases h : text = name a
    · rw [if_pos h, h, beq_self_eq_true, Option.map_some]
    · rw [if_neg h, beq_false_of_ne (Ne.symm h)]

/-- What an index holds at a text is made from the last row with this text in
    its key column. The rows are searched from the end, because a later row
    replaces an earlier one. -/
theorem lookup_index (r : ResultSet) (key : String) (value : Option String) (text : String) :
    (r.index key value).lookup text =
      (r.rows.reverse.find? fun row => (cell row key).unquoted == text).map (indexed value) := by
  rw [index, Json.lookup_sortMembers_eq_reverse, ← List.map_reverse, lookup_map_eq_find?]

private theorem lookup_index_row (r : ResultSet) (key text : String) :
    (r.index key none).lookup text = r.rows.reverse.find? fun row => (cell row key).unquoted == text := by
  rw [lookup_index]
  exact Option.map_id'

/-- An index to rows holds at a text exactly the last row that has it. -/
theorem lookup_index_row_eq_some_iff {row : Json} :
    (r.index key none).lookup text = some row ↔ r.LastRow key text row := by
  rw [lookup_index_row, List.find?_eq_some_iff_append]
  simp only [LastRow, keyed_iff, beq_iff_eq, Bool.not_eq_true', beq_eq_false_iff_ne]
  constructor
  · rintro ⟨htext, after, before, hsplit, hafter⟩
    refine ⟨before.reverse, after.reverse, ?_, htext, fun later hlater => hafter later (List.mem_reverse.mp hlater)⟩
    simpa using congrArg List.reverse hsplit
  · rintro ⟨before, after, hsplit, htext, hafter⟩
    refine ⟨htext, after.reverse, before.reverse, ?_, fun later hlater => hafter later (List.mem_reverse.mp hlater)⟩
    simp [hsplit]

private theorem mem_keys_index_iff {value : Option String} :
    text ∈ (r.index key value).map Prod.fst ↔ ∃ row ∈ r.rows, Keyed key text row := by
  rw [← not_iff_not, ← Json.lookup_eq_none_iff_not_mem, lookup_index, Option.map_eq_none_iff, List.find?_eq_none]
  simp [keyed_iff]

/-- An index to a column holds that column of the rows that the index to rows
    holds. In particular a row without the column gives null, and does not leave
    the value of an earlier row in place. -/
theorem index_column_eq_map (r : ResultSet) (key column : String) :
    r.index key (some column) = (r.index key none).map fun e => (e.1, cell e.2 column) := by
  have hascending : Json.Ascending ((r.index key none).map fun e => (e.1, cell e.2 column)) :=
    List.pairwise_map.mpr (Json.ascending_sortMembers _)
  refine (Json.ascending_sortMembers _).eq_of_lookup_eq hascending fun text => ?_
  have hindex := lookup_index r key (some column) text
  rw [← lookup_index_row] at hindex
  exact hindex.trans (Json.lookup_map_snd (cell · column) _ text).symm

/-- An index to a column holds at a text what the last row with this text holds
    in the column. -/
theorem lookup_index_column_eq_some_iff {column : String} {v : Json} :
    (r.index key (some column)).lookup text = some v ↔ ∃ row, r.LastRow key text row ∧ Holds column row v := by
  have hindex := lookup_index r key (some column) text
  rw [← lookup_index_row] at hindex
  rw [hindex, Option.map_eq_some_iff]
  exact exists_congr fun row => and_congr lookup_index_row_eq_some_iff holds_iff.symm

/-- The pairs of a text and an item, written into an index one after the
    other. -/
def insertAll (texts : List String) (items : List Json) : List (String × Json) :=
  (texts.zip items).foldl (fun entries e => Json.insertMember e.1 e.2 entries) []

/-- An index is what remains when the rows are written into it one after the
    other. -/
theorem index_eq_insertAll (r : ResultSet) (key : String) (value : Option String) :
    r.index key value = insertAll ((r.column key).map Json.unquoted) (r.rows.map (indexed value)) := by
  rw [insertAll, column, List.map_map, List.zip_map', index, Json.sortMembers_eq_foldl]
  rfl

private theorem rows_eq_nil (h : r.raw.isArray = false) : r.rows = [] := by
  unfold rows
  split
  · next items hraw =>
    rw [hraw] at h
    cases h
  · rfl

/-- An index has the texts of its key column, each once. At a text stands the
    last row that has it, or what that row holds in the column asked for,
    whatever types the keys of one text have. Writing the rows, or the column,
    at the texts of the key column in the order of the rows makes the same
    index. -/
theorem index_lastWins (r : ResultSet) (key column : String) :
    (∀ items, r.raw = .array items → r.rows = items) ∧
    (r.raw.isArray = false →
      r.rows = [] ∧ r.column key = [] ∧ r.index key none = [] ∧ r.index key (some column) = []) ∧
    List.Forall₂ (Holds key) r.rows (r.column key) ∧
    Json.Ascending (r.index key none) ∧
    (∀ text, text ∈ (r.index key none).map Prod.fst ↔ ∃ v ∈ r.column key, KeyText v text) ∧
    (∀ text row, (r.index key none).lookup text = some row ↔ r.LastRow key text row) ∧
    (r.index key (some column)).map Prod.fst = (r.index key none).map Prod.fst ∧
    (∀ text v, (r.index key (some column)).lookup text = some v ↔
      ∃ row, r.LastRow key text row ∧ Holds column row v) ∧
    ∃ texts, List.Forall₂ KeyText (r.column key) texts ∧ r.index key none = insertAll texts r.rows ∧
      r.index key (some column) = insertAll texts (r.column column) := by
  refine ⟨?list, ?notList, ?column, Json.ascending_sortMembers _, ?keys, fun _ _ => lookup_index_row_eq_some_iff,
    ?sameKeys, fun _ _ => lookup_index_column_eq_some_iff, (r.column key).map Json.unquoted, ?texts, ?rows,
    index_eq_insertAll r key (some column)⟩
  case list =>
    intro items hraw
    rw [rows, hraw]
  case notList =>
    intro hraw
    have hrows := rows_eq_nil hraw
    simp [hrows, ResultSet.column, index, Json.sortMembers]
  case column => exact List.forall₂_map_right_iff.mpr (List.forall₂_same.mpr fun _ _ => holds_iff.mpr rfl)
  case keys =>
    intro text
    rw [mem_keys_index_iff]
    simp only [ResultSet.column, List.mem_map, exists_exists_and_eq_and, keyed_iff, keyText_iff]
  case sameKeys =>
    rw [index_column_eq_map, List.map_map]
    rfl
  case texts => exact List.forall₂_map_right_iff.mpr (List.forall₂_same.mpr fun _ _ => keyText_iff.mpr rfl)
  case rows =>
    have hrows : r.rows.map (indexed none) = r.rows := List.map_id' _
    rw [index_eq_insertAll, hrows]

-- A number and a string share a text, and so do a row without the key column, `null` and the string of that name.
example :
    let numbered := Json.object [("Id", .ofInt64 1), ("V", .string "a")]
    let quoted := Json.object [("Id", .string "1"), ("V", .string "b")]
    let named := Json.object [("Id", .string "null")]
    let r : ResultSet := ⟨.array [numbered, named, .bool true, quoted]⟩
    r.index "Id" none = [("1", quoted), ("null", .bool true)] ∧
      r.index "Id" (some "V") = [("1", .string "b"), ("null", .null)] := by
  decide +kernel

end Brokerage.ResultSet
