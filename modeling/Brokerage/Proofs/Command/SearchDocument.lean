import Brokerage.Proofs.Command.SearchFlags
import Brokerage.Proofs.Expression.Offsets
import Brokerage.Proofs.Predicate.Grouping
import Brokerage.Proofs.Record.SearchDocument

namespace Brokerage

namespace Builder

private theorem after_map_computed (b : Builder) (computed : List (String × String)) :
    b.after (computed.map fun (label, expression) => .computed expression label) =
      { b with columns := b.columns ++ computed.map fun (label, expression) => .computed expression label } := by
  induction computed generalizing b with
  | nil => simp [after]
  | cons c computed ih =>
    rw [List.map_cons, after_cons, ih]
    simp [apply, Builder.computed]

private theorem after_map_setter (b : Builder) (clauses : List Clause) :
    b.after (clauses.map Clause.setter) = { b with entries := b.entries ++ clauses.map Clause.entry } := by
  have haddition (clause : Clause) : clause.setter.addition = some clause.entry := by
    rcases clause with ⟨connective, _, _, _⟩ | connective | connective <;> cases connective <;> rfl
  induction clauses generalizing b with
  | nil => simp [after]
  | cons clause clauses ih =>
    rw [List.map_cons, after_cons, ih, apply_eq_of_addition b (haddition clause)]
    simp

/-- Columns of the table need no parsing, so that only the computed ones behind
    them can fail. -/
private theorem mapM_compile_append (names : List String) (items : List SelectItem) :
    (names.map SelectItem.column ++ items).mapM SelectItem.compile =
      (items.mapM SelectItem.compile).map (names.map Projection.column ++ ·) := by
  induction names with
  | nil =>
    rw [List.map_nil, List.nil_append]
    cases items.mapM SelectItem.compile <;> rfl
  | cons name names ih =>
    rw [List.map_cons, List.cons_append, List.mapM_cons, ih]
    cases items.mapM SelectItem.compile <;> rfl

end Builder

namespace SearchFlags

/-- The search that the flags build, part by part. Setters for flags that are
    not there are left out, so that their parts stay as they are in a new
    search, and the direction is one part with the column to sort by. -/
theorem after_setters_eq (f : SearchFlags) (computed : List (String × String)) (clauses : List Clause) :
    Builder.new.after (f.setters computed clauses) = {
      context := some f.context
      columns := f.columns.map .column ++ computed.map fun (label, expression) => .computed expression label
      entries := clauses.map Clause.entry
      groupBy := f.groupBy
      sortBy := f.orderBy
      sortDirection := f.orderBy.bind fun _ => f.direction?
      limit := f.limit
      offset := f.offset
      floatMode := f.floatMode } := by
  simp only [setters, Builder.after_append, Builder.after_map_computed, Builder.after_map_setter]
  cases f.groupBy <;> cases f.orderBy <;> cases f.limit <;> cases f.offset <;> rfl

/-- The columns that a search with the flags asks for: the plain ones and after
    them the computed ones, or the default columns when the flags name none of
    either kind. -/
def projections (f : SearchFlags) (computed : List Projection) : List Projection :=
  if f.columns = [] ∧ f.computed = [] then defaultColumns.map .column else f.columns.map .column ++ computed

/-- The document for the flags, with the computed columns parsed and the clauses
    compiled. -/
def document (f : SearchFlags) (computed : List Projection) (whereClause : Json) : Document where
  context := f.context
  columns := f.projections computed
  whereClause := whereClause
  groupBy := f.groupBy
  sortBy := f.orderBy
  sortDirection := f.orderBy.map fun _ => if f.descending then .descending else .ascending
  limit := f.limit
  offset := f.offset
  floatMode := f.floatMode

/-- The document names a column to sort by exactly when the flags do, and the
    direction along with it. Without such a column `descending` has no
    effect. -/
private theorem sorting_document (f : SearchFlags) (computed : List Projection) (whereClause : Json) :
    (f.document computed whereClause).toJson.get? "SortBy" = f.orderBy.map Json.string ∧
      (f.document computed whereClause).toJson.get? "SortDir" =
        f.orderBy.map fun _ => .string (if f.descending then "DESC" else "ASC") := by
  obtain ⟨-, -, -, -, hcolumn, hdirection, -⟩ := (f.document computed whereClause).get?_toJson
  refine ⟨hcolumn, hdirection.trans ?_⟩
  rw [document]
  cases f.orderBy <;> cases f.descending <;> rfl

/-- The computed column with its expression parsed. -/
def compileComputed (column : String × String) : Except SearchError Projection :=
  (Expression.parse column.2).map (Projection.computed · column.1)

private theorem compileComputed_eq_ok_iff {column : String × String} {p : Projection} :
    compileComputed column = .ok p ↔
      ∃ expression, Expression.parse column.2 = .ok expression ∧ p = .computed expression column.1 := by
  rw [compileComputed, map_eq_ok_iff]
  exact exists_congr fun expression => and_congr_right fun _ => eq_comm

private theorem compileComputed_eq_error_iff {column : String × String} {e : SearchError} :
    compileComputed column = .error e ↔ Expression.parse column.2 = .error e := by
  rw [compileComputed, map_eq_error_iff]

/-- The computed columns and the clauses that the flags write, item by item. -/
structure Writes (f : SearchFlags) (computed : List (String × String)) (clauses : List Clause) : Prop where
  computed : List.Forall₂ WritesComputed f.computed computed
  clauses : List.Forall₂ (fun filter clause => Clause.parse filter = .ok clause) f.filters clauses

section

variable {f : SearchFlags} {computed : List (String × String)} {clauses : List Clause}

private theorem Writes.computed_eq_nil_iff (h : f.Writes computed clauses) : f.computed = [] ↔ computed = [] := by
  rw [← List.length_eq_zero_iff, h.computed.length_eq, List.length_eq_zero_iff]

/-- The flags build a search exactly if every item writes something, and then it
    is the one that the setters build from what they write. -/
theorem toBuilder_eq_ok_iff {b : Builder} :
    f.toBuilder = .ok b ↔
      ∃ computed clauses, f.Writes computed clauses ∧ b = Builder.new.after (f.setters computed clauses) := by
  simp only [toBuilder_eq, bind_eq_ok_iff, mapM_eq_ok_iff, parseComputed_eq_ok_iff, pure, Except.pure, Except.ok.injEq]
  constructor
  · rintro ⟨computed, hcomputed, clauses, hclauses, rfl⟩
    exact ⟨computed, clauses, ⟨hcomputed, hclauses⟩, rfl⟩
  · rintro ⟨computed, clauses, ⟨hcomputed, hclauses⟩, rfl⟩
    exact ⟨computed, hcomputed, clauses, hclauses, rfl⟩

/-- The first malformed computed column is the error, and only with all of those
    well-formed the first malformed clause. -/
theorem toBuilder_eq_error_iff {e : ClauseError} :
    f.toBuilder = .error e ↔
      FirstFails parseComputed f.computed e ∨
        (∀ item ∈ f.computed, ∃ column, WritesComputed item column) ∧ FirstFails Clause.parse f.filters e := by
  simp only [← parseComputed_eq_ok_iff, ← exists_mapM_eq_ok_iff, toBuilder_eq, bind_eq_error_iff, mapM_eq_error_iff]
  simp [pure, Except.pure]

/-- The columns of the search: the plain ones first, then the computed ones with
    their expressions parsed. `h` relates the items to what they write, so that
    the defaults step in exactly when neither flag was given. -/
private theorem projections_after_setters (h : f.Writes computed clauses) :
    (Builder.new.after (f.setters computed clauses)).projections =
      (computed.mapM compileComputed).map f.projections := by
  have hitems : (computed.map fun (label, expression) => SelectItem.computed expression label).mapM SelectItem.compile =
      computed.mapM compileComputed := by
    rw [List.mapM_map]
    rfl
  have hprojections (hsome : ¬(f.columns = [] ∧ f.computed = [])) :
      f.projections = (f.columns.map Projection.column ++ ·) :=
    funext fun _ => if_neg hsome
  rw [after_setters_eq, Builder.projections]
  -- The builder looks at the columns it holds, the flags at those they name; there are none of either or of neither.
  split
  · next hnone =>
    obtain ⟨hcolumns, hcomputed⟩ : f.columns = [] ∧ computed = [] := by simpa using hnone
    have hdefault : f.projections [] = defaultColumns.map .column :=
      if_pos ⟨hcolumns, h.computed_eq_nil_iff.mpr hcomputed⟩
    rw [hcomputed, List.mapM_nil]
    exact congrArg Except.ok hdefault.symm
  · next hsome =>
    rw [hprojections (by simpa [h.computed_eq_nil_iff] using hsome), ← hitems, ← Builder.mapM_compile_append]

/-- Compiling such a search parses its expressions, then compiles its clauses,
    and can fail in no other way: the context is always there. -/
private theorem compile_after_setters (h : f.Writes computed clauses) :
    (Builder.new.after (f.setters computed clauses)).compile = (do
      let computed ← computed.mapM compileComputed
      let whereClause ← Predicate.compile (clauses.map Clause.entry)
      return f.document computed whereClause) := by
  rw [Builder.compile, projections_after_setters h, after_setters_eq]
  cases computed.mapM compileComputed with
  | error e => rfl
  | ok computed =>
    cases Predicate.compile (clauses.map Clause.entry) with
    | error e => rfl
    | ok whereClause =>
      unfold document
      cases f.orderBy <;> cases hdescending : f.descending <;> simp [hdescending, direction?] <;> rfl

private theorem compile_after_setters_eq_ok_iff (h : f.Writes computed clauses) {d : Document} :
    (Builder.new.after (f.setters computed clauses)).compile = .ok d ↔
      ∃ projections whereClause,
        List.Forall₂ (fun column p => ∃ expression, Expression.parse column.2 = .ok expression ∧
          p = .computed expression column.1) computed projections ∧
        Predicate.compile (clauses.map Clause.entry) = .ok whereClause ∧ d = f.document projections whereClause := by
  simp only [compile_after_setters h, bind_eq_ok_iff, mapM_eq_ok_iff, compileComputed_eq_ok_iff, pure, Except.pure,
    Except.ok.injEq]
  constructor
  · rintro ⟨projections, hprojections, whereClause, hwhere, rfl⟩
    exact ⟨projections, whereClause, hprojections, hwhere, rfl⟩
  · rintro ⟨projections, whereClause, hprojections, hwhere, rfl⟩
    exact ⟨projections, hprojections, whereClause, hwhere, rfl⟩

private theorem compile_after_setters_eq_error_iff (h : f.Writes computed clauses) {e : SearchError} :
    (Builder.new.after (f.setters computed clauses)).compile = .error e ↔
      FirstFails (fun column => Expression.parse column.2) computed e ∨
        (∀ column ∈ computed, ∃ expression, Expression.parse column.2 = .ok expression) ∧
          Predicate.compile (clauses.map Clause.entry) = .error e := by
  have hfails : FirstFails compileComputed computed e ↔
      FirstFails (fun column => Expression.parse column.2) computed e :=
    firstFails_congr (fun _ _ => compileComputed_eq_error_iff) e
  have hparses (column : String × String) :
      (∃ p, compileComputed column = .ok p) ↔ ∃ expression, Expression.parse column.2 = .ok expression := by
    simp [compileComputed, map_eq_ok_iff]
  simp only [compile_after_setters h, bind_eq_error_iff, mapM_eq_error_iff, hfails, ← hparses, ← exists_mapM_eq_ok_iff]
  simp [pure, Except.pure]

/-- Only a parenthesis or a group marker can keep the search from being
    compiled, and a parenthesis of a computed column comes before every marker.
    The two kinds of error are told by what the parts can fail with. -/
private theorem compile_after_setters_fails_iff (h : f.Writes computed clauses) {e : SearchError} :
    (Builder.new.after (f.setters computed clauses)).compile = .error e ↔
      (∃ offset, e = .unbalancedParenthesis offset ∧
        FirstFails (fun column => Expression.parse column.2) computed e) ∨
      (∀ column ∈ computed, ∃ expression, Expression.parse column.2 = .ok expression) ∧
        ∃ position fault, e = .malformedGrouping position fault ∧
          Predicate.compile (clauses.map Clause.entry) = .error e := by
  rw [compile_after_setters_eq_error_iff h]
  constructor
  · rintro (hfails | ⟨hparses, hcompile⟩)
    · obtain ⟨column, hcolumn⟩ := hfails.exists_eq_error
      obtain ⟨offset, he, -⟩ := Expression.exists_fault_of_parse hcolumn
      exact .inl ⟨offset, he, hfails⟩
    · obtain ⟨position, fault, he⟩ := Predicate.exists_position_of_compile hcompile
      exact .inr ⟨hparses, position, fault, he, hcompile⟩
  · rintro (⟨_, _, hfails⟩ | ⟨hparses, _, _, _, hcompile⟩)
    · exact .inl hfails
    · exact .inr ⟨hparses, hcompile⟩

end

/-- The flags of a search mean what the setters mean. Reading them fails with
    the first malformed computed column, and after those with the first
    malformed clause; otherwise the search is the one that the setters build,
    one predicate entry a clause. Such a search has its context, so that
    compiling it fails only with the first computed column whose parentheses do
    not match, and after those with a group marker of the clauses. -/
theorem toBuilder_agrees_with_setters (f : SearchFlags) :
    (∀ item e, parseComputed item = .error e ↔ e = .badComputed item ∧ ∀ column, ¬WritesComputed item column) ∧
    (∀ e, f.toBuilder = .error e ↔
      FirstFails parseComputed f.computed e ∨
        (∀ item ∈ f.computed, ∃ column, WritesComputed item column) ∧ FirstFails Clause.parse f.filters e) ∧
    (∀ b, f.toBuilder = .ok b ↔
      ∃ computed clauses, f.Writes computed clauses ∧ b = Builder.new.after (f.setters computed clauses)) ∧
    ∀ computed clauses, f.Writes computed clauses →
      (Builder.new.after (f.setters computed clauses)).entries = clauses.map Clause.entry ∧
      (Builder.new.after (f.setters computed clauses)).compile ≠ .error .missingContext ∧
      (∀ e, (Builder.new.after (f.setters computed clauses)).compile = .error e ↔
        (∃ offset, e = .unbalancedParenthesis offset ∧
          FirstFails (fun column => Expression.parse column.2) computed e) ∨
        (∀ column ∈ computed, ∃ expression, Expression.parse column.2 = .ok expression) ∧
          ∃ position fault, e = .malformedGrouping position fault ∧
            Predicate.compile (clauses.map Clause.entry) = .error e) ∧
      ∀ d, (Builder.new.after (f.setters computed clauses)).compile = .ok d ↔
        ∃ projections whereClause,
          List.Forall₂ (fun column p => ∃ expression, Expression.parse column.2 = .ok expression ∧
            p = .computed expression column.1) computed projections ∧
          Predicate.compile (clauses.map Clause.entry) = .ok whereClause ∧
          d = f.document projections whereClause ∧
          d.toJson.get? "SortBy" = f.orderBy.map Json.string ∧
          d.toJson.get? "SortDir" = f.orderBy.map fun _ => .string (if f.descending then "DESC" else "ASC") := by
  refine ⟨fun _ _ => parseComputed_eq_error_iff, fun _ => toBuilder_eq_error_iff, fun _ => toBuilder_eq_ok_iff, ?_⟩
  intro computed clauses hwrites
  refine ⟨by rw [after_setters_eq], ?_, fun _ => compile_after_setters_fails_iff hwrites, ?_⟩
  · rw [ne_eq, compile_after_setters_fails_iff hwrites]
    simp
  · intro d
    rw [compile_after_setters_eq_ok_iff hwrites]
    constructor
    · rintro ⟨projections, whereClause, hprojections, hwhere, rfl⟩
      exact ⟨projections, whereClause, hprojections, hwhere, rfl, sorting_document f projections whereClause⟩
    · rintro ⟨projections, whereClause, hprojections, hwhere, hd, -⟩
      exact ⟨projections, whereClause, hprojections, hwhere, hd⟩

/-- Flags with a computed column, whose expression holds an equals sign, and a
    group of one clause. -/
def netOfLargeOrders : SearchFlags where
  context := "Orders"
  columns := ["Ticket"]
  computed := [" Net = Profit=2"]
  filters := ["or (", "Volume >= 1", ")"]
  orderBy := some "Ticket"
  descending := true

/-- The clauses write a group, and the expression keeps its equals sign. With
    items that are malformed as well, the computed column without a name is the
    error, before the empty clause. -/
theorem toBuilder_agrees_with_setters_netOfLargeOrders :
    netOfLargeOrders.toBuilder = .ok (Builder.new.after (netOfLargeOrders.setters [("Net", "Profit=2")]
      [.opening .or, .condition .and "Volume" .gte (.ofInt64 1), .closing .and])) ∧
    { netOfLargeOrders with computed := ["Net=Profit", "=Swap"], filters := [""] }.toBuilder =
      .error (.badComputed "=Swap") := by
  refine ⟨((toBuilder_agrees_with_setters _).2.2.1 _).mpr ⟨_, _, ⟨?_, ?_⟩, rfl⟩, ?_⟩
  · have hwrites : WritesComputed " Net = Profit=2" ("Net", "Profit=2") :=
      ⟨" Net ", " Profit=2", by decide, by decide, by decide, by decide, by decide⟩
    exact .cons hwrites .nil
  · exact .cons rfl (.cons rfl (.cons rfl .nil))
  · refine ((toBuilder_agrees_with_setters _).2.1 _).mpr (.inl ⟨["Net=Profit"], "=Swap", [], rfl, ?_, rfl⟩)
    exact List.forall_mem_singleton.mpr ⟨_, rfl⟩

end SearchFlags

end Brokerage
