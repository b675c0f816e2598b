import Brokerage.Proofs.Builder.Parts
import Brokerage.Proofs.Expression.Offsets
import Brokerage.Proofs.Outcome.Lists
import Brokerage.Proofs.Predicate.Grouping
import Brokerage.Proofs.Record.SearchDocument
import Mathlib.Data.List.Induction

namespace Brokerage

/-- The parentheses of a computed column match. A column of the table has
    none. -/
def SelectItem.Matched : SelectItem → Prop
  | column _ => True
  | computed expression _ => Expression.Balanced expression.toList

/-- What an item of the projection becomes in the document: the same column, or
    the expression parsed under the same label. -/
def SelectItem.StandsFor : SelectItem → Projection → Prop
  | column name, p => p = .column name
  | computed expression label, p => ∃ tree, Expression.parse expression = .ok tree ∧ p = .computed tree label

/-- An item is compiled to exactly what it stands for. -/
theorem SelectItem.compile_eq_ok_iff {item : SelectItem} {p : Projection} :
    item.compile = .ok p ↔ item.StandsFor p := by
  cases item with
  | column name =>
    rw [compile, StandsFor, Except.ok.injEq]
    exact eq_comm
  | computed expression label =>
    rw [compile, StandsFor, map_eq_ok_iff]
    exact exists_congr fun tree => and_congr_right fun _ => eq_comm

/-- An item is compiled exactly if its parentheses match. -/
theorem SelectItem.exists_compile_iff (item : SelectItem) : (∃ p, item.compile = .ok p) ↔ item.Matched := by
  cases item with
  | column name => exact ⟨fun _ => trivial, fun _ => ⟨_, rfl⟩⟩
  | computed expression label =>
    rw [Matched, ← Expression.matched_iff_balanced, ← Expression.exists_parse_iff_matched]
    simp [compile, map_eq_ok_iff]

private theorem Predicate.ne_null_of_compile {entries : List Entry} {clause : Json} (h : compile entries = .ok clause) :
    clause ≠ .null := by
  rw [compile, map_eq_ok_iff] at h
  obtain ⟨items, -, rfl⟩ := h
  unfold whereClause
  split <;> exact Json.noConfusion

namespace Builder

section latest

variable {α : Type}

/-- What is given by the last setter that gives anything. -/
def latest? (given : Setter → Option α) (setters : List Setter) : Option α :=
  setters.reverse.findSome? given

variable {given : Setter → Option α}

private theorem latest?_concat (setters : List Setter) (s : Setter) :
    latest? given (setters ++ [s]) = (given s).or (latest? given setters) := by
  rw [latest?, List.reverse_append, List.reverse_singleton, List.singleton_append, List.findSome?_cons]
  cases given s <;> rfl

/-- Something is given if one of the setters that give it is among them. By
    `hmake` there is one kind of setter that gives it, and nothing takes it away
    again. -/
theorem exists_latest?_iff {setters : List Setter} {make : α → Setter} (hmake : ∀ s a, given s = some a ↔ s = make a) :
    (∃ a, latest? given setters = some a) ↔ ∃ a, make a ∈ setters := by
  simp only [latest?, ← Option.isSome_iff_exists, List.isSome_findSome?, List.any_eq_true, List.mem_reverse]
  constructor
  · rintro ⟨s, hs, hgiven⟩
    obtain ⟨a, ha⟩ := Option.isSome_iff_exists.mp hgiven
    exact ⟨a, (hmake s a).mp ha ▸ hs⟩
  · rintro ⟨a, hs⟩
    exact ⟨make a, hs, Option.isSome_iff_exists.mpr ⟨a, (hmake _ a).mpr rfl⟩⟩

/-- A part that a setter overwrites or leaves alone holds what the last setter
    that overwrites it gave, or what it held at first if there is none. -/
theorem view_after (view : Builder → Option α) (h : ∀ b s, view (b.apply s) = (given s).or (view b)) (b : Builder)
    (setters : List Setter) : view (b.after setters) = (latest? given setters).or (view b) := by
  induction setters using List.reverseRecOn with
  | nil => rfl
  | append_singleton setters s ih =>
    have hstep : view (b.after (setters ++ [s])) = (given s).or (view (b.after setters)) := by
      rw [after_append]
      exact h (b.after setters) s
    rw [hstep, ih, latest?_concat, Option.or_assoc]

end latest

namespace Setter

def context? : Setter → Option String
  | inContext context => some context
  | _ => none

def grouping? : Setter → Option String
  | groupedBy name => some name
  | _ => none

/-- The column to sort by and the direction given with it. -/
def sorting? : Setter → Option (String × Option SortDirection)
  | orderBy name direction => some (name, direction)
  | _ => none

def limit? : Setter → Option UInt64
  | limitTo limit => some limit
  | _ => none

def offset? : Setter → Option UInt64
  | startAt offset => some offset
  | _ => none

def floats? : Setter → Option Bool
  | withFloats enabled => some enabled
  | _ => none

end Setter

section reached

variable (setters : List Setter)

private theorem context_after_new : (new.after setters).context = latest? Setter.context? setters :=
  (view_after context (fun b s => by cases s <;> rfl) new setters).trans Option.or_none

private theorem groupBy_after_new : (new.after setters).groupBy = latest? Setter.grouping? setters :=
  (view_after groupBy (fun b s => by cases s <;> rfl) new setters).trans Option.or_none

private theorem limit_after_new : (new.after setters).limit = latest? Setter.limit? setters :=
  (view_after limit (fun b s => by cases s <;> rfl) new setters).trans Option.or_none

private theorem offset_after_new : (new.after setters).offset = latest? Setter.offset? setters :=
  (view_after offset (fun b s => by cases s <;> rfl) new setters).trans Option.or_none

/-- The column to sort by, with the direction that was given for it. -/
def sorting (b : Builder) : Option (String × Option SortDirection) :=
  b.sortBy.map fun column => (column, b.sortDirection)

private theorem sorting_after_new : (new.after setters).sorting = latest? Setter.sorting? setters :=
  (view_after sorting (fun b s => by cases s <;> rfl) new setters).trans Option.or_none

private theorem floatMode_after_new : (new.after setters).floatMode = decide (latest? Setter.floats? setters = some true) := by
  have h : some (new.after setters).floatMode = (latest? Setter.floats? setters).or (some false) :=
    view_after (fun b => some b.floatMode) (fun b s => by cases s <;> rfl) new setters
  cases hlatest : latest? Setter.floats? setters with
  | none =>
    rw [hlatest] at h
    exact Option.some.inj h
  | some enabled =>
    rw [hlatest] at h
    rw [Option.some.inj h]
    cases enabled <;> rfl

end reached

/-- A run of setters asks for a member of this name in the document. The names
    of three members are always asked for, and the others by the setters that
    are called. -/
def AsksFor (setters : List Setter) (name : String) : Prop :=
  name ∈ ["Context", "Select", "Where"] ∨
  name = "GroupBy" ∧ (∃ column, .groupedBy column ∈ setters) ∨
  name ∈ ["SortBy", "SortDir"] ∧ (∃ column direction, .orderBy column direction ∈ setters) ∨
  name = "Limit" ∧ (∃ limit, .limitTo limit ∈ setters) ∨
  name = "Offset" ∧ (∃ offset, .startAt offset ∈ setters) ∨
  name = "FloatMode" ∧ latest? Setter.floats? setters = some true

/-- The document for a run of setters, with its columns and its predicate
    compiled. -/
def documentOf (setters : List Setter) (context : String) (columns : List Projection) (whereClause : Json) :
    Document where
  context := context
  columns := columns
  whereClause := whereClause
  groupBy := latest? Setter.grouping? setters
  sortBy := (latest? Setter.sorting? setters).map Prod.fst
  sortDirection := (latest? Setter.sorting? setters).map fun s => s.2.getD .ascending
  limit := latest? Setter.limit? setters
  offset := latest? Setter.offset? setters
  floatMode := decide (latest? Setter.floats? setters = some true)

/-- With a context a run of setters compiles to its document, as soon as its
    columns and its predicate compile, in this order. -/
theorem compile_after_new_of_context {setters : List Setter} {context : String}
    (h : latest? Setter.context? setters = some context) :
    (new.after setters).compile = (do
      let columns ← (new.after setters).projections
      let whereClause ← Predicate.compile (new.after setters).entries
      return documentOf setters context columns whereClause) := by
  have hcolumn : (new.after setters).sorting.map Prod.fst = (new.after setters).sortBy := by
    simp [sorting, Function.comp_def]
  have hdirection : ((new.after setters).sorting.map fun s => s.2.getD .ascending) =
      (new.after setters).sortBy.map fun _ => (new.after setters).sortDirection.getD .ascending := by
    simp [sorting, Function.comp_def]
  unfold documentOf
  rw [compile, context_after_new, h, groupBy_after_new, limit_after_new, offset_after_new, floatMode_after_new,
    ← sorting_after_new, hcolumn, hdirection]

/-- The value of a document has exactly the members that the setters ask for,
    none of them null, and each holds what the last of its setters gave. What is
    sent has the same members. -/
structure Sparse (setters : List Setter) (d : Document) : Prop where
  members : ∃ members, d.toJson = .object members ∧ (members.map Prod.fst).Nodup ∧
    (∀ name, name ∈ members.map Prod.fst ↔ AsksFor setters name) ∧ ∀ m ∈ members, m.2 ≠ .null
  context : d.toJson.get? "Context" = (latest? Setter.context? setters).map Json.string
  projection : d.toJson.get? "Select" = some (.array (d.columns.map Projection.toJson))
  predicate : d.toJson.get? "Where" = some d.whereClause
  grouping : d.toJson.get? "GroupBy" = (latest? Setter.grouping? setters).map Json.string
  sortBy : d.toJson.get? "SortBy" = (latest? Setter.sorting? setters).map fun s => .string s.1
  sortDirection : d.toJson.get? "SortDir" =
    (latest? Setter.sorting? setters).map fun s => .string (s.2.getD .ascending).text
  limit : d.toJson.get? "Limit" = (latest? Setter.limit? setters).map Json.ofUInt64
  offset : d.toJson.get? "Offset" = (latest? Setter.offset? setters).map Json.ofUInt64
  floatMode : ∀ v, d.toJson.get? "FloatMode" = some v → v = .bool true
  params : ∀ name, d.toParams.get? name = (d.toJson.get? name).map Json.sorted

/-- A member is asked for exactly if the last of its setters gives it. -/
theorem asksFor_iff {setters : List Setter} {name : String} :
    AsksFor setters name ↔
      name ∈ ["Context", "Select", "Where"] ∨
      name = "GroupBy" ∧ (∃ column, latest? Setter.grouping? setters = some column) ∨
      name ∈ ["SortBy", "SortDir"] ∧ (∃ s, latest? Setter.sorting? setters = some s) ∨
      name = "Limit" ∧ (∃ limit, latest? Setter.limit? setters = some limit) ∨
      name = "Offset" ∧ (∃ offset, latest? Setter.offset? setters = some offset) ∨
      name = "FloatMode" ∧ latest? Setter.floats? setters = some true := by
  have hgrouping : (∃ a, latest? Setter.grouping? setters = some a) ↔ ∃ column, .groupedBy column ∈ setters :=
    exists_latest?_iff fun s a => by cases s <;> simp [Setter.grouping?]
  have hsorting : (∃ a, latest? Setter.sorting? setters = some a) ↔ ∃ a : String × _, .orderBy a.1 a.2 ∈ setters :=
    exists_latest?_iff fun s a => by cases s <;> simp [Setter.sorting?, Prod.ext_iff]
  have hlimit : (∃ a, latest? Setter.limit? setters = some a) ↔ ∃ limit, .limitTo limit ∈ setters :=
    exists_latest?_iff fun s a => by cases s <;> simp [Setter.limit?]
  have hoffset : (∃ a, latest? Setter.offset? setters = some a) ↔ ∃ offset, .startAt offset ∈ setters :=
    exists_latest?_iff fun s a => by cases s <;> simp [Setter.offset?]
  rw [hgrouping, hsorting, hlimit, hoffset, Prod.exists, AsksFor]

section sparse

variable {setters : List Setter} {context : String} {columns : List Projection} {whereClause : Json}
  {members : List (String × Json)}

/-- The members of the document are those that the setters ask for: a part that
    no setter gives is left out of it, and not sent as null. -/
theorem mem_names_documentOf_iff (h : (documentOf setters context columns whereClause).toJson = .object members)
    (name : String) : name ∈ members.map Prod.fst ↔ AsksFor setters name := by
  rw [List.mem_map, asksFor_iff]
  simp only [Document.mem_members_iff h, documentOf, Option.map_eq_some_iff, decide_eq_true_eq]
  constructor
  · rintro ⟨m, rfl | rfl | rfl | ⟨a, ha, rfl⟩ | ⟨a, ⟨s, hs, -⟩, rfl⟩ | ⟨a, ⟨s, hs, -⟩, rfl⟩ | ⟨a, ha, rfl⟩ |
      ⟨a, ha, rfl⟩ | ⟨henabled, rfl⟩, rfl⟩
    · exact .inl (by simp)
    · exact .inl (by simp)
    · exact .inl (by simp)
    · exact .inr (.inl ⟨rfl, a, ha⟩)
    · exact .inr (.inr (.inl ⟨by simp, s, hs⟩))
    · exact .inr (.inr (.inl ⟨by simp, s, hs⟩))
    · exact .inr (.inr (.inr (.inl ⟨rfl, a, ha⟩)))
    · exact .inr (.inr (.inr (.inr (.inl ⟨rfl, a, ha⟩))))
    · exact .inr (.inr (.inr (.inr (.inr ⟨rfl, henabled⟩))))
  · simp only [List.mem_cons, List.not_mem_nil, or_false]
    rintro ((rfl | rfl | rfl) | ⟨rfl, a, ha⟩ | ⟨rfl | rfl, s, hs⟩ | ⟨rfl, a, ha⟩ | ⟨rfl, a, ha⟩ | ⟨rfl, henabled⟩)
    · exact ⟨_, .inl rfl, rfl⟩
    · exact ⟨_, .inr (.inl rfl), rfl⟩
    · exact ⟨_, .inr (.inr (.inl rfl)), rfl⟩
    · exact ⟨_, .inr (.inr (.inr (.inl ⟨a, ha, rfl⟩))), rfl⟩
    · exact ⟨_, .inr (.inr (.inr (.inr (.inl ⟨_, ⟨s, hs, rfl⟩, rfl⟩)))), rfl⟩
    · exact ⟨_, .inr (.inr (.inr (.inr (.inr (.inl ⟨_, ⟨s, hs, rfl⟩, rfl⟩))))), rfl⟩
    · exact ⟨_, .inr (.inr (.inr (.inr (.inr (.inr (.inl ⟨a, ha, rfl⟩)))))), rfl⟩
    · exact ⟨_, .inr (.inr (.inr (.inr (.inr (.inr (.inr (.inl ⟨a, ha, rfl⟩))))))), rfl⟩
    · exact ⟨_, .inr (.inr (.inr (.inr (.inr (.inr (.inr (.inr ⟨henabled, rfl⟩))))))), rfl⟩

private theorem ne_null_of_mem_documentOf (h : (documentOf setters context columns whereClause).toJson = .object members)
    (hclause : whereClause ≠ .null) : ∀ m ∈ members, m.2 ≠ .null := by
  intro m hm
  rcases (Document.mem_members_iff h).mp hm with
    rfl | rfl | rfl | ⟨a, -, rfl⟩ | ⟨a, -, rfl⟩ | ⟨a, -, rfl⟩ | ⟨a, -, rfl⟩ | ⟨a, -, rfl⟩ | ⟨-, rfl⟩
  case inr.inr.inl => exact hclause
  all_goals exact Json.noConfusion

/-- The document is sparse. Its predicate is given, and must not be null, as no
    member may be. -/
theorem sparse_documentOf (hcontext : latest? Setter.context? setters = some context) (hclause : whereClause ≠ .null) :
    Sparse setters (documentOf setters context columns whereClause) := by
  obtain ⟨members, hmembers⟩ : ∃ members, (documentOf setters context columns whereClause).toJson = .object members :=
    ⟨_, rfl⟩
  have hnodup := Document.unambiguous_fields.nodup.sublist (Document.map_fst_sublist hmembers)
  obtain ⟨hname, hselect, hwhere, hgroupBy, hsortBy, hdirection, hlimit, hoffset, hfloats⟩ :=
    (documentOf setters context columns whereClause).get?_toJson
  exact {
    members :=
      ⟨members, hmembers, hnodup, mem_names_documentOf_iff hmembers, ne_null_of_mem_documentOf hmembers hclause⟩
    context := by rw [hname, hcontext, documentOf, Option.map_some]
    projection := hselect
    predicate := hwhere
    grouping := hgroupBy
    sortBy := by rw [hsortBy, documentOf, Option.map_map]; rfl
    sortDirection := by rw [hdirection, documentOf, Option.map_map]; rfl
    limit := hlimit
    offset := hoffset
    floatMode := by
      intro v hv
      rw [hfloats] at hv
      split at hv <;> cases hv
      rfl
    params := by
      intro name
      rw [Document.toParams, hmembers]
      exact Json.lookup_sortMembers_sortedValues hnodup name }

end sparse

/-- The columns of the document are the items of the projection, each in its
    place, or the default columns when there are none. -/
def Selects (items : List SelectItem) (columns : List Projection) : Prop :=
  (items = [] ∧ columns = defaultColumns.map .column) ∨
    (items ≠ [] ∧ List.Forall₂ SelectItem.StandsFor items columns)

section projection

variable {b : Builder}

/-- The first column that fails to compile is the one that is reported. There is
    such a column only if the list is not empty, so that the defaults do not
    come in. -/
theorem projections_of_firstFails {e : SearchError} (h : FirstFails SelectItem.compile b.columns e) :
    b.projections = .error e := by
  have hsome : ¬b.columns.isEmpty = true := by
    rw [List.isEmpty_iff]
    intro hnone
    rw [hnone] at h
    exact not_firstFails_nil _ e h
  rw [projections, if_neg hsome, mapM_eq_error_iff]
  exact h

/-- Columns whose parentheses match are compiled, each in its place. -/
theorem exists_projections_of_matched (h : ∀ item ∈ b.columns, item.Matched) :
    ∃ columns, b.projections = .ok columns ∧ Selects b.columns columns := by
  by_cases hnone : b.columns = []
  · exact ⟨_, by rw [projections, if_pos (List.isEmpty_iff.mpr hnone)], .inl ⟨hnone, rfl⟩⟩
  · have hcompile : ∀ item ∈ b.columns, ∃ p, item.compile = .ok p := fun item hitem =>
      item.exists_compile_iff.mpr (h item hitem)
    obtain ⟨columns, hcolumns⟩ := exists_mapM_eq_ok_iff.mpr hcompile
    have hstand := mapM_eq_ok_iff.mp hcolumns
    simp only [SelectItem.compile_eq_ok_iff] at hstand
    exact ⟨columns, by rw [projections, if_neg (mt List.isEmpty_iff.mp hnone), hcolumns], .inr ⟨hnone, hstand⟩⟩

end projection

/-- Compiling what a run of setters built reports the first fault that applies,
    and otherwise gives a sparse document. Without a context that is the fault,
    whatever else is wrong. With one, it is the first computed column whose
    parentheses do not match, at its offset in that column's own expression and
    whatever the predicate; if they all match, it is the group marker that does
    not. -/
theorem compile_first_fault_or_sparse (setters : List Setter) :
    ((∀ context, .inContext context ∉ setters) → (new.after setters).compile = .error .missingContext) ∧
    ((∃ context, .inContext context ∈ setters) →
      (∀ before expression label later, (new.after setters).columns = before ++ .computed expression label :: later →
        (∀ item ∈ before, item.Matched) → ¬Expression.Balanced expression.toList →
        ∃ offset, Expression.parse expression = .error (.unbalancedParenthesis offset) ∧
          (new.after setters).compile = .error (.unbalancedParenthesis offset)) ∧
      ((∀ item ∈ (new.after setters).columns, item.Matched) →
        (¬Nesting.Balanced Predicate.Entry.mark? (new.after setters).entries →
          ∃ position fault,
            Predicate.compile (new.after setters).entries = .error (.malformedGrouping position fault) ∧
            (new.after setters).compile = .error (.malformedGrouping position fault)) ∧
        (Nesting.Balanced Predicate.Entry.mark? (new.after setters).entries →
          ∃ d, (new.after setters).compile = .ok d ∧ Selects (new.after setters).columns d.columns ∧
            Predicate.compile (new.after setters).entries = .ok d.whereClause ∧ Sparse setters d))) := by
  have hcontext : (∃ context, latest? Setter.context? setters = some context) ↔
      ∃ context, .inContext context ∈ setters :=
    exists_latest?_iff fun s a => by cases s <;> simp [Setter.context?]
  constructor
  · intro hnone
    have hlatest : latest? Setter.context? setters = none := by
      rw [Option.eq_none_iff_forall_ne_some]
      intro context h
      obtain ⟨other, hother⟩ := hcontext.mp ⟨context, h⟩
      exact hnone other hother
    rw [compile, context_after_new, hlatest]
  · intro hset
    obtain ⟨context, hlatest⟩ := hcontext.mpr hset
    have hcompile := compile_after_new_of_context hlatest
    refine ⟨?expression, fun hmatched => ⟨?predicate, ?document⟩⟩
    case expression =>
      intro before expression label later hcolumns hbefore hunbalanced
      cases hparse : Expression.parse expression with
      | ok tree =>
        exact absurd ((Expression.exists_parse_eq_ok_iff expression).mp ⟨tree, hparse⟩) hunbalanced
      | error e =>
        obtain ⟨offset, rfl, -⟩ := Expression.exists_fault_of_parse hparse
        have hfails : FirstFails SelectItem.compile (new.after setters).columns (.unbalancedParenthesis offset) :=
          ⟨before, _, later, hcolumns, fun item hitem => item.exists_compile_iff.mpr (hbefore item hitem),
            map_eq_error_iff.mpr hparse⟩
        exact ⟨offset, rfl, by rw [hcompile, projections_of_firstFails hfails]; rfl⟩
    case predicate =>
      intro hunbalanced
      obtain ⟨columns, hcolumns, -⟩ := exists_projections_of_matched hmatched
      cases hentries : Predicate.compile (new.after setters).entries with
      | ok clause => exact absurd (Predicate.accepted_iff.mp ⟨clause, hentries⟩) hunbalanced
      | error e =>
        obtain ⟨position, fault, rfl⟩ := Predicate.exists_position_of_compile hentries
        exact ⟨position, fault, rfl, by rw [hcompile, hcolumns, hentries]; rfl⟩
    case document =>
      intro hbalanced
      obtain ⟨columns, hcolumns, hselects⟩ := exists_projections_of_matched hmatched
      obtain ⟨clause, hclause⟩ := Predicate.accepted_iff.mpr hbalanced
      refine ⟨documentOf setters context columns clause, ?_, hselects, hclause, ?_⟩
      · rw [hcompile, hcolumns, hclause]
        rfl
      · exact sparse_documentOf hlatest (Predicate.ne_null_of_compile hclause)

/-- Everything is wrong with this search: no context, two expressions and a
    marker. -/
def faulty : List Setter :=
  [.column "Ticket", .computed "A*(B" "X", .computed ")" "Y", .whereClose]

/-- A search for no row at all, sorted by a column without a direction after
    another one with it. -/
def noRows : List Setter :=
  [.inContext "Orders", .computed "(Profit)" "Net", .orderBy "Swap" (some .descending), .limitTo 0, .withFloats true,
    .orderBy "Ticket" none, .withFloats false]

theorem compile_first_fault_or_sparse_noRows :
    (new.after faulty).compile = .error .missingContext ∧
    (new.after (faulty ++ [.inContext "Orders"])).compile = .error (.unbalancedParenthesis 2) ∧
    (new.after (noRows ++ [.whereClose])).compile = .error (.malformedGrouping 0 .closeWithoutOpen) ∧
    ∃ d, (new.after noRows).compile = .ok d ∧ d.toJson.get? "Limit" = some (.ofUInt64 0) ∧
      d.toJson.get? "SortDir" = some (.string "ASC") ∧ d.toJson.get? "Offset" = none ∧
      d.columns = [.computed [.group [.token "Profit"]] "Net"] := by
  have hopen : ¬Expression.Balanced "A*(B".toList := by
    unfold Expression.Balanced
    decide
  have hmatched : ∀ item ∈ [SelectItem.computed "(Profit)" "Net"], item.Matched := by
    rw [List.forall_mem_singleton]
    exact rfl
  have hclosed : ¬Nesting.Balanced Predicate.Entry.mark? [.closing .and] := by
    intro h
    have hnonneg := h.1.depth_nonneg
    simp at hnonneg
  have hmissing := (compile_first_fault_or_sparse faulty).1 (by simp [faulty])
  obtain ⟨-, hcontext⟩ := compile_first_fault_or_sparse (faulty ++ [.inContext "Orders"])
  obtain ⟨offset, hparse, hexpression⟩ := (hcontext ⟨"Orders", by simp⟩).1 [.column "Ticket"] "A*(B" "X"
    [.computed ")" "Y"] rfl (List.forall_mem_singleton.mpr trivial) hopen
  obtain ⟨-, hmarked⟩ := compile_first_fault_or_sparse (noRows ++ [.whereClose])
  obtain ⟨position, fault, hentries, hpredicate⟩ := ((hmarked ⟨"Orders", by simp [noRows]⟩).2 hmatched).1 hclosed
  obtain ⟨-, hfaultless⟩ := compile_first_fault_or_sparse noRows
  obtain ⟨d, hd, hselects, -, hsparse⟩ :=
    ((hfaultless ⟨"Orders", by simp [noRows]⟩).2 hmatched).2 Nesting.balanced_nil
  have hoffset : Expression.parse "A*(B" = .error (.unbalancedParenthesis 2) := by decide +kernel
  have htree : Expression.parse "(Profit)" = .ok [.group [.token "Profit"]] := by decide +kernel
  cases hoffset.symm.trans hparse
  cases hentries
  refine ⟨hmissing, hexpression, hpredicate, d, hd, hsparse.limit, hsparse.sortDirection, hsparse.offset, ?_⟩
  obtain ⟨hnone, -⟩ | ⟨-, hstand⟩ := hselects
  · cases hnone
  · obtain ⟨p, others, ⟨tree, hparsed, rfl⟩, hothers, hcolumns⟩ := List.forall₂_cons_left_iff.mp hstand
    cases htree.symm.trans hparsed
    rw [hcolumns, List.forall₂_nil_left_iff.mp hothers]

end Builder

end Brokerage
