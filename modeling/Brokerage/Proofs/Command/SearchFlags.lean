import Brokerage.Command.SearchFlags
import Brokerage.Proofs.Builder.Parts
import Brokerage.Proofs.Outcome.Lists
import Mathlib.Data.List.TakeWhile

namespace Brokerage

/-- The text writes a computed column: what stands before its first equals sign
    is the name and what stands after it the expression, both trimmed and not
    empty. -/
def WritesComputed (item : String) (column : String × String) : Prop :=
  ∃ before after : String, item = before ++ "=" ++ after ∧ '=' ∉ before.toList ∧
    column = (Text.trimmed before, Text.trimmed after) ∧ Text.trimmed before ≠ "" ∧ Text.trimmed after ≠ ""

private theorem splitAt_first {c : Char} {before : List Char} (h : c ∉ before) (after : List Char) :
    (before ++ c :: after).takeWhile (· ≠ c) = before ∧ (before ++ c :: after).dropWhile (· ≠ c) = c :: after := by
  induction before with
  | nil => simp
  | cons d before ih =>
    rw [List.mem_cons, not_or] at h
    have hd : d ≠ c := fun heq => h.1 heq.symm
    simpa [hd] using ih h.2

/-- With an equals sign in it, a text is read by what stands on both sides of
    the first. Any further ones belong to the expression, which may compare. -/
private theorem parseComputed_of_split {item : String} {before after : List Char}
    (hitem : item.toList = before ++ '=' :: after) (hbefore : '=' ∉ before) :
    parseComputed item =
      if Text.trim before ≠ [] ∧ Text.trim after ≠ [] then
        .ok (String.ofList (Text.trim before), String.ofList (Text.trim after))
      else .error (.badComputed item) := by
  obtain ⟨htake, hdrop⟩ := splitAt_first hbefore after
  rw [parseComputed, hitem, hdrop, htake]

private theorem parseComputed_of_not_mem {item : String} (h : '=' ∉ item.toList) :
    parseComputed item = .error (.badComputed item) := by
  have hdrop : item.toList.dropWhile (· ≠ '=') = [] := by
    rw [List.dropWhile_eq_nil_iff]
    intro c hc
    simpa using fun heq : c = '=' => h (heq ▸ hc)
  rw [parseComputed, hdrop]

private theorem writesComputed_iff {item : String} {column : String × String} :
    WritesComputed item column ↔ ∃ before after, item.toList = before ++ '=' :: after ∧ '=' ∉ before ∧
      column = (String.ofList (Text.trim before), String.ofList (Text.trim after)) ∧
      Text.trim before ≠ [] ∧ Text.trim after ≠ [] := by
  constructor
  · rintro ⟨before, after, rfl, hbefore, rfl, hlabel, hexpression⟩
    exact ⟨before.toList, after.toList, by simp, hbefore, rfl, by simpa [Text.trimmed] using hlabel,
      by simpa [Text.trimmed] using hexpression⟩
  · rintro ⟨before, after, hitem, hbefore, rfl, hlabel, hexpression⟩
    refine ⟨String.ofList before, String.ofList after, ?_, by simpa using hbefore, by simp [Text.trimmed],
      by simpa [Text.trimmed] using hlabel, by simpa [Text.trimmed] using hexpression⟩
    rw [← String.toList_inj]
    simp [hitem]

/-- Exactly the texts that write a computed column are read, as the column they
    write. Name and expression are trimmed on the way, and what is empty after
    trimming does not count as either. -/
theorem parseComputed_eq_ok_iff {item : String} {column : String × String} :
    parseComputed item = .ok column ↔ WritesComputed item column := by
  rw [writesComputed_iff]
  constructor
  · intro h
    by_cases hmem : '=' ∈ item.toList
    · obtain ⟨before, after, hitem, hbefore⟩ := List.eq_append_cons_of_mem hmem
      rw [parseComputed_of_split hitem hbefore] at h
      split at h
      · next htrim => exact ⟨before, after, hitem, hbefore, (Except.ok.inj h).symm, htrim⟩
      · cases h
    · rw [parseComputed_of_not_mem hmem] at h
      cases h
  · rintro ⟨before, after, hitem, hbefore, rfl, htrim⟩
    rw [parseComputed_of_split hitem hbefore, if_pos htrim]

/-- A text that writes no computed column is refused with the text itself in the
    error, untrimmed. -/
theorem parseComputed_eq_error_iff {item : String} {e : ClauseError} :
    parseComputed item = .error e ↔ e = .badComputed item ∧ ∀ column, ¬WritesComputed item column := by
  simp only [← parseComputed_eq_ok_iff]
  cases h : parseComputed item with
  | ok column => simp
  | error e' =>
    have he : e' = .badComputed item := by
      by_cases hmem : '=' ∈ item.toList
      · obtain ⟨before, after, hitem, hbefore⟩ := List.eq_append_cons_of_mem hmem
        rw [parseComputed_of_split hitem hbefore] at h
        split at h <;> cases h
        rfl
      · exact (Except.error.inj ((parseComputed_of_not_mem hmem).symm.trans h)).symm
    simp [he, eq_comm]

/-- The entry that a clause adds to a predicate. -/
def Clause.entry : Clause → Predicate.Entry
  | condition connective column operator value => .condition connective ⟨column, operator.text, value⟩
  | opening connective => .opening connective
  | closing connective => .closing connective

/-- The setter that a clause stands for. -/
def Clause.setter : Clause → Builder.Setter
  | condition .and column operator value => .andWhere column operator.text value
  | condition .or column operator value => .orWhere column operator.text value
  | opening .and => .andWhereOpen
  | opening .or => .orWhereOpen
  | closing .and => .andWhereClose
  | closing .or => .orWhereClose

namespace SearchFlags

/-- The direction of sorting that the flags ask for. -/
def direction? (f : SearchFlags) : Option SortDirection :=
  if f.descending then some .descending else none

/-- The setters that the flags stand for, given the computed columns and the
    clauses that they write. -/
def setters (f : SearchFlags) (computed : List (String × String)) (clauses : List Clause) : List Builder.Setter :=
  [.select (f.columns.map .column), .inContext f.context] ++
    computed.map (fun (label, expression) => .computed expression label) ++ clauses.map Clause.setter ++
    (f.groupBy.map .groupedBy).toList ++ (f.orderBy.map fun column => .orderBy column f.direction?).toList ++
    (f.limit.map .limitTo).toList ++ (f.offset.map .startAt).toList ++ [.withFloats f.floatMode]

end SearchFlags

private theorem SearchFlags.addClause_eq (b : Builder) (filter : String) :
    addClause b filter = (Clause.parse filter).map fun clause => b.apply clause.setter := by
  unfold addClause
  congr
  funext clause
  rcases clause with ⟨connective, _, _, _⟩ | connective | connective <;> cases connective <;> rfl

/-- The computed columns are read first, then the clauses, and what they write
    goes to the setters. In the definition each is added to the builder as soon
    as it is read; since adding never fails, and the first malformed one ends
    the run, reading all of them beforehand comes to the same. -/
theorem SearchFlags.toBuilder_eq (f : SearchFlags) :
    f.toBuilder = (do
      let computed ← f.computed.mapM parseComputed
      let clauses ← f.filters.mapM Clause.parse
      return Builder.new.after (f.setters computed clauses)) := by
  have hcomputed (b : Builder) : f.computed.foldlM addComputed b =
      (f.computed.mapM parseComputed).map fun computed =>
        b.after (computed.map fun (label, expression) => .computed expression label) := by
    simp only [Builder.after, List.foldl_map]
    exact foldlM_map_eq parseComputed (fun b c => b.apply (.computed c.2 c.1)) f.computed b
  have hfilters (b : Builder) : f.filters.foldlM addClause b =
      (f.filters.mapM Clause.parse).map fun clauses => b.after (clauses.map Clause.setter) := by
    simp only [Builder.after, List.foldl_map]
    rw [← foldlM_map_eq]
    congr
    funext b filter
    exact addClause_eq b filter
  rw [toBuilder]
  simp only [hcomputed, hfilters]
  cases f.computed.mapM parseComputed with
  | error e => rfl
  | ok computed =>
    cases f.filters.mapM Clause.parse with
    | error e => rfl
    | ok clauses =>
      simp only [setters, Builder.after_append]
      cases f.groupBy <;> cases f.orderBy <;> cases f.limit <;> cases f.offset <;> rfl

end Brokerage
