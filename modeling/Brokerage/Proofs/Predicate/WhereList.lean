import Brokerage.Proofs.Predicate.Reader
import Brokerage.Proofs.Predicate.Survivors

namespace Brokerage.Predicate

/-- A forest of a single group stands for the items of that group. -/
def unwrapped : Forest → Forest
  | [(_, .group items)] => items
  | items => items

mutual

private theorem Item.solid_surviving (item : Item) (h : item.conditions ≠ []) : item.surviving.Solid := by
  cases item with
  | condition c => trivial
  | group items =>
    refine ⟨?_, solidForest_survivors items⟩
    rw [Ne, survivors_eq_nil_iff]
    exact h

/-- No group among the survivors is empty, at any depth. -/
theorem solidForest_survivors (items : Forest) : SolidForest (survivors items) := by
  match items with
  | [] => trivial
  | (connective, item) :: items =>
    have hitems := solidForest_survivors items
    rw [survivors]
    by_cases h : item.conditions = []
    · rw [if_pos h]
      exact hitems
    · rw [if_neg h]
      exact ⟨item.solid_surviving h, hitems⟩

end

/-- Unwrapping a single group leaves no empty group and not nothing. That the
    group has items is part of what the premise says of it. -/
theorem SolidForest.unwrapped {items : Forest} (hsolid : SolidForest items) (hne : items ≠ []) :
    unwrapped items ≠ [] ∧ SolidForest (unwrapped items) := by
  unfold Predicate.unwrapped
  split
  · exact hsolid.1
  · exact ⟨hne, hsolid⟩

/-- Unwrapping a single group keeps every condition. -/
theorem forestConditions_unwrapped (items : Forest) : forestConditions (unwrapped items) = forestConditions items := by
  unfold unwrapped
  split
  · simp [forestConditions, Item.conditions]
  · rfl

/-- The list for items is the list written for them unwrapped. There has to be
    an item: a predicate without one is sent as the test for a positive ticket
    instead. -/
theorem whereClause_eq {items : Forest} (hne : items ≠ []) :
    whereClause items = .array (encodeForest (unwrapped items)) := by
  unfold whereClause
  split
  · contradiction
  · rfl
  · next hgroup =>
    unfold unwrapped
    split
    · exact absurd rfl (hgroup _ _)
    · rfl

/-- The list for an accepted stream with a condition reads as exactly the forest
    that the stream describes, less the groups without conditions; a forest of a
    single group reads as the items of that group. No condition is lost,
    whatever its column, operator and value: nothing but the position in the
    list tells a condition from a connective or a group. -/
theorem readWhere_compile {entries : List Entry} {clause : Json} (hcompile : compile entries = .ok clause)
    (hcondition : ∃ entry ∈ entries, entry.condition?.isSome) :
    ∃ items, Describes entries items ∧ (∀ others, Describes entries others → others = items) ∧
      readWhere clause = some (terms (unwrapped (survivors items))) ∧
      forestConditions (unwrapped (survivors items)) = entries.filterMap Entry.condition? := by
  rw [compile] at hcompile
  cases hforest : forest entries with
  | error e => simp [hforest, Except.map] at hcompile
  | ok items =>
    simp only [hforest, Except.map, pruneForest_eq_survivors, Except.ok.injEq] at hcompile
    have hdescribes := forest_eq_ok_iff.mp hforest
    have hconditions := hdescribes.forestConditions_eq
    have hne : survivors items ≠ [] := by
      rw [Ne, survivors_eq_nil_iff, hconditions, List.filterMap_eq_nil_iff]
      intro hnone
      obtain ⟨entry, hmem, hsome⟩ := hcondition
      rw [hnone entry hmem] at hsome
      cases hsome
    obtain ⟨hunwrapped, hsolid⟩ := (solidForest_survivors items).unwrapped hne
    refine ⟨items, hdescribes, fun others hothers => hothers.unique hdescribes, ?_, ?_⟩
    · rw [← hcompile, whereClause_eq hne, readWhere, readTerms_encodeForest _ hunwrapped hsolid]
    · rw [forestConditions_unwrapped, forestConditions_survivors, hconditions]

/-- An empty group, a column named like a connective with a value shaped like a
    predicate, and a group in a group. -/
def awkwardStream : List Entry :=
  [.opening .or, .closing .and, .condition .or ⟨"AND", "", .array [.string "A", .string "=", .null]⟩,
    .opening .or, .opening .and, .condition .or ⟨"", "not in", .string "OR"⟩, .closing .or, .closing .or]

theorem readWhere_compile_awkward :
    (∃ entry ∈ awkwardStream, entry.condition?.isSome) ∧ ∃ clause, compile awkwardStream = .ok clause ∧
      readWhere clause = some [
        (none, .condition (.string "AND") (.string "") (.array [.string "A", .string "=", .null])),
        (some .or, .group [(none, .group [
          (none, .condition (.string "") (.string "NOT IN") (.array [.string "OR"]))])])] := by
  have hcondition : ∃ entry ∈ awkwardStream, entry.condition?.isSome := by decide
  refine ⟨hcondition, _, rfl, ?_⟩
  obtain ⟨items, -, hunique, hread, -⟩ := readWhere_compile rfl hcondition
  have hforest : forest awkwardStream = .ok _ := rfl
  rw [hread, ← hunique _ (forest_eq_ok_iff.mp hforest)]
  rfl

end Brokerage.Predicate
