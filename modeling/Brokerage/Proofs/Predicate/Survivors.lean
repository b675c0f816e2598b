import Brokerage.Proofs.Predicate.Stream

namespace Brokerage.Predicate

/-- The condition that an entry gives; a marker gives none. -/
def Entry.condition? : Entry → Option Condition
  | condition _ c => some c
  | opening _ | closing _ => none

mutual

/-- The conditions in an item at any depth, in order. -/
def Item.conditions : Item → List Condition
  | .condition c => [c]
  | .group items => forestConditions items

def forestConditions : Forest → List Condition
  | [] => []
  | (_, item) :: items => item.conditions ++ forestConditions items

end

mutual

/-- An item with only the survivors among the items in it. -/
def Item.surviving : Item → Item
  | .condition c => .condition c
  | .group items => .group (survivors items)

/-- The items that hold a condition at some depth, each with only the survivors
    in it. -/
def survivors : Forest → Forest
  | [] => []
  | (connective, item) :: items =>
    if item.conditions = [] then survivors items else (connective, item.surviving) :: survivors items

end

/-- A described forest has the conditions of the stream, in the same order: none
    is lost, made or moved by the grouping. -/
theorem Describes.forestConditions_eq {entries : List Entry} {items : Forest} (h : Describes entries items) :
    forestConditions items = entries.filterMap Entry.condition? := by
  induction h with
  | nil => rfl
  | condition connective condition _ ih => simp [forestConditions, Item.conditions, Entry.condition?, ih]
  | group connective closing _ _ ihinner ihentries =>
    simp [forestConditions, Item.conditions, Entry.condition?, List.filterMap_cons, ihinner, ihentries]

mutual

/-- Only conditions decide what survives, and no condition is lost. -/
theorem Item.conditions_surviving (item : Item) : item.surviving.conditions = item.conditions := by
  cases item with
  | condition c => rfl
  | group items => exact forestConditions_survivors items

/-- Leaving out what holds no condition leaves out no condition. -/
theorem forestConditions_survivors (items : Forest) : forestConditions (survivors items) = forestConditions items := by
  match items with
  | [] => rfl
  | (connective, item) :: items =>
    have hitems := forestConditions_survivors items
    by_cases h : item.conditions = []
    · simp only [survivors, h, if_true, forestConditions, List.nil_append, hitems]
    · simp only [survivors, h, if_false, forestConditions, item.conditions_surviving, hitems]

end

/-- Nothing survives exactly if there is no condition at any depth. -/
theorem survivors_eq_nil_iff (items : Forest) : survivors items = [] ↔ forestConditions items = [] := by
  induction items with
  | nil => simp [survivors, forestConditions]
  | cons head items ih =>
    obtain ⟨connective, item⟩ := head
    by_cases h : item.conditions = []
    · simp [survivors, forestConditions, h, ih]
    · simp [survivors, forestConditions, h]

mutual

/-- An item is pruned away exactly if it holds no condition, and else pruned to
    its surviving part. Pruning asks whether the pruned items of a group are
    none, and surviving whether the group has a condition; the two agree at
    every depth. -/
theorem Item.prune?_eq (item : Item) : item.prune? = if item.conditions = [] then none else some item.surviving := by
  cases item with
  | condition c => simp [Item.prune?, Item.conditions, Item.surviving]
  | group items =>
    have hitems := pruneForest_eq_survivors items
    rw [Item.prune?, hitems, Item.conditions, Item.surviving]
    cases hs : survivors items with
    | nil => simp [(survivors_eq_nil_iff items).mp hs]
    | cons head rest =>
      have hne : forestConditions items ≠ [] := by
        intro hnil
        rw [(survivors_eq_nil_iff items).mpr hnil] at hs
        cases hs
      simp [hne]

/-- Pruning by emptied groups is the same as keeping what holds a condition. The
    first is what runs, from the inside out; the second says of each item by
    itself whether it stays. -/
theorem pruneForest_eq_survivors (items : Forest) : pruneForest items = survivors items := by
  match items with
  | [] => rfl
  | (connective, item) :: items =>
    have hitems := pruneForest_eq_survivors items
    rw [pruneForest, item.prune?_eq, hitems, survivors]
    by_cases h : item.conditions = [] <;> simp [h]

end

end Brokerage.Predicate
