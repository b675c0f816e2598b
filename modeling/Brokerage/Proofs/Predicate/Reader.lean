import Brokerage.Search.Predicate

namespace Brokerage.Predicate

/-- An item as it is read from a list: three values, or a list of items. Each
    item of a list comes with the connective in front of it, the first one with
    none. -/
inductive Term where
  | condition (column operator value : Json)
  | group (terms : List (Option Connective × Term))

/-- The connective that a value writes. -/
def connective? : Json → Option Connective
  | .string "AND" => some .and
  | .string "OR" => some .or
  | _ => none

private theorem connective?_text (connective : Connective) : connective? (.string connective.text) = some connective := by
  cases connective <;> rfl

mutual

/-- Reads a list from an item on: an array there is a group, and any other value
    begins a condition of three values. The grammar of the list alone decides,
    with no knowledge of what was written. -/
def readTerms (joined : Option Connective) : List Json → Option (List (Option Connective × Term))
  | .array inner :: rest => do
    let terms ← readTerms none inner
    let others ← readOthers rest
    return (joined, .group terms) :: others
  | column :: operator :: value :: rest => do
    let others ← readOthers rest
    return (joined, .condition column operator value) :: others
  | _ => none

/-- Reads a list after an item: it ends there, or a connective and one more item
    follow. -/
def readOthers : List Json → Option (List (Option Connective × Term))
  | [] => some []
  | word :: rest => do
    let connective ← connective? word
    readTerms (some connective) rest

end

/-- Reads the list of a predicate. Nothing but a list can be one. -/
def readWhere : Json → Option (List (Option Connective × Term))
  | .array values => readTerms none values
  | _ => none

mutual

/-- What has to be read for an item: a condition in canonical form, or the items
    of a group. -/
def Item.term : Item → Term
  | .condition c => .condition (.string c.normalize.column) (.string c.normalize.operator) c.normalize.value
  | .group items => .group (terms items)

/-- What has to be read for a list of items: every item after the first with its
    own connective. -/
def terms : Forest → List (Option Connective × Term)
  | [] => []
  | (_, item) :: items => (none, item.term) :: otherTerms items

def otherTerms : Forest → List (Option Connective × Term)
  | [] => []
  | (connective, item) :: items => (some connective, item.term) :: otherTerms items

end

mutual

/-- No group is empty, the item itself included. -/
def Item.Solid : Item → Prop
  | .condition _ => True
  | .group items => items ≠ [] ∧ SolidForest items

def SolidForest : Forest → Prop
  | [] => True
  | (_, item) :: items => item.Solid ∧ SolidForest items

end

/-- A condition is read off its three values, whatever they are: the first is
    text and never an array, and the two others are not looked at. -/
theorem readTerms_triple (joined : Option Connective) (c : Condition) (rest : List Json) :
    readTerms joined (c.triple ++ rest) =
      (readOthers rest).map ((joined, .condition (.string c.column) (.string c.operator) c.value) :: ·) := by
  simp only [Condition.triple, List.cons_append, List.nil_append, readTerms]
  cases readOthers rest <;> rfl

mutual

/-- One item in front of other values is read as that item, and the reading goes
    on behind it. No group may be empty, at any depth: an empty list is not read
    as a group. -/
theorem readTerms_encode (item : Item) (hitem : item.Solid) (joined : Option Connective) (rest : List Json) :
    readTerms joined (item.encode ++ rest) = (readOthers rest).map ((joined, item.term) :: ·) := by
  cases item with
  | condition c => exact readTerms_triple joined c.normalize rest
  | group items =>
    obtain ⟨hne, hsolid⟩ := hitem
    rw [Item.encode, List.singleton_append, readTerms, readTerms_encodeForest items hne hsolid, Item.term]
    cases readOthers rest <;> rfl

/-- The list written for items reads as those items. Neither the list of items
    nor any group in it may be empty, since the grammar has no empty list. -/
theorem readTerms_encodeForest (items : Forest) (hne : items ≠ []) (hsolid : SolidForest items) :
    readTerms none (encodeForest items) = some (terms items) := by
  match items with
  | [] => contradiction
  | (_, item) :: items =>
    obtain ⟨hitem, hitems⟩ := hsolid
    rw [encodeForest, readTerms_encode item hitem, readOthers_encodeOthers items hitems, terms]
    rfl

/-- The items after the first read as they are, each with its own connective.
    There may be none of them here. -/
theorem readOthers_encodeOthers (items : Forest) (hsolid : SolidForest items) :
    readOthers (encodeOthers items) = some (otherTerms items) := by
  match items with
  | [] => rw [encodeOthers, readOthers, otherTerms]
  | (connective, item) :: items =>
    obtain ⟨hitem, hitems⟩ := hsolid
    have hrest := readTerms_encode item hitem (some connective) (encodeOthers items)
    rw [readOthers_encodeOthers items hitems] at hrest
    simp only [encodeOthers, readOthers, connective?_text, Option.bind_eq_bind, Option.bind_some, hrest, otherTerms,
      Option.map_some]

end

end Brokerage.Predicate
