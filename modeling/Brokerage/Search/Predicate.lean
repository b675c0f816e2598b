import Brokerage.Search.Condition
import Brokerage.Search.Error

namespace Brokerage

/-- The word that joins an item to the one before it. -/
inductive Connective where
  | and
  | or
deriving DecidableEq, Repr

/-- The connective as it is written. -/
def Connective.text : Connective → String
  | and => "AND"
  | or => "OR"

namespace Predicate

/-- A step in writing down a predicate. -/
inductive Entry where
  | condition (connective : Connective) (condition : Condition)
  | opening (connective : Connective)
  | closing (connective : Connective)
deriving DecidableEq

/-- The connective given with an entry. -/
def Entry.connective : Entry → Connective
  | condition c _ | opening c | closing c => c

/-- An item of a predicate: a condition, or a group of items each with its
    connective. -/
inductive Item where
  | condition (condition : Condition)
  | group (items : List (Connective × Item))
deriving Inhabited

namespace Item

mutual

def decideEq : (a b : Item) → Decidable (a = b)
  | condition a, condition b => if h : a = b then isTrue (h ▸ rfl) else isFalse (by simp [h])
  | group a, group b =>
    match decideEqItems a b with
    | isTrue h => isTrue (h ▸ rfl)
    | isFalse h => isFalse (by simp [h])
  | condition _, group _ | group _, condition _ => isFalse (by simp)

def decideEqItems : (a b : List (Connective × Item)) → Decidable (a = b)
  | [], [] => isTrue rfl
  | [], _ :: _ | _ :: _, [] => isFalse (by simp)
  | (k, x) :: xs, (l, y) :: ys =>
    match decEq k l, decideEq x y, decideEqItems xs ys with
    | isTrue hk, isTrue h, isTrue hs => isTrue (hk ▸ h ▸ hs ▸ rfl)
    | isFalse h, _, _ => isFalse (by simp [h])
    | _, isFalse h, _ => isFalse (by simp [h])
    | _, _, isFalse h => isFalse (by simp [h])

end

instance : DecidableEq Item := decideEq

end Item

/-- The items of a predicate or a group, each with the connective that joins it
    to the one before. A predicate is written down as a stream of entries, which
    describes such a forest. -/
abbrev Forest := List (Connective × Item)

/-- A group still open: its connective, the entry that opened it, and the items
    before it in the list around it. -/
structure OpenGroup where
  connective : Connective
  openedAt : Nat
  before : Forest

/-- Reads entries from `position` on, with the groups open there, innermost
    first, and the items so far of the list being read. A group left open is
    reported where the outermost one began. -/
def readForest (position : Nat) (opened : List OpenGroup) (items : Forest) :
    List Entry → Except SearchError Forest
  | [] =>
    match opened.getLast? with
    | some group => .error (.malformedGrouping group.openedAt .neverClosed)
    | none => .ok items
  | .condition connective condition :: entries =>
    readForest (position + 1) opened (items ++ [(connective, .condition condition)]) entries
  | .opening connective :: entries =>
    readForest (position + 1) (⟨connective, position, items⟩ :: opened) [] entries
  | .closing _ :: entries =>
    match opened with
    | group :: opened =>
      readForest (position + 1) opened (group.before ++ [(group.connective, .group items)]) entries
    | [] => .error (.malformedGrouping position .closeWithoutOpen)

/-- The forest that a stream of entries describes. The connective of a closing
    marker is not used. -/
def forest (entries : List Entry) : Except SearchError Forest :=
  readForest 0 [] [] entries

mutual

/-- The item without the groups that hold no condition at any depth; nothing is
    left of such a group itself. -/
def Item.prune? : Item → Option Item
  | .condition c => some (.condition c)
  | .group items =>
    match pruneForest items with
    | [] => none
    | i :: is => some (.group (i :: is))

/-- The items without the groups that hold no condition at any depth. -/
def pruneForest : Forest → Forest
  | [] => []
  | (connective, item) :: items =>
    match item.prune? with
    | some item => (connective, item) :: pruneForest items
    | none => pruneForest items

end

mutual

/-- What an item puts into the list around it: three values for a condition, in
    canonical form, or one list. -/
def Item.encode : Item → List Json
  | .condition c => c.normalize.triple
  | .group items => [.array (encodeForest items)]

/-- Items as one list, in which the parts of a condition stand inline and a
    group is a list of its own. The first item has no connective in front. -/
def encodeForest : Forest → List Json
  | [] => []
  | (_, item) :: items => item.encode ++ encodeOthers items

/-- The items after the first, each with its connective in front. -/
def encodeOthers : Forest → List Json
  | [] => []
  | (connective, item) :: items => .string connective.text :: (item.encode ++ encodeOthers items)

end

/-- The predicate sent when there is no condition: every row with a positive
    ticket. -/
def everyRow : Json :=
  .array [.string "Ticket", .string ">", .number (.integer 0 (by decide) (by decide))]

/-- The list for a predicate without empty groups. One made of a single group is
    that group. -/
def whereClause : Forest → Json
  | [] => everyRow
  | [(_, .group items)] => .array (encodeForest items)
  | items => .array (encodeForest items)

/-- The list for a stream of entries. -/
def compile (entries : List Entry) : Except SearchError Json :=
  (forest entries).map fun items => whereClause (pruneForest items)

end Predicate

end Brokerage
