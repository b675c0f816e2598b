import Brokerage.Binary64.Rounding

namespace Brokerage

/-- A JSON number: a 64-bit integer, signed or unsigned, or a finite binary64
    number. The two kinds stay apart, so that 1.0 is not the integer 1. -/
inductive Number where
  /-- An integer that fits in 64 bits, with or without a sign. -/
  | integer (value : Int) (lower : -0x8000000000000000 ≤ value) (upper : value < 0x10000000000000000)
  /-- A finite binary64 number. -/
  | real (negative : Bool) (magnitude : Binary64.Magnitude)
deriving DecidableEq

/-- A JSON value. The members of an object are kept in the order in which they
    are written. -/
inductive Json where
  | null
  | bool (value : Bool)
  | number (value : Number)
  | string (value : String)
  | array (items : List Json)
  | object (members : List (String × Json))
deriving Inhabited

namespace Json

mutual

def decideEq : (a b : Json) → Decidable (a = b)
  | null, null => isTrue rfl
  | bool a, bool b => if h : a = b then isTrue (h ▸ rfl) else isFalse (by simp [h])
  | number a, number b => if h : a = b then isTrue (h ▸ rfl) else isFalse (by simp [h])
  | string a, string b => if h : a = b then isTrue (h ▸ rfl) else isFalse (by simp [h])
  | array a, array b =>
    match decideEqItems a b with
    | isTrue h => isTrue (h ▸ rfl)
    | isFalse h => isFalse (by simp [h])
  | object a, object b =>
    match decideEqMembers a b with
    | isTrue h => isTrue (h ▸ rfl)
    | isFalse h => isFalse (by simp [h])
  | null, bool _ | null, number _ | null, string _ | null, array _ | null, object _
  | bool _, null | bool _, number _ | bool _, string _ | bool _, array _ | bool _, object _
  | number _, null | number _, bool _ | number _, string _ | number _, array _ | number _, object _
  | string _, null | string _, bool _ | string _, number _ | string _, array _ | string _, object _
  | array _, null | array _, bool _ | array _, number _ | array _, string _ | array _, object _
  | object _, null | object _, bool _ | object _, number _ | object _, string _ | object _, array _ =>
    isFalse (by simp)

def decideEqItems : (a b : List Json) → Decidable (a = b)
  | [], [] => isTrue rfl
  | [], _ :: _ | _ :: _, [] => isFalse (by simp)
  | x :: xs, y :: ys =>
    match decideEq x y, decideEqItems xs ys with
    | isTrue h, isTrue hs => isTrue (h ▸ hs ▸ rfl)
    | isFalse h, _ => isFalse (by simp [h])
    | _, isFalse h => isFalse (by simp [h])

def decideEqMembers : (a b : List (String × Json)) → Decidable (a = b)
  | [], [] => isTrue rfl
  | [], _ :: _ | _ :: _, [] => isFalse (by simp)
  | (k, x) :: xs, (l, y) :: ys =>
    match decEq k l, decideEq x y, decideEqMembers xs ys with
    | isTrue hk, isTrue h, isTrue hs => isTrue (hk ▸ h ▸ hs ▸ rfl)
    | isFalse h, _, _ => isFalse (by simp [h])
    | _, isFalse h, _ => isFalse (by simp [h])
    | _, _, isFalse h => isFalse (by simp [h])

end

instance : DecidableEq Json := decideEq

/-- A signed 64-bit integer as a value. -/
def ofInt64 (n : Int64) : Json :=
  .number (.integer n.toInt (Int64.le_toInt n) (Int.lt_trans (Int64.toInt_lt n) (by decide)))

/-- An unsigned 64-bit integer as a value. -/
def ofUInt64 (n : UInt64) : Json :=
  .number (.integer n.toNat (Int.le_trans (by decide) (Int.natCast_nonneg _))
    (by have := n.toNat_lt; omega))

/-- A binary64 number as a value. Infinities and NaN have none and give
    `null`. -/
def ofBinary64 : Binary64 → Json
  | .finite negative m => .number (.real negative m)
  | _ => .null

/-- The member called `name`, of an object; other values have none. -/
def get? : Json → String → Option Json
  | object members, name => members.lookup name
  | _, _ => none

/-- The value is an array. -/
def isArray : Json → Bool
  | array _ => true
  | _ => false

/-- The value is `null`. -/
def isNull : Json → Bool
  | null => true
  | _ => false

/-- The text of a string value. -/
def asString? : Json → Option String
  | string s => some s
  | _ => none

/-- The truth value of a boolean. -/
def asBool? : Json → Option Bool
  | bool b => some b
  | _ => none

/-- The integer of an integer number; a float is none, whatever its value. -/
def asInt? : Json → Option Int
  | number (.integer n _ _) => some n
  | _ => none

/-- The integer of a number that fits in 64 bits with a sign. -/
def asInt64? (v : Json) : Option Int64 :=
  v.asInt?.bind fun n => if n < 0x8000000000000000 then some (Int64.ofInt n) else none

/-- The integer of a number in the range from 0 to below `bound`. -/
def asNatBelow? (bound : Nat) (v : Json) : Option Nat :=
  v.asInt?.bind fun n => if 0 ≤ n ∧ n < bound then some n.toNat else none

/-- The integer of a number that fits in 64 bits without a sign. -/
def asUInt64? (v : Json) : Option UInt64 :=
  (v.asNatBelow? UInt64.size).map UInt64.ofNat

/-- The integer of a number that fits in 32 bits without a sign. -/
def asUInt32? (v : Json) : Option UInt32 :=
  (v.asNatBelow? UInt32.size).map UInt32.ofNat

/-- The integer of a number that fits in 16 bits without a sign. -/
def asUInt16? (v : Json) : Option UInt16 :=
  (v.asNatBelow? UInt16.size).map UInt16.ofNat

/-- The value of any number as a binary64 number, integers rounded to
    nearest. -/
def asBinary64? : Json → Option Binary64
  | number (.integer n _ _) => some (Binary64.ofInt n)
  | number (.real negative m) => some (.finite negative m)
  | _ => none

/-- The items of an array, each read by `item`. -/
def asList? {α : Type} (item : Json → Option α) : Json → Option (List α)
  | array items => items.mapM item
  | _ => none

/-- The members with `name` set to `value`, ascending by name if they were; an
    older member of that name gives way. -/
def insertMember (name : String) (value : Json) : List (String × Json) → List (String × Json)
  | [] => [(name, value)]
  | (k, v) :: rest =>
    if name < k then (name, value) :: (k, v) :: rest
    else if name = k then (name, value) :: rest
    else (k, v) :: insertMember name value rest

/-- Members given in any order, ascending by name; of two with one name the
    later stays. -/
def sortMembers (members : List (String × Json)) : List (String × Json) :=
  members.foldl (fun acc (k, v) => insertMember k v acc) []

/-- An object of members given in any order. -/
def ofMembers (members : List (String × Json)) : Json :=
  .object (sortMembers members)

mutual

/-- The same value with the members of every object ascending by name, none
    twice. -/
def sorted : Json → Json
  | array items => array (sortedItems items)
  | object members => object (sortMembers (sortedValues members))
  | v => v

/-- Sorts every item. -/
def sortedItems : List Json → List Json
  | [] => []
  | v :: vs => v.sorted :: sortedItems vs

/-- Sorts every member's value. -/
def sortedValues : List (String × Json) → List (String × Json)
  | [] => []
  | (k, v) :: ms => (k, v.sorted) :: sortedValues ms

end

end Json

end Brokerage
