import Brokerage.Proofs.Json.Parsed
import Brokerage.Proofs.Json.Record
import Mathlib.Data.List.Forall2

namespace Brokerage

namespace Json

variable {α β : Type} {R : α → β → Prop} {item : List Char → Option (α × List Char)}
  {other : List Char → Option (β × List Char)} {cs rest : List Char}

/-- On less than `bound` characters the other reader reads wherever the first
    one does, up to the same place, and what they read is related. The
    characters left over are no more than those given. -/
def Refines (bound : Nat) (read : List Char → Option (α × List Char)) (other : List Char → Option (β × List Char))
    (R : α → β → Prop) : Prop :=
  ∀ ⦃cs a rest⦄, cs.length < bound → read cs = some (a, rest) →
    rest.length ≤ cs.length ∧ ∃ b, other cs = some (b, rest) ∧ R a b

private theorem length_skipBlanks_le (cs : List Char) : (skipBlanks cs).length ≤ cs.length :=
  (List.dropWhile_sublist isBlank).length_le

/-- An item is followed by a comma and more items, or by the closing bracket.
    One step of the bound is spent on each item, so that it is never zero where
    something is read. -/
theorem exists_of_readItems? {close : Char} {steps : Nat} {items : List α}
    (h : readItems? item close steps cs = some (items, rest)) :
    ∃ first after fewer, steps = fewer + 1 ∧ item (skipBlanks cs) = some (first, after) ∧
      ((∃ tail others, skipBlanks after = ',' :: tail ∧ readItems? item close fewer tail = some (others, rest) ∧
          items = first :: others) ∨
        close ≠ ',' ∧ skipBlanks after = close :: rest ∧ items = [first]) := by
  cases steps with
  | zero => cases h
  | succ steps =>
    rw [readItems?] at h
    obtain ⟨⟨first, after⟩, hfirst, h⟩ := Option.bind_eq_some_iff.mp h
    refine ⟨first, after, steps, rfl, hfirst, ?_⟩
    dsimp only at h
    split at h
    · next tail htail =>
      obtain ⟨⟨others, last⟩, hothers, h⟩ := Option.bind_eq_some_iff.mp h
      cases h
      exact .inl ⟨tail, others, htail, hothers, rfl⟩
    · next c tail hcomma htail =>
      split at h
      · next hclose =>
        cases h
        exact .inr ⟨fun heq => hcomma (hclose.trans heq), hclose ▸ htail, rfl⟩
      · cases h
    · cases h

/-- A reader of items that reads wherever another one does makes a reader of
    lists that does. The two read item by item up to the same places. -/
theorem Refines.items {bound : Nat} (h : Refines bound item other R) (close : Char) (steps : Nat) :
    Refines bound (readItems? item close steps) (readItems? other close steps) (List.Forall₂ R) := by
  intro cs items rest hbound hread
  induction steps generalizing cs items with
  | zero => cases hread
  | succ steps ih =>
    obtain ⟨first, after, fewer, hsteps, hfirst, hread⟩ := exists_of_readItems? hread
    obtain rfl : steps = fewer := Nat.succ.inj hsteps
    have hblanks := length_skipBlanks_le cs
    have hafter := length_skipBlanks_le after
    obtain ⟨hlength, otherFirst, hother, hR⟩ := h (by omega) hfirst
    rw [readItems?, hother]
    rcases hread with ⟨tail, others, htail, hothers, rfl⟩ | ⟨hclose, hend, rfl⟩
    · rw [htail, List.length_cons] at hafter
      obtain ⟨hrest, otherOthers, hotherOthers, hlists⟩ := ih (by omega) hothers
      refine ⟨by omega, otherFirst :: otherOthers, ?_, .cons hR hlists⟩
      simp [htail, hotherOthers]
    · rw [hend, List.length_cons] at hafter
      refine ⟨by omega, [otherFirst], ?_, .cons hR .nil⟩
      simp [hend]

/-- The same of lists with their opening bracket taken off, an empty one
    included. -/
theorem Refines.sequence {bound : Nat} (h : Refines bound item other R) (close : Char) :
    Refines bound (readSequence? item close) (readSequence? other close) (List.Forall₂ R) := by
  intro cs items rest hbound hread
  have hblanks := length_skipBlanks_le cs
  unfold readSequence? at hread ⊢
  cases hcs : skipBlanks cs with
  | nil => rw [hcs] at hread; cases hread
  | cons c tail =>
    rw [hcs, List.length_cons] at hblanks
    rw [hcs] at hread
    dsimp only at hread ⊢
    by_cases hclose : c = close
    · rw [if_pos hclose] at hread ⊢
      cases hread
      exact ⟨by omega, [], rfl, .nil⟩
    · rw [if_neg hclose] at hread ⊢
      obtain ⟨hlength, result⟩ := h.items close _ (by rw [List.length_cons]; omega) hread
      rw [List.length_cons] at hlength
      exact ⟨by omega, result⟩

section lengths

private theorem length_le_of_readWord? {word : List Char} (h : readWord? word cs = some rest) : rest.length ≤ cs.length := by
  fun_induction readWord? word cs with
  | case1 => cases h; exact Nat.le_refl _
  | case2 _ _ _ ih => exact Nat.le_succ_of_le (ih h)
  | _ => cases h

private theorem length_le_of_readDigits? {ds : List Char} (h : readDigits? cs = some (ds, rest)) :
    rest.length ≤ cs.length := by
  unfold readDigits? at h
  split at h
  · cases h
  · cases h
    exact (List.dropWhile_sublist Char.isDigit).length_le

private theorem length_le_of_readWhole? {ds : List Char} (h : readWhole? cs = some (ds, rest)) :
    rest.length ≤ cs.length := by
  unfold readWhole? at h
  split at h
  · cases h
  · exact length_le_of_readDigits? h

private theorem length_le_of_readFraction? {ds : Option (List Char)} (h : readFraction? cs = some (ds, rest)) :
    rest.length ≤ cs.length := by
  unfold readFraction? at h
  split at h
  · obtain ⟨⟨digits, after⟩, hdigits, heq⟩ := Option.map_eq_some_iff.mp h
    cases heq
    exact Nat.le_succ_of_le (length_le_of_readDigits? hdigits)
  · cases h
    exact Nat.le_refl _

private theorem length_le_of_readExponent? {e : Option (Bool × List Char)} (h : readExponent? cs = some (e, rest)) :
    rest.length ≤ cs.length := by
  unfold readExponent? at h
  split at h
  · split at h
    · split at h
      all_goals
        obtain ⟨⟨digits, after⟩, hdigits, heq⟩ := Option.map_eq_some_iff.mp h
        cases heq
        have hlength := length_le_of_readDigits? hdigits
        simp only [List.length_cons]
        omega
    · cases h
      exact Nat.le_refl _
  · cases h
    exact Nat.le_refl _

/-- A number that is read leaves no more characters than there were. -/
theorem length_le_of_readNumeral? {n : Numeral} (h : readNumeral? cs = some (n, rest)) :
    rest.length ≤ cs.length := by
  unfold readNumeral? at h
  split at h
  next negative unsigned hsign =>
    have hunsigned : unsigned.length ≤ cs.length := by
      split at hsign
      · cases hsign
        exact Nat.le_succ _
      · cases hsign
        exact Nat.le_refl _
    obtain ⟨⟨whole, afterWhole⟩, hwhole, h⟩ := Option.bind_eq_some_iff.mp h
    obtain ⟨⟨fraction, afterFraction⟩, hfraction, h⟩ := Option.bind_eq_some_iff.mp h
    obtain ⟨⟨exponent, afterExponent⟩, hexponent, h⟩ := Option.bind_eq_some_iff.mp h
    cases h
    calc rest.length
      _ ≤ afterFraction.length := length_le_of_readExponent? hexponent
      _ ≤ afterWhole.length := length_le_of_readFraction? hfraction
      _ ≤ unsigned.length := length_le_of_readWhole? hwhole
      _ ≤ cs.length := hunsigned

end lengths

end Json

namespace Record

open Json (Refines readStringBody? readString? readNumeral? readScalar? readValue? readSequence? skipBlanks)

variable {cs rest : List Char}

/-- A string that is read is skipped. A surrogate pair is skipped as two units;
    a lone surrogate would be skipped too, but is not read. -/
theorem skipStringBody?_of_readStringBody? {text : List Char} (h : readStringBody? cs = some (text, rest)) :
    rest.length ≤ cs.length ∧ skipStringBody? cs = some rest := by
  fun_induction readStringBody? cs generalizing text with
  | case1 after =>
    cases h
    rw [skipStringBody?]
    exact ⟨Nat.le_succ _, rfl⟩
  | case4 a b c d n hunit hsurrogate e f g k after char hpair ih =>
    obtain ⟨⟨inner, last⟩, hinner, heq⟩ := Option.map_eq_some_iff.mp h
    cases heq
    obtain ⟨low, hlow, -⟩ := Option.bind_eq_some_iff.mp hpair
    obtain ⟨hlength, hskip⟩ := ih hinner
    simp only [skipStringBody?, hunit, hlow, List.length_cons]
    exact ⟨by omega, hskip⟩
  | case6 a b c d after n hunit hsingle ih =>
    obtain ⟨⟨inner, last⟩, hinner, heq⟩ := Option.map_eq_some_iff.mp h
    cases heq
    obtain ⟨hlength, hskip⟩ := ih hinner
    simp only [skipStringBody?, hunit, List.length_cons]
    exact ⟨by omega, hskip⟩
  | case8 letter after hother char hsimple ih =>
    obtain ⟨⟨inner, last⟩, hinner, heq⟩ := Option.map_eq_some_iff.mp h
    cases heq
    obtain ⟨hlength, hskip⟩ := ih hinner
    rw [skipStringBody?.eq_3 _ _ hother, hsimple]
    exact ⟨Nat.le_succ_of_le (Nat.le_succ_of_le hlength), hskip⟩
  | case10 char after hquote hunit hsimple hplain ih =>
    obtain ⟨⟨inner, last⟩, hinner, heq⟩ := Option.map_eq_some_iff.mp h
    cases heq
    obtain ⟨hlength, hskip⟩ := ih hinner
    rw [skipStringBody?.eq_4 _ _ hquote hunit hsimple, if_neg hplain]
    exact ⟨Nat.le_succ_of_le hlength, hskip⟩
  | _ => cases h

/-- No number begins with a bracket. -/
private theorem readNumeral?_of_bracket {c : Char} (h : c = '[' ∨ c = '\x7b') (cs : List Char) :
    readNumeral? (c :: cs) = none := by
  rcases h with rfl | rfl <;> rfl

/-- A scalar that is read is skipped. One step is enough, as nothing is nested
    in it. -/
theorem refines_readScalar_skipValue {bound : Nat} (fuel : Nat) :
    Refines bound readScalar? (skipValue? (fuel + 1)) fun _ _ => True := by
  intro cs v rest hbound hread
  unfold readScalar? at hread
  split at hread
  case h_4 tail =>
    obtain ⟨⟨text, after⟩, htext, heq⟩ := Option.map_eq_some_iff.mp hread
    cases heq
    obtain ⟨⟨inner, after⟩, hinner, heq⟩ := Option.map_eq_some_iff.mp htext
    cases heq
    obtain ⟨hlength, hskip⟩ := skipStringBody?_of_readStringBody? hinner
    exact ⟨Nat.le_succ_of_le hlength, (), by rw [skipValue?, hskip]; rfl, trivial⟩
  case h_5 hnull htrue hfalse hstring =>
    obtain ⟨⟨numeral, after⟩, hnumeral, hread⟩ := Option.bind_eq_some_iff.mp hread
    obtain ⟨n, -, heq⟩ := Option.bind_eq_some_iff.mp hread
    cases heq
    refine ⟨Json.length_le_of_readNumeral? hnumeral, (), ?_, trivial⟩
    rw [skipValue?.eq_def]
    dsimp only
    split
    · exact absurd rfl (hnull _)
    · exact absurd rfl (htrue _)
    · exact absurd rfl (hfalse _)
    · exact absurd rfl (hstring _)
    · cases (readNumeral?_of_bracket (.inl rfl) _).symm.trans hnumeral
    · cases (readNumeral?_of_bracket (.inr rfl) _).symm.trans hnumeral
    · rw [hnumeral]
      rfl
  all_goals
    obtain ⟨after, hafter, heq⟩ := Option.map_eq_some_iff.mp hread
    cases heq
    exact ⟨Nat.le_succ_of_le (Json.length_le_of_readWord? hafter), (), by rw [skipValue?, hafter]; rfl, trivial⟩

/-- A member is a name, a colon and what `value` reads. -/
theorem exists_of_readMember? {α : Type} {value : List Char → Option (α × List Char)} {m : String × α}
    (h : Json.readMember? value cs = some (m, rest)) :
    ∃ after tail, readString? (skipBlanks cs) = some (m.1, after) ∧ skipBlanks after = ':' :: tail ∧
      value (skipBlanks tail) = some (m.2, rest) := by
  obtain ⟨⟨name, after⟩, hname, h⟩ := Option.bind_eq_some_iff.mp h
  dsimp only at h
  split at h
  · next tail htail =>
    obtain ⟨⟨v, last⟩, hvalue, h⟩ := Option.bind_eq_some_iff.mp h
    cases h
    exact ⟨after, tail, hname, htail, hvalue⟩
  · cases h

/-- A name that is read is skipped with its colon. -/
theorem skipName?_of_readString? {after tail : List Char} {name : String}
    (h : readString? (skipBlanks cs) = some (name, after)) (hcolon : skipBlanks after = ':' :: tail) :
    (skipBlanks tail).length ≤ cs.length ∧ skipName? cs = some tail := by
  have hblanks := Json.length_skipBlanks_le cs
  have hafter := Json.length_skipBlanks_le after
  have htail := Json.length_skipBlanks_le tail
  unfold readString? at h
  split at h
  · next body hbody =>
    obtain ⟨⟨inner, last⟩, hinner, heq⟩ := Option.map_eq_some_iff.mp h
    cases heq
    obtain ⟨hlength, hskip⟩ := skipStringBody?_of_readStringBody? hinner
    rw [hbody, List.length_cons] at hblanks
    rw [hcolon, List.length_cons] at hafter
    refine ⟨by omega, ?_⟩
    simp only [skipName?, hbody, hskip, Option.bind_eq_bind, Option.bind_some, hcolon]
  · cases h

/-- A member whose value is skipped wherever it is read is skipped wherever it
    is read. -/
theorem refines_skipMember {bound : Nat} {value : List Char → Option (Json × List Char)}
    {skip : List Char → Option (Unit × List Char)} (h : Refines bound value skip fun _ _ => True) :
    Refines bound (Json.readMember? value) (fun cs => (skipName? cs).bind fun cs => skip (skipBlanks cs))
      fun _ _ => True := by
  intro cs m rest hbound hmember
  obtain ⟨after, tail, hname, hcolon, hvalue⟩ := exists_of_readMember? hmember
  obtain ⟨htail, hskip⟩ := skipName?_of_readString? hname hcolon
  obtain ⟨hlength, u, hskipped, -⟩ := h (by omega) hvalue
  refine ⟨by omega, u, ?_, trivial⟩
  dsimp only
  rw [hskip, Option.bind_some, hskipped]

/-- A value that is read is skipped, if it is shorter than the depth that is
    allowed for. The converse fails: what is skipped may be nested deeper, hold
    numbers out of range and escape lone surrogates. -/
theorem refines_readValue_skipValue (depth fuel : Nat) :
    Refines fuel (readValue? depth) (skipValue? fuel) fun _ _ => True := by
  induction fuel generalizing depth with
  | zero => intro cs v rest hbound; exact absurd hbound (Nat.not_lt_zero _)
  | succ fuel ih =>
    cases depth with
    | zero => exact refines_readScalar_skipValue fuel
    | succ depth =>
      intro cs v rest hbound hread
      rw [Json.readValue?.eq_def] at hread
      dsimp only at hread
      split at hread
      · next tail =>
        obtain ⟨⟨items, after⟩, hitems, heq⟩ := Option.map_eq_some_iff.mp hread
        cases heq
        obtain ⟨hlength, skipped, hskipped, -⟩ := (ih depth).sequence ']' (Nat.lt_of_succ_lt_succ hbound) hitems
        exact ⟨Nat.le_succ_of_le hlength, (), by rw [skipValue?, hskipped]; rfl, trivial⟩
      · next tail =>
        obtain ⟨⟨members, after⟩, hmembers, heq⟩ := Option.map_eq_some_iff.mp hread
        cases heq
        obtain ⟨hlength, skipped, hskipped, -⟩ :=
          (refines_skipMember (ih depth)).sequence '\x7d' (Nat.lt_of_succ_lt_succ hbound) hmembers
        exact ⟨Nat.le_succ_of_le hlength, (), by rw [skipValue?, hskipped]; rfl, trivial⟩
      · exact refines_readScalar_skipValue fuel hbound hread

/-- What a record keeps of a member: its value under its field's name, if it has
    a field. -/
def Kept (fields : List Field) (m : String × Json) (kept : Option (String × Json)) : Prop :=
  kept = (fieldName? fields m.1).map fun field => (field, m.2)

/-- A member of a record is read wherever it is read as a member of a value, and
    kept if it belongs to a field. Members of no field are skipped, which
    `refines_readValue_skipValue` allows. -/
theorem refines_readMember (bound : Nat) (fields : List Field) :
    Refines bound (Json.readMember? (readValue? (Json.maxDepth - 1))) (readMember? fields) (Kept fields) := by
  intro cs m rest hbound hmember
  obtain ⟨after, tail, hname, hcolon, hvalue⟩ := exists_of_readMember? hmember
  obtain ⟨htail, -⟩ := skipName?_of_readString? hname hcolon
  obtain ⟨hlength, u, hskipped, -⟩ :=
    refines_readValue_skipValue (Json.maxDepth - 1) _ (Nat.lt_succ_self (skipBlanks tail).length) hvalue
  refine ⟨by omega, _, ?_, rfl⟩
  rw [readMember?, hname]
  simp only [Option.bind_eq_bind, Option.bind_some, hcolon]
  cases fieldName? fields m.1 with
  | none =>
    dsimp only
    rw [hskipped]
    rfl
  | some field =>
    dsimp only
    rw [hvalue]
    rfl

/-- The members kept are those that are known to the fields, in the order of the
    text. -/
theorem filterMap_kept {fields : List Field} {kept : List (Option (String × Json))} {members : List (String × Json)}
    (h : List.Forall₂ (Kept fields) members kept) : kept.filterMap id = knownMembers fields members := by
  have hmap : kept = members.map fun m => (fieldName? fields m.1).map fun field => (field, m.2) := by
    induction h with
    | nil => rfl
    | cons hfirst _ ih => rw [List.map_cons, ← ih, hfirst]
  rw [hmap, List.filterMap_map]
  rfl

/-- What is read of a record in the text of a value: of an object the members as
    they are given, of a list the items, and nothing of any other value. -/
inductive ReadFrom (fields : List Field) : Json → Option (List (String × Json)) → Prop
  | object (given : List (String × Json)) : ReadFrom fields (.ofMembers given) (ofObject? fields given)
  | array (items : List Json) : ReadFrom fields (.array items) (ofItems? fields items)
  | scalar {v : Json} (h : v.Scalar) : ReadFrom fields v none

variable {fields : List Field} {v : Json} {s : String}

/-- Where a value is read, the record's reader finds the fields in the members
    as they are given in the text, before any is lost to a later one of its
    name. -/
theorem readFields?_of_readValue? (fields : List Field) (h : readValue? Json.maxDepth cs = some (v, rest)) :
    ∃ found, ReadFrom fields v found ∧ readFields? fields cs = found.map fun members => (members, rest) := by
  have hdepth : Json.maxDepth = Json.maxDepth - 1 + 1 := rfl
  rw [hdepth, Json.readValue?.eq_def] at h
  dsimp only at h
  split at h
  · next tail =>
    obtain ⟨⟨items, after⟩, hitems, heq⟩ := Option.map_eq_some_iff.mp h
    cases heq
    refine ⟨_, .array items, ?_⟩
    rw [readFields?, hitems]
    cases hfields : ofItems? fields items <;> simp [hfields]
  · next tail =>
    obtain ⟨⟨members, after⟩, hmembers, heq⟩ := Option.map_eq_some_iff.mp h
    cases heq
    obtain ⟨-, kept, hread, hkept⟩ :=
      (refines_readMember _ fields).sequence '\x7d' (Nat.lt_succ_self tail.length) hmembers
    refine ⟨_, .object members, ?_⟩
    rw [readFields?, hread]
    simp only [Option.bind_eq_bind, Option.bind_some, filterMap_kept hkept, ofObject?]
    split <;> rfl
  · next hlist hobject =>
    refine ⟨none, .scalar (Json.yields_readScalar _ _ _ h), ?_⟩
    unfold readFields?
    split
    · exact absurd rfl (hobject _)
    · exact absurd rfl (hlist _)
    · rfl

/-- Where a text writes a value, the record is read from the value. The premise
    cannot be dropped: a text may write a record and no value, for what one of
    its skipped members holds. -/
theorem readFrom_of_parse? (hv : Json.parse? s = some v) : ReadFrom fields v (parse? fields s) := by
  unfold Json.parse? Json.readAll? at hv
  unfold parse? Json.readAll?
  split at hv
  · next w rest hw =>
    split at hv
    · next hend =>
      cases hv
      obtain ⟨found, hfound, hread⟩ := readFields?_of_readValue? fields hw
      rw [hread]
      cases found with
      | none => exact hfound
      | some members =>
        simp only [Option.map_some, if_pos hend]
        exact hfound
    · cases hv
  · cases hv

/-- The record holds the members of a value under the given names: of an object
    its members, of a list its items in the order of the names. -/
inductive HeldBy (names : List String) : Json → List (String × Json) → Prop
  | object {all members : List (String × Json)} (h : ∀ name ∈ names, members.lookup name = all.lookup name) :
    HeldBy names (.object all) members
  | array {items : List Json} (h : items.length ≤ names.length) : HeldBy names (.array items) (names.zip items)

/-- Where no field is given twice, it does not matter that the later of two
    members counts. -/
theorem lookup_knownMembers_named {names : List String} {given : List (String × Json)} {name : String}
    (hdistinct : distinctNames (knownMembers (names.map Field.named) given) = true) (hname : name ∈ names) :
    (knownMembers (names.map Field.named) given).lookup name = (Json.sortMembers given).lookup name := by
  rw [distinctNames_iff, knownMembers_named] at hdistinct
  have hlater (members : List (String × Json)) :
      (members.filter fun m => decide (m.1 ∈ names)).lookup name = members.lookup name := by
    rw [Json.lookup_filter fun name => decide (name ∈ names), if_pos (decide_eq_true hname)]
  rw [Json.lookup_sortMembers_eq_reverse, knownMembers_named, ← hlater given.reverse, List.filter_reverse,
    Json.lookup_reverse hdistinct]

/-- The record that is read from a text holds the members of the value that the
    text writes, under the names of its fields. -/
theorem ReadFrom.heldBy {names : List String} {members : List (String × Json)}
    (h : ReadFrom (names.map Field.named) v (some members)) : HeldBy names v members := by
  generalize hfound : some members = found at h
  cases h with
  | object given =>
    rw [ofObject?] at hfound
    split at hfound
    · next hdistinct =>
      cases hfound
      exact .object fun name hname => lookup_knownMembers_named hdistinct hname
    · cases hfound
  | array items =>
    rw [ofItems?] at hfound
    split at hfound
    · next hlength =>
      cases hfound
      rw [List.length_map] at hlength
      have hnames : (names.map Field.named).map Field.name = names := by simp [Function.comp_def, Field.named]
      rw [hnames]
      exact .array hlength
    · cases hfound
  | scalar h => cases hfound

end Record

end Brokerage
