import Brokerage.Proofs.Expression.Balance
import Brokerage.Proofs.Nesting

namespace Brokerage.Expression

open Nesting (Mark Closable Stray Unclosed)

def parenthesis? (c : Char) : Option Mark :=
  if c = '(' then some .opening else if c = ')' then some .closing else none

private theorem parenthesis?_open : parenthesis? '(' = some .opening := rfl

private theorem parenthesis?_close : parenthesis? ')' = some .closing := rfl

private theorem parenthesis?_eq_none {c : Char} (hopen : c ≠ '(') (hclose : c ≠ ')') : parenthesis? c = none := by
  simp only [parenthesis?, hopen, hclose, if_false]

private theorem eq_of_parenthesis?_eq_opening {c : Char} (h : parenthesis? c = some .opening) : c = '(' := by
  by_cases hopen : c = '('
  · exact hopen
  · by_cases hclose : c = ')'
    · rw [hclose] at h
      cases h
    · rw [parenthesis?_eq_none hopen hclose] at h
      cases h

private theorem eq_of_parenthesis?_eq_closing {c : Char} (h : parenthesis? c = some .closing) : c = ')' := by
  by_cases hclose : c = ')'
  · exact hclose
  · by_cases hopen : c = '('
    · rw [hopen] at h
      cases h
    · rw [parenthesis?_eq_none hopen hclose] at h
      cases h

/-- The parentheses match. -/
abbrev Matched (cs : List Char) : Prop :=
  Nesting.Balanced parenthesis? cs

private theorem matched_singleton {c : Char} (hopen : c ≠ '(') (hclose : c ≠ ')') : Matched [c] :=
  Nesting.balanced_singleton (parenthesis?_eq_none hopen hclose)

private theorem Matched.wrap {inner : List Char} (h : Matched inner) : Matched ('(' :: (inner ++ [')'])) :=
  Nesting.Balanced.wrap parenthesis?_open parenthesis?_close h

/-- How many bytes the characters take in UTF-8. -/
def byteLength (cs : List Char) : Nat :=
  (String.ofList cs).utf8ByteSize

@[simp] theorem byteLength_nil : byteLength [] = 0 := rfl

@[simp] theorem byteLength_append (cs ds : List Char) : byteLength (cs ++ ds) = byteLength cs + byteLength ds := by
  simp [byteLength]

@[simp] theorem byteLength_cons (c : Char) (cs : List Char) : byteLength (c :: cs) = c.utf8Size + byteLength cs := by
  have hfirst : byteLength [c] = c.utf8Size := by
    rw [byteLength, ← String.singleton_eq_ofList, String.utf8ByteSize_singleton]
  rw [← List.singleton_append, byteLength_append, hfirst]

private theorem utf8Size_open : '('.utf8Size = 1 := rfl

private theorem Reading.offset_prepend (c : Char) (r : Reading) : (r.prepend c).offset = r.offset := by
  unfold prepend
  split
  · rfl
  · split <;> rfl

/-- The characters that end what is read inside parentheses or outside. -/
def ending : Option Nat → List Char
  | none => []
  | some _ => [')']

@[simp] theorem ending_none : ending none = [] := rfl

@[simp] theorem ending_some (position : Nat) : ending (some position) = [')'] := rfl

/-- Reading goes through characters whose parentheses match and what ends them,
    and the offset moves along by their bytes. Outside parentheses nothing ends
    them but the end of the text. -/
theorem exists_matched_of_readNodes {openedAt : Option Nat} {offset : Nat} {cs : List Char}
    {r : { r : Reading // r.rest.length ≤ cs.length }} (h : readNodes openedAt offset cs = .ok r) :
    ∃ inner, Matched inner ∧ cs = inner ++ (ending openedAt ++ r.val.rest) ∧
      r.val.offset = offset + byteLength (inner ++ ending openedAt) := by
  fun_induction readNodes openedAt offset cs with
  | case1 => cases h
  | case2 =>
    cases h
    exact ⟨[], Nesting.balanced_nil, rfl, rfl⟩
  | case3 openedAt offset cs ihinner ihouter =>
    obtain ⟨⟨inner, hlength⟩, hinner, h⟩ := bind_eq_ok_iff.mp h
    obtain ⟨⟨outer, _⟩, houter, h⟩ := bind_eq_ok_iff.mp h
    cases h
    obtain ⟨inside, hinside, hcs, hmiddle⟩ := ihinner hinner
    obtain ⟨after, hafter, hrest, hfinal⟩ := ihouter inner hlength houter
    refine ⟨'(' :: (inside ++ [')']) ++ after, hinside.wrap.append_iff.mpr hafter, ?_, ?_⟩
    · calc
        '(' :: cs = '(' :: (inside ++ (ending (some offset) ++ inner.rest)) := congrArg _ hcs
        _ = '(' :: (inside ++ (ending (some offset) ++ (after ++ (ending openedAt ++ outer.rest)))) := by rw [hrest]
        _ = _ := by simp
    · dsimp only at hmiddle hfinal ⊢
      simp only [hfinal, hmiddle, ending_some, List.cons_append, List.append_assoc, List.nil_append, byteLength_append,
        byteLength_cons, byteLength_nil, utf8Size_open]
      omega
  | case4 =>
    cases h
    exact ⟨[], Nesting.balanced_nil, rfl, rfl⟩
  | case5 => cases h
  | case6 openedAt offset c cs hopen hclose ih =>
    obtain ⟨after, hafter, h⟩ := bind_eq_ok_iff.mp h
    cases h
    obtain ⟨inner, hinner, hcs, hoffset⟩ := ih hafter
    refine ⟨c :: inner, (matched_singleton hopen hclose).append_iff.mpr hinner, ?_, ?_⟩
    · rw [after.val.rest_prepend, List.cons_append, ← hcs]
    · rw [after.val.offset_prepend, hoffset, List.cons_append, byteLength_cons, Nat.add_assoc]

/-- What is wrong with characters read from `offset` on, and the offset of the
    parenthesis to blame: outside parentheses one that closes too much, anywhere
    one that is left open, and inside parentheses the one they began with. -/
inductive Fault : Option Nat → Nat → List Char → Nat → Prop where
  | stray {offset : Nat} {before after : List Char} (hbefore : Matched before) :
    Fault none offset (before ++ ')' :: after) (offset + byteLength before)
  | unclosed {openedAt : Option Nat} {offset : Nat} {before inner : List Char} (hinner : Matched inner)
      (hall : Closable parenthesis? (before ++ '(' :: inner)) :
    Fault openedAt offset (before ++ '(' :: inner) (offset + byteLength before)
  | own {position offset : Nat} {cs : List Char} (hcs : Matched cs) : Fault (some position) offset cs position

/-- What comes after characters whose parentheses match is as wrong after them
    as alone, further on by their bytes. -/
theorem Fault.prepend {openedAt : Option Nat} {offset position : Nat} {before cs : List Char} (hbefore : Matched before)
    (h : Fault openedAt (offset + byteLength before) cs position) : Fault openedAt offset (before ++ cs) position := by
  generalize hstart : offset + byteLength before = start at h
  cases h with
  | @stray _ middle after hmiddle =>
    rw [← hstart, Nat.add_assoc, ← byteLength_append, ← List.append_assoc]
    exact .stray (hbefore.append_iff.mpr hmiddle)
  | @unclosed _ _ middle inner hinner hall =>
    rw [← hstart, Nat.add_assoc, ← byteLength_append, ← List.append_assoc]
    refine .unclosed hinner ?_
    rw [List.append_assoc]
    exact hbefore.append_closable_iff.mpr hall
  | own hcs => exact .own (hbefore.append_iff.mpr hcs)

/-- Inside a group the parenthesis to blame is one left open there, or the one
    that opens the group. A closing one is never to blame there, since it closes
    the group. -/
theorem Fault.group {openedAt : Option Nat} {offset position : Nat} {cs : List Char}
    (h : Fault (some offset) (offset + 1) cs position) : Fault openedAt offset ('(' :: cs) position := by
  generalize hstart : offset + 1 = start at h
  generalize hgroup : some offset = group at h
  cases h with
  | stray => cases hgroup
  | @unclosed _ _ before inner hinner hall =>
    have hopened : Closable parenthesis? (('(' :: before) ++ '(' :: inner) :=
      Nesting.closable_opening_cons parenthesis?_open hall
    have hfault : Fault openedAt offset (('(' :: before) ++ '(' :: inner) (offset + byteLength ('(' :: before)) :=
      .unclosed hinner hopened
    rwa [byteLength_cons, utf8Size_open, ← Nat.add_assoc, hstart] at hfault
  | own hcs =>
    cases hgroup
    have hopened : Closable parenthesis? ([] ++ '(' :: cs) := Nesting.closable_opening_cons parenthesis?_open hcs.1
    have hfault : Fault openedAt offset ([] ++ '(' :: cs) (offset + byteLength []) := .unclosed hcs hopened
    exact hfault

/-- If reading fails there is something wrong with the characters, and the error
    has the offset of the parenthesis to blame for it. The induction follows the
    calls of the reader; a fault within a group is passed on unchanged, and one
    behind it has the group in front. -/
theorem exists_fault_of_readNodes {openedAt : Option Nat} {offset : Nat} {cs : List Char} {e : SearchError}
    (h : readNodes openedAt offset cs = .error e) :
    ∃ position, e = .unbalancedParenthesis position ∧ Fault openedAt offset cs position := by
  fun_induction readNodes openedAt offset cs with
  | case1 =>
    cases h
    exact ⟨_, rfl, .own Nesting.balanced_nil⟩
  | case2 => cases h
  | case3 openedAt offset cs ihinner ihouter =>
    rcases bind_eq_error_iff.mp h with hinner | ⟨⟨inner, hlength⟩, hinner, h⟩
    · obtain ⟨position, he, hfault⟩ := ihinner hinner
      exact ⟨position, he, hfault.group⟩
    · rcases bind_eq_error_iff.mp h with houter | ⟨outer, houter, h⟩
      · obtain ⟨inside, hinside, hcs, hmiddle⟩ := exists_matched_of_readNodes hinner
        obtain ⟨position, he, hfault⟩ := ihouter inner hlength houter
        refine ⟨position, he, ?_⟩
        have hsplit : '(' :: cs = '(' :: (inside ++ [')']) ++ inner.rest := by
          rw [hcs]
          simp
        rw [hsplit]
        refine Fault.prepend hinside.wrap ?_
        rwa [byteLength_cons, utf8Size_open, ← Nat.add_assoc, ← ending_some offset, ← hmiddle]
      · cases h
  | case4 => cases h
  | case5 offset cs =>
    cases h
    have hstray : Fault none offset ([] ++ ')' :: cs) (offset + byteLength []) := .stray Nesting.balanced_nil
    exact ⟨_, rfl, hstray⟩
  | case6 openedAt offset c cs hopen hclose ih =>
    rcases bind_eq_error_iff.mp h with hafter | ⟨after, hafter, h⟩
    · obtain ⟨position, he, hfault⟩ := ih hafter
      refine ⟨position, he, ?_⟩
      rw [← List.singleton_append]
      exact Fault.prepend (matched_singleton hopen hclose) (by simpa using hfault)
    · cases h

private theorem matched_of_parse {s : String} {e : Expression} (h : parse s = .ok e) : Matched s.toList := by
  rw [parse, map_eq_ok_iff] at h
  obtain ⟨r, hread, -⟩ := h
  obtain ⟨inner, hinner, hs, -⟩ := exists_matched_of_readNodes hread
  rw [(reads_of_readNodes hread).rest_eq_nil, ending_none, List.append_nil, List.append_nil] at hs
  rwa [hs]

/-- Outside parentheses one closes too much or one is left open. -/
private theorem Fault.stray_or_unclosed {offset position : Nat} {cs : List Char} (h : Fault none offset cs position) :
    (∃ before after, cs = before ++ ')' :: after ∧ Matched before ∧ position = offset + byteLength before) ∨
    (∃ before inner, cs = before ++ '(' :: inner ∧ Matched inner ∧ Closable parenthesis? cs ∧
      position = offset + byteLength before) := by
  cases h with
  | @stray _ before after hbefore => exact .inl ⟨before, after, rfl, hbefore, rfl⟩
  | @unclosed _ _ before inner hinner hall => exact .inr ⟨before, inner, rfl, hinner, hall, rfl⟩

/-- A text is refused for a parenthesis and for nothing else. -/
theorem exists_fault_of_parse {s : String} {e : SearchError} (h : parse s = .error e) :
    ∃ position, e = .unbalancedParenthesis position ∧ Fault none 0 s.toList position := by
  rw [parse, map_eq_error_iff] at h
  exact exists_fault_of_readNodes h

section

variable {before after inner : List Char}

private theorem isLeast_stray_of_matched (h : Matched before) :
    IsLeast {j | Stray parenthesis? (before ++ ')' :: after) j} before.length :=
  h.isLeast_stray parenthesis?_close

private theorem isGreatest_unclosed_of_matched (h : Matched inner) :
    IsGreatest {i | Unclosed parenthesis? (before ++ '(' :: inner) i} before.length :=
  Nesting.isGreatest_unclosed parenthesis?_open h

private theorem not_matched_of_stray {j : Nat} {cs : List Char} (h : Stray parenthesis? cs j) : ¬Matched cs :=
  fun hmatched => hmatched.1.not_stray j h

private theorem not_matched_of_unclosed {i : Nat} {cs : List Char} (h : Unclosed parenthesis? cs i) : ¬Matched cs :=
  fun hmatched => (Nesting.balanced_iff.mp hmatched).2 i h

/-- A parenthesis that closes too much is reported at its byte. What stands
    before it has to match, which makes it the first; what comes after is not
    looked at. -/
theorem parse_of_stray {s : String} (hbefore : Matched before) (hs : s.toList = before ++ ')' :: after) :
    parse s = .error (.unbalancedParenthesis (byteLength before)) := by
  have hleast : IsLeast {j | Stray parenthesis? s.toList j} before.length := by
    rw [hs]
    exact isLeast_stray_of_matched hbefore
  cases hparse : parse s with
  | ok e => exact absurd (matched_of_parse hparse) (not_matched_of_stray hleast.1)
  | error e =>
    obtain ⟨position, rfl, hfault⟩ := exists_fault_of_parse hparse
    obtain ⟨before', after', hs', hbefore', rfl⟩ | ⟨before', inner, -, -, hall, -⟩ := hfault.stray_or_unclosed
    · have hleast' : IsLeast {j | Stray parenthesis? s.toList j} before'.length := by
        rw [hs']
        exact isLeast_stray_of_matched hbefore'
      obtain ⟨rfl, -⟩ := List.append_inj (hs.symm.trans hs') (hleast.unique hleast')
      rw [Nat.zero_add]
    · exact absurd hleast.1 (hall.not_stray _)

/-- A parenthesis that is left open is reported at its byte, if all that follows
    it matches, which makes it the last, and if no parenthesis closes too much
    anywhere, since that one would be reported instead. -/
theorem parse_of_unclosed {s : String} (hinner : Matched inner) (hall : Closable parenthesis? s.toList)
    (hs : s.toList = before ++ '(' :: inner) :
    parse s = .error (.unbalancedParenthesis (byteLength before)) := by
  have hgreatest : IsGreatest {i | Unclosed parenthesis? s.toList i} before.length := by
    rw [hs]
    exact isGreatest_unclosed_of_matched hinner
  cases hparse : parse s with
  | ok e => exact absurd (matched_of_parse hparse) (not_matched_of_unclosed hgreatest.1)
  | error e =>
    obtain ⟨position, rfl, hfault⟩ := exists_fault_of_parse hparse
    obtain ⟨before', after, hs', hbefore', -⟩ | ⟨before', inner', hs', hinner', -, rfl⟩ := hfault.stray_or_unclosed
    · have hstray : Stray parenthesis? s.toList before'.length := by
        rw [hs']
        exact (isLeast_stray_of_matched hbefore').1
      exact absurd hstray (hall.not_stray _)
    · have hgreatest' : IsGreatest {i | Unclosed parenthesis? s.toList i} before'.length := by
        rw [hs']
        exact isGreatest_unclosed_of_matched hinner'
      obtain ⟨rfl, -⟩ := List.append_inj (hs.symm.trans hs') (hgreatest.unique hgreatest')
      rw [Nat.zero_add]

end

/-- The texts with an expression are those whose parentheses match. -/
theorem exists_parse_iff_matched {s : String} : (∃ e, parse s = .ok e) ↔ Matched s.toList := by
  constructor
  · rintro ⟨e, he⟩
    exact matched_of_parse he
  · intro h
    cases hparse : parse s with
    | ok e => exact ⟨e, rfl⟩
    | error e =>
      obtain ⟨position, -, hfault⟩ := exists_fault_of_parse hparse
      obtain ⟨before, after, hs, hbefore, -⟩ | ⟨before, inner, hs, hinner, -, -⟩ := hfault.stray_or_unclosed
      · rw [hs] at h
        exact absurd h (not_matched_of_stray (isLeast_stray_of_matched hbefore).1)
      · rw [hs] at h
        exact absurd h (not_matched_of_unclosed (isGreatest_unclosed_of_matched hinner).1)

/-- Counting the open parentheses from the front comes to the same as comparing
    the numbers of opening and closing ones. -/
theorem matched_iff_balanced (s : String) : Matched s.toList ↔ Balanced s.toList :=
  exists_parse_iff_matched.symm.trans (exists_parse_eq_ok_iff s)

private theorem eq_ofList_take {s before middle after : String} {length : Nat} (hs : s = before ++ middle ++ after)
    (hlength : before.length = length) : before = String.ofList (s.toList.take length) := by
  rw [← String.toList_inj, String.toList_ofList, hs, String.append_assoc, String.toList_append, ← hlength,
    ← String.length_toList, List.take_left]

/-- A text is refused exactly if its parentheses do not match, with the byte
    offset of one of them: the first that closes and has none open before it,
    whatever follows, or else the last that is opened and never closed. -/
theorem parse_refuses_unmatched (s : String) :
    ((∃ j, Stray parenthesis? s.toList j) →
      ∃ before after : String, s = before ++ ")" ++ after ∧
        IsLeast {j | Stray parenthesis? s.toList j} before.length ∧
        ∀ others : String,
          parse (before ++ ")" ++ others) = .error (.unbalancedParenthesis before.utf8ByteSize)) ∧
    ((∀ j, ¬Stray parenthesis? s.toList j) → (∃ i, Unclosed parenthesis? s.toList i) →
      ∃ before after : String, s = before ++ "(" ++ after ∧
        IsGreatest {i | Unclosed parenthesis? s.toList i} before.length ∧
        parse s = .error (.unbalancedParenthesis before.utf8ByteSize)) ∧
    ((∃ e, parse s = .ok e) ↔
      (∀ j, ¬Stray parenthesis? s.toList j) ∧ ∀ i, ¬Unclosed parenthesis? s.toList i) := by
  refine ⟨?stray, ?unclosed, ?accepted⟩
  case stray =>
    intro hstray
    obtain ⟨before, b, after, hs, hb, hbefore⟩ :=
      Nesting.exists_split_of_not_closable (Nesting.exists_stray_iff.mp hstray)
    obtain rfl := eq_of_parenthesis?_eq_closing hb
    refine ⟨String.ofList before, String.ofList after, ?_, ?_, fun others => ?_⟩
    · rw [← String.toList_inj, hs]
      simp
    · rw [hs, String.length_ofList]
      exact isLeast_stray_of_matched hbefore
    · have hothers : (String.ofList before ++ ")" ++ others).toList = before ++ ')' :: others.toList := by simp
      exact parse_of_stray hbefore hothers
  case unclosed =>
    intro hnone hunclosed
    have hall : Closable parenthesis? s.toList := by
      by_contra hnot
      exact not_exists.mpr hnone (Nesting.exists_stray_iff.mpr hnot)
    obtain ⟨before, a, inner, hs, ha, hinner⟩ := Nesting.exists_innermost hall (hall.exists_unclosed_iff.mp hunclosed)
    obtain rfl := eq_of_parenthesis?_eq_opening ha
    refine ⟨String.ofList before, String.ofList inner, ?_, ?_, parse_of_unclosed hinner hall hs⟩
    · rw [← String.toList_inj, hs]
      simp
    · rw [hs, String.length_ofList]
      exact isGreatest_unclosed_of_matched hinner
  case accepted => rw [exists_parse_iff_matched, Matched, Nesting.balanced_iff]

/-- The parenthesis at the byte 5 has none open before it, and those at the end
    are never closed. -/
def closedEarly : String := "(é) ) (("

/-- Three parentheses are opened and one is closed. The last one left open is at
    the byte 4. -/
def leftOpen : String := "( é((ß) Б"

theorem parse_refuses_unmatched_multibyte :
    (∃ j, Stray parenthesis? closedEarly.toList j) ∧ parse closedEarly = .error (.unbalancedParenthesis 5) ∧
      (∀ j, ¬Stray parenthesis? leftOpen.toList j) ∧ (∃ i, Unclosed parenthesis? leftOpen.toList i) ∧
      parse leftOpen = .error (.unbalancedParenthesis 4) := by
  have hblank : Matched [' '] := matched_singleton (by decide) (by decide)
  have hfirst : IsLeast {j | Stray parenthesis? ("(é) ".toList ++ ')' :: " ((".toList) j} 4 := by
    have hgroup : Matched "(é)".toList := (matched_singleton (by decide) (by decide)).wrap
    exact isLeast_stray_of_matched (hgroup.append_iff.mpr hblank)
  have hlast : IsGreatest {i | Unclosed parenthesis? ("( é".toList ++ '(' :: "(ß) Б".toList) i} 3 := by
    have hgroup : Matched "(ß)".toList := (matched_singleton (by decide) (by decide)).wrap
    have hend : Matched " Б".toList := hblank.append_iff.mpr (matched_singleton (by decide) (by decide))
    exact isGreatest_unclosed_of_matched (hgroup.append_iff.mpr hend)
  have hclosable : Closable parenthesis? leftOpen.toList := by
    rw [Nesting.closable_iff_take]
    intro i
    by_cases hi : i < 9
    · revert i
      decide
    · rw [List.take_of_length_le (by simp [leftOpen]; omega)]
      decide
  obtain ⟨before, after, hs, hleast, hparse⟩ := (parse_refuses_unmatched closedEarly).1 ⟨4, hfirst.1⟩
  obtain ⟨before', after', hs', hgreatest, hparse'⟩ :=
    (parse_refuses_unmatched leftOpen).2.1 hclosable.not_stray ⟨3, hlast.1⟩
  have hbefore : before = "(é) " := eq_ofList_take hs (hleast.unique hfirst)
  have hbefore' : before' = "( é" := eq_ofList_take hs' (hgreatest.unique hlast)
  have hparsed := hparse after
  rw [← hs, hbefore] at hparsed
  rw [hbefore'] at hparse'
  exact ⟨⟨4, hfirst.1⟩, hparsed, hclosable.not_stray, ⟨3, hlast.1⟩, hparse'⟩

end Brokerage.Expression
