import Brokerage.Proofs.Expression.Grammar

namespace Brokerage.Expression

/-- How many parentheses are open after the characters if `depth` are open
    before them; none if one is closed while none is open. -/
def depthAfter? : Nat → List Char → Option Nat
  | depth, [] => some depth
  | depth, c :: cs =>
    if c = '(' then depthAfter? (depth + 1) cs
    else if c = ')' then
      match depth with
      | 0 => none
      | depth + 1 => depthAfter? depth cs
    else depthAfter? depth cs

/-- Every closing parenthesis has an open one before it, and at the end none is
    open. -/
def Balanced (cs : List Char) : Prop :=
  depthAfter? 0 cs = some 0

@[simp] theorem depthAfter?_nil (depth : Nat) : depthAfter? depth [] = some depth := rfl

@[simp] theorem depthAfter?_open (depth : Nat) (cs : List Char) :
    depthAfter? depth ('(' :: cs) = depthAfter? (depth + 1) cs := rfl

@[simp] theorem depthAfter?_close_zero (cs : List Char) : depthAfter? 0 (')' :: cs) = none := rfl

@[simp] theorem depthAfter?_close_succ (depth : Nat) (cs : List Char) :
    depthAfter? (depth + 1) (')' :: cs) = depthAfter? depth cs := rfl

private theorem depthAfter?_other {c : Char} (hopen : c ≠ '(') (hclose : c ≠ ')') (depth : Nat) (cs : List Char) :
    depthAfter? depth (c :: cs) = depthAfter? depth cs := by
  simp only [depthAfter?, hopen, hclose, if_false]

private theorem ne_parenthesis_of_isOperator {c : Char} (hc : isOperator c = true) : c ≠ '(' ∧ c ≠ ')' := by
  constructor <;> rintro rfl <;> cases hc

/-- Spaces do not count, at any depth. -/
theorem depthAfter?_filter_ne_space (depth : Nat) (cs : List Char) :
    depthAfter? depth (cs.filter (· ≠ ' ')) = depthAfter? depth cs := by
  induction cs generalizing depth with
  | nil => rfl
  | cons c cs ih =>
    by_cases hspace : c = ' '
    · subst hspace
      simpa [depthAfter?_other] using ih depth
    · rw [List.filter_cons_of_pos (by simpa using hspace)]
      by_cases hopen : c = '('
      · simpa only [hopen, depthAfter?_open] using ih (depth + 1)
      by_cases hclose : c = ')'
      · cases depth with
        | zero => simp only [hclose, depthAfter?_close_zero]
        | succ depth => simpa only [hclose, depthAfter?_close_succ] using ih depth
      · simpa only [depthAfter?_other hopen hclose] using ih depth

/-- Reading inside parentheses goes on to where one of them is closed, and
    reading a whole text to where all are. The depth around is arbitrary, as a
    group is read the same at every depth. -/
theorem Reads.depthAfter?_eq {inside : Bool} {cs operand rest : List Char} {nodes : List Node}
    (h : Reads inside cs operand nodes rest) (depth : Nat) :
    depthAfter? (depth + inside.toNat) cs = depthAfter? depth rest := by
  induction h generalizing depth with
  | textEnd => rfl
  | close => rfl
  | group _ _ ihinner ihouter =>
    rw [depthAfter?_open]
    exact (ihinner _).trans (ihouter depth)
  | operator hc _ ih =>
    obtain ⟨hopen, hclose⟩ := ne_parenthesis_of_isOperator hc
    rw [depthAfter?_other hopen hclose, ih]
  | space _ ih => rw [depthAfter?_other (by decide) (by decide), ih]
  | plain hc _ ih => rw [depthAfter?_other hc.2.2.1 hc.2.2.2, ih]

private theorem Reads.length_le {inside : Bool} {cs operand rest : List Char} {nodes : List Node}
    (h : Reads inside cs operand nodes rest) : rest.length ≤ cs.length := by
  induction h with
  | textEnd => exact Nat.le_refl _
  | close => exact Nat.le_succ _
  | group _ _ ihinner ihouter => exact Nat.le_succ_of_le (Nat.le_trans ihouter ihinner)
  | operator _ _ ih => exact Nat.le_succ_of_le ih
  | space _ ih => exact Nat.le_succ_of_le ih
  | plain _ _ ih => exact Nat.le_succ_of_le ih

/-- Characters that close what is open before them can be read, from inside
    parentheses up to the closing one. Outside of all parentheses nothing may be
    open before them. The induction is on the number of characters, because a
    group and what follows it are read one after the other. -/
theorem exists_reads_of_depthAfter? {inside : Bool} {depth : Nat} {cs : List Char} (hdepth : inside = false → depth = 0)
    (h : depthAfter? (depth + inside.toNat) cs = some 0) :
    ∃ operand nodes rest, Reads inside cs operand nodes rest := by
  generalize hlength : cs.length = length
  induction length using Nat.strongRecOn generalizing inside depth cs with
  | ind length ih =>
    cases cs with
    | nil =>
      cases inside with
      | false => exact ⟨[], [], [], .textEnd⟩
      | true => simp at h
    | cons c cs =>
      have hshorter : cs.length < length := by simp at hlength; omega
      by_cases hopen : c = '('
      · subst hopen
        -- The group is read first: what it leaves closes exactly what was open before it.
        have hgroup : ∃ operand nodes rest, Reads true cs operand nodes rest := ih _ hshorter (by simp) h rfl
        obtain ⟨innerOperand, innerNodes, between, hinner⟩ := hgroup
        have hbetween := (hinner.depthAfter?_eq _).symm.trans h
        obtain ⟨operand, nodes, rest, houter⟩ :=
          ih between.length (Nat.lt_of_le_of_lt hinner.length_le hshorter) hdepth hbetween rfl
        exact ⟨_, _, _, .group hinner houter⟩
      by_cases hclose : c = ')'
      · subst hclose
        cases inside with
        | false => simp [hdepth rfl] at h
        | true => exact ⟨[], [], cs, .close cs⟩
      · rw [depthAfter?_other hopen hclose] at h
        obtain ⟨operand, nodes, rest, hafter⟩ := ih _ hshorter hdepth h rfl
        exact ⟨_, _, _, Reads.prepend (r := ⟨operand, nodes, 0, rest⟩) hopen hclose hafter⟩

/-- The texts with an expression are the balanced ones: no operator, operand or
    space makes a text ill-formed. -/
theorem exists_parse_eq_ok_iff (s : String) : (∃ e, parse s = .ok e) ↔ Balanced s.toList := by
  constructor
  · rintro ⟨e, he⟩
    obtain ⟨operand, nodes, h, -⟩ := parse_eq_ok_iff.mp he
    exact h.depthAfter?_eq 0
  · intro hbalanced
    have hreads : ∃ operand nodes rest, Reads false s.toList operand nodes rest :=
      exists_reads_of_depthAfter? (fun _ => rfl) hbalanced
    obtain ⟨operand, nodes, rest, h⟩ := hreads
    have hrest := h.rest_eq_nil
    subst hrest
    exact ⟨_, parse_eq_ok_iff.mpr ⟨operand, nodes, h, rfl⟩⟩

end Brokerage.Expression
