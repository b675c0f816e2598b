import Brokerage.Proofs.Outcome
import Brokerage.Search.Expression

namespace Brokerage.Expression

/-- The character belongs to an operand wherever it stands. -/
def isPlain (c : Char) : Prop :=
  isOperator c = false ∧ c ≠ ' ' ∧ c ≠ '(' ∧ c ≠ ')'

/-- From the characters, up to the end of the text or, inside parentheses, up to
    and with the closing one, an operand and the nodes after it are read, and
    the rest is left. This is the grammar alone, without offsets; an operand
    stays apart from the nodes because the characters before may still lengthen
    it. -/
inductive Reads : Bool → List Char → List Char → List Node → List Char → Prop where
  | textEnd : Reads false [] [] [] []
  | close (rest : List Char) : Reads true (')' :: rest) [] [] rest
  | group {inside : Bool} {cs innerOperand operand between rest : List Char} {innerNodes nodes : List Node}
      (hinner : Reads true cs innerOperand innerNodes between) (houter : Reads inside between operand nodes rest) :
      Reads inside ('(' :: cs) [] (.group (withOperand innerOperand innerNodes) :: withOperand operand nodes) rest
  | operator {inside : Bool} {c : Char} {cs operand rest : List Char} {nodes : List Node} (hc : isOperator c = true)
      (hafter : Reads inside cs operand nodes rest) :
      Reads inside (c :: cs) [] (.token (String.singleton c) :: withOperand operand nodes) rest
  | space {inside : Bool} {cs operand rest : List Char} {nodes : List Node}
      (hafter : Reads inside cs operand nodes rest) : Reads inside (' ' :: cs) operand nodes rest
  | plain {inside : Bool} {c : Char} {cs operand rest : List Char} {nodes : List Node} (hc : isPlain c)
      (hafter : Reads inside cs operand nodes rest) : Reads inside (c :: cs) (c :: operand) nodes rest

/-- A character that is no parenthesis acts on what is read after it the way the
    grammar has it: an operator ends the operand behind it, a space is passed
    over, and any other character lengthens the operand. -/
theorem Reads.prepend {inside : Bool} {c : Char} {cs : List Char} {r : Reading} (hopen : c ≠ '(') (hclose : c ≠ ')')
    (h : Reads inside cs r.operand r.nodes r.rest) :
    Reads inside (c :: cs) (r.prepend c).operand (r.prepend c).nodes (r.prepend c).rest := by
  unfold Reading.prepend
  by_cases hoperator : isOperator c = true
  · simpa only [hoperator, if_true, Reading.all] using Reads.operator hoperator h
  · by_cases hspace : c = ' '
    · subst hspace
      exact Reads.space h
    · simp only [hoperator, hspace, if_false]
      exact .plain ⟨by simpa using hoperator, hspace, hopen, hclose⟩ h

/-- Whatever the reader gives is derived by the grammar. The induction follows
    the calls of the reader, each of which reads from fewer characters than the
    one that makes it. -/
theorem reads_of_readNodes {openedAt : Option Nat} {offset : Nat} {cs : List Char}
    {r : { r : Reading // r.rest.length ≤ cs.length }} (h : readNodes openedAt offset cs = .ok r) :
    Reads openedAt.isSome cs r.val.operand r.val.nodes r.val.rest := by
  fun_induction readNodes openedAt offset cs with
  | case1 => cases h
  | case2 =>
    cases h
    exact .textEnd
  | case3 openedAt offset cs ihinner ihouter =>
    obtain ⟨inner, hinner, h⟩ := bind_eq_ok_iff.mp h
    obtain ⟨outer, houter, h⟩ := bind_eq_ok_iff.mp h
    cases h
    exact .group (ihinner hinner) (ihouter _ inner.property houter)
  | case4 =>
    cases h
    exact .close _
  | case5 => cases h
  | case6 openedAt offset c cs hopen hclose ih =>
    obtain ⟨after, hafter, h⟩ := bind_eq_ok_iff.mp h
    cases h
    exact (ih hafter).prepend hopen hclose

/-- Any character but a parenthesis is put in front of what is read after it. -/
private theorem readNodes_cons {openedAt : Option Nat} {offset : Nat} {c : Char} {cs : List Char} {r : Reading}
    {hrest : r.rest.length ≤ cs.length} (hopen : c ≠ '(') (hclose : c ≠ ')')
    (h : readNodes openedAt (offset + c.utf8Size) cs = .ok ⟨r, hrest⟩) :
    ∃ hrest, readNodes openedAt offset (c :: cs) = .ok ⟨r.prepend c, hrest⟩ := by
  refine ⟨?_, ?_⟩
  · rw [r.rest_prepend]
    exact Nat.le_succ_of_le hrest
  · rw [readNodes.eq_def]
    simp only [hopen, hclose, if_false, h]
    rfl

/-- What the grammar derives is read from any offset on; only the offset at the
    end depends on where reading began. Whether the reader is inside parentheses
    has to agree with the grammar, and where these were opened does not
    matter. -/
theorem Reads.readNodes_eq {inside : Bool} {cs operand rest : List Char} {nodes : List Node}
    (h : Reads inside cs operand nodes rest) (openedAt : Option Nat) (hinside : openedAt.isSome = inside)
    (offset : Nat) :
    ∃ final hrest, readNodes openedAt offset cs = .ok ⟨⟨operand, nodes, final, rest⟩, hrest⟩ := by
  induction h generalizing openedAt offset with
  | textEnd =>
    cases openedAt with
    | none => exact ⟨offset, Nat.le_refl _, by rw [readNodes]⟩
    | some position => cases hinside
  | close rest =>
    cases openedAt with
    | none => cases hinside
    | some position => exact ⟨offset + 1, Nat.le_succ _, by rw [readNodes]; simp⟩
  | group _ _ ihinner ihouter =>
    obtain ⟨middle, hmiddle, hinner⟩ := ihinner (some offset) rfl (offset + 1)
    obtain ⟨final, hfinal, houter⟩ := ihouter openedAt hinside middle
    refine ⟨final, Nat.le_succ_of_le (Nat.le_trans hfinal hmiddle), ?_⟩
    rw [readNodes.eq_def]
    simp only [if_true, hinner, bind, Except.bind, houter]
    rfl
  | @operator _ c _ operand rest nodes hc _ ih =>
    obtain ⟨final, hrest, hread⟩ := ih openedAt hinside (offset + c.utf8Size)
    have hopen : c ≠ '(' := by rintro rfl; cases hc
    have hclose : c ≠ ')' := by rintro rfl; cases hc
    obtain ⟨hrest', hread'⟩ := readNodes_cons hopen hclose hread
    simp only [Reading.prepend, hc, if_true] at hrest' hread'
    exact ⟨final, hrest', hread'⟩
  | space _ ih =>
    obtain ⟨final, hrest, hread⟩ := ih openedAt hinside (offset + Char.utf8Size ' ')
    obtain ⟨hrest', hread'⟩ := readNodes_cons (by decide) (by decide) hread
    exact ⟨final, hrest', hread'⟩
  | @plain _ c _ operand rest nodes hc _ ih =>
    obtain ⟨final, hrest, hread⟩ := ih openedAt hinside (offset + c.utf8Size)
    obtain ⟨hoperator, hspace, hopen, hclose⟩ := hc
    obtain ⟨hrest', hread'⟩ := readNodes_cons hopen hclose hread
    simp only [Reading.prepend, hoperator, Bool.false_eq_true, hspace, if_false] at hrest' hread'
    exact ⟨final, hrest', hread'⟩

/-- Outside parentheses nothing is left, since only a closing parenthesis stops
    the reading before the end. -/
theorem Reads.rest_eq_nil {cs operand rest : List Char} {nodes : List Node}
    (h : Reads false cs operand nodes rest) : rest = [] := by
  generalize hinside : false = inside at h
  induction h with
  | textEnd => rfl
  | close => cases hinside
  | group _ _ _ ih => exact ih hinside
  | operator _ _ ih => exact ih hinside
  | space _ ih => exact ih hinside
  | plain _ _ ih => exact ih hinside

/-- The expression of a text is the one that the grammar derives from all of
    it. -/
theorem parse_eq_ok_iff {s : String} {e : Expression} :
    parse s = .ok e ↔ ∃ operand nodes, Reads false s.toList operand nodes [] ∧ withOperand operand nodes = e := by
  rw [parse, map_eq_ok_iff]
  constructor
  · rintro ⟨r, hread, he⟩
    have h := reads_of_readNodes hread
    have hrest := h.rest_eq_nil
    rw [hrest] at h
    exact ⟨_, _, h, he⟩
  · rintro ⟨operand, nodes, h, he⟩
    obtain ⟨final, hrest, hread⟩ := h.readNodes_eq none rfl 0
    exact ⟨_, hread, he⟩

end Brokerage.Expression
