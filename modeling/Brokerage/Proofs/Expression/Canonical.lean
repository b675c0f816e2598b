import Brokerage.Proofs.Expression.Balance

namespace Brokerage.Expression

/-- A single operator. -/
def IsOperatorText (text : String) : Prop :=
  ∃ c, isOperator c = true ∧ text = String.singleton c

/-- A name or a number: not empty, and without operators, parentheses and
    spaces. -/
def IsOperandText (text : String) : Prop :=
  text.toList ≠ [] ∧ ∀ c ∈ text.toList, isPlain c

def Node.IsOperand : Node → Prop
  | .token text => IsOperandText text
  | .group _ => False

mutual

/-- Every token in the node is an operator or an operand, and no two operands
    stand side by side in it. -/
def Node.Canonical : Node → Prop
  | .token text => IsOperatorText text ∨ IsOperandText text
  | .group nodes => CanonicalNodes nodes

/-- Every token in the nodes is an operator or an operand, and no two operands
    stand side by side at any depth. -/
def CanonicalNodes : List Node → Prop
  | [] => True
  | node :: nodes =>
    node.Canonical ∧ (node.IsOperand → ∀ next ∈ nodes.head?, ¬next.IsOperand) ∧ CanonicalNodes nodes

end

/-- The expression could have been written down. -/
def Canonical (e : Expression) : Prop :=
  CanonicalNodes e

mutual

/-- A token is written as it is and a group in parentheses. -/
def Node.write : Node → List Char
  | .token text => text.toList
  | .group nodes => '(' :: writeNodes nodes ++ [')']

def writeNodes : List Node → List Char
  | [] => []
  | node :: nodes => node.write ++ writeNodes nodes

end

def render (e : Expression) : String :=
  String.ofList (writeNodes e)

/-- The text less its spaces. -/
def withoutSpaces (s : String) : String :=
  String.ofList (s.toList.filter (· ≠ ' '))

private theorem writeNodes_withOperand (operand : List Char) (nodes : List Node) :
    writeNodes (withOperand operand nodes) = operand ++ writeNodes nodes := by
  unfold withOperand
  split
  · next h => rw [h, List.nil_append]
  · rw [writeNodes, Node.write, String.toList_ofList]

private theorem not_isOperandText_singleton {c : Char} (hc : isOperator c = true) : ¬IsOperandText (String.singleton c) := by
  rintro ⟨-, hplain⟩
  have h := (hplain c (by simp)).1
  rw [hc] at h
  cases h

/-- An operand still to be put in front of nodes makes them no less canonical:
    it is plain, and no operand follows. -/
def CanonicalReading (operand : List Char) (nodes : List Node) : Prop :=
  (∀ c ∈ operand, isPlain c) ∧ (∀ next ∈ nodes.head?, ¬next.IsOperand) ∧ CanonicalNodes nodes

private theorem isOperandText_ofList {operand : List Char} (hne : operand ≠ []) (hplain : ∀ c ∈ operand, isPlain c) :
    IsOperandText (String.ofList operand) := by
  simpa only [IsOperandText, String.toList_ofList] using ⟨hne, hplain⟩

/-- Putting the pending operand in front gives canonical nodes. If there is none
    the nodes stay as they are; otherwise it is an operand, and the premise says
    that no other stands behind it. -/
theorem CanonicalReading.withOperand {operand : List Char} {nodes : List Node} (h : CanonicalReading operand nodes) :
    CanonicalNodes (withOperand operand nodes) := by
  obtain ⟨hplain, hnext, hnodes⟩ := h
  unfold Expression.withOperand
  split
  · exact hnodes
  · next hne => exact ⟨.inr (isOperandText_ofList hne hplain), fun _ => hnext, hnodes⟩

/-- If what is read does not begin with an operand, none is pending. -/
private theorem CanonicalReading.operand_eq_nil {operand : List Char} {nodes : List Node} (h : CanonicalReading operand nodes)
    (hhead : ∀ next ∈ (Expression.withOperand operand nodes).head?, ¬next.IsOperand) : operand = [] := by
  obtain ⟨hplain, -, -⟩ := h
  by_cases hne : operand = []
  · exact hne
  · have hoperand := hhead (.token (String.ofList operand)) (by simp [Expression.withOperand, hne])
    exact absurd (isOperandText_ofList hne hplain) hoperand

/-- What is read is canonical: operators are single, operands are plain, and two
    operands never stand side by side, because the characters between them would
    be operators or parentheses. -/
theorem Reads.canonicalReading {inside : Bool} {cs operand rest : List Char} {nodes : List Node}
    (h : Reads inside cs operand nodes rest) : CanonicalReading operand nodes := by
  induction h with
  | textEnd => exact ⟨by simp, by simp, trivial⟩
  | close => exact ⟨by simp, by simp, trivial⟩
  | group _ _ ihinner ihouter =>
    refine ⟨by simp, ?_, ihinner.withOperand, fun h => h.elim, ihouter.withOperand⟩
    simp [Node.IsOperand]
  | operator hc _ ih =>
    have hnot := not_isOperandText_singleton hc
    refine ⟨by simp, ?_, .inl ⟨_, hc, rfl⟩, fun h => absurd h hnot, ih.withOperand⟩
    simpa [Node.IsOperand] using hnot
  | space _ ih => exact ih
  | plain hc _ ih =>
    obtain ⟨hplain, hnext, hnodes⟩ := ih
    exact ⟨List.forall_mem_cons.mpr ⟨hc, hplain⟩, hnext, hnodes⟩

/-- The closing parenthesis that reading inside parentheses goes on to. -/
def closing (inside : Bool) : List Char :=
  if inside then [')'] else []

/-- Every character but the spaces is in what is read or in what is left, in the
    order of the text. -/
theorem Reads.filter_ne_space {inside : Bool} {cs operand rest : List Char} {nodes : List Node}
    (h : Reads inside cs operand nodes rest) :
    cs.filter (· ≠ ' ') = operand ++ writeNodes nodes ++ closing inside ++ rest.filter (· ≠ ' ') := by
  induction h with
  | textEnd => rfl
  | close => rfl
  | group _ _ ihinner ihouter =>
    rw [List.filter_cons_of_pos (by decide), ihinner, ihouter]
    simp [writeNodes, Node.write, writeNodes_withOperand, closing]
  | @operator _ c _ _ _ _ hc _ ih =>
    have hspace : c ≠ ' ' := by rintro rfl; cases hc
    rw [List.filter_cons_of_pos (by simpa using hspace), ih]
    simp [writeNodes, Node.write, writeNodes_withOperand]
  | space _ ih => rw [List.filter_cons_of_neg (by decide), ih]
  | plain hc _ ih =>
    rw [List.filter_cons_of_pos (by simpa using hc.2.1), ih]
    simp

private theorem Reads.plain_append {inside : Bool} {cs operand rest : List Char} {nodes : List Node}
    (h : Reads inside cs operand nodes rest) {plain : List Char} (hplain : ∀ c ∈ plain, isPlain c) :
    Reads inside (plain ++ cs) (plain ++ operand) nodes rest := by
  induction plain with
  | nil => exact h
  | cons c plain ih =>
    obtain ⟨hc, hplain⟩ := List.forall_mem_cons.mp hplain
    exact .plain hc (ih hplain)

mutual

/-- A canonical node written in front of characters is read as itself, unless it
    is an operand and the characters begin with one too: the two would be read
    as one. -/
theorem Node.reads_write (node : Node) (hnode : node.Canonical) {inside : Bool} {cs operand rest : List Char}
    {nodes : List Node} (h : Reads inside cs operand nodes rest) (hoperand : node.IsOperand → operand = []) :
    ∃ operand' nodes', Reads inside (node.write ++ cs) operand' nodes' rest ∧
      withOperand operand' nodes' = node :: withOperand operand nodes := by
  cases node with
  | token text =>
    rcases hnode with ⟨c, hc, rfl⟩ | htext
    · have hreads := Reads.operator hc h
      exact ⟨[], _, by simpa [Node.write] using hreads, rfl⟩
    · have hempty := hoperand htext
      subst hempty
      refine ⟨text.toList ++ [], nodes, h.plain_append htext.2, ?_⟩
      simp [withOperand, htext.1]
  | group inner =>
    obtain ⟨innerOperand, innerNodes, hreads, heq⟩ := reads_writeNodes inner hnode (.close cs)
    have hgroup := Reads.group hreads h
    rw [heq] at hgroup
    refine ⟨[], _, ?_, rfl⟩
    simpa [Node.write] using hgroup

/-- Canonical nodes written in front of what ends the reading are read as
    themselves. That no two operands stand side by side is what keeps each of
    them apart from the next. -/
theorem reads_writeNodes (nodes : List Node) (hnodes : CanonicalNodes nodes) {inside : Bool} {cs rest : List Char}
    (hend : Reads inside cs [] [] rest) :
    ∃ operand' nodes', Reads inside (writeNodes nodes ++ cs) operand' nodes' rest ∧
      withOperand operand' nodes' = nodes := by
  match nodes with
  | [] => exact ⟨[], [], hend, rfl⟩
  | node :: nodes =>
    obtain ⟨hnode, hnext, hnodes⟩ := hnodes
    obtain ⟨operand, after, hreads, heq⟩ := reads_writeNodes nodes hnodes hend
    have hoperand : node.IsOperand → operand = [] := by
      intro h
      apply hreads.canonicalReading.operand_eq_nil
      rw [heq]
      exact hnext h
    obtain ⟨operand', nodes', hreads', heq'⟩ := node.reads_write hnode hreads hoperand
    rw [heq] at heq'
    refine ⟨operand', nodes', ?_, heq'⟩
    simpa only [writeNodes, List.append_assoc] using hreads'

end

/-- An expression that is parsed is in canonical form, and writing it gives back
    the text less its spaces. -/
theorem canonical_of_parse {s : String} {e : Expression} (h : parse s = .ok e) :
    Canonical e ∧ render e = withoutSpaces s := by
  obtain ⟨operand, nodes, hreads, rfl⟩ := parse_eq_ok_iff.mp h
  refine ⟨hreads.canonicalReading.withOperand, ?_⟩
  rw [render, withoutSpaces, writeNodes_withOperand, hreads.filter_ne_space]
  simp [closing]

/-- A canonical expression is read back from its text. Canonical means that
    operands are made of plain characters, at least one, and that none follows
    another: two of them would be read as one. -/
theorem parse_render {e : Expression} (h : Canonical e) : parse (render e) = .ok e := by
  obtain ⟨operand, nodes, hreads, heq⟩ := reads_writeNodes e h .textEnd
  refine parse_eq_ok_iff.mpr ⟨operand, nodes, ?_, heq⟩
  simpa [render] using hreads

private theorem balanced_withoutSpaces_iff (s : String) : Balanced (withoutSpaces s).toList ↔ Balanced s.toList := by
  rw [withoutSpaces, String.toList_ofList, Balanced, depthAfter?_filter_ne_space, Balanced]

private theorem balanced_render {e : Expression} (h : Canonical e) :
    Balanced (render e).toList ∧ ' ' ∉ (render e).toList := by
  have hparse := parse_render h
  refine ⟨(exists_parse_eq_ok_iff _).mp ⟨e, hparse⟩, ?_⟩
  rw [(canonical_of_parse hparse).2, withoutSpaces, String.toList_ofList]
  simp

/-- Parsing and writing are inverse to each other between the balanced texts
    without spaces and the canonical expressions. Spaces in a text change
    neither whether it is an expression nor which, so a space within a name or a
    number does not split it. -/
theorem parse_render_inverse :
    (∀ s e, parse s = .ok e → Canonical e ∧ render e = withoutSpaces s) ∧
    (∀ e, Canonical e → parse (render e) = .ok e ∧ Balanced (render e).toList ∧ ' ' ∉ (render e).toList) ∧
    (∀ s, (∃ e, parse s = .ok e) ↔ Balanced s.toList) ∧
    (∀ s e, parse (withoutSpaces s) = .ok e ↔ parse s = .ok e) := by
  refine ⟨fun _ _ => canonical_of_parse, fun _ h => ⟨parse_render h, balanced_render h⟩, exists_parse_eq_ok_iff,
    fun s e => ⟨?_, ?_⟩⟩
  · intro h
    have hbalanced := (exists_parse_eq_ok_iff _).mp ⟨e, h⟩
    obtain ⟨e', he'⟩ := (exists_parse_eq_ok_iff s).mpr ((balanced_withoutSpaces_iff s).mp hbalanced)
    obtain ⟨hcanonical, hrender⟩ := canonical_of_parse he'
    have heq := parse_render hcanonical
    rw [hrender, h] at heq
    cases heq
    exact he'
  · intro h
    obtain ⟨hcanonical, hrender⟩ := canonical_of_parse h
    rw [← hrender]
    exact parse_render hcanonical

end Brokerage.Expression
