import Brokerage.Proofs.Command.ClauseRoundTrip

namespace Brokerage.Clause

open Text (Blank Bare isWhiteSpace trim trimStart)

/-- The column is the word for a connective, in some case. -/
def IsConnectiveWord (column : String) : Prop :=
  ∃ connective : Connective, SameWord connective.text.toList column.toList

/-- The text of a comparison, with white space before and after its operator. -/
def comparisonText (column : String) (before : List Char) (operator : Operator) (after : List Char) (value : Json) :
    List Char :=
  column.toList ++ (before ++ (operator.text.toList ++ (after ++ value.compact.toList)))

def comparison (column : String) (before : List Char) (operator : Operator) (after : List Char) (value : Json) :
    String :=
  String.ofList (comparisonText column before operator after value)

/-- Any white space around the operator, or none, leaves a comparison with this
    column the same condition. -/
def SpacingInsignificant (column : String) : Prop :=
  ∀ operator ∈ symbols, ∀ value : Json, value.Floatless → value.IsSorted → value.depth ≤ 127 →
    ∀ before after, Blank before → Blank after →
      parse (comparison column before operator after value) = .ok (.condition .and column operator value)

private theorem endsColumn_of_isSymbol {c : Char} (h : isSymbol c = true) : endsColumn c = true := by
  simp only [isSymbol, Bool.or_eq_true, decide_eq_true_eq] at h
  rcases h with ((rfl | rfl) | rfl) | rfl <;> rfl

private theorem endsColumn_toLower {c : Char} (h : endsColumn c = true) : endsColumn c.toLower = true := by
  simp only [endsColumn, Bool.or_eq_true, decide_eq_true_eq] at h
  rcases h with (((hwhite | rfl) | rfl) | rfl) | rfl
  · simp [endsColumn, Text.isWhiteSpace_toLower hwhite]
  all_goals rfl

variable {column : String} {before after rest dropped : List Char} {operator : Operator} {value : Json}

/-- A word without characters that end a column begins a text either as the
    whole column in front or within it. In the second case the text behind the
    word starts with a character of the column, so that no white space separates
    the two. -/
private theorem dropWord?_column {word : List Char} (hword : word.all (fun c => !endsColumn c.toLower) = true)
    (hcolumn : IsColumn column) (hrest : ∀ c, rest.head? = some c → endsColumn c = true)
    (h : dropWord? word (column.toList ++ rest) = some dropped) :
    (SameWord word column.toList ∧ dropped = rest) ∨ ∃ c cs, dropped = c :: cs ++ rest ∧ isWhiteSpace c = false := by
  obtain ⟨spelled, heq, hsame⟩ := dropWord?_eq_some_iff.mp h
  rcases List.append_eq_append_iff.mp heq with ⟨beyond, hspelled, hbeyond⟩ | ⟨left, hleft, hdropped⟩
  · cases beyond with
    | nil =>
      rw [List.append_nil] at hspelled
      exact .inl ⟨hspelled ▸ hsame, hbeyond.symm⟩
    | cons c beyond =>
      have hlower : c.toLower ∈ spelled.map Char.toLower := List.mem_map_of_mem (by simp [hspelled])
      rw [← hsame] at hlower
      obtain ⟨w, hw, hwc⟩ := List.mem_map.mp hlower
      have hends := endsColumn_toLower (hrest c (by rw [hbeyond]; rfl))
      have hunended := List.all_eq_true.mp hword w hw
      rw [hwc, hends] at hunended
      cases hunended
  · cases left with
    | nil =>
      rw [List.append_nil] at hleft
      exact .inl ⟨hleft ▸ hsame, hdropped⟩
    | cons c left => exact .inr ⟨c, left, hdropped, hcolumn.unspaced c (by simp [hleft])⟩

/-- The text behind a word shows that the word is a connective. -/
def Separates (dropped : List Char) : Prop :=
  startsBlank dropped = true ∨ trimStart dropped = ['(']

/-- A visible character with something behind it does not separate. A sole
    opening parenthesis does, as the marker of a group, which `hsole`
    excludes. -/
private theorem not_separates_cons {c : Char} (hc : isWhiteSpace c = false) (hsole : c ≠ '(' ∨ rest ≠ []) :
    ¬Separates (c :: rest) := by
  rintro (hblank | htrim)
  · cases hc.symm.trans hblank
  · rw [Text.trimStart_of_head (by simpa using hc)] at htrim
    cases htrim
    simp at hsole

private theorem splitConnective_of_not_separates {cs : List Char}
    (h : ∀ word ∈ [['a', 'n', 'd'], ['o', 'r']], ∀ dropped, dropWord? word cs = some dropped → ¬Separates dropped) :
    splitConnective cs = (.and, cs) := by
  have hnone (word : List Char) (hword : word ∈ [['a', 'n', 'd'], ['o', 'r']]) :
      ((dropWord? word cs).bind fun dropped =>
        if startsBlank dropped ∨ trimStart dropped = ['('] then some (trimStart dropped) else none) = none := by
    rw [Option.bind_eq_none_iff]
    exact fun dropped hdropped => if_neg (h word hword dropped hdropped)
  rw [splitConnective]
  simp only [hnone ['a', 'n', 'd'] (by decide), hnone ['o', 'r'] (by decide)]

/-- Without a column there is no condition. By `hmark` the text is no marker of
    a group either, so that a missing column is what is wrong with it. -/
private theorem parse_of_no_column {input : String} (htext : trim input.toList ≠ []) (hcolumn : columnText input = [])
    (hmark : ∀ mark ∈ ['(', ')'], afterConnective input ≠ [mark]) : parse input = .error (.missingColumn input) := by
  rw [columnText] at hcolumn
  unfold parse
  split
  · next hnothing => exact absurd hnothing htext
  · split
    · next hsplit => exact absurd (congrArg Prod.snd hsplit) (hmark '(' (by decide))
    · next hsplit => exact absurd (congrArg Prod.snd hsplit) (hmark ')' (by decide))
    · next hsplit =>
      rw [afterConnective, hsplit] at hcolumn
      rw [hcolumn]

/-- What stands behind the column of a comparison. -/
private theorem head_behind_column (hoperator : operator ∈ symbols) (hbefore : Blank before) (behind : List Char) :
    ∀ c, (before ++ (operator.text.toList ++ behind)).head? = some c → endsColumn c = true := by
  obtain ⟨s, cs, htext, hs⟩ := exists_symbol_cons hoperator
  intro c hc
  cases before with
  | nil =>
    rw [htext] at hc
    cases hc
    exact endsColumn_of_isSymbol hs
  | cons b before =>
    cases hc
    simp [endsColumn, hbefore _ List.mem_cons_self]

private theorem visible_behind_column (hoperator : operator ∈ symbols) (behind : List Char) :
    ∀ c, (operator.text.toList ++ behind).head? = some c → isWhiteSpace c = false := by
  obtain ⟨s, cs, htext, hs⟩ := exists_symbol_cons hoperator
  intro c hc
  rw [htext] at hc
  cases hc
  exact isWhiteSpace_of_isSymbol hs

/-- No connective is taken off the front of a comparison. A column that begins
    with the word for one goes on behind it, and a column that is the word has,
    by `h`, its operator right behind it. -/
private theorem splitConnective_comparisonText (hcolumn : IsColumn column) (hoperator : operator ∈ symbols)
    (hbefore : Blank before) (h : ¬(IsConnectiveWord column ∧ before ≠ [])) :
    splitConnective (comparisonText column before operator after value) =
      (.and, comparisonText column before operator after value) := by
  obtain ⟨s, cs, htext, hs⟩ := exists_symbol_cons hoperator
  have hunended : ∀ word ∈ [['a', 'n', 'd'], ['o', 'r']], word.all (fun c => !endsColumn c.toLower) = true := by
    decide
  refine splitConnective_of_not_separates fun word hword dropped hdropped => ?_
  rcases dropWord?_column (hunended word hword) hcolumn (head_behind_column hoperator hbefore _) hdropped with
    ⟨hsame, rfl⟩ | ⟨c, left, rfl, hvisible⟩
  · have hconnective : IsConnectiveWord column := by
      simp only [List.mem_cons, List.not_mem_nil, or_false] at hword
      rcases hword with rfl | rfl
      · exact ⟨.and, SameWord.trans (by decide) hsame⟩
      · exact ⟨.or, SameWord.trans (by decide) hsame⟩
    have hnothing : before = [] := by
      by_contra hsome
      exact h ⟨hconnective, hsome⟩
    rw [hnothing, htext]
    refine not_separates_cons (isWhiteSpace_of_isSymbol hs) (.inl ?_)
    rintro rfl
    cases hs
  · exact not_separates_cons hvisible (.inr (by simp [htext]))

private theorem bare_comparisonText (before : List Char) (operator : Operator) (after : List Char)
    (hcolumn : IsColumn column) (hvalue : value.Floatless) :
    Bare (comparisonText column before operator after value) := by
  have hends : value.compact.toList <:+ comparisonText column before operator after value := by
    simp only [comparisonText, ← List.append_assoc]
    exact List.suffix_append _ _
  exact .of_ends (List.prefix_append _ _) hcolumn.nonempty (fun c hc => hcolumn.unspaced c (List.mem_of_mem_head? hc))
    hends hvalue.compact_ne_nil hvalue.bare_compact.last

private theorem trim_comparison (hcolumn : IsColumn column) (hvalue : value.Floatless) :
    trim (comparison column before operator after value).toList =
      comparisonText column before operator after value := by
  have htrim := Blank.trim_eq (List.forall_mem_nil _) (List.forall_mem_nil _)
    (bare_comparisonText before operator after hcolumn hvalue)
  rw [comparison, String.toList_ofList]
  rwa [List.nil_append, List.append_nil] at htrim

/-- The operator is read whole: what is behind it is white space or a value, and
    no compact JSON text begins with an equals sign. -/
private theorem splitOperator?_behind_column (hoperator : operator ∈ symbols) (hvalue : value.Floatless)
    (hafter : Blank after) :
    splitOperator? (operator.text.toList ++ (after ++ value.compact.toList)) =
      some (operator, after ++ value.compact.toList) := by
  refine splitOperator?_text_append hoperator fun hhead => ?_
  cases after with
  | nil => exact hvalue.head?_compact_ne hhead
  | cons a after =>
    cases hhead
    cases hafter '=' List.mem_cons_self

/-- A comparison is read as one, unless its column is the word for a connective
    with white space behind it. The white space may be missing on either side of
    the operator, which is made of symbols. -/
private theorem parse_comparison (hcolumn : IsColumn column) (hoperator : operator ∈ symbols) (hvalue : value.Floatless)
    (hsorted : value.IsSorted) (hdepth : value.depth ≤ Json.maxDepth) (hbefore : Blank before) (hafter : Blank after)
    (h : ¬(IsConnectiveWord column ∧ before ≠ [])) :
    parse (comparison column before operator after value) = .ok (.condition .and column operator value) := by
  have hsplit : splitConnective (trim (comparison column before operator after value).toList) =
      (.and, comparisonText column before operator after value) := by
    rw [trim_comparison hcolumn hvalue, splitConnective_comparisonText hcolumn hoperator hbefore h]
  refine parse_of_parts hcolumn hsplit (head_behind_column hoperator hbefore _) ?_ hafter hvalue hsorted hdepth
  rw [hbefore.trimStart_append, Text.trimStart_of_head (visible_behind_column hoperator _)]
  exact splitOperator?_behind_column hoperator hvalue hafter

/-- With white space behind it the word for a connective is no column. It is
    taken off the front, and the operator is then what the text begins with. -/
private theorem parse_comparison_of_connectiveWord (hcolumn : IsColumn column) (hword : IsConnectiveWord column)
    (hoperator : operator ∈ symbols) (hvalue : value.Floatless) (hbefore : Blank before) (hgap : before ≠ []) :
    parse (comparison column before operator after value) =
      .error (.missingColumn (comparison column before operator after value)) := by
  obtain ⟨connective, hsame⟩ := hword
  obtain ⟨s, cs, htext, hs⟩ := exists_symbol_cons hoperator
  have hconnective : afterConnective (comparison column before operator after value) =
      operator.text.toList ++ (after ++ value.compact.toList) := by
    rw [afterConnective, trim_comparison hcolumn hvalue, comparisonText,
      splitConnective_of_spelled hsame hbefore hgap (visible_behind_column hoperator _)]
  rw [htext, List.cons_append] at hconnective
  refine parse_of_no_column ?_ ?_ fun mark hmark => ?_
  · rw [trim_comparison hcolumn hvalue, comparisonText]
    simp [hcolumn.nonempty]
  · rw [columnText, hconnective]
    simp [endsColumn_of_isSymbol hs]
  · rw [hconnective]
    intro heq
    obtain rfl : s = mark := (List.cons.inj heq).1
    simp only [List.mem_cons, List.not_mem_nil, or_false] at hmark
    rcases hmark with rfl | rfl <;> cases hs

/-- White space around an operator never matters, but for the columns that are
    words for connectives. For any other column every choice of white space,
    none included, gives the same condition; for these the choice between none
    and some in front of the operator decides. -/
theorem spacingInsignificant_iff (hcolumn : IsColumn column) :
    SpacingInsignificant column ↔ ¬IsConnectiveWord column := by
  constructor
  · intro h hword
    have hread := h .eq (by decide) .null .null rfl (by decide) [' '] [] (by decide) (by decide)
    rw [parse_comparison_of_connectiveWord hcolumn hword (by decide) .null (by decide) (by decide)] at hread
    cases hread
  · intro hword operator hoperator value hvalue hsorted hdepth before after hbefore hafter
    exact parse_comparison hcolumn hoperator hvalue hsorted hdepth hbefore hafter fun hor => hword hor.1

/-- The name begins with the word for a connective without being one, so that
    white space never matters with it. -/
theorem spacingInsignificant_order : IsColumn "Order" ∧ SpacingInsignificant "Order" := by
  have hcolumn : IsColumn "Order" := by decide
  refine ⟨hcolumn, (spacingInsignificant_iff hcolumn).mpr ?_⟩
  rintro ⟨connective, hsame⟩
  revert hsame
  cases connective <;> decide

/-- A column of the name `or` is read where its comparison has no blanks, and
    missing where it has them: in front of a blank the name is taken for a
    connective. -/
theorem not_spacingInsignificant :
    IsColumn "or" ∧ parse "or=5" = .ok (.condition .and "or" .eq (.ofInt64 5)) ∧
      parse "or = 5" = .error (.missingColumn "or = 5") ∧ ¬SpacingInsignificant "or" := by
  have hspaced : parse "or = 5" = .error (.missingColumn "or = 5") := by decide +kernel
  refine ⟨by decide, by decide +kernel, hspaced, fun h => ?_⟩
  have hread := h .eq (by decide) (.ofInt64 5) (.integer ..) rfl (by decide) [' '] [' '] (by decide) (by decide)
  have hwritten : comparison "or" [' '] .eq [' '] (.ofInt64 5) = "or = 5" := by decide +kernel
  rw [hwritten, hspaced] at hread
  cases hread

end Brokerage.Clause
