import Brokerage.Proofs.Command.ClauseText

namespace Brokerage.Clause

open Text (trim trimStart)

/-- The symbols that stand behind the column, as many as there are. -/
def symbolRun (input : String) : List Char :=
  (afterColumn input).takeWhile isSymbol

/-- The run of symbols is the text of an operator. -/
def IsOperatorText (run : List Char) : Prop :=
  ∃ o ∈ symbols, run = o.text.toList

/-- The run of symbols is read as one operator, or the clause is refused as one
    without an operator. -/
structure ReadsWhole (input : String) : Prop where
  whole : ∀ connective column operator value,
    parse input = .ok (.condition connective column operator value) → symbolRun input = operator.text.toList
  refused : ¬IsOperatorText (symbolRun input) → parse input = .error (.missingOperator input)

private theorem takeWhile_ne_nil_iff {cs : List Char} :
    cs.takeWhile isSymbol ≠ [] ↔ ∃ c tail, cs = c :: tail ∧ isSymbol c = true := by
  cases cs with
  | nil => simp
  | cons c tail => cases hc : isSymbol c <;> simp [hc]

/-- The operator that is read is the front of the text, and what is returned
    beside it is all that is left. So nothing is skipped, and nothing is asked
    of what is left. -/
private theorem symbolAt?_eq_some {cs rest : List Char} {o : Operator} (h : symbolAt? cs = some (o, rest)) :
    o ∈ symbols ∧ cs = o.text.toList ++ rest := by
  unfold symbolAt? at h
  split at h <;> cases h <;> exact ⟨by decide, rfl⟩

private theorem isSome_symbolAt? {o : Operator} (h : o ∈ symbols) (rest : List Char) :
    (symbolAt? (o.text.toList ++ rest)).isSome = true := by
  cases o with
  | isIn | notIn | like | notLike => exact absurd h (by decide)
  -- One of these may turn out to begin a longer operator.
  | gt | lt =>
    rcases rest with _ | ⟨d, rest⟩
    · rfl
    · by_cases hd : d = '='
      · subst hd
        rfl
      · simp [symbolAt?, Operator.text, hd]
  | _ => rfl

/-- The run of symbols is the operator that is read and the symbols after it,
    because an operator is made of symbols only. -/
private theorem symbolRun_eq {input : String} {o : Operator} {rest : List Char}
    (h : symbolAt? (afterColumn input) = some (o, rest)) :
    symbolRun input = o.text.toList ++ rest.takeWhile isSymbol := by
  obtain ⟨ho, hafter⟩ := symbolAt?_eq_some h
  rw [symbolRun, hafter, List.takeWhile_append_of_pos (List.all_eq_true.mp (text_of_symbol o ho).2)]

/-- With symbols left over the run is no operator: reading takes the longest
    operator at the front, and a run that is one would have been taken whole. -/
private theorem not_isOperatorText {input : String} {o : Operator} {rest : List Char}
    (h : symbolAt? (afterColumn input) = some (o, rest)) (hleft : rest.takeWhile isSymbol ≠ []) :
    ¬IsOperatorText (symbolRun input) := by
  rintro ⟨other, hother, hrun⟩
  have hsplit : other.text.toList ++ (afterColumn input).dropWhile isSymbol = afterColumn input := by
    rw [← hrun, symbolRun, List.takeWhile_append_dropWhile]
  -- What follows a whole run is not a symbol, so the operator that is the run would have been read.
  have hend (c : Char) (hc : ((afterColumn input).dropWhile isSymbol).head? = some c) : isSymbol c = false := by
    have hstop := List.head?_dropWhile_not isSymbol (afterColumn input)
    rwa [hc] at hstop
  have hread := symbolAt?_text_append hother fun hc => by cases hend _ hc
  rw [hsplit, h] at hread
  cases hread
  obtain ⟨c, tail, hcons, hc⟩ := takeWhile_ne_nil_iff.mp hleft
  have hnot := hend c (by rw [hcons]; rfl)
  rw [hc] at hnot
  cases hnot

/-- A clause with symbols behind its column is read by the operator at the front
    of them. The run is what stands behind the white space after the column, so
    that no word can be the operator. -/
private theorem parse_of_symbolRun {input : String} (hcolumn : columnText input ≠ []) (hrun : symbolRun input ≠ []) :
    parse input = readWith input (symbolAt? (afterColumn input)) := by
  obtain ⟨c, cs, hafter, hc⟩ := takeWhile_ne_nil_iff.mp hrun
  have hsplit := splitOperator?_of_symbol hc cs
  rw [← hafter] at hsplit
  have hne : afterColumn input ≠ [] := by simp [hafter]
  rw [parse_of_column hcolumn hne, hsplit]

/-- Symbols left over behind the operator make the clause one whose value begins
    with them. They are visible, so that the value is not missing, and no check
    looks at them. -/
private theorem parse_of_leftover {input : String} {o : Operator} {rest : List Char} (hcolumn : columnText input ≠ [])
    (h : symbolAt? (afterColumn input) = some (o, rest)) (hleft : rest.takeWhile isSymbol ≠ []) :
    parse input = .ok (.condition (splitConnective (trim input.toList)).1 (String.ofList (columnText input)) o
      (valueOf (String.ofList (trim rest)))) := by
  have hrun : symbolRun input ≠ [] := by
    rw [symbolRun_eq h]
    exact List.append_ne_nil_of_right_ne_nil _ hleft
  have hraw : trim rest ≠ [] := by
    obtain ⟨d, tail, rfl, hd⟩ := takeWhile_ne_nil_iff.mp hleft
    intro hblank
    have hwhite := Text.trim_eq_nil_iff.mp hblank d List.mem_cons_self
    rw [isWhiteSpace_of_isSymbol hd] at hwhite
    cases hwhite
  rw [parse_of_symbolRun hcolumn hrun]
  exact readWith_eq_ok_iff.mpr ⟨o, rest, h, hraw, rfl⟩

/-- A symbolic operator is read whole exactly if the run of symbols is an
    operator, or no operator begins the run. In between lie the runs that begin
    with an operator and go on: these are read as the operator and a value. The
    premises say that the clause has a column and a symbol behind it. -/
theorem readsWhole_iff {input : String} (hcolumn : columnText input ≠ []) (hrun : symbolRun input ≠ []) :
    ReadsWhole input ↔
      IsOperatorText (symbolRun input) ∨ ∀ o ∈ symbols, ¬o.text.toList <+: symbolRun input := by
  have hparse := parse_of_symbolRun hcolumn hrun
  cases hread : symbolAt? (afterColumn input) with
  | none =>
    rw [hread] at hparse
    have hnothing : ∀ o ∈ symbols, ¬o.text.toList <+: symbolRun input := by
      intro o ho hbegins
      obtain ⟨rest, hrest⟩ := hbegins.trans (List.takeWhile_prefix isSymbol)
      have hsome := isSome_symbolAt? ho rest
      rw [hrest, hread] at hsome
      cases hsome
    refine iff_of_true ⟨?_, fun _ => hparse⟩ (.inr hnothing)
    intro connective column operator value haccepted
    rw [hparse] at haccepted
    cases haccepted
  | some found =>
    obtain ⟨o, rest⟩ := found
    obtain ⟨ho, -⟩ := symbolAt?_eq_some hread
    have hall := symbolRun_eq hread
    by_cases hleft : rest.takeWhile isSymbol = []
    · rw [hleft, List.append_nil] at hall
      refine iff_of_true ⟨?_, fun hno => absurd ⟨o, ho, hall⟩ hno⟩ (.inl ⟨o, ho, hall⟩)
      intro connective column operator value haccepted
      rw [hparse, hread] at haccepted
      obtain ⟨found, after, hfound, -, heq⟩ := readWith_eq_ok_iff.mp haccepted
      cases hfound
      cases heq
      exact hall
    · have haccepted := parse_of_leftover hcolumn hread hleft
      have hnot := not_isOperatorText hread hleft
      refine iff_of_false ?_ ?_
      · intro hwhole
        have hrefused := hwhole.refused hnot
        rw [haccepted] at hrefused
        cases hrefused
      · rintro (hoperator | hnothing)
        · exact hnot hoperator
        · exact hnothing o ho (hall ▸ List.prefix_append _ _)

theorem readsWhole_ticketAtLeast :
    columnText "Ticket >= 10" ≠ [] ∧ symbolRun "Ticket >= 10" ≠ [] ∧ ReadsWhole "Ticket >= 10" := by
  have hcolumn : columnText "Ticket >= 10" ≠ [] := by decide +kernel
  have hrun : symbolRun "Ticket >= 10" ≠ [] := by decide +kernel
  refine ⟨hcolumn, hrun, (readsWhole_iff hcolumn hrun).mpr (.inl ⟨.gte, by decide, ?_⟩)⟩
  decide +kernel

/-- A doubled equals sign is read as one, before a value that begins with the
    other. So the run is no operator and the clause is accepted all the same. -/
theorem not_readsWhole : ¬ReadsWhole "Ticket == 5" := by
  intro h
  have hparse : parse "Ticket == 5" = .ok (.condition .and "Ticket" .eq (.string "= 5")) := by decide +kernel
  have hrun : symbolRun "Ticket == 5" = Operator.eq.text.toList := h.whole _ _ _ _ hparse
  revert hrun
  decide +kernel

end Brokerage.Clause
