import Brokerage.Command.Clause
import Brokerage.Proofs.Json.Parsed
import Brokerage.Proofs.Text.Characters
import Brokerage.Proofs.Text.Trimming
import Mathlib.Data.List.Basic

namespace Brokerage.Clause

open Text (Blank Bare isWhiteSpace toLower_eq_iff trim trimStart)

/-- The texts are equal but for the case of ASCII letters. -/
def SameWord (word spelled : List Char) : Prop :=
  word.map Char.toLower = spelled.map Char.toLower

instance (word spelled : List Char) : Decidable (SameWord word spelled) :=
  inferInstanceAs (Decidable (_ = _))

theorem SameWord.trans {word other spelled : List Char} (h : SameWord word other) (hspelled : SameWord other spelled) :
    SameWord word spelled :=
  Eq.trans h hspelled

/-- A word begins a text exactly if the text is some spelling of the word with
    the rest behind it. The spelling is as long as the word, and only ASCII
    letters have more than one. -/
theorem dropWord?_eq_some_iff {word cs rest : List Char} :
    dropWord? word cs = some rest ↔ ∃ spelled, cs = spelled ++ rest ∧ SameWord word spelled := by
  induction word generalizing cs with
  | nil =>
    constructor
    · intro h
      cases h
      exact ⟨[], rfl, rfl⟩
    · rintro ⟨spelled, rfl, h⟩
      rw [List.map_eq_nil_iff.mp h.symm]
      rfl
  | cons w ws ih =>
    cases cs with
    | nil =>
      simp only [dropWord?, reduceCtorEq, false_iff, not_exists, not_and]
      intro spelled h hsame
      obtain ⟨rfl, -⟩ := List.append_eq_nil_iff.mp h.symm
      cases hsame
    | cons c cs =>
      rw [dropWord?]
      constructor
      · intro h
        split at h
        · next hc =>
          obtain ⟨spelled, rfl, hsame⟩ := ih.mp h
          exact ⟨c :: spelled, rfl, congrArg₂ List.cons hc hsame⟩
        · cases h
      · rintro ⟨spelled, h, hsame⟩
        cases spelled with
        | nil => cases hsame
        | cons s spelled =>
          obtain ⟨rfl, hcs⟩ := List.cons.inj h
          obtain ⟨hc, hrest⟩ := List.cons.inj hsame
          rw [if_pos hc, ih.mpr ⟨spelled, hcs, hrest⟩]

private theorem dropWord?_append {word spelled : List Char} (h : SameWord word spelled) (rest : List Char) :
    dropWord? word (spelled ++ rest) = some rest :=
  dropWord?_eq_some_iff.mpr ⟨spelled, rfl, h⟩

/-- A word does not begin a text that, lower-cased, begins otherwise. The
    premise can be decided on the first characters alone, so that the text
    behind them may stay unknown. -/
private theorem dropWord?_eq_none {word cs : List Char} (h : ¬word.map Char.toLower <+: cs.map Char.toLower) :
    dropWord? word cs = none := by
  rw [Option.eq_none_iff_forall_ne_some]
  intro rest hrest
  obtain ⟨spelled, rfl, hsame⟩ := dropWord?_eq_some_iff.mp hrest
  refine h ⟨rest.map Char.toLower, ?_⟩
  rw [hsame, List.map_append]

/-- The operators that are words. -/
def words : List Operator :=
  [.notLike, .notIn, .like, .isIn]

/-- The operators made of symbols. -/
def symbols : List Operator :=
  [.gte, .lte, .neq, .eq, .gt, .lt]

/-- The operator, if it begins the text, and the text behind it. -/
def readAs? (cs : List Char) (o : Operator) : Option (Operator × List Char) :=
  (dropWord? o.text.toList cs).bind fun rest =>
    if isWord o ∧ rest ≠ [] ∧ ¬startsBlank rest then none else some (o, rest)

/-- The operators are tried in the order of the table, so that every word comes
    before every symbol. The two halves are told apart because only a word has
    to have white space, or nothing, behind it. -/
theorem splitOperator?_eq (cs : List Char) :
    splitOperator? cs = (words.findSome? (readAs? cs)).or (symbols.findSome? (readAs? cs)) := by
  rw [← List.findSome?_append]
  rfl

private theorem readAs?_of_dropWord?_none {cs : List Char} {o : Operator} (h : dropWord? o.text.toList cs = none) :
    readAs? cs o = none := by
  rw [readAs?, h, Option.bind_none]

private theorem readAs?_of_blank {o : Operator} {spelled rest : List Char} (h : SameWord o.text.toList spelled)
    (hblank : startsBlank rest = true) : readAs? (spelled ++ rest) o = some (o, rest) := by
  rw [readAs?, dropWord?_append h, Option.bind_some, if_neg (by simp [hblank])]

/-- The characters that symbolic operators are made of. -/
def isSymbol (c : Char) : Bool :=
  c = '=' || c = '!' || c = '<' || c = '>'

/-- No operator made of symbols has an empty text, and its characters are all
    symbols. This is decided over the table once, and all that is said about a
    symbolic operator goes through it. -/
theorem text_of_symbol : ∀ o ∈ symbols, o.text.toList ≠ [] ∧ o.text.toList.all isSymbol = true := by
  decide

theorem exists_symbol_cons {o : Operator} (h : o ∈ symbols) : ∃ c cs, o.text.toList = c :: cs ∧ isSymbol c = true := by
  obtain ⟨hne, hall⟩ := text_of_symbol o h
  obtain ⟨c, cs, htext⟩ := List.exists_cons_of_ne_nil hne
  exact ⟨c, cs, htext, List.all_eq_true.mp hall c (htext ▸ List.mem_cons_self)⟩

theorem isWhiteSpace_of_isSymbol {c : Char} (h : isSymbol c = true) : isWhiteSpace c = false := by
  simp only [isSymbol, Bool.or_eq_true, decide_eq_true_eq] at h
  rcases h with ((rfl | rfl) | rfl) | rfl <;> rfl

private theorem toNat_lt_of_isSymbol {c : Char} (h : isSymbol c = true) : c.toNat < 'A'.toNat := by
  simp only [isSymbol, Bool.or_eq_true, decide_eq_true_eq] at h
  rcases h with ((rfl | rfl) | rfl) | rfl <;> decide

/-- A word without letters has one spelling. Lower-casing leaves every character
    below `A` alone and maps none to it, so that the bound on the word is
    enough. -/
private theorem SameWord.eq_of_unlettered {word spelled : List Char} (h : SameWord word spelled)
    (hword : ∀ c ∈ word, c.toNat < 'A'.toNat) : spelled = word := by
  induction word generalizing spelled with
  | nil => exact List.map_eq_nil_iff.mp h.symm
  | cons w word ih =>
    cases spelled with
    | nil => cases h
    | cons s spelled =>
      obtain ⟨hs, hspelled⟩ := List.cons.inj h
      obtain ⟨hw, hrest⟩ := List.forall_mem_cons.mp hword
      have hself : w.toLower = w := (toLower_eq_iff hw).mpr rfl
      rw [(toLower_eq_iff hw).mp (hs.symm.trans hself), ih hspelled hrest]

private theorem words_of_symbol {c : Char} (h : isSymbol c = true) (cs : List Char) :
    words.findSome? (readAs? (c :: cs)) = none := by
  simp only [isSymbol, Bool.or_eq_true, decide_eq_true_eq] at h
  rcases h with ((rfl | rfl) | rfl) | rfl <;> rfl

/-- The longest symbolic operator that begins the text, and the text behind
    it. -/
def symbolAt? : List Char → Option (Operator × List Char)
  | '>' :: '=' :: cs => some (.gte, cs)
  | '<' :: '=' :: cs => some (.lte, cs)
  | '!' :: '=' :: cs => some (.neq, cs)
  | '=' :: cs => some (.eq, cs)
  | '>' :: cs => some (.gt, cs)
  | '<' :: cs => some (.lt, cs)
  | _ => none

/-- A text that begins with a symbol has the longest symbolic operator at its
    head. No word begins it, and the table names `>=` before `>`, so that the
    first that fits is the longest. -/
theorem splitOperator?_of_symbol {c : Char} (h : isSymbol c = true) (cs : List Char) :
    splitOperator? (c :: cs) = symbolAt? (c :: cs) := by
  rw [splitOperator?_eq, words_of_symbol h, Option.none_or]
  simp only [isSymbol, Bool.or_eq_true, decide_eq_true_eq] at h
  rcases cs with _ | ⟨d, cs⟩
  · rcases h with ((rfl | rfl) | rfl) | rfl <;> rfl
  · by_cases hd : d = '='
    · subst hd
      rcases h with ((rfl | rfl) | rfl) | rfl <;> rfl
    · have hlower : '=' ≠ d.toLower := fun heq => hd ((toLower_eq_iff (by decide)).mp heq.symm)
      rcases h with ((rfl | rfl) | rfl) | rfl <;>
        simp [symbols, readAs?, Operator.text, dropWord?, isWord, symbolAt?, hd, hlower]

/-- An operator is read whole when no equals sign follows. The premise is needed
    for `>` and `<` alone, which an equals sign turns into `>=` and `<=`. -/
theorem symbolAt?_text_append {o : Operator} (h : o ∈ symbols) {rest : List Char} (hrest : rest.head? ≠ some '=') :
    symbolAt? (o.text.toList ++ rest) = some (o, rest) := by
  cases rest with
  | nil =>
    revert h
    cases o <;> decide
  | cons c rest =>
    have hne : c ≠ '=' := fun heq => hrest (congrArg some heq)
    cases o with
    | isIn | notIn | like | notLike => exact absurd h (by decide)
    | _ => simp [symbolAt?, Operator.text, hne]

/-- An operator made of symbols is found in front of whatever begins with
    anything but an equals sign. No white space is asked for behind it, which is
    what sets it apart from a word. -/
theorem splitOperator?_text_append {o : Operator} (h : o ∈ symbols) {rest : List Char} (hrest : rest.head? ≠ some '=') :
    splitOperator? (o.text.toList ++ rest) = some (o, rest) := by
  have hread := symbolAt?_text_append h hrest
  obtain ⟨c, cs, htext, hc⟩ := exists_symbol_cons h
  rw [htext, List.cons_append] at hread ⊢
  rw [splitOperator?_of_symbol hc, hread]

/-- A word is found in any spelling that white space follows. `NOT LIKE` and
    `NOT IN` stand before `LIKE` and `IN` in the table but begin otherwise, so
    that no word hides a later one. -/
private theorem words_of_spelled {o : Operator} (h : o ∈ words) {spelled rest : List Char}
    (hspelled : SameWord o.text.toList spelled) (hblank : startsBlank rest = true) :
    words.findSome? (readAs? (spelled ++ rest)) = some (o, rest) := by
  have hfound := readAs?_of_blank hspelled hblank
  have hlower : (spelled ++ rest).map Char.toLower = o.text.toList.map Char.toLower ++ rest.map Char.toLower := by
    rw [List.map_append, hspelled]
  -- The words tried before it differ from it in a letter.
  have hother (other : Operator) (hne : ¬other.text.toList.map Char.toLower <+:
      o.text.toList.map Char.toLower ++ rest.map Char.toLower) : readAs? (spelled ++ rest) other = none :=
    readAs?_of_dropWord?_none (dropWord?_eq_none (hlower ▸ hne))
  cases o with
  | notLike => rw [words, List.findSome?_cons, hfound]
  | notIn =>
    rw [words, List.findSome?_cons, hother .notLike (by simp [Operator.text]), List.findSome?_cons, hfound]
  | like =>
    rw [words, List.findSome?_cons, hother .notLike (by simp [Operator.text]), List.findSome?_cons,
      hother .notIn (by simp [Operator.text]), List.findSome?_cons, hfound]
  | isIn =>
    rw [words, List.findSome?_cons, hother .notLike (by simp [Operator.text]), List.findSome?_cons,
      hother .notIn (by simp [Operator.text]), List.findSome?_cons, hother .like (by simp [Operator.text]),
      List.findSome?_cons, hfound]
  | _ => exact absurd h (by decide)

/-- An operator is found in any spelling that white space follows. For a word
    the white space is its boundary, and for symbols it keeps an equals sign
    from following. -/
theorem splitOperator?_of_spelled {o : Operator} {spelled rest : List Char} (h : SameWord o.text.toList spelled)
    (hblank : startsBlank rest = true) : splitOperator? (spelled ++ rest) = some (o, rest) := by
  have hkind : o ∈ words ∨ o ∈ symbols := by cases o <;> decide
  rcases hkind with hword | hsymbol
  · rw [splitOperator?_eq, words_of_spelled hword h hblank, Option.some_or]
  · have hsymbols := List.all_eq_true.mp (text_of_symbol o hsymbol).2
    have hunlettered : ∀ c ∈ o.text.toList, c.toNat < 'A'.toNat := fun c hc => toNat_lt_of_isSymbol (hsymbols c hc)
    have hrest : rest.head? ≠ some '=' := by
      intro hhead
      obtain ⟨after, rfl⟩ := List.head?_eq_some_iff.mp hhead
      cases hblank
    rw [h.eq_of_unlettered hunlettered, splitOperator?_text_append hsymbol hrest]

/-- White space that is there in front of a text is what the text begins with.
    Without `hne` the gap could be empty and the text begin with anything. -/
theorem startsBlank_append {gap : List Char} (hgap : Blank gap) (hne : gap ≠ []) (rest : List Char) :
    startsBlank (gap ++ rest) = true := by
  cases gap with
  | nil => exact absurd rfl hne
  | cons c gap => exact hgap c List.mem_cons_self

/-- A connective is found in any spelling that white space follows, and the text
    behind it begins where the white space ends. By `hrest` the white space ends
    with the gap. -/
theorem splitConnective_of_spelled {connective : Connective} {spelled gap rest : List Char}
    (h : SameWord connective.text.toList spelled) (hgap : Blank gap) (hne : gap ≠ [])
    (hrest : ∀ c, rest.head? = some c → isWhiteSpace c = false) :
    splitConnective (spelled ++ (gap ++ rest)) = (connective, rest) := by
  have hblank := startsBlank_append hgap hne rest
  have htrim : trimStart (gap ++ rest) = rest := by rw [hgap.trimStart_append, Text.trimStart_of_head hrest]
  cases connective with
  | and =>
    have hword : SameWord ['a', 'n', 'd'] Connective.and.text.toList := by decide
    have hand := dropWord?_append (hword.trans h) (gap ++ rest)
    simp [splitConnective, hand, hblank, htrim]
  | or =>
    have hword : SameWord ['o', 'r'] Connective.or.text.toList := by decide
    have hor := dropWord?_append (hword.trans h) (gap ++ rest)
    have hand : dropWord? ['a', 'n', 'd'] (spelled ++ (gap ++ rest)) = none := by
      refine dropWord?_eq_none ?_
      rw [List.map_append, ← h]
      simp [Connective.text]
    simp [splitConnective, hand, hor, hblank, htrim]

/-- The text behind the connective. -/
def afterConnective (input : String) : List Char :=
  (splitConnective (trim input.toList)).2

/-- The column, as far as the text has one: what stands before the first white
    space or symbol. -/
def columnText (input : String) : List Char :=
  (afterConnective input).takeWhile (!endsColumn ·)

/-- The text behind the column and the white space after it. -/
def afterColumn (input : String) : List Char :=
  trimStart ((afterConnective input).dropWhile (!endsColumn ·))

/-- The clause that a text with a column is, by the operator found behind the
    column and the text after that. -/
def readWith (input : String) : Option (Operator × List Char) → Except ClauseError Clause
  | none => .error (.missingOperator input)
  | some (operator, after) =>
    if trim after = [] then .error (.missingValue input)
    else .ok (.condition (splitConnective (trim input.toList)).1 (String.ofList (columnText input)) operator
      (valueOf (String.ofList (trim after))))

/-- A text with a column is a condition exactly if an operator is found and
    something visible stands behind it. Connective and column have been settled
    by then and are the same in every such clause. -/
theorem readWith_eq_ok_iff {input : String} {found : Option (Operator × List Char)} {clause : Clause} :
    readWith input found = .ok clause ↔ ∃ operator after, found = some (operator, after) ∧ trim after ≠ [] ∧
      clause = .condition (splitConnective (trim input.toList)).1 (String.ofList (columnText input)) operator
        (valueOf (String.ofList (trim after))) := by
  unfold readWith
  split
  · simp
  · next operator after =>
    split
    · next hblank => simp [hblank]
    · next hraw =>
      constructor
      · intro h
        cases h
        exact ⟨operator, after, rfl, hraw, rfl⟩
      · rintro ⟨_, _, heq, -, rfl⟩
        cases heq
        rfl

/-- A text that has a column, and something behind that, is read by the operator
    found there. With `hcolumn` no check for a group marker or for an empty text
    can hold, and `hafter` excludes a missing operator. -/
theorem parse_of_column {input : String} (hcolumn : columnText input ≠ []) (hafter : afterColumn input ≠ []) :
    parse input = readWith input (splitOperator? (afterColumn input)) := by
  obtain ⟨⟨connective, rest⟩, hsplit⟩ : ∃ parts, splitConnective (trim input.toList) = parts := ⟨_, rfl⟩
  have hcolumnText : columnText input = rest.takeWhile (!endsColumn ·) := by
    rw [columnText, afterConnective, hsplit]
  have hafterColumn : afterColumn input = trimStart (rest.dropWhile (!endsColumn ·)) := by
    rw [afterColumn, afterConnective, hsplit]
  rw [hcolumnText] at hcolumn
  rw [hafterColumn] at hafter ⊢
  unfold parse
  split
  · next hnothing =>
    -- Without any text there is no column.
    rw [hnothing] at hsplit
    cases hsplit
    exact absurd rfl hcolumn
  · rw [hsplit]
    split
    · next heq =>
      cases heq
      exact absurd rfl hafter
    · next heq =>
      cases heq
      exact absurd rfl hafter
    · next heq =>
      cases heq
      split
      · next hnil => exact absurd hnil hcolumn
      · split
        · next hnone => rw [hnone, readWith]
        · next hsome =>
          rw [hsome, readWith, hsplit, hcolumnText]
          split
          · next hblank => rw [if_pos hblank]
          · next hraw => rw [if_neg hraw]

/-- What is read as a condition has a column and something visible behind it.
    Each check that would have failed otherwise ends in an error or in a group
    marker. -/
private theorem column_of_parse {input : String} {connective : Connective} {column : String} {operator : Operator}
    {value : Json} (h : parse input = .ok (.condition connective column operator value)) :
    columnText input ≠ [] ∧ afterColumn input ≠ [] := by
  unfold parse at h
  split at h
  · cases h
  · split at h
    · cases h
    · cases h
    · next rest _ _ hsplit =>
      simp only [columnText, afterColumn, afterConnective, hsplit]
      split at h
      · cases h
      · next hcolumn =>
        refine ⟨hcolumn, ?_⟩
        intro hafter
        rw [hafter] at h
        cases h

/-- Which texts are conditions: those with a column, an operator behind it and
    something behind that. The value is never refused, since a text that is no
    JSON stands for itself as a string. -/
theorem parse_eq_condition_iff {input : String} {connective : Connective} {column : String} {operator : Operator}
    {value : Json} :
    parse input = .ok (.condition connective column operator value) ↔
      columnText input ≠ [] ∧ (splitConnective (trim input.toList)).1 = connective ∧
      String.ofList (columnText input) = column ∧ ∃ after, splitOperator? (afterColumn input) = some (operator, after) ∧
        trim after ≠ [] ∧ valueOf (String.ofList (trim after)) = value := by
  constructor
  · intro h
    obtain ⟨hcolumn, hafter⟩ := column_of_parse h
    rw [parse_of_column hcolumn hafter] at h
    obtain ⟨found, after, hfound, hraw, heq⟩ := readWith_eq_ok_iff.mp h
    cases heq
    exact ⟨hcolumn, rfl, rfl, after, hfound, hraw, rfl⟩
  · rintro ⟨hcolumn, rfl, rfl, after, hfound, hraw, rfl⟩
    have hafter : afterColumn input ≠ [] := by
      intro hnothing
      rw [hnothing] at hfound
      cases hfound
    rw [parse_of_column hcolumn hafter]
    exact readWith_eq_ok_iff.mpr ⟨operator, after, hfound, hraw, rfl⟩

/-- The value of a clause has its names in order, at every depth: objects come
    from the JSON reader alone. -/
theorem isSorted_valueOf (text : String) : (valueOf text).IsSorted := by
  rw [valueOf]
  cases hparse : Json.parse? text with
  | none => rfl
  | some v => exact Json.isSorted_of_parse? hparse

/-- The value of every condition that is read has its names in order, which is
    the premise under which it can be written and read back. -/
theorem isSorted_of_parse {input column : String} {connective : Connective} {operator : Operator} {value : Json}
    (h : parse input = .ok (.condition connective column operator value)) : value.IsSorted := by
  obtain ⟨-, -, -, after, -, -, rfl⟩ := parse_eq_condition_iff.mp h
  exact isSorted_valueOf _

end Brokerage.Clause
