import Brokerage.Proofs.Command.ClauseText
import Brokerage.Proofs.Json.Compact

namespace Brokerage.Clause

open Text (Blank Bare isWhiteSpace trim trimStart)

/-- The text can be the column of a clause: nothing in it would end the
    column. -/
structure IsColumn (column : String) : Prop where
  nonempty : column.toList ≠ []
  unbroken : ∀ c ∈ column.toList, endsColumn c = false

instance (column : String) : Decidable (IsColumn column) :=
  decidable_of_iff (column.toList ≠ [] ∧ column.toList.all (!endsColumn ·) = true)
    ⟨fun h => ⟨h.1, by simpa using h.2⟩, fun h => ⟨h.nonempty, by simpa using h.unbroken⟩⟩

/-- No column has white space in it, since white space ends a column as much as
    a symbol does. -/
theorem IsColumn.unspaced {column : String} (h : IsColumn column) : ∀ c ∈ column.toList, isWhiteSpace c = false := by
  intro c hc
  have hends := h.unbroken c hc
  simp only [endsColumn, Bool.or_eq_false_iff] at hends
  exact hends.1.1.1.1

/-- The column is all that stands before the first character that ends it.
    `hrest` allows nothing at all behind the column, or a text that begins with
    such a character. -/
private theorem IsColumn.span {column : String} (h : IsColumn column) {rest : List Char}
    (hrest : ∀ c, rest.head? = some c → endsColumn c = true) :
    (column.toList ++ rest).takeWhile (!endsColumn ·) = column.toList ∧
      (column.toList ++ rest).dropWhile (!endsColumn ·) = rest := by
  have hunbroken : ∀ c ∈ column.toList, (!endsColumn c) = true := fun c hc => by rw [h.unbroken c hc]; rfl
  rw [List.takeWhile_append_of_pos hunbroken, List.dropWhile_append_of_pos hunbroken]
  cases rest with
  | nil => simp
  | cons c rest => simp [hrest c rfl]

/-- A text is the condition that its parts make. The premises say where the
    reader finds each part: the connective after trimming, the column up to
    where it ends, the operator after the white space, and the value as compact
    JSON behind that. The value is read back only if it is free of floats,
    sorted and not nested too deeply. -/
theorem parse_of_parts {input column : String} {connective : Connective} {operator : Operator} {value : Json}
    {behind after : List Char} (hcolumn : IsColumn column)
    (hsplit : splitConnective (trim input.toList) = (connective, column.toList ++ behind))
    (hbehind : ∀ c, behind.head? = some c → endsColumn c = true)
    (hoperator : splitOperator? (trimStart behind) = some (operator, after ++ value.compact.toList))
    (hafter : Blank after) (hvalue : value.Floatless) (hsorted : value.IsSorted)
    (hdepth : value.depth ≤ Json.maxDepth) :
    parse input = .ok (.condition connective column operator value) := by
  obtain ⟨hcolumnText, hrest⟩ := hcolumn.span hbehind
  have hfound : columnText input = column.toList := by rw [columnText, afterConnective, hsplit, hcolumnText]
  have hraw : trim (after ++ value.compact.toList) = value.compact.toList := by
    have htrim := hafter.trim_eq (List.forall_mem_nil _) hvalue.bare_compact
    rwa [List.append_nil] at htrim
  refine parse_eq_condition_iff.mpr ⟨?_, ?_, ?_, after ++ value.compact.toList, ?_, ?_, ?_⟩
  · rw [hfound]
    exact hcolumn.nonempty
  · rw [hsplit]
  · rw [hfound, String.ofList_toList]
  · rw [afterColumn, afterConnective, hsplit, hrest, hoperator]
  · rw [hraw]
    exact hvalue.compact_ne_nil
  · rw [hraw, String.ofList_toList, valueOf, hvalue.parse?_compact hsorted hdepth]
    rfl

/-- How a condition is laid out in a text: the spelling of its words and the
    white space around its parts. -/
structure Layout where
  before : List Char
  connective : List Char
  afterConnective : List Char
  afterColumn : List Char
  operator : List Char
  afterOperator : List Char
  behind : List Char

namespace Layout

/-- White space stands where parts have to be kept apart, and the words are
    these ones in some ASCII case. -/
structure Fits (l : Layout) (connective : Connective) (operator : Operator) : Prop where
  before : Blank l.before
  connective : SameWord connective.text.toList l.connective
  afterConnective : Blank l.afterConnective ∧ l.afterConnective ≠ []
  afterColumn : Blank l.afterColumn ∧ l.afterColumn ≠ []
  operator : SameWord operator.text.toList l.operator
  afterOperator : Blank l.afterOperator ∧ l.afterOperator ≠ []
  behind : Blank l.behind

/-- The parts of the condition and the white space between them. -/
def body (l : Layout) (column : String) (value : Json) : List Char :=
  l.connective ++ (l.afterConnective ++ (column.toList ++ (l.afterColumn ++ (l.operator ++
    (l.afterOperator ++ value.compact.toList)))))

/-- The condition as a clause, its value as compact JSON. -/
def write (l : Layout) (column : String) (value : Json) : String :=
  String.ofList (l.before ++ l.body column value ++ l.behind)

/-- One blank between the parts, and upper-case words. -/
def plain (connective : Connective) (operator : Operator) : Layout :=
  ⟨[], connective.text.toList, [' '], [' '], operator.text.toList, [' '], []⟩

private theorem fits_plain (connective : Connective) (operator : Operator) :
    (plain connective operator).Fits connective operator := by
  have hblank : Blank [' '] ∧ [' '] ≠ [] := by decide
  exact ⟨List.forall_mem_nil _, rfl, hblank, hblank, rfl, hblank, List.forall_mem_nil _⟩

end Layout

/-- A spelling of a word begins visibly if the word does. The premise is stated
    for the lower-cased word, whose first character the spelling has up to
    case. -/
private theorem SameWord.visible {word spelled : List Char} (h : SameWord word spelled)
    (hword : ∀ c, (word.map Char.toLower).head? = some c → isWhiteSpace c = false) :
    ∀ c, spelled.head? = some c → isWhiteSpace c = false := by
  intro c hc
  have hlower : (word.map Char.toLower).head? = some c.toLower := by rw [h, List.head?_map, hc, Option.map_some]
  have hvisible := hword _ hlower
  rw [Bool.eq_false_iff] at hvisible ⊢
  exact fun hwhite => hvisible (Text.isWhiteSpace_toLower hwhite)

private theorem visible_connective {connective : Connective} {spelled : List Char}
    (h : SameWord connective.text.toList spelled) : ∀ c, spelled.head? = some c → isWhiteSpace c = false := by
  refine h.visible fun c hc => ?_
  cases connective <;> cases hc <;> rfl

private theorem visible_operator {operator : Operator} {spelled : List Char} (h : SameWord operator.text.toList spelled) :
    ∀ c, spelled.head? = some c → isWhiteSpace c = false := by
  refine h.visible fun c hc => ?_
  cases operator <;> cases hc <;> rfl

private theorem ne_nil_of_sameWord {word spelled : List Char} (h : SameWord word spelled) (hword : word ≠ []) :
    spelled ≠ [] := by
  rintro rfl
  exact hword (List.map_eq_nil_iff.mp h)

namespace Layout

variable {l : Layout} {connective : Connective} {column : String} {operator : Operator} {value : Json}

private theorem Fits.bare_body (h : l.Fits connective operator) (hvalue : value.Floatless) : Bare (l.body column value) := by
  have hne : l.connective ≠ [] := ne_nil_of_sameWord h.connective (by cases connective <;> decide)
  have hends : value.compact.toList <:+ l.body column value := by
    simp only [body, ← List.append_assoc]
    exact List.suffix_append _ _
  exact .of_ends (List.prefix_append _ _) hne (visible_connective h.connective) hends hvalue.compact_ne_nil
    hvalue.bare_compact.last

/-- What the reader finds in the text of a condition, part by part: trimming
    takes the outer white space only, and the connective is split off with the
    gap behind it. The column and the value have to begin visibly, hence the
    premises. -/
private theorem Fits.parts (h : l.Fits connective operator) (hcolumn : IsColumn column) (hvalue : value.Floatless) :
    splitConnective (trim (l.write column value).toList) = (connective, column.toList ++ (l.afterColumn ++
        (l.operator ++ (l.afterOperator ++ value.compact.toList)))) := by
  have hhead (c : Char) (hc : (column.toList ++ (l.afterColumn ++ (l.operator ++ (l.afterOperator ++
      value.compact.toList)))).head? = some c) : isWhiteSpace c = false := by
    rw [List.head?_append_of_ne_nil _ hcolumn.nonempty] at hc
    exact hcolumn.unspaced c (List.mem_of_mem_head? hc)
  rw [write, String.toList_ofList, h.before.trim_eq h.behind (h.bare_body hvalue), body]
  exact splitConnective_of_spelled h.connective h.afterConnective.1 h.afterConnective.2 hhead

private theorem endsColumn_of_gap {gap : List Char} (hgap : Blank gap) (hne : gap ≠ []) (rest : List Char) :
    ∀ c, (gap ++ rest).head? = some c → endsColumn c = true := by
  intro c hc
  rw [List.head?_append_of_ne_nil _ hne] at hc
  simp [endsColumn, hgap c (List.mem_of_mem_head? hc)]

/-- A condition is read from the clause it is written as. The layout has white
    space on both sides of the operator, without which a word operator would run
    into the value. -/
private theorem Fits.parse_write (h : l.Fits connective operator) (hcolumn : IsColumn column) (hvalue : value.Floatless)
    (hsorted : value.IsSorted) (hdepth : value.depth ≤ Json.maxDepth) :
    parse (l.write column value) = .ok (.condition connective column operator value) := by
  have hvisible (c : Char) (hc : (l.operator ++ (l.afterOperator ++ value.compact.toList)).head? = some c) :
      isWhiteSpace c = false := by
    have hne : l.operator ≠ [] := ne_nil_of_sameWord h.operator (by cases operator <;> decide)
    rw [List.head?_append_of_ne_nil _ hne] at hc
    exact visible_operator h.operator c hc
  refine parse_of_parts hcolumn (h.parts hcolumn hvalue) (endsColumn_of_gap h.afterColumn.1 h.afterColumn.2 _) ?_
    h.afterOperator.1 hvalue hsorted hdepth
  rw [h.afterColumn.1.trimStart_append, Text.trimStart_of_head hvisible]
  exact splitOperator?_of_spelled h.operator (startsBlank_append h.afterOperator.1 h.afterOperator.2 _)

end Layout

private theorem depth_valueOf_le (text : String) : (valueOf text).depth ≤ Json.maxDepth := by
  rw [valueOf]
  cases hparse : Json.parse? text with
  | none => exact Nat.zero_le _
  | some v => exact Json.depth_le_of_parse? hparse

private theorem isColumn_of_parse {input column : String} {connective : Connective} {operator : Operator} {value : Json}
    (h : parse input = .ok (.condition connective column operator value)) : IsColumn column := by
  obtain ⟨hne, -, rfl, -⟩ := parse_eq_condition_iff.mp h
  constructor
  · rwa [String.toList_ofList]
  · intro c hc
    rw [String.toList_ofList] at hc
    simpa using List.mem_takeWhile_imp hc

/-- Conditions and their texts. A condition without floats, however it is laid
    out, is read back as it was; and every condition that is read from any text
    is one that is read back when it is written. The premises on the value are
    what the JSON reader can return: names in order and at most 127 levels. The
    second half gets them from the reading, and asks only that there is no
    float, whose text may be read as another float. -/
theorem parse_write_round_trip :
    (∀ (l : Layout) (connective : Connective) (column : String) (operator : Operator) (value : Json),
      l.Fits connective operator → IsColumn column → value.Floatless → value.IsSorted → value.depth ≤ 127 →
        parse (l.write column value) = .ok (.condition connective column operator value)) ∧
    ∀ (input : String) (connective : Connective) (column : String) (operator : Operator) (value : Json),
      parse input = .ok (.condition connective column operator value) →
        IsColumn column ∧ operator ∈ operators ∧
          (value.Floatless → ∀ l : Layout, l.Fits connective operator →
            parse (l.write column value) = .ok (.condition connective column operator value)) := by
  constructor
  · intro l connective column operator value hfits hcolumn hvalue hsorted hdepth
    exact hfits.parse_write hcolumn hvalue hsorted hdepth
  · intro input connective column operator value hparse
    have hcolumn := isColumn_of_parse hparse
    have hoperator : operator ∈ operators := by cases operator <;> decide
    refine ⟨hcolumn, hoperator, fun hvalue l hfits => ?_⟩
    obtain ⟨-, -, -, after, -, -, rfl⟩ := parse_eq_condition_iff.mp hparse
    exact hfits.parse_write hcolumn hvalue (isSorted_valueOf _) (depth_valueOf_le _)

/-- The column is a word that begins with the connective, the operator has two
    words in mixed case, and an em space, a tab and a line break stand around
    them. The value holds symbols and a parenthesis inside a string. -/
theorem parse_write_round_trip_orderNotIn :
    ∃ (l : Layout) (value : Json), l.Fits .or .notIn ∧ IsColumn "Order" ∧ value.Floatless ∧ value.IsSorted ∧
      value.depth ≤ 127 ∧ l.write "Order" value = " oR\tOrder\u2003Not iN  [-7,\"= (\"]\n" ∧
      parse " oR\tOrder\u2003Not iN  [-7,\"= (\"]\n" = .ok (.condition .or "Order" .notIn value) ∧
      parse "OR Order NOT IN [-7,\"= (\"]" = .ok (.condition .or "Order" .notIn value) := by
  have hfits : (Layout.mk [' '] ['o', 'R'] ['\t'] ['\u2003'] "Not iN".toList [' ', ' '] ['\n']).Fits .or .notIn :=
    ⟨by decide, by decide, by decide, by decide, by decide, by decide, by decide⟩
  have hcolumn : IsColumn "Order" := by decide
  have hvalue : (Json.array [.number (.integer (-7) (by decide) (by decide)), .string "= ("]).Floatless :=
    .array (by simp [Json.Floatless.integer, Json.Floatless.string])
  have hwrite : (Layout.mk [' '] ['o', 'R'] ['\t'] ['\u2003'] "Not iN".toList [' ', ' '] ['\n']).write "Order"
      (.array [.number (.integer (-7) (by decide) (by decide)), .string "= ("]) =
        " oR\tOrder\u2003Not iN  [-7,\"= (\"]\n" := by
    decide +kernel
  have hplain : (Layout.plain .or .notIn).write "Order"
      (.array [.number (.integer (-7) (by decide) (by decide)), .string "= ("]) = "OR Order NOT IN [-7,\"= (\"]" := by
    decide +kernel
  have hparse := parse_write_round_trip.1 _ _ _ _ _ hfits hcolumn hvalue rfl (by decide)
  rw [hwrite] at hparse
  have hagain := (parse_write_round_trip.2 _ _ _ _ _ hparse).2.2 hvalue _ (Layout.fits_plain .or .notIn)
  rw [hplain] at hagain
  exact ⟨_, _, hfits, hcolumn, hvalue, rfl, by decide, hwrite, hparse, hagain⟩

end Brokerage.Clause
