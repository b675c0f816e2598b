import Brokerage.Proofs.Json.Parsed
import Brokerage.Proofs.Json.Words
import Brokerage.Proofs.Text.Characters
import Brokerage.Proofs.Text.Trimming

namespace Brokerage.Json

mutual

/-- How many arrays and objects are open at once in the value. -/
def depth : Json → Nat
  | array items => depthItems items + 1
  | object members => depthMembers members + 1
  | _ => 0

/-- The depth of the deepest item. -/
def depthItems : List Json → Nat
  | [] => 0
  | v :: vs => max v.depth (depthItems vs)

/-- The depth of the deepest member. -/
def depthMembers : List (String × Json) → Nat
  | [] => 0
  | (_, v) :: ms => max v.depth (depthMembers ms)

end

/-- All numbers in the value are integers. -/
inductive Floatless : Json → Prop where
  | null : Floatless null
  | bool (b : Bool) : Floatless (bool b)
  | integer (n : Int) (lower : -0x8000000000000000 ≤ n) (upper : n < 0x10000000000000000) :
      Floatless (number (.integer n lower upper))
  | string (s : String) : Floatless (string s)
  | array {items : List Json} (h : ∀ v ∈ items, Floatless v) : Floatless (array items)
  | object {members : List (String × Json)} (h : ∀ m ∈ members, Floatless m.2) : Floatless (object members)

private theorem depthItems_le_iff {items : List Json} {bound : Nat} :
    depthItems items ≤ bound ↔ ∀ v ∈ items, v.depth ≤ bound := by
  induction items with
  | nil => simp [depthItems]
  | cons v items ih => rw [depthItems, Nat.max_le, ih, List.forall_mem_cons]

private theorem depthMembers_le_iff {members : List (String × Json)} {bound : Nat} :
    depthMembers members ≤ bound ↔ ∀ m ∈ members, m.2.depth ≤ bound := by
  induction members with
  | nil => simp [depthMembers]
  | cons m members ih => rw [depthMembers, Nat.max_le, ih, List.forall_mem_cons]

section reading

variable {α : Type}

/-- Items after a first one, each after a comma, and the closing character. -/
def othersBefore (write : List Char → α → List Char) (close : Char) (rest : List Char) : List α → List Char
  | [] => close :: rest
  | a :: others => ',' :: write (othersBefore write close rest others) a

private theorem compactItems_eq_othersBefore (rest : List Char) (items : List Json) :
    compactItems rest items = othersBefore compactBefore ']' rest items := by
  induction items with
  | nil => rfl
  | cons v items ih => rw [compactItems, othersBefore, ih]

/-- The compact text of a member. -/
def memberBefore (rest : List Char) (m : String × Json) : List Char :=
  stringChars m.1 ++ ':' :: compactBefore rest m.2

private theorem compactMembers_eq_othersBefore (rest : List Char) (members : List (String × Json)) :
    compactMembers rest members = othersBefore memberBefore '\x7d' rest members := by
  induction members with
  | nil => rfl
  | cons m members ih => rw [compactMembers, othersBefore, memberBefore, ih]

/-- What is written of an item is not empty, and read back as that item up to
    where it ends. -/
structure Rereads (item : List Char → Option (α × List Char)) (write : List Char → α → List Char) (a : α) : Prop where
  grows : ∀ rest, rest.length < (write rest a).length
  reads : ∀ rest, Stops rest → item (skipBlanks (write rest a)) = some (a, rest)

variable {item : List Char → Option (α × List Char)} {write : List Char → α → List Char} {close : Char}

private theorem length_lt_othersBefore (close : Char) (rest : List Char) {others : List α}
    (h : ∀ a ∈ others, Rereads item write a) : others.length < (othersBefore write close rest others).length := by
  induction others with
  | nil => simp [othersBefore]
  | cons a others ih =>
    obtain ⟨ha, hothers⟩ := List.forall_mem_cons.mp h
    have hrest := ih hothers
    have hgrows := ha.grows (othersBefore write close rest others)
    simp only [othersBefore, List.length_cons]
    omega

/-- The character may close a list of items. -/
structure Closes (close : Char) : Prop where
  visible : isBlank close = false
  ends : ∀ rest, Stops (close :: rest)
  other : close ≠ ','

/-- What stands behind an item, a comma or the closing character, carries no
    number on. -/
theorem Closes.stops_othersBefore (h : Closes close) (write : List Char → α → List Char) (rest : List Char)
    (others : List α) :
    Stops (othersBefore write close rest others) := by
  cases others with
  | nil => exact h.ends rest
  | cons a others =>
    intro c hc
    cases hc
    decide

private theorem skipBlanks_cons {c : Char} (h : isBlank c = false) (cs : List Char) : skipBlanks (c :: cs) = c :: cs :=
  List.dropWhile_cons_of_neg (by simp [h])

/-- Items that are read back one by one are read back as a list, if the reader
    is given more steps than there are items after the first. -/
theorem readItems?_othersBefore (hclose : Closes close) (rest : List Char) {first : α} {others : List α}
    (h : ∀ a ∈ first :: others, Rereads item write a) {steps : Nat} (hsteps : others.length < steps) :
    readItems? item close steps (write (othersBefore write close rest others) first) =
      some (first :: others, rest) := by
  induction others generalizing first steps with
  | nil =>
    obtain ⟨steps, rfl⟩ := Nat.exists_eq_succ_of_ne_zero (Nat.ne_zero_of_lt hsteps)
    have hfirst := (h first List.mem_cons_self).reads _ (hclose.stops_othersBefore write rest [])
    rw [readItems?, hfirst]
    simp [othersBefore, skipBlanks_cons hclose.visible, hclose.other]
  | cons second others ih =>
    obtain ⟨steps, rfl⟩ := Nat.exists_eq_succ_of_ne_zero (Nat.ne_zero_of_lt hsteps)
    obtain ⟨hfirst, hothers⟩ := List.forall_mem_cons.mp h
    have hread := hfirst.reads _ (hclose.stops_othersBefore write rest (second :: others))
    have hrest := ih hothers (Nat.lt_of_succ_lt_succ hsteps)
    rw [readItems?, hread]
    simp [othersBefore, skipBlanks_cons (c := ',') rfl, hrest]

/-- A list of items is read back up to its closing character. Its first item has
    to begin visibly and with something else than that character, or the list
    would seem empty. -/
theorem readSequence?_othersBefore (hclose : Closes close) (rest : List Char) {first : α} {others : List α}
    (h : ∀ a ∈ first :: others, Rereads item write a)
    (hbegins : ∀ rest, ∃ c tail, write rest first = c :: tail ∧ isBlank c = false ∧ c ≠ close) :
    readSequence? item close (write (othersBefore write close rest others) first) = some (first :: others, rest) := by
  obtain ⟨c, tail, htext, hblank, hne⟩ := hbegins (othersBefore write close rest others)
  -- The reader counts characters, and every item has one of its own.
  have hsteps : others.length < tail.length + 1 := by
    have hgrows := (h first List.mem_cons_self).grows (othersBefore write close rest others)
    have hothers := length_lt_othersBefore close rest (List.forall_mem_cons.mp h).2
    rw [htext, List.length_cons] at hgrows
    omega
  have hitems := readItems?_othersBefore hclose rest h hsteps
  rw [htext] at hitems ⊢
  rw [readSequence?, skipBlanks_cons hblank]
  simp [hne, hitems]

end reading

mutual

/-- What stands behind a value does not change its text. -/
theorem compactBefore_eq_append (rest : List Char) : (v : Json) → compactBefore rest v = compactBefore [] v ++ rest
  | null | bool true | bool false | array [] | object [] => rfl
  | number n => by rw [compactBefore, compactBefore, List.append_nil]
  | string s => by rw [compactBefore, compactBefore, List.append_nil]
  | array (v :: vs) => by
    rw [compactBefore, compactBefore, compactItems_eq_append rest vs,
      compactBefore_eq_append (compactItems [] vs ++ rest) v, compactBefore_eq_append (compactItems [] vs) v]
    simp
  | object ((k, v) :: ms) => by
    rw [compactBefore, compactBefore, compactMembers_eq_append rest ms,
      compactBefore_eq_append (compactMembers [] ms ++ rest) v, compactBefore_eq_append (compactMembers [] ms) v]
    simp

theorem compactItems_eq_append (rest : List Char) : (items : List Json) →
    compactItems rest items = compactItems [] items ++ rest
  | [] => rfl
  | v :: vs => by
    rw [compactItems, compactItems, compactItems_eq_append rest vs,
      compactBefore_eq_append (compactItems [] vs ++ rest) v, compactBefore_eq_append (compactItems [] vs) v]
    simp

theorem compactMembers_eq_append (rest : List Char) : (members : List (String × Json)) →
    compactMembers rest members = compactMembers [] members ++ rest
  | [] => rfl
  | (k, v) :: ms => by
    rw [compactMembers, compactMembers, compactMembers_eq_append rest ms,
      compactBefore_eq_append (compactMembers [] ms ++ rest) v, compactBefore_eq_append (compactMembers [] ms) v]
    simp

end

private theorem memberBefore_eq_append (rest : List Char) (m : String × Json) :
    memberBefore rest m = memberBefore [] m ++ rest := by
  rw [memberBefore, memberBefore, compactBefore_eq_append rest m.2]
  simp

private theorem getLast?_othersBefore {α : Type} {write : List Char → α → List Char}
    (hwrite : ∀ rest a, write rest a = write [] a ++ rest) (close : Char) (others : List α) :
    (othersBefore write close [] others).getLast? = some close := by
  induction others with
  | nil => rfl
  | cons a others ih => rw [othersBefore, hwrite, ← List.cons_append, List.getLast?_append, ih, Option.some_or]

private theorem isBlank_of_isWhiteSpace {c : Char} (h : Text.isWhiteSpace c = false) : isBlank c = false := by
  rw [Bool.eq_false_iff] at h ⊢
  intro hblank
  simp only [isBlank, Bool.or_eq_true, decide_eq_true_eq] at hblank
  rcases hblank with ((rfl | rfl) | rfl) | rfl <;> exact h rfl

private theorem exists_integerChars_eq_cons (n : Int) :
    ∃ c ds, Text.integerChars n = c :: ds ∧ (c = '-' ∨ c.isDigit = true) := by
  unfold Text.integerChars
  split
  · exact ⟨'-', _, rfl, .inl rfl⟩
  · obtain ⟨c, ds, hcons, hdigit⟩ := Text.exists_toDigits_eq_cons n.natAbs
    exact ⟨c, ds, hcons, .inr hdigit⟩

private theorem stringChars_append (s : String) (rest : List Char) :
    stringChars s ++ rest = '"' :: (s.toList.flatMap escapeChar ++ '"' :: rest) := by
  simp [stringChars]

/-- A value begins visibly, and neither as a list ends nor with an equals
    sign. -/
theorem Floatless.exists_compactBefore_eq_cons {v : Json} (h : v.Floatless) (rest : List Char) :
    ∃ c tail, compactBefore rest v = c :: tail ∧ Text.isWhiteSpace c = false ∧ c ≠ ']' ∧ c ≠ '=' := by
  cases h with
  | null => exact ⟨'n', _, rfl, rfl, by decide⟩
  | bool b => cases b <;> exact ⟨_, _, rfl, rfl, by decide⟩
  | integer n lower upper =>
    obtain ⟨c, ds, hcons, hc⟩ := exists_integerChars_eq_cons n
    refine ⟨c, ds ++ rest, by rw [compactBefore, numberChars, hcons]; rfl, ?_⟩
    rcases hc with rfl | hdigit
    · decide
    · refine ⟨Text.isWhiteSpace_of_isDigit hdigit, ?_, ?_⟩
      all_goals
        rintro rfl
        cases hdigit
  | string s => exact ⟨'"', _, stringChars_append s rest, rfl, by decide⟩
  | @array items _ => cases items <;> exact ⟨'[', _, rfl, rfl, by decide⟩
  | @object members _ => cases members <;> exact ⟨'\x7b', _, rfl, rfl, by decide⟩

/-- The text of an integer is read as that integer and as no float. What follows
    must not carry the word on, as a point or an exponent would. -/
theorem readValue?_integer (depth : Nat) (n : Int) (lower : -0x8000000000000000 ≤ n) (upper : n < 0x10000000000000000)
    {rest : List Char} (h : Stops rest) :
    readValue? depth (Text.integerChars n ++ rest) = some (number (.integer n lower upper), rest) := by
  have hread := readNumeral?_integerChars n h
  have hvalue := value?_integer n lower upper
  obtain ⟨c, ds, hcons, hc⟩ := exists_integerChars_eq_cons n
  rw [hcons, List.cons_append] at hread ⊢
  have hother (d : Char) (hd : d ≠ '-') (hdigit : d.isDigit = false) : c ≠ d := by
    rintro rfl
    rcases hc with rfl | htrue
    · exact hd rfl
    · exact absurd (htrue.symm.trans hdigit) (by decide)
  have hscalar : readScalar? (c :: (ds ++ rest)) = some (number (.integer n lower upper), rest) := by
    simp [readScalar?, hother 'n', hother 't', hother 'f', hother '"', hread, hvalue]
  cases depth with
  | zero => rw [readValue?, hscalar]
  | succ depth => simp [readValue?, hother '[', hother '\x7b', hscalar]

/-- The text of a string is read as that string, whatever stands behind it. -/
theorem readValue?_stringChars (depth : Nat) (s : String) (rest : List Char) :
    readValue? depth (stringChars s ++ rest) = some (string s, rest) := by
  have hread := readString?_stringChars s rest
  rw [stringChars_append] at hread ⊢
  cases depth <;> simp [readValue?, readScalar?, hread]

/-- A member is read back if its value is. Names need no premise, since any
    string is read back from its text. -/
theorem rereads_memberBefore {value : List Char → Option (Json × List Char)} {m : String × Json}
    (h : Rereads value compactBefore m.2) : Rereads (readMember? value) memberBefore m where
  grows rest := by
    have hgrows := h.grows rest
    simp only [memberBefore, stringChars_append, List.length_cons, List.length_append]
    omega
  reads rest hrest := by
    have hvalue := h.reads rest hrest
    have hname := readString?_stringChars m.1 (':' :: compactBefore rest m.2)
    have hquote : skipBlanks (memberBefore rest m) = memberBefore rest m := by
      rw [memberBefore, stringChars_append]
      exact skipBlanks_cons rfl _
    rw [readMember?, hquote, hquote, memberBefore, hname]
    simp [skipBlanks_cons (c := ':') rfl, hvalue]

private theorem closes_bracket : Closes ']' where
  visible := rfl
  ends rest c hc := by
    cases hc
    decide
  other := by decide

private theorem closes_brace : Closes '\x7d' where
  visible := rfl
  ends rest c hc := by
    cases hc
    decide
  other := by decide

private theorem Floatless.length_lt {v : Json} (h : v.Floatless) (rest : List Char) :
    rest.length < (compactBefore rest v).length := by
  obtain ⟨c, tail, hcons, -⟩ := h.exists_compactBefore_eq_cons []
  rw [compactBefore_eq_append, hcons, List.length_append, List.length_cons]
  omega

/-- A value that is read back from its text is an item that is read back in a
    list: its text is not empty and begins visibly. -/
theorem Floatless.rereads {v : Json} (h : v.Floatless) {depth : Nat}
    (hread : ∀ rest, Stops rest → readValue? depth (compactBefore rest v) = some (v, rest)) :
    Rereads (readValue? depth) compactBefore v where
  grows := h.length_lt
  reads rest hrest := by
    obtain ⟨c, tail, hcons, hvisible, -⟩ := h.exists_compactBefore_eq_cons rest
    have hskip : skipBlanks (compactBefore rest v) = compactBefore rest v := by
      rw [hcons, skipBlanks_cons (isBlank_of_isWhiteSpace hvisible)]
    rw [hskip, hread rest hrest]

/-- The reader reads a value from its compact text and stops behind it. The
    value has to be sorted, because the members of an object come out ascending,
    and must not be nested deeper than the reader goes. What follows matters for
    numbers only. -/
theorem Floatless.readValue?_compactBefore {v : Json} (h : v.Floatless) (hsorted : v.IsSorted) {depth : Nat}
    (hdepth : v.depth ≤ depth) {rest : List Char} (hrest : Stops rest) :
    readValue? depth (compactBefore rest v) = some (v, rest) := by
  induction h generalizing depth rest with
  | null => cases depth <;> simp [compactBefore, readValue?, readScalar?, readWord?]
  | bool b => cases b <;> cases depth <;> simp [compactBefore, readValue?, readScalar?, readWord?]
  | integer n lower upper => exact readValue?_integer depth n lower upper hrest
  | string s => exact readValue?_stringChars depth s rest
  | @array items hitems ih =>
    obtain ⟨depth, rfl⟩ := Nat.exists_eq_succ_of_ne_zero (Nat.ne_zero_of_lt hdepth)
    have hdeep := depthItems_le_iff.mp (Nat.le_of_succ_le_succ hdepth)
    have hrereads : ∀ v ∈ items, Rereads (readValue? depth) compactBefore v := fun v hv =>
      (hitems v hv).rereads fun _ hrest => ih v hv (isSorted_array_iff.mp hsorted v hv) (hdeep v hv) hrest
    cases items with
    | nil => simp [compactBefore, readValue?, readSequence?, skipBlanks_cons (c := ']') rfl]
    | cons first others =>
      have hbegins (rest : List Char) :
          ∃ c tail, compactBefore rest first = c :: tail ∧ isBlank c = false ∧ c ≠ ']' := by
        obtain ⟨c, tail, hcons, hvisible, hne, -⟩ := (hitems first List.mem_cons_self).exists_compactBefore_eq_cons rest
        exact ⟨c, tail, hcons, isBlank_of_isWhiteSpace hvisible, hne⟩
      have hread := readSequence?_othersBefore closes_bracket rest hrereads hbegins
      simp [compactBefore, compactItems_eq_othersBefore, readValue?, hread]
  | @object members hmembers ih =>
    obtain ⟨depth, rfl⟩ := Nat.exists_eq_succ_of_ne_zero (Nat.ne_zero_of_lt hdepth)
    obtain ⟨hascending, hvalues⟩ := isSorted_object_iff.mp hsorted
    have hdeep := depthMembers_le_iff.mp (Nat.le_of_succ_le_succ hdepth)
    have hrereads : ∀ m ∈ members, Rereads (readMember? (readValue? depth)) memberBefore m := fun m hm =>
      rereads_memberBefore ((hmembers m hm).rereads fun _ hrest => ih m hm (hvalues m hm) (hdeep m hm) hrest)
    cases members with
    | nil => simp [compactBefore, readValue?, readSequence?, skipBlanks_cons (c := '\x7d') rfl, ofMembers, sortMembers]
    | cons first others =>
      have hbegins (rest : List Char) :
          ∃ c tail, memberBefore rest first = c :: tail ∧ isBlank c = false ∧ c ≠ '\x7d' :=
        ⟨'"', _, stringChars_append first.1 _, rfl, by decide⟩
      have hread := readSequence?_othersBefore closes_brace rest hrereads hbegins
      rw [memberBefore] at hread
      simp [compactBefore, compactMembers_eq_othersBefore, readValue?, hread, ofMembers,
        sortMembers_of_ascending hascending]

theorem Floatless.compact_ne_nil {v : Json} (h : v.Floatless) : v.compact.toList ≠ [] := by
  obtain ⟨c, tail, hcons, -⟩ := h.exists_compactBefore_eq_cons []
  rw [compact, String.toList_ofList, hcons]
  exact List.cons_ne_nil c tail

theorem Floatless.head?_compact_ne {v : Json} (h : v.Floatless) : v.compact.toList.head? ≠ some '=' := by
  obtain ⟨c, tail, hcons, -, -, hne⟩ := h.exists_compactBefore_eq_cons []
  rw [compact, String.toList_ofList, hcons]
  exact fun hhead => hne (Option.some.inj hhead)

/-- The compact text of a value neither begins nor ends with white space, so
    that it is found again between runs of it. White space within its strings
    stays. -/
theorem Floatless.bare_compact {v : Json} (h : v.Floatless) : Text.Bare v.compact.toList where
  head c hc := by
    obtain ⟨d, tail, hcons, hvisible, -⟩ := h.exists_compactBefore_eq_cons []
    rw [compact, String.toList_ofList, hcons] at hc
    cases hc
    exact hvisible
  last c hc := by
    rw [compact, String.toList_ofList] at hc
    cases h with
    | null => cases hc; rfl
    | bool b => cases b <;> cases hc <;> rfl
    | integer n lower upper =>
      have hmem := List.mem_of_getLast? hc
      rw [compactBefore, List.append_nil, numberChars, Text.integerChars] at hmem
      split at hmem
      · rcases List.mem_cons.mp hmem with rfl | hdigit
        · rfl
        · exact Text.isWhiteSpace_of_isDigit (Text.isDigit_of_mem_toDigits hdigit)
      · exact Text.isWhiteSpace_of_isDigit (Text.isDigit_of_mem_toDigits hmem)
    | string s =>
      rw [compactBefore, List.append_nil, stringChars, List.getLast?_concat] at hc
      cases hc
      rfl
    | @array items hitems =>
      cases items with
      | nil => cases hc; rfl
      | cons first others =>
        rw [compactBefore, compactItems_eq_othersBefore, compactBefore_eq_append, ← List.cons_append,
          List.getLast?_append, getLast?_othersBefore compactBefore_eq_append, Option.some_or] at hc
        cases hc
        rfl
    | @object members hmembers =>
      cases members with
      | nil => cases hc; rfl
      | cons first others =>
        rw [compactBefore, compactMembers_eq_othersBefore, compactBefore_eq_append] at hc
        simp [List.getLast?_append, List.getLast?_cons, getLast?_othersBefore memberBefore_eq_append] at hc
        cases hc
        rfl

/-- A value is read from its compact text. Floats are left out, since their text
    is rounded by a method of its own when it is read. -/
theorem Floatless.parse?_compact {v : Json} (h : v.Floatless) (hsorted : v.IsSorted) (hdepth : v.depth ≤ maxDepth) :
    parse? v.compact = some v := by
  obtain ⟨c, tail, hcons, hvisible, -⟩ := h.exists_compactBefore_eq_cons []
  have hskip : skipBlanks v.compact.toList = compactBefore [] v := by
    rw [compact, String.toList_ofList, hcons, skipBlanks_cons (isBlank_of_isWhiteSpace hvisible)]
  have hnothing : Stops [] := fun c hc => by cases hc
  have hread := h.readValue?_compactBefore hsorted hdepth hnothing
  rw [parse?, readAll?, hskip, hread]
  rfl

/-- A value that is read is nested no deeper than the reader was allowed to
    go. -/
theorem yields_readValue_depth (depth : Nat) : Yields (readValue? depth) fun v => v.depth ≤ depth := by
  refine yields_readValue_of (P := fun depth v => v.depth ≤ depth) ?_ ?_ ?_ depth
  · intro depth v hscalar
    cases v with
    | array items => cases hscalar
    | object members => cases hscalar
    | _ => exact Nat.zero_le _
  · intro depth items hitems
    exact Nat.succ_le_succ (depthItems_le_iff.mpr hitems)
  · intro depth members hmembers
    exact Nat.succ_le_succ (depthMembers_le_iff.mpr fun m hm => hmembers m (mem_of_mem_sortMembers hm))

/-- Values are read as deep as the reader goes, and no deeper. -/
theorem depth_le_of_parse? {s : String} {v : Json} (h : parse? s = some v) : v.depth ≤ maxDepth :=
  (yields_readValue_depth maxDepth).of_readAll h

end Brokerage.Json
