import Brokerage.Proofs.Expression.Balance

namespace Brokerage.Expression

section

variable {cs operand rest : List Char} {nodes : List Node}

/-- Characters behind the closing parenthesis are left as they are and change
    nothing of what is read before it. -/
theorem Reads.append (h : Reads true cs operand nodes rest) (more : List Char) :
    Reads true (cs ++ more) operand nodes (rest ++ more) := by
  generalize hinside : true = inside at h
  induction h with
  | textEnd => cases hinside
  | close rest => exact .close (rest ++ more)
  | group _ _ ihinner ihouter =>
    subst hinside
    exact .group (ihinner rfl) (ihouter rfl)
  | operator hc _ ih => exact .operator hc (ih hinside)
  | space _ ih => exact .space (ih hinside)
  | plain hc _ ih => exact .plain hc (ih hinside)

/-- What can be read to the end of a text can be read inside parentheses up to
    one that closes them. -/
theorem Reads.closed (h : Reads false cs operand nodes rest) (after : List Char) :
    Reads true (cs ++ ')' :: after) operand nodes after := by
  generalize hinside : false = inside at h
  induction h with
  | textEnd => exact .close after
  | close => cases hinside
  | group hinner _ _ ihouter => exact .group (hinner.append _) (ihouter hinside)
  | operator hc _ ih => exact .operator hc (ih hinside)
  | space _ ih => exact .space (ih hinside)
  | plain hc _ ih => exact .plain hc (ih hinside)

/-- Reading inside parentheses goes exactly so far that what is in front of the
    closing one is a text of its own. -/
theorem Reads.exists_closed (h : Reads true cs operand nodes rest) :
    ∃ inner, cs = inner ++ ')' :: rest ∧ Reads false inner operand nodes [] := by
  generalize hinside : true = inside at h
  induction h with
  | textEnd => cases hinside
  | close rest => exact ⟨[], rfl, .textEnd⟩
  | group _ _ ihinner ihouter =>
    -- The group stops where its own text ends, and it is from there that the outer one has to get to `rest`.
    obtain ⟨inner, rfl, hinner⟩ := ihinner rfl
    obtain ⟨outer, rfl, houter⟩ := ihouter hinside
    exact ⟨'(' :: (inner ++ ')' :: outer), by simp, .group (hinner.closed outer) houter⟩
  | @operator _ c _ _ _ _ hc _ ih =>
    obtain ⟨inner, rfl, hinner⟩ := ih hinside
    exact ⟨c :: inner, rfl, .operator hc hinner⟩
  | space _ ih =>
    obtain ⟨inner, rfl, hinner⟩ := ih hinside
    exact ⟨' ' :: inner, rfl, .space hinner⟩
  | @plain _ c _ _ _ _ hc _ ih =>
    obtain ⟨inner, rfl, hinner⟩ := ih hinside
    exact ⟨c :: inner, rfl, .plain hc hinner⟩

private theorem parse_ofList_eq_ok_iff {e : Expression} :
    parse (String.ofList cs) = .ok e ↔
      ∃ operand nodes, Reads false cs operand nodes [] ∧ withOperand operand nodes = e := by
  rw [parse_eq_ok_iff, String.toList_ofList]

private theorem exists_parse_ofList_iff : (∃ e, parse (String.ofList cs) = .ok e) ↔ Balanced cs := by
  rw [exists_parse_eq_ok_iff, String.toList_ofList]

end

/-- The nodes inside parentheses that are read from the position `p` of the
    characters on, and the position reading has got to with them. The
    parenthesis to be closed is at the byte `openedAt`, and `p` is at the byte
    `offset`. -/
def readGroup (openedAt offset : Nat) (cs : List Char) (p : Nat) : Except SearchError (List Node × Nat) :=
  (readNodes (some openedAt) offset (cs.drop p)).map fun r => (r.val.all, cs.length - r.val.rest.length)

/-- What is inside parentheses from the position `p` of the characters on is
    closed by the parenthesis before `q`. -/
structure ClosedBefore (cs : List Char) (p q : Nat) : Prop where
  lt : p < q
  le : q ≤ cs.length
  parenthesis : cs[q - 1]? = some ')'
  balanced : Balanced (cs.extract p (q - 1))

section

variable {cs inner after : List Char} {nodes : List Node} {openedAt offset p q : Nat}

private theorem length_of_drop_eq (h : cs.drop p = inner ++ ')' :: after) :
    cs.length = p + inner.length + 1 + after.length := by
  have hlength := congrArg List.length h
  simp only [List.length_drop, List.length_append, List.length_cons] at hlength
  omega

private theorem drop_of_drop_eq (h : cs.drop p = inner ++ after) : cs.drop (p + inner.length) = after := by
  rw [← List.drop_drop, h, List.drop_left]

private theorem drop_succ_of_drop_eq (h : cs.drop p = inner ++ ')' :: after) : cs.drop (p + inner.length + 1) = after := by
  rw [← List.drop_drop, drop_of_drop_eq h, List.drop_one, List.tail_cons]

private theorem extract_of_drop_eq (h : cs.drop p = inner ++ after) : cs.extract p (p + inner.length) = inner := by
  rw [List.extract_eq_take_drop, h, Nat.add_sub_cancel_left, List.take_left]

private theorem extract_succ_of_drop_eq (h : cs.drop p = inner ++ ')' :: after) :
    cs.extract p (p + inner.length + 1) = inner ++ [')'] := by
  have hclosing : cs.drop p = (inner ++ [')']) ++ after := by rw [h, List.append_assoc, List.singleton_append]
  have hextract := extract_of_drop_eq hclosing
  rwa [List.length_append, List.length_singleton, ← Nat.add_assoc] at hextract

/-- What is left after a group is what stands behind the parenthesis that closes
    it. -/
theorem exists_split_of_readNodes {r : { r : Reading // r.rest.length ≤ (cs.drop p).length }}
    (h : readNodes (some openedAt) offset (cs.drop p) = .ok r) :
    ∃ inner, cs.drop p = inner ++ ')' :: r.val.rest ∧ parse (String.ofList inner) = .ok r.val.all ∧
      cs.length - r.val.rest.length = p + inner.length + 1 := by
  obtain ⟨inner, hsplit, hinner⟩ := (reads_of_readNodes h).exists_closed
  have hlength := length_of_drop_eq hsplit
  exact ⟨inner, hsplit, parse_ofList_eq_ok_iff.mpr ⟨_, _, hinner, rfl⟩, by omega⟩

/-- A group is read if an expression and a closing parenthesis come next, and
    then as that expression. The byte where it was opened and the offset have no
    part in a success. -/
theorem readGroup_eq_ok_iff :
    readGroup openedAt offset cs p = .ok (nodes, q) ↔
      ∃ inner after, cs.drop p = inner ++ ')' :: after ∧ parse (String.ofList inner) = .ok nodes ∧
        q = p + inner.length + 1 := by
  rw [readGroup, map_eq_ok_iff]
  constructor
  · rintro ⟨r, hread, heq⟩
    obtain ⟨rfl, rfl⟩ := Prod.mk.inj heq
    obtain ⟨inner, hsplit, hparse, hq⟩ := exists_split_of_readNodes hread
    exact ⟨inner, r.val.rest, hsplit, hparse, hq⟩
  · rintro ⟨inner, after, hsplit, hparse, rfl⟩
    obtain ⟨operand, nodes, hinner, rfl⟩ := parse_ofList_eq_ok_iff.mp hparse
    have hclosed := hinner.closed after
    rw [← hsplit] at hclosed
    obtain ⟨final, hrest, hread⟩ := hclosed.readNodes_eq (some openedAt) rfl offset
    have hlength := length_of_drop_eq hsplit
    refine ⟨_, hread, Prod.ext rfl ?_⟩
    dsimp only
    omega

/-- Where the group is closed, said by positions and said by a split of the
    characters. -/
theorem closedBefore_iff :
    ClosedBefore cs p q ↔
      ∃ inner after, cs.drop p = inner ++ ')' :: after ∧ Balanced inner ∧ q = p + inner.length + 1 := by
  constructor
  · rintro ⟨hlt, hle, hparenthesis, hbalanced⟩
    obtain ⟨hclosing, hget⟩ := List.getElem?_eq_some_iff.mp hparenthesis
    refine ⟨cs.extract p (q - 1), cs.drop (q - 1 + 1), ?_, hbalanced, ?_⟩
    · have hdrop : cs.drop (q - 1) = (cs.drop p).drop (q - 1 - p) := by
        rw [List.drop_drop, Nat.add_sub_cancel' (by omega)]
      rw [← hget, ← List.drop_eq_getElem_cons hclosing, List.extract_eq_take_drop, hdrop, List.take_append_drop]
    · rw [List.extract_eq_take_drop, List.length_take, List.length_drop]
      omega
  · rintro ⟨inner, after, hsplit, hbalanced, rfl⟩
    have hlength := length_of_drop_eq hsplit
    refine ⟨by omega, by omega, ?_, ?_⟩
    · rw [Nat.add_sub_cancel, ← List.head?_drop, drop_of_drop_eq hsplit, List.head?_cons]
    · rwa [Nat.add_sub_cancel, extract_of_drop_eq hsplit]

/-- A group can be read up to a position exactly if it is closed right before
    it. -/
theorem exists_readGroup_iff : (∃ nodes, readGroup openedAt offset cs p = .ok (nodes, q)) ↔ ClosedBefore cs p q := by
  simp only [readGroup_eq_ok_iff, closedBefore_iff]
  constructor
  · rintro ⟨nodes, inner, after, hsplit, hparse, hq⟩
    exact ⟨inner, after, hsplit, exists_parse_ofList_iff.mp ⟨nodes, hparse⟩, hq⟩
  · rintro ⟨inner, after, hsplit, hbalanced, hq⟩
    obtain ⟨nodes, hparse⟩ := exists_parse_ofList_iff.mpr hbalanced
    exact ⟨nodes, inner, after, hsplit, hparse, hq⟩

/-- Only one parenthesis closes what is inside: reading stops at one place. -/
theorem ClosedBefore.unique {q' : Nat} (h : ClosedBefore cs p q) (h' : ClosedBefore cs p q') : q' = q := by
  have hread : ∃ nodes, readGroup 0 0 cs p = .ok (nodes, q) := exists_readGroup_iff.mpr h
  have hread' : ∃ nodes, readGroup 0 0 cs p = .ok (nodes, q') := exists_readGroup_iff.mpr h'
  obtain ⟨nodes, hread⟩ := hread
  obtain ⟨nodes', hread'⟩ := hread'
  cases hread.symm.trans hread'
  rfl

/-- Whoever has a group read goes on with what is behind the position that
    reading has got to. -/
theorem exists_rest_of_readGroup (h : readGroup openedAt offset cs p = .ok (nodes, q)) :
    ∃ r, readNodes (some openedAt) offset (cs.drop p) = .ok r ∧ r.val.rest = cs.drop q := by
  rw [readGroup, map_eq_ok_iff] at h
  obtain ⟨r, hread, heq⟩ := h
  obtain ⟨rfl, rfl⟩ := Prod.mk.inj heq
  obtain ⟨inner, hsplit, -, hq⟩ := exists_split_of_readNodes hread
  refine ⟨r, hread, ?_⟩
  rw [hq, drop_succ_of_drop_eq hsplit]

private theorem parse_extract_of_readGroup (h : readGroup openedAt offset cs p = .ok (nodes, q)) :
    parse (String.ofList (cs.extract p (q - 1))) = .ok nodes := by
  obtain ⟨inner, after, hsplit, hparse, rfl⟩ := readGroup_eq_ok_iff.mp h
  rwa [Nat.add_sub_cancel, extract_of_drop_eq hsplit]

/-- What is in front of a group and what is behind it may be exchanged, and the
    offsets with it: the nodes stay the same, and the position moves along. -/
theorem readGroup_extract (h : readGroup openedAt offset cs p = .ok (nodes, q)) (before after : List Char)
    (openedAt' offset' : Nat) :
    readGroup openedAt' offset' (before ++ cs.extract p q ++ after) before.length =
      .ok (nodes, before.length + (q - p)) := by
  obtain ⟨inner, _, hsplit, hparse, rfl⟩ := readGroup_eq_ok_iff.mp h
  rw [extract_succ_of_drop_eq hsplit]
  refine readGroup_eq_ok_iff.mpr ⟨inner, after, ?_, hparse, by omega⟩
  rw [List.append_assoc, List.drop_left, List.append_assoc, List.singleton_append]

end

/-- Reads nodes as `readNodes` does, but has no other reason to end than a bound
    on how deep its calls go: no answer if they go deeper. -/
def readNodesWithin (bound : Nat) (openedAt : Option Nat) (offset : Nat) (cs : List Char) :
    ExceptT SearchError Option Reading :=
  match bound, cs with
  | 0, _ => .mk none
  | _ + 1, [] =>
    match openedAt with
    | some position => throw (.unbalancedParenthesis position)
    | none => return ⟨[], [], offset, []⟩
  | bound + 1, c :: cs =>
    if c = '(' then do
      let inner ← readNodesWithin bound (some offset) (offset + 1) cs
      let outer ← readNodesWithin bound openedAt inner.offset inner.rest
      return ⟨[], .group inner.all :: outer.all, outer.offset, outer.rest⟩
    else if c = ')' then
      match openedAt with
      | some _ => return ⟨[], [], offset + 1, cs⟩
      | none => throw (.unbalancedParenthesis offset)
    else do
      let after ← readNodesWithin bound openedAt (offset + c.utf8Size) cs
      return after.prepend c

/-- Two computations that might give no answer but give the expected ones do so
    one after the other. -/
private theorem run_bind_eq_some {α β γ δ ε : Type} {x : ExceptT ε Option α} {y : Except ε β} {view : β → α}
    {f : α → ExceptT ε Option γ} {g : β → Except ε δ} {result : δ → γ} (hx : x.run = some (y.map view))
    (hf : ∀ b, (f (view b)).run = some ((g b).map result)) : (x >>= f).run = some ((y >>= g).map result) := by
  rw [ExceptT.run_bind, hx]
  cases y with
  | error e => rfl
  | ok b => exact hf b

/-- Each call reads from fewer characters than the one that makes it, so the
    characters left bound how deep they go: a bound of one more than their
    number is enough to answer as `readNodes` does. -/
theorem readNodesWithin_eq {bound : Nat} {openedAt : Option Nat} {offset : Nat} {cs : List Char}
    (h : cs.length ≤ bound) :
    (readNodesWithin (bound + 1) openedAt offset cs).run = some ((readNodes openedAt offset cs).map Subtype.val) := by
  fun_induction readNodes openedAt offset cs generalizing bound with
  | case1 => rfl
  | case2 => rfl
  | case3 openedAt offset cs ihinner ihouter =>
    obtain ⟨bound, rfl⟩ := Nat.exists_eq_add_one.mpr (Nat.zero_lt_of_lt h)
    have hbound : cs.length ≤ bound := Nat.le_of_succ_le_succ h
    rw [readNodesWithin.eq_def]
    refine run_bind_eq_some (ihinner hbound) fun inner => ?_
    exact run_bind_eq_some (ihouter inner.val inner.property (Nat.le_trans inner.property hbound)) fun outer => rfl
  | case4 => rfl
  | case5 => rfl
  | case6 openedAt offset c cs hopen hclose ih =>
    obtain ⟨bound, rfl⟩ := Nat.exists_eq_add_one.mpr (Nat.zero_lt_of_lt h)
    rw [readNodesWithin.eq_def]
    simp only [hopen, hclose, if_false]
    exact run_bind_eq_some (ih (Nat.le_of_succ_le_succ h)) fun after => rfl

/-- Reading inside parentheses stops right after the one that closes them, and
    whoever had it done goes on from there. The nodes are those of the text in
    between and depend on nothing else. If reading fails, no parenthesis closes
    them. It ends in any case, inside parentheses and outside, and its calls go
    no deeper than there are characters left. -/
theorem readGroup_stops_after_closing (cs : List Char) (p offset : Nat) :
    (∀ openedAt nodes q, readGroup openedAt offset cs p = .ok (nodes, q) →
      ClosedBefore cs p q ∧ (∀ q', ClosedBefore cs p q' → q' = q) ∧
      (∃ r, readNodes (some openedAt) offset (cs.drop p) = .ok r ∧ r.val.rest = cs.drop q) ∧
      parse (String.ofList (cs.extract p (q - 1))) = .ok nodes ∧
      ∀ before after openedAt' offset',
        readGroup openedAt' offset' (before ++ cs.extract p q ++ after) before.length =
          .ok (nodes, before.length + (q - p))) ∧
    (∀ openedAt e, readGroup openedAt offset cs p = .error e → ∀ q, ¬ClosedBefore cs p q) ∧
    ∀ openedAt bound, cs.length - p ≤ bound →
      (readNodesWithin (bound + 1) openedAt offset (cs.drop p)).run =
        some ((readNodes openedAt offset (cs.drop p)).map Subtype.val) := by
  refine ⟨?closed, ?unclosed, ?bounded⟩
  case closed =>
    intro openedAt nodes q hread
    have hclosed := exists_readGroup_iff.mp ⟨nodes, hread⟩
    exact ⟨hclosed, fun q' => hclosed.unique, exists_rest_of_readGroup hread, parse_extract_of_readGroup hread,
      readGroup_extract hread⟩
  case unclosed =>
    intro openedAt e herror q hclosed
    obtain ⟨nodes, hread⟩ := exists_readGroup_iff.mpr hclosed
    cases herror.symm.trans hread
  case bounded =>
    intro openedAt bound hbound
    apply readNodesWithin_eq
    rwa [List.length_drop]

/-- The group from the position 3 on has another one in it and is closed at 9.
    What begins at 13 is never closed. -/
def groupInGroup : List Char := "2*(é-(b) )) (c".toList

theorem readGroup_stops_after_closing_groupInGroup :
    readGroup 2 3 groupInGroup 3 = .ok ([.token "é", .token "-", .group [.token "b"]], 10) ∧
    ClosedBefore groupInGroup 3 10 ∧
    readGroup 7 8 ("((ß".toList ++ groupInGroup.extract 3 10 ++ ")(".toList) 3 =
      .ok ([.token "é", .token "-", .group [.token "b"]], 10) ∧
    readGroup 13 14 groupInGroup 13 = .error (.unbalancedParenthesis 13) ∧ (∀ q, ¬ClosedBefore groupInGroup 13 q) ∧
    groupInGroup.length - 13 ≤ 1 ∧
    (readNodesWithin 2 (some 13) 14 (groupInGroup.drop 13)).run = some (.error (.unbalancedParenthesis 13)) := by
  have hparse : parse (String.ofList ['é', '-', '(', 'b', ')', ' ']) =
      .ok [.token "é", .token "-", .group [.token "b"]] := by
    have hb : isPlain 'b' := ⟨rfl, by decide, by decide, by decide⟩
    have haccented : isPlain 'é' := ⟨rfl, by decide, by decide, by decide⟩
    have hinner : Reads true ['b', ')', ' '] ['b'] [] [' '] := .plain hb (.close _)
    exact parse_ofList_eq_ok_iff.mpr ⟨_, _, .plain haccented (.operator rfl (.group hinner (.space .textEnd))), rfl⟩
  have hread : readGroup 2 3 groupInGroup 3 = .ok ([.token "é", .token "-", .group [.token "b"]], 10) :=
    readGroup_eq_ok_iff.mpr ⟨_, [')', ' ', '(', 'c'], rfl, hparse, rfl⟩
  have hlength : groupInGroup.length - 13 ≤ 1 := by decide
  have hwithin :
    (readNodesWithin 2 (some 13) 14 (groupInGroup.drop 13)).run = some (.error (.unbalancedParenthesis 13)) := rfl
  obtain ⟨hclosed, -, -, -, hextract⟩ := (readGroup_stops_after_closing groupInGroup 3 3).1 2 _ _ hread
  obtain ⟨-, hnone, hbounded⟩ := readGroup_stops_after_closing groupInGroup 13 14
  have herror : readGroup 13 14 groupInGroup 13 = .error (.unbalancedParenthesis 13) := by
    have hrun := (hbounded (some 13) 1 hlength).symm.trans hwithin
    exact map_eq_error_iff.mpr (map_eq_error_iff.mp (Option.some.inj hrun))
  exact ⟨hread, hclosed, hextract _ _ 7 8, herror, hnone 13 _ herror, hlength, hwithin⟩

end Brokerage.Expression
