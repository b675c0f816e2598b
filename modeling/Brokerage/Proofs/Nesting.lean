import Mathlib.Data.List.Induction
import Mathlib.Data.List.Infix
import Mathlib.Order.Bounds.Basic

namespace Brokerage.Nesting

inductive Mark where
  | opening
  | closing
deriving DecidableEq

variable {α : Type} (mark? : α → Option Mark)

/-- How many groups are opened, less those that are closed. It is negative where
    more are closed than opened. -/
def depth (xs : List α) : Int :=
  xs.countP (mark? · = some .opening) - xs.countP (mark? · = some .closing)

/-- At no point are more groups closed than opened. -/
def Closable (xs : List α) : Prop :=
  ∀ p, p <+: xs → 0 ≤ depth mark? p

/-- At no point are more groups closed than opened, and at the end none is
    open. -/
def Balanced (xs : List α) : Prop :=
  Closable mark? xs ∧ depth mark? xs = 0

/-- The marks at the two places belong together: what stands between them is
    balanced. -/
def Pairs (xs : List α) (i j : Nat) : Prop :=
  ∃ before a inner b after, xs = before ++ a :: (inner ++ b :: after) ∧ mark? a = some .opening ∧
    mark? b = some .closing ∧ Balanced mark? inner ∧ before.length = i ∧ before.length + inner.length + 1 = j

/-- An opening mark stands at the place, and no closing one belongs to it. -/
def Unclosed (xs : List α) (i : Nat) : Prop :=
  xs[i]?.bind mark? = some .opening ∧ ∀ j, ¬Pairs mark? xs i j

/-- A closing mark stands at the place, and no opening one belongs to it. -/
def Stray (xs : List α) (j : Nat) : Prop :=
  xs[j]?.bind mark? = some .closing ∧ ∀ i, ¬Pairs mark? xs i j

section

variable {mark?} {xs ys before inner after : List α} {a b : α} {i : Nat}

private theorem exists_split_of_bind_getElem? {m : Mark} (h : xs[i]?.bind mark? = some m) :
    ∃ before a after, xs = before ++ a :: after ∧ before.length = i ∧ mark? a = some m := by
  obtain ⟨a, hget, ha⟩ := Option.bind_eq_some_iff.mp h
  obtain ⟨hi, rfl⟩ := List.getElem?_eq_some_iff.mp hget
  refine ⟨xs.take i, xs[i], xs.drop (i + 1), ?_, ?_, ha⟩
  · rw [← List.drop_eq_getElem_cons hi, List.take_append_drop]
  · rw [List.length_take]
    omega

@[simp] theorem depth_nil : depth mark? [] = 0 := rfl

/-- The depth of a list in two parts is the sum of their depths, so every count
    below is made part by part. -/
theorem depth_append (xs ys : List α) : depth mark? (xs ++ ys) = depth mark? xs + depth mark? ys := by
  simp only [depth, List.countP_append]
  omega

theorem depth_cons_opening (h : mark? a = some .opening) (xs : List α) :
    depth mark? (a :: xs) = depth mark? xs + 1 := by
  simp [depth, h]
  omega

theorem depth_cons_closing (h : mark? a = some .closing) (xs : List α) :
    depth mark? (a :: xs) = depth mark? xs - 1 := by
  simp [depth, h]
  omega

theorem depth_cons_unmarked (h : mark? a = none) (xs : List α) : depth mark? (a :: xs) = depth mark? xs := by
  simp [depth, h]

/-- Only the marks count: the depth of a list is that of its marks alone,
    whatever stands between them. -/
theorem depth_filterMap (xs : List α) : depth some (xs.filterMap mark?) = depth mark? xs := by
  induction xs with
  | nil => rfl
  | cons a xs ih =>
    cases h : mark? a with
    | none => rw [List.filterMap_cons_none h, depth_cons_unmarked h, ih]
    | some m =>
      rw [List.filterMap_cons_some h]
      cases m with
      | opening => rw [depth_cons_opening rfl, depth_cons_opening h, ih]
      | closing => rw [depth_cons_closing rfl, depth_cons_closing h, ih]

private theorem closable_nil : Closable mark? [] := by
  intro p hp
  rw [List.prefix_nil.mp hp, depth_nil]

theorem Closable.depth_nonneg (h : Closable mark? xs) : 0 ≤ depth mark? xs :=
  h xs (List.prefix_refl xs)

/-- What begins a list closes too much nowhere if the list does not. Depths are
    taken over beginnings, which the two have in common. -/
theorem Closable.mono (h : Closable mark? ys) (hxs : xs <+: ys) : Closable mark? xs :=
  fun p hp => h p (hp.trans hxs)

theorem Closable.left (h : Closable mark? (xs ++ ys)) : Closable mark? xs :=
  h.mono (List.prefix_append xs ys)

/-- One more element closes too much only at the end, where the depth of the
    whole list tells. This is the step of an induction from the end. -/
theorem closable_concat_iff :
    Closable mark? (xs ++ [a]) ↔ Closable mark? xs ∧ 0 ≤ depth mark? (xs ++ [a]) := by
  constructor
  · intro h
    exact ⟨h.left, h.depth_nonneg⟩
  · rintro ⟨hxs, ha⟩ p hp
    rcases List.prefix_concat_iff.mp hp with rfl | hp
    · exact ha
    · exact hxs p hp

/-- The second part of a list may close the groups that the first leaves open,
    and no more: its own depths are counted from the depth of the first. -/
theorem closable_append_iff :
    Closable mark? (xs ++ ys) ↔ Closable mark? xs ∧ ∀ p, p <+: ys → 0 ≤ depth mark? xs + depth mark? p := by
  induction ys using List.reverseRecOn with
  | nil =>
    simp only [List.append_nil, List.prefix_nil, forall_eq, depth_nil, Int.add_zero]
    exact ⟨fun h => ⟨h, h.depth_nonneg⟩, And.left⟩
  | append_singleton ys a ih =>
    simp only [← List.append_assoc, closable_concat_iff, ih, List.prefix_concat_iff, or_imp, forall_and, forall_eq]
    rw [List.append_assoc, depth_append, and_assoc]
    exact and_congr_right fun _ => and_comm

/-- After what is balanced the count starts anew, so only what follows can close
    too much. -/
theorem Balanced.append_closable_iff (h : Balanced mark? xs) : Closable mark? (xs ++ ys) ↔ Closable mark? ys := by
  rw [closable_append_iff, h.2]
  simp only [Int.zero_add]
  exact and_iff_right h.1

/-- After what is balanced the count starts anew, and the whole is balanced
    exactly if what follows is. -/
theorem Balanced.append_iff (h : Balanced mark? xs) : Balanced mark? (xs ++ ys) ↔ Balanced mark? ys := by
  rw [Balanced, Balanced, h.append_closable_iff, depth_append, h.2, Int.zero_add]

/-- What is balanced can be left out anywhere, or put in anywhere: it leaves
    every count after it as it was. Nothing is asked of the lists around it. -/
theorem Balanced.insert_iff (h : Balanced mark? inner) :
    Balanced mark? (xs ++ inner ++ ys) ↔ Balanced mark? (xs ++ ys) := by
  have hdepth : depth mark? (xs ++ inner) = depth mark? xs := by rw [depth_append, h.2, Int.add_zero]
  have hclosable : Closable mark? (xs ++ inner) ↔ Closable mark? xs := by
    refine ⟨Closable.left, fun hxs => closable_append_iff.mpr ⟨hxs, fun p hp => ?_⟩⟩
    exact Int.add_nonneg hxs.depth_nonneg (h.1 p hp)
  rw [Balanced, Balanced, closable_append_iff, hclosable, depth_append (xs ++ inner), hdepth, closable_append_iff,
    depth_append]

theorem balanced_nil : Balanced mark? [] := ⟨closable_nil, rfl⟩

theorem balanced_singleton (h : mark? a = none) : Balanced mark? [a] := by
  have hdepth : depth mark? [a] = 0 := by rw [depth_cons_unmarked h, depth_nil]
  refine ⟨?_, hdepth⟩
  rw [← List.nil_append [a], closable_concat_iff]
  exact ⟨closable_nil, hdepth.ge⟩

theorem closable_opening_cons (ha : mark? a = some .opening) (h : Closable mark? xs) : Closable mark? (a :: xs) := by
  intro p hp
  rcases List.prefix_cons_iff.mp hp with rfl | ⟨q, rfl, hq⟩
  · exact le_rfl
  · have hnonneg := h q hq
    rw [depth_cons_opening ha]
    omega

/-- A balanced list between an opening and a closing mark is balanced, which
    makes groups nest to any depth. -/
theorem Balanced.wrap (ha : mark? a = some .opening) (hb : mark? b = some .closing) (h : Balanced mark? inner) :
    Balanced mark? (a :: (inner ++ [b])) := by
  have hdepth : depth mark? (a :: (inner ++ [b])) = 0 := by
    rw [depth_cons_opening ha, depth_append, h.2, depth_cons_closing hb, depth_nil]
    omega
  refine ⟨?_, hdepth⟩
  rw [← List.cons_append, closable_concat_iff]
  exact ⟨closable_opening_cons ha h.1, hdepth.ge⟩

/-- What closes too much splits at the mark that does so first. What stands
    before it is balanced: were a group left open there, the mark would close
    that one. -/
theorem exists_split_of_not_closable (h : ¬Closable mark? xs) :
    ∃ before b after, xs = before ++ b :: after ∧ mark? b = some .closing ∧ Balanced mark? before := by
  induction xs using List.reverseRecOn with
  | nil => exact absurd closable_nil h
  | append_singleton xs a ih =>
    by_cases hxs : Closable mark? xs
    · have hneg : depth mark? (xs ++ [a]) < 0 := by
        by_contra hnot
        exact h (closable_concat_iff.mpr ⟨hxs, by omega⟩)
      have hpos := hxs.depth_nonneg
      rw [depth_append] at hneg
      cases ha : mark? a with
      | none => rw [depth_cons_unmarked ha, depth_nil] at hneg; omega
      | some m =>
        cases m with
        | opening => rw [depth_cons_opening ha, depth_nil] at hneg; omega
        | closing =>
          rw [depth_cons_closing ha, depth_nil] at hneg
          exact ⟨xs, a, [], rfl, ha, hxs, by omega⟩
    · obtain ⟨before, b, after, rfl, hb, hbefore⟩ := ih hxs
      exact ⟨before, b, after ++ [a], by simp, hb, hbefore⟩

/-- The outermost of the groups left open. That something is left open needs the
    depth to be positive, and that no closing mark belongs to it needs the list
    not to close too much; before it all is balanced. -/
theorem exists_outermost (h : Closable mark? xs) (hpos : 0 < depth mark? xs) :
    ∃ before a rest, xs = before ++ a :: rest ∧ mark? a = some .opening ∧ Balanced mark? before ∧
      Closable mark? rest := by
  induction xs using List.reverseRecOn with
  | nil => exact absurd hpos (lt_irrefl 0)
  | append_singleton xs a ih =>
    have hxs := h.left
    by_cases hopen : 0 < depth mark? xs
    · obtain ⟨before, c, rest, rfl, hc, hbefore, hrest⟩ := ih hxs hopen
      refine ⟨before, c, rest ++ [a], by simp, hc, hbefore, closable_concat_iff.mpr ⟨hrest, ?_⟩⟩
      rw [List.append_assoc, List.cons_append, depth_append, hbefore.2, depth_cons_opening hc] at hpos
      omega
    · have hzero : depth mark? xs = 0 := le_antisymm (not_lt.mp hopen) hxs.depth_nonneg
      rw [depth_append, hzero, Int.zero_add] at hpos
      refine ⟨xs, a, [], rfl, ?_, ⟨hxs, hzero⟩, closable_nil⟩
      cases ha : mark? a with
      | none => rw [depth_cons_unmarked ha, depth_nil] at hpos; omega
      | some m =>
        cases m with
        | opening => rfl
        | closing => rw [depth_cons_closing ha, depth_nil] at hpos; omega

/-- The innermost of the groups left open: all that follows its opening mark is
    balanced. The premises are those of `exists_outermost`, and for a single
    group left open the two are the same. -/
theorem exists_innermost (h : Closable mark? xs) (hpos : 0 < depth mark? xs) :
    ∃ before a inner, xs = before ++ a :: inner ∧ mark? a = some .opening ∧ Balanced mark? inner := by
  generalize hlength : xs.length = length
  induction length using Nat.strongRecOn generalizing xs with
  | ind length ih =>
    obtain rfl | ⟨xs, x, rfl⟩ := List.eq_nil_or_concat xs
    · exact absurd hpos (lt_irrefl 0)
    rw [List.concat_eq_append] at h hpos hlength ⊢
    rw [List.length_append, List.length_singleton] at hlength
    rw [depth_append] at hpos
    have hxs := h.left
    cases hx : mark? x with
    | none =>
      rw [depth_cons_unmarked hx, depth_nil] at hpos
      obtain ⟨before, a, inner, rfl, ha, hinner⟩ := ih xs.length (by omega) hxs (by omega) rfl
      exact ⟨before, a, inner ++ [x], by simp, ha, hinner.append_iff.mpr (balanced_singleton hx)⟩
    | some m =>
      cases m with
      | opening => exact ⟨xs, x, [], rfl, hx, balanced_nil⟩
      | closing =>
        -- The mark closes the innermost group, and then the innermost one around that is sought.
        rw [depth_cons_closing hx, depth_nil] at hpos
        obtain ⟨middle, b, closed, rfl, hb, hclosed⟩ := ih xs.length (by omega) hxs (by omega) rfl
        rw [depth_append, depth_cons_opening hb, hclosed.2] at hpos
        rw [List.length_append] at hlength
        obtain ⟨before, a, inner, rfl, ha, hinner⟩ := ih middle.length (by omega) hxs.left (by omega) rfl
        refine ⟨before, a, inner ++ b :: (closed ++ [x]), by simp, ha, ?_⟩
        exact hinner.append_iff.mpr (hclosed.wrap hb hx)

/-- An opening mark has its partner unless all that follows leaves its group
    open. Stated on the split at that mark, this is the form in which the place
    of an error is computed. -/
theorem unclosed_iff :
    Unclosed mark? xs i ↔
      ∃ before a rest, xs = before ++ a :: rest ∧ before.length = i ∧ mark? a = some .opening ∧
        Closable mark? rest := by
  constructor
  · rintro ⟨hopening, hunpaired⟩
    obtain ⟨before, a, rest, rfl, rfl, ha⟩ := exists_split_of_bind_getElem? hopening
    refine ⟨before, a, rest, rfl, rfl, ha, ?_⟩
    by_contra hrest
    obtain ⟨inner, b, after, rfl, hb, hinner⟩ := exists_split_of_not_closable hrest
    exact hunpaired _ ⟨before, a, inner, b, after, rfl, ha, hb, hinner, rfl, rfl⟩
  · rintro ⟨before, a, rest, rfl, rfl, ha, hrest⟩
    refine ⟨by simpa using ha, ?_⟩
    rintro j ⟨others, c, inner, b, after, heq, -, hb, hinner, hlength, -⟩
    obtain ⟨rfl, htail⟩ := List.append_inj heq hlength.symm
    cases htail
    have hclosed := hrest (inner ++ [b]) ⟨after, by simp⟩
    rw [depth_append, hinner.2, depth_cons_closing hb, depth_nil] at hclosed
    omega

/-- A closing mark has its partner if up to it not too much is closed: the
    innermost group left open before it is the one it closes. What comes after
    the mark has no say. -/
theorem exists_pairs_of_closable (hb : mark? b = some .closing) (h : Closable mark? (before ++ [b]))
    (after : List α) : ∃ i, Pairs mark? (before ++ b :: after) i before.length := by
  have hdepth := h.depth_nonneg
  rw [depth_append, depth_cons_closing hb, depth_nil] at hdepth
  obtain ⟨outer, a, inner, rfl, ha, hinner⟩ := exists_innermost h.left (by omega)
  refine ⟨outer.length, outer, a, inner, b, after, by simp, ha, hb, hinner, rfl, ?_⟩
  simp only [List.length_append, List.length_cons]
  omega

/-- A list that closes too much nowhere has no closing mark without a
    partner. -/
theorem Closable.not_stray (h : Closable mark? xs) (j : Nat) : ¬Stray mark? xs j := by
  rintro ⟨hclosing, hunpaired⟩
  obtain ⟨before, b, after, rfl, rfl, hb⟩ := exists_split_of_bind_getElem? hclosing
  have hprefix : before ++ [b] <+: before ++ b :: after := ⟨after, by simp⟩
  obtain ⟨i, hpairs⟩ := exists_pairs_of_closable hb (h.mono hprefix) after
  exact hunpaired i hpairs

/-- The first mark that closes too much is the first closing one without a
    partner. Balance of what stands before it is what makes it the first; what
    comes after may hold any number of further ones. -/
theorem Balanced.isLeast_stray (h : Balanced mark? before) (hb : mark? b = some .closing) :
    IsLeast {j | Stray mark? (before ++ b :: after) j} before.length := by
  refine ⟨⟨by simpa using hb, ?_⟩, ?_⟩
  · rintro i ⟨outer, a, inner, c, others, heq, ha, -, hinner, -, hlength⟩
    have hsplit : before ++ b :: after = (outer ++ a :: inner) ++ c :: others := by simpa using heq
    obtain ⟨rfl, -⟩ := List.append_inj hsplit (by simp; omega)
    have hdepth := h.2
    have houter := h.1.left.depth_nonneg
    rw [depth_append, depth_cons_opening ha, hinner.2] at hdepth
    omega
  · rintro j ⟨hclosing, hunpaired⟩
    by_contra hlt
    rw [List.getElem?_append_left (by omega)] at hclosing
    obtain ⟨inside, c, others, rfl, rfl, hc⟩ := exists_split_of_bind_getElem? hclosing
    have hprefix : inside ++ [c] <+: inside ++ c :: others := ⟨others, by simp⟩
    obtain ⟨i, hpairs⟩ := exists_pairs_of_closable hc (h.1.mono hprefix) (others ++ b :: after)
    exact hunpaired i (by simpa using hpairs)

/-- The first mark that closes too much is also where the depth is negative for
    the first time, counted with that mark included. -/
theorem Balanced.isLeast_depth_neg (h : Balanced mark? before) (hb : mark? b = some .closing) :
    IsLeast {i | depth mark? ((before ++ b :: after).take (i + 1)) < 0} before.length := by
  constructor
  · have htake : (before ++ b :: after).take (before.length + 1) = before ++ [b] := by simp [List.take_append]
    rw [Set.mem_ofPred_eq, htake, depth_append, h.2, depth_cons_closing hb, depth_nil]
    omega
  · intro i hi
    by_contra hlt
    have hprefix : (before ++ b :: after).take (i + 1) <+: before := by
      rw [List.take_append_of_le_length (by omega)]
      exact List.take_prefix _ _
    exact absurd (h.1 _ hprefix) (not_le.mpr hi)

/-- An opening mark after a balanced list is the first without a partner if
    nothing after it closes its group. -/
theorem isLeast_unclosed (hbefore : Balanced mark? before) (ha : mark? a = some .opening) (h : Closable mark? after) :
    IsLeast {i | Unclosed mark? (before ++ a :: after) i} before.length := by
  refine ⟨unclosed_iff.mpr ⟨before, a, after, rfl, rfl, ha, h⟩, ?_⟩
  rintro i hi
  obtain ⟨outer, c, rest, heq, rfl, hc, hrest⟩ := unclosed_iff.mp hi
  by_contra hlt
  -- The group that is opened earlier would be open at the end of `before`.
  rcases List.append_eq_append_iff.mp heq with ⟨others, rfl, -⟩ | ⟨others, rfl, htail⟩
  · simp at hlt
  · cases others with
    | nil => simp at hlt
    | cons d others =>
      rw [List.cons_append, List.cons_eq_cons] at htail
      obtain ⟨rfl, rfl⟩ := htail
      have hdepth := hbefore.2
      have houter := hbefore.1.left.depth_nonneg
      have hothers := hrest.left.depth_nonneg
      rw [depth_append, depth_cons_opening hc] at hdepth
      omega

/-- An opening mark before a balanced list is the last without a partner. Unlike
    in `isLeast_unclosed`, nothing is asked of what stands before it, and all
    that follows has to be balanced. -/
theorem isGreatest_unclosed (ha : mark? a = some .opening) (h : Balanced mark? inner) :
    IsGreatest {i | Unclosed mark? (before ++ a :: inner) i} before.length := by
  refine ⟨unclosed_iff.mpr ⟨before, a, inner, rfl, rfl, ha, h.1⟩, ?_⟩
  rintro i hi
  obtain ⟨outer, c, rest, heq, rfl, hc, hrest⟩ := unclosed_iff.mp hi
  by_contra hlt
  -- The group that is opened later would be open at the end of `inner`.
  rcases List.append_eq_append_iff.mp heq with ⟨others, rfl, htail⟩ | ⟨others, rfl, -⟩
  · cases others with
    | nil => simp at hlt
    | cons d others =>
      rw [List.cons_append, List.cons_eq_cons] at htail
      obtain ⟨rfl, rfl⟩ := htail
      have hdepth := h.2
      have hothers := h.1.left.depth_nonneg
      have hrest := hrest.depth_nonneg
      rw [depth_append, depth_cons_opening hc] at hdepth
      omega
  · simp at hlt

/-- Some closing mark has no partner exactly if too much is closed somewhere. -/
theorem exists_stray_iff : (∃ j, Stray mark? xs j) ↔ ¬Closable mark? xs := by
  constructor
  · rintro ⟨j, hj⟩ hclosable
    exact hclosable.not_stray j hj
  · intro h
    obtain ⟨before, b, after, rfl, hb, hbefore⟩ := exists_split_of_not_closable h
    exact ⟨before.length, (hbefore.isLeast_stray hb).1⟩

/-- In a list that closes too much nowhere, some opening mark has no partner
    exactly if the depth is positive. Without the premise the depth can be zero
    with a stray mark of either kind, as in a closing mark before an opening
    one. -/
theorem Closable.exists_unclosed_iff (h : Closable mark? xs) : (∃ i, Unclosed mark? xs i) ↔ 0 < depth mark? xs := by
  constructor
  · rintro ⟨i, hi⟩
    obtain ⟨before, a, rest, rfl, -, ha, hrest⟩ := unclosed_iff.mp hi
    have hbefore := h.left.depth_nonneg
    have hrest := hrest.depth_nonneg
    rw [depth_append, depth_cons_opening ha]
    omega
  · intro hpos
    obtain ⟨before, a, rest, rfl, ha, hbefore, hrest⟩ := exists_outermost h hpos
    exact ⟨before.length, (isLeast_unclosed hbefore ha hrest).1⟩

/-- Balanced lists are those in which every mark has its partner. One side
    counts and the other pairs the marks up, and neither is defined by way of
    the other. -/
theorem balanced_iff : Balanced mark? xs ↔ (∀ j, ¬Stray mark? xs j) ∧ ∀ i, ¬Unclosed mark? xs i := by
  rw [← not_exists, ← not_exists, exists_stray_iff, not_not, Balanced]
  refine and_congr_right fun h => ?_
  rw [h.exists_unclosed_iff]
  have := h.depth_nonneg
  omega

/-- Balance is a matter of the marks alone, so what is not a mark can be taken
    out or put in anywhere. -/
theorem balanced_filterMap_iff : Balanced some (xs.filterMap mark?) ↔ Balanced mark? xs := by
  have hclosable : Closable some (xs.filterMap mark?) ↔ Closable mark? xs := by
    induction xs using List.reverseRecOn with
    | nil => exact iff_of_true closable_nil closable_nil
    | append_singleton xs a ih =>
      rw [closable_concat_iff, ← ih, ← depth_filterMap, List.filterMap_append]
      cases h : mark? a with
      | none =>
        rw [List.filterMap_cons_none h, List.filterMap_nil, List.append_nil]
        exact ⟨fun hxs => ⟨hxs, hxs.depth_nonneg⟩, And.left⟩
      | some m => rw [List.filterMap_cons_some h, List.filterMap_nil, closable_concat_iff]
  rw [Balanced, Balanced, hclosable, depth_filterMap]

/-- Whether a list closes too much can be told from the depths of its
    beginnings, one for every place. -/
theorem closable_iff_take : Closable mark? xs ↔ ∀ i, 0 ≤ depth mark? (xs.take (i + 1)) := by
  constructor
  · intro h i
    exact h _ (List.take_prefix _ _)
  · intro h p hp
    rw [List.prefix_iff_eq_take.mp hp]
    cases p.length with
    | zero => exact le_rfl
    | succ i => exact h i

end

end Brokerage.Nesting
