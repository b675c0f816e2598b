import Brokerage.Proofs.Nesting
import Brokerage.Proofs.Outcome
import Brokerage.Proofs.Predicate.Stream

namespace Brokerage.Predicate

open Nesting

/-- The group marker that an entry is. -/
def Entry.mark? : Entry → Option Mark
  | condition .. => none
  | opening _ => some .opening
  | closing _ => some .closing

@[simp] theorem depth_condition (connective : Connective) (condition : Condition) (entries : List Entry) :
    depth Entry.mark? (.condition connective condition :: entries) = depth Entry.mark? entries :=
  depth_cons_unmarked rfl entries

@[simp] theorem depth_opening (connective : Connective) (entries : List Entry) :
    depth Entry.mark? (.opening connective :: entries) = depth Entry.mark? entries + 1 :=
  depth_cons_opening (a := Entry.opening connective) rfl entries

@[simp] theorem depth_closing (connective : Connective) (entries : List Entry) :
    depth Entry.mark? (.closing connective :: entries) = depth Entry.mark? entries - 1 :=
  depth_cons_closing (a := Entry.closing connective) rfl entries

/-- The stream is compiled to a list. -/
def Accepted (entries : List Entry) : Prop :=
  ∃ clause, compile entries = .ok clause

/-- A stream that describes a forest closes each group that it opens.
    Connectives do not matter here: a group opened with one may be closed with
    the other. -/
theorem Describes.balanced {entries : List Entry} {items : Forest} (h : Describes entries items) :
    Nesting.Balanced Entry.mark? entries := by
  induction h with
  | nil => exact balanced_nil
  | @condition connective condition entries _ _ ih =>
    have hfirst : Nesting.Balanced Entry.mark? [Entry.condition connective condition] := balanced_singleton rfl
    exact hfirst.append_iff.mpr ih
  | @group connective closing inner entries _ _ _ _ ihinner ihentries =>
    have hgroup : Nesting.Balanced Entry.mark? (.opening connective :: (inner ++ [.closing closing])) :=
      ihinner.wrap rfl rfl
    have hall := hgroup.append_iff.mpr ihentries
    simpa only [List.cons_append, List.append_assoc, List.nil_append] using hall

/-- Every balanced stream describes a forest. The induction is on the length: a
    stream that begins with an opening marker splits at the partner of that
    marker, into two shorter ones. -/
theorem exists_describes_of_balanced {entries : List Entry} (h : Nesting.Balanced Entry.mark? entries) :
    ∃ items, Describes entries items := by
  generalize hlength : entries.length = length
  induction length using Nat.strongRecOn generalizing entries with
  | ind length ih =>
    cases entries with
    | nil => exact ⟨[], .nil⟩
    | cons entry entries =>
      rw [List.length_cons] at hlength
      cases entry with
      | condition connective condition =>
        have hfirst : Nesting.Balanced Entry.mark? [Entry.condition connective condition] := balanced_singleton rfl
        obtain ⟨items, hitems⟩ := ih entries.length (by omega) (hfirst.append_iff.mp h) rfl
        exact ⟨_, .condition connective condition hitems⟩
      | opening connective =>
        -- The rest closes one group more than it opens: it splits where it does so first.
        have hzero := h.2
        rw [depth_opening] at hzero
        have hrest : ¬Closable Entry.mark? entries := by
          intro hclosable
          have hnonneg := hclosable.depth_nonneg
          omega
        obtain ⟨inner, b, after, rfl, hb, hinner⟩ := exists_split_of_not_closable hrest
        cases b with
        | condition | opening => cases hb
        | closing closing =>
          have hgroup : Nesting.Balanced Entry.mark? (.opening connective :: (inner ++ [.closing closing])) :=
            hinner.wrap rfl rfl
          have hafter : Nesting.Balanced Entry.mark? after := by
            rw [← hgroup.append_iff]
            simpa using h
          rw [List.length_append, List.length_cons] at hlength
          obtain ⟨innerItems, hinnerItems⟩ := ih inner.length (by omega) hinner rfl
          obtain ⟨items, hitems⟩ := ih after.length (by omega) hafter rfl
          exact ⟨_, .group connective closing hinnerItems hitems⟩
      | closing connective =>
        have hnegative := h.1 [.closing connective] ⟨entries, rfl⟩
        simp at hnegative

/-- A stream is compiled exactly if its markers are balanced; its conditions and
    connectives have no say. -/
theorem accepted_iff {entries : List Entry} : Accepted entries ↔ Nesting.Balanced Entry.mark? entries := by
  simp only [Accepted, compile, map_eq_ok_iff, forest_eq_ok_iff]
  constructor
  · rintro ⟨_, items, hitems, -⟩
    exact hitems.balanced
  · intro h
    obtain ⟨items, hitems⟩ := exists_describes_of_balanced h
    exact ⟨_, items, hitems, rfl⟩

/-- What does not close too much leaves open to the end the group around it,
    which is then reported. The groups that it opens itself stand in `inside`,
    and neither these nor the items read so far change what is reported. -/
theorem readForest_of_closable {entries : List Entry} {inside : List OpenGroup} {group : OpenGroup} {position : Nat}
    {items : Forest} (h : ∀ p, p <+: entries → 0 ≤ inside.length + depth Entry.mark? p) :
    readForest position (inside ++ [group]) items entries =
      .error (.malformedGrouping group.openedAt .neverClosed) := by
  induction entries generalizing inside position items with
  | nil => rw [readForest, List.getLast?_concat]
  | cons entry entries ih =>
    cases entry with
    | condition connective condition =>
      rw [readForest]
      refine ih fun p hp => ?_
      have hprefix := h (.condition connective condition :: p) (List.cons_prefix_cons.mpr ⟨rfl, hp⟩)
      rwa [depth_condition] at hprefix
    | opening connective =>
      rw [readForest, ← List.cons_append]
      refine ih fun p hp => ?_
      have hprefix := h (.opening connective :: p) (List.cons_prefix_cons.mpr ⟨rfl, hp⟩)
      rw [depth_opening] at hprefix
      rw [List.length_cons]
      omega
    | closing connective =>
      cases inside with
      | nil =>
        have hfirst := h [.closing connective] ⟨entries, rfl⟩
        simp at hfirst
      | cons innermost inside =>
        rw [List.cons_append, readForest]
        refine ih fun p hp => ?_
        have hprefix := h (.closing connective :: p) (List.cons_prefix_cons.mpr ⟨rfl, hp⟩)
        rw [depth_closing, List.length_cons] at hprefix
        omega

private theorem compile_of_closeWithoutOpen {before after : List Entry} (connective : Connective)
    (h : Nesting.Balanced Entry.mark? before) :
    compile (before ++ .closing connective :: after) =
      .error (.malformedGrouping before.length .closeWithoutOpen) := by
  obtain ⟨items, hitems⟩ := exists_describes_of_balanced h
  rw [compile, map_eq_error_iff, forest, hitems.readForest_append, readForest, Nat.zero_add]

private theorem compile_of_neverClosed {before rest : List Entry} (connective : Connective)
    (hbefore : Nesting.Balanced Entry.mark? before) (hrest : Closable Entry.mark? rest) :
    compile (before ++ .opening connective :: rest) = .error (.malformedGrouping before.length .neverClosed) := by
  obtain ⟨items, hitems⟩ := exists_describes_of_balanced hbefore
  rw [compile, map_eq_error_iff, forest, hitems.readForest_append, readForest, Nat.zero_add]
  have hnone : ∀ p, p <+: rest → 0 ≤ ([] : List OpenGroup).length + depth Entry.mark? p :=
    fun p hp => by simpa using hrest p hp
  exact readForest_of_closable hnone

/-- A stream that closes too much is refused where it does so first. The premise
    gives some place where the depth is negative, and the least of these is the
    one reported. -/
theorem exists_closeWithoutOpen {entries : List Entry} (h : ¬Closable Entry.mark? entries) :
    ∃ i, IsLeast {i | depth Entry.mark? (entries.take (i + 1)) < 0} i ∧
      compile entries = .error (.malformedGrouping i .closeWithoutOpen) := by
  obtain ⟨before, b, after, rfl, hb, hbefore⟩ := exists_split_of_not_closable h
  cases b with
  | condition | opening => cases hb
  | closing connective =>
    exact ⟨before.length, hbefore.isLeast_depth_neg hb, compile_of_closeWithoutOpen connective hbefore⟩

/-- A stream that closes nothing too much and leaves groups open is refused
    where the outermost of them begins. The first premise is needed, as a marker
    that closes too much is reported in preference. -/
theorem exists_neverClosed {entries : List Entry} (h : Closable Entry.mark? entries)
    (hpos : 0 < depth Entry.mark? entries) :
    ∃ i, IsLeast {i | Unclosed Entry.mark? entries i} i ∧
      compile entries = .error (.malformedGrouping i .neverClosed) := by
  obtain ⟨before, a, rest, rfl, ha, hbefore, hrest⟩ := exists_outermost h hpos
  cases a with
  | condition | closing => cases ha
  | opening connective =>
    exact ⟨before.length, isLeast_unclosed hbefore ha hrest, compile_of_neverClosed connective hbefore hrest⟩

/-- A predicate is refused for a group marker without its partner and for
    nothing else. -/
theorem exists_position_of_compile {entries : List Entry} {e : SearchError} (h : compile entries = .error e) :
    ∃ position fault, e = .malformedGrouping position fault := by
  by_cases hclosable : Closable Entry.mark? entries
  · by_cases hpos : 0 < depth Entry.mark? entries
    · obtain ⟨i, -, hcompile⟩ := exists_neverClosed hclosable hpos
      cases h.symm.trans hcompile
      exact ⟨i, _, rfl⟩
    · have hzero : depth Entry.mark? entries = 0 := le_antisymm (not_lt.mp hpos) hclosable.depth_nonneg
      obtain ⟨clause, hcompile⟩ := accepted_iff.mpr ⟨hclosable, hzero⟩
      cases h.symm.trans hcompile
  · obtain ⟨i, -, hcompile⟩ := exists_closeWithoutOpen hclosable
    cases h.symm.trans hcompile
    exact ⟨i, _, rfl⟩

/-- A stream is refused exactly if its markers do not match. If at some point
    more groups are closed than opened, the first entry where this happens is
    reported, whatever else is wrong; otherwise the first of the groups left
    open is. Conditions, connectives and all that is balanced in itself, such as
    an empty group, have no part in this. -/
theorem compile_refuses_unbalanced (entries : List Entry) :
    ((∃ i, depth Entry.mark? (entries.take (i + 1)) < 0) →
      ∃ i fault, IsLeast {i | depth Entry.mark? (entries.take (i + 1)) < 0} i ∧
        compile entries = .error (.malformedGrouping i fault) ∧ fault.reason = "close without a matching open") ∧
    ((∀ i, 0 ≤ depth Entry.mark? (entries.take (i + 1))) → 0 < depth Entry.mark? entries →
      ∃ i fault, IsLeast {i | Unclosed Entry.mark? entries i} i ∧
        compile entries = .error (.malformedGrouping i fault) ∧ fault.reason = "group is never closed") ∧
    (Accepted entries ↔
      (∀ i, 0 ≤ depth Entry.mark? (entries.take (i + 1))) ∧ depth Entry.mark? entries = 0) ∧
    (∀ others, others.filterMap Entry.mark? = entries.filterMap Entry.mark? →
      (Accepted others ↔ Accepted entries)) ∧
    ∀ before group after, entries = before ++ group ++ after → Nesting.Balanced Entry.mark? group →
      (Accepted (before ++ after) ↔ Accepted entries) := by
  refine ⟨?overclosed, ?unclosed, ?accepted, ?marks, ?group⟩
  case overclosed =>
    rintro ⟨i, hi⟩
    have hnot : ¬Closable Entry.mark? entries := by
      intro h
      exact absurd (closable_iff_take.mp h i) (not_le.mpr hi)
    obtain ⟨i, hleast, hcompile⟩ := exists_closeWithoutOpen hnot
    exact ⟨i, _, hleast, hcompile, rfl⟩
  case unclosed =>
    intro hnonneg hpos
    obtain ⟨i, hleast, hcompile⟩ := exists_neverClosed (closable_iff_take.mpr hnonneg) hpos
    exact ⟨i, _, hleast, hcompile, rfl⟩
  case accepted =>
    rw [accepted_iff, Nesting.Balanced, closable_iff_take]
  case marks =>
    intro others hmarks
    rw [accepted_iff, accepted_iff, ← balanced_filterMap_iff, hmarks, balanced_filterMap_iff]
  case group =>
    rintro before group after rfl hgroup
    rw [accepted_iff, accepted_iff, hgroup.insert_iff]

/-- A group is closed that is not open, and after it one is opened that is never
    closed. -/
def closedTwice : List Entry :=
  [.opening .or, .closing .and, .closing .or, .opening .and]

/-- Two groups are left open, one in the other, with a closed one before
    each. -/
def leftOpen : List Entry :=
  [.opening .and, .closing .and, .opening .or, .opening .and, .condition .or ⟨"A", "=", .null⟩, .closing .or,
    .opening .and]

/-- With two faults in a stream the first closing marker too many is reported,
    and of two groups left open the outer one. -/
theorem compile_refuses_unbalanced_first_fault :
    (∃ i, depth Entry.mark? (closedTwice.take (i + 1)) < 0) ∧
    IsLeast {i | depth Entry.mark? (closedTwice.take (i + 1)) < 0} 2 ∧
    compile closedTwice = .error (.malformedGrouping 2 .closeWithoutOpen) ∧
    (∀ i, 0 ≤ depth Entry.mark? (leftOpen.take (i + 1))) ∧ 0 < depth Entry.mark? leftOpen ∧
    IsLeast {i | Unclosed Entry.mark? leftOpen i} 2 ∧
    compile leftOpen = .error (.malformedGrouping 2 .neverClosed) ∧
    Nesting.Balanced Entry.mark? [.opening .and, .closing .and] ∧ ¬Accepted (leftOpen.drop 2) := by
  have hoverclosed : ∃ i, depth Entry.mark? (closedTwice.take (i + 1)) < 0 := ⟨2, by decide⟩
  have hnonneg : ∀ i, 0 ≤ depth Entry.mark? (leftOpen.take (i + 1)) := by
    intro i
    by_cases hi : i < 6
    · revert i
      decide
    · rw [List.take_of_length_le (by simp [leftOpen]; omega)]
      decide
  have hpos : 0 < depth Entry.mark? leftOpen := by decide
  have hgroup : Nesting.Balanced Entry.mark? [.opening .and, .closing .and] :=
    Nesting.Balanced.wrap (a := Entry.opening .and) (b := Entry.closing .and) rfl rfl balanced_nil
  obtain ⟨i, fault, hfirst, hcompile, -⟩ := (compile_refuses_unbalanced closedTwice).1 hoverclosed
  obtain ⟨-, hopen, haccepted, -, hwithout⟩ := compile_refuses_unbalanced leftOpen
  obtain ⟨j, fault', hfirst', hcompile', -⟩ := hopen hnonneg hpos
  cases hcompile
  cases hcompile'
  refine ⟨hoverclosed, hfirst, rfl, hnonneg, hpos, hfirst', rfl, hgroup, fun h => ?_⟩
  have hall : Accepted leftOpen := (hwithout [] _ (leftOpen.drop 2) rfl hgroup).mp h
  exact hpos.ne' (haccepted.mp hall).2

end Brokerage.Predicate
