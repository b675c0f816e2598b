import Brokerage.Proofs.Predicate.Grouping
import Brokerage.Proofs.Predicate.Survivors
import Mathlib.Data.List.Forall2
import Mathlib.Logic.Relation

namespace Brokerage.Predicate

/-- What the items leave in the list that is sent. -/
def written (items : Forest) : List Json :=
  encodeForest (survivors items)

/-- The values of one more item behind those of the items before, with the
    connective where it joins the two. -/
def joined : List Json → Connective → List Json → List Json
  | [], _, more => more
  | values, _, [] => values
  | values, connective, more => values ++ .string connective.text :: more

/-- The values of a group as one value, if there are any. -/
def grouped : List Json → List Json
  | [] => []
  | values => [.array values]

/-- What an item leaves in the list around it. -/
def Item.written : Item → List Json
  | .condition c => c.normalize.triple
  | .group items => grouped (Predicate.written items)

theorem joined_nil (connective : Connective) (more : List Json) : joined [] connective more = more :=
  rfl

/-- An item that leaves nothing brings no connective with it. -/
theorem joined_nil_right (values : List Json) (connective : Connective) : joined values connective [] = values := by
  cases values <;> rfl

theorem joined_of_ne_nil {values more : List Json} (connective : Connective) (hvalues : values ≠ [])
    (hmore : more ≠ []) :
    joined values connective more = values ++ .string connective.text :: more := by
  cases values with
  | nil => contradiction
  | cons v values =>
    cases more with
    | nil => contradiction
    | cons w more => rfl

theorem grouped_of_ne_nil {values : List Json} (h : values ≠ []) : grouped values = [.array values] := by
  cases values with
  | nil => contradiction
  | cons v values => rfl

private theorem Item.encode_ne_nil (item : Item) : item.encode ≠ [] := by
  cases item <;> simp [Item.encode, Condition.triple]

private theorem encodeForest_ne_nil {items : Forest} (h : items ≠ []) : encodeForest items ≠ [] := by
  cases items with
  | nil => contradiction
  | cons head items => simp [encodeForest, head.2.encode_ne_nil]

private theorem encodeOthers_append (items others : Forest) :
    encodeOthers (items ++ others) = encodeOthers items ++ encodeOthers others := by
  induction items with
  | nil => rfl
  | cons head items ih => simp [encodeOthers, ih]

private theorem encodeForest_concat (items : Forest) (connective : Connective) (item : Item) :
    encodeForest (items ++ [(connective, item)]) = joined (encodeForest items) connective item.encode := by
  cases items with
  | nil => simp [encodeForest, encodeOthers, joined_nil]
  | cons head items =>
    rw [joined_of_ne_nil connective (encodeForest_ne_nil (List.cons_ne_nil head items)) item.encode_ne_nil]
    simp [encodeForest, encodeOthers_append, encodeOthers]

private theorem survivors_append (items others : Forest) :
    survivors (items ++ others) = survivors items ++ survivors others := by
  induction items with
  | nil => rfl
  | cons head items ih => by_cases h : head.2.conditions = [] <;> simp [survivors, h, ih]

/-- Items without a condition leave nothing, wherever they stand and with
    whatever connective. -/
theorem written_append_of_hollow (items : Forest) {others : Forest} (h : forestConditions others = []) :
    written (items ++ others) = written items := by
  rw [written, survivors_append, (survivors_eq_nil_iff others).mpr h, List.append_nil, written]

private theorem written_eq_nil {items : Forest} (h : forestConditions items = []) : written items = [] := by
  rw [written, (survivors_eq_nil_iff items).mpr h, encodeForest]

/-- What is left grows with every item by what the item leaves. An item that
    leaves nothing brings no connective either, and the first that leaves
    anything comes without one. -/
theorem written_concat (items : Forest) (connective : Connective) (item : Item) :
    written (items ++ [(connective, item)]) = joined (written items) connective item.written := by
  by_cases h : item.conditions = []
  · have hnothing : item.written = [] := by
      cases item with
      | condition c => cases h
      | group inner => rw [Item.written, written_eq_nil h, grouped]
    rw [hnothing, joined_nil_right]
    exact written_append_of_hollow items (by simpa [forestConditions] using h)
  · have hsurvives : survivors [(connective, item)] = [(connective, item.surviving)] := by simp [survivors, h]
    have hwritten : item.written = item.surviving.encode := by
      cases item with
      | condition c => rfl
      | group inner =>
        have hne : survivors inner ≠ [] := fun hnil => h ((survivors_eq_nil_iff inner).mp hnil)
        exact grouped_of_ne_nil (encodeForest_ne_nil hne)
    rw [written, survivors_append, hsurvives, encodeForest_concat, hwritten, written]

/-- The list for values of items that survive. A single value is a group, since
    a condition has three, and stands for itself. -/
def clauseOf : List Json → Json
  | [] => everyRow
  | [v] => v
  | values => .array values

/-- The list that is sent depends on the items only through the values that they
    leave, so that streams can be compared by these. -/
theorem whereClause_eq_clauseOf (items : Forest) : whereClause items = clauseOf (encodeForest items) := by
  unfold whereClause
  split
  · rfl
  · rfl
  · next hne hgroup =>
    cases items with
    | nil => contradiction
    | cons head items =>
      obtain ⟨connective, item⟩ := head
      cases item with
      | condition c => rfl
      | group inner =>
        cases items with
        | nil => exact absurd rfl (hgroup connective inner)
        | cons other items => rfl

/-- What the stream leaves, if it is not refused. -/
def outcome (entries : List Entry) : Option (List Json) :=
  (forest entries).toOption.map written

/-- What a stream compiles to is a function of what it leaves. -/
theorem compile_eq_ok_iff {entries : List Entry} {clause : Json} :
    compile entries = .ok clause ↔ (outcome entries).map clauseOf = some clause := by
  rw [compile, outcome]
  cases forest entries with
  | error e => simp [Except.map, Except.toOption]
  | ok items =>
    simp [Except.map, Except.toOption, pruneForest_eq_survivors, whereClause_eq_clauseOf, written]

section runs

/-- The groups will leave the same when they are closed over the same items:
    what stands before them does, and the connective is the same or will not be
    written. -/
structure OpenGroup.Alike (group other : OpenGroup) : Prop where
  before : written group.before = written other.before
  connective : written group.before = [] ∨ group.connective = other.connective

private theorem OpenGroup.Alike.refl (group : OpenGroup) : group.Alike group :=
  ⟨rfl, .inr rfl⟩

/-- Closing groups that are alike over items that leave the same leaves the
    same. The connectives may differ only where nothing stands before the group,
    because there none is written. -/
theorem OpenGroup.Alike.close {group other : OpenGroup} (h : group.Alike other) {items otherItems : Forest}
    (hitems : written items = written otherItems) :
    written (group.before ++ [(group.connective, .group items)]) =
      written (other.before ++ [(other.connective, .group otherItems)]) := by
  rw [written_concat, written_concat, Item.written, Item.written, hitems, ← h.before]
  rcases h.connective with hnothing | hsame
  · rw [hnothing, joined_nil, joined_nil]
  · rw [hsame]

/-- From states that are alike the same entries leave the same, or are refused
    from both. Positions are free to differ: they show in the error and not in
    what is left. -/
theorem readForest_alike {entries : List Entry} {opened others : List OpenGroup} {items otherItems : Forest}
    (position otherPosition : Nat) (hopened : List.Forall₂ OpenGroup.Alike opened others)
    (hitems : written items = written otherItems) :
    (readForest position opened items entries).toOption.map written =
      (readForest otherPosition others otherItems entries).toOption.map written := by
  induction entries generalizing position otherPosition opened others items otherItems with
  | nil =>
    cases hopened with
    | nil => simp [readForest, Except.toOption, hitems]
    | cons _ _ => simp [readForest, List.getLast?_cons, Except.toOption]
  | cons entry entries ih =>
    cases entry with
    | condition connective condition =>
      rw [readForest, readForest]
      exact ih _ _ hopened (by rw [written_concat, written_concat, hitems])
    | opening connective =>
      rw [readForest, readForest]
      exact ih _ _ (.cons ⟨hitems, .inr rfl⟩ hopened) rfl
    | closing connective =>
      cases hopened with
      | nil => simp [readForest, Except.toOption]
      | cons hgroup hopened =>
        rw [readForest, readForest]
        exact ih _ _ hopened (hgroup.close hitems)

private theorem forall₂_alike_refl (opened : List OpenGroup) : List.Forall₂ OpenGroup.Alike opened opened :=
  List.forall₂_same.mpr fun group _ => .refl group

/-- Whatever follows, a prefix is refused, or else it leaves what it has been
    read to. This splits the reading of a stream at any place, with all that
    follows left open. -/
theorem exists_pending (before : List Entry) :
    (∃ e, ∀ rest, forest (before ++ rest) = .error e) ∨
      ∃ opened items, Pending before opened items ∧
        ∀ rest, forest (before ++ rest) = readForest before.length opened items rest := by
  induction before using List.reverseRecOn with
  | nil => exact .inr ⟨[], [], .outermost .nil, fun _ => rfl⟩
  | append_singleton before entry ih =>
    simp only [List.append_assoc, List.singleton_append, List.length_append, List.length_singleton]
    rcases ih with ⟨e, herror⟩ | ⟨opened, items, hpending, hread⟩
    · exact .inl ⟨e, fun rest => herror (entry :: rest)⟩
    · cases entry with
      | condition connective condition =>
        exact .inr ⟨_, _, hpending.extend (.condition connective condition .nil), fun rest => by rw [hread, readForest]⟩
      | opening connective =>
        exact .inr ⟨_, _, .inside ⟨connective, before.length, items⟩ hpending .nil,
          fun rest => by rw [hread, readForest]⟩
      | closing connective =>
        cases opened with
        | nil => exact .inl ⟨_, fun rest => by rw [hread, readForest]⟩
        | cons group opened => exact .inr ⟨_, _, hpending.close connective, fun rest => by rw [hread, readForest]⟩

end runs

section changes

/-- No entry is a condition. -/
def NoCondition (entries : List Entry) : Prop :=
  ∀ entry ∈ entries, entry.condition? = none

/-- Group markers only, each with its partner. -/
structure Hollow (segment : List Entry) : Prop where
  balanced : Nesting.Balanced Entry.mark? segment
  noCondition : NoCondition segment

/-- After these entries comes the first item of its list, as far as items
    survive: there is no condition since the group around was opened, or none at
    all where no group is. -/
def Leads (before : List Entry) : Prop :=
  NoCondition before ∨
    ∃ outer connective inner, before = outer ++ .opening connective :: inner ∧ Hollow inner

/-- One change without effect. -/
inductive Change : List Entry → List Entry → Prop where
  | closing (before after : List Entry) (old new : Connective) :
      Change (before ++ .closing old :: after) (before ++ .closing new :: after)
  | firstCondition {before : List Entry} (h : Leads before) (after : List Entry) (old new : Connective)
      (condition : Condition) :
      Change (before ++ .condition old condition :: after) (before ++ .condition new condition :: after)
  | firstOpening {before : List Entry} (h : Leads before) (after : List Entry) (old new : Connective) :
      Change (before ++ .opening old :: after) (before ++ .opening new :: after)
  | insert (before : List Entry) {segment : List Entry} (h : Hollow segment) (after : List Entry) :
      Change (before ++ after) (before ++ segment ++ after)

private theorem Describes.forestConditions_eq_nil {entries : List Entry} {items : Forest} (h : Describes entries items)
    (hnone : NoCondition entries) : forestConditions items = [] := by
  rw [h.forestConditions_eq, List.filterMap_eq_nil_iff]
  exact hnone

private theorem Pending.written_eq_nil {entries : List Entry} {opened : List OpenGroup} {items : Forest}
    (h : Pending entries opened items) (hnone : NoCondition entries) : written items = [] := by
  cases h with
  | outermost hentries => exact Predicate.written_eq_nil (hentries.forestConditions_eq_nil hnone)
  | inside group _ hentries =>
    refine Predicate.written_eq_nil (hentries.forestConditions_eq_nil fun entry hentry => hnone entry ?_)
    exact List.mem_append_right _ (List.mem_cons_of_mem _ hentry)

/-- Where the first item of a list comes next, nothing is left in that list so
    far, provided the prefix is not refused in itself. -/
theorem Leads.exists_state {before : List Entry} (h : Leads before) :
    (∃ e, ∀ rest, forest (before ++ rest) = .error e) ∨
      ∃ position opened items, written items = [] ∧
        ∀ rest, forest (before ++ rest) = readForest position opened items rest := by
  rcases h with hnone | ⟨outer, connective, inner, rfl, hinner⟩
  · rcases exists_pending before with herror | ⟨opened, items, hpending, hread⟩
    · exact .inl herror
    · exact .inr ⟨_, _, _, hpending.written_eq_nil hnone, hread⟩
  · obtain ⟨items, hdescribes⟩ := exists_describes_of_balanced hinner.balanced
    have hnothing : written items = [] := written_eq_nil (hdescribes.forestConditions_eq_nil hinner.noCondition)
    simp only [List.append_assoc, List.cons_append]
    rcases exists_pending outer with ⟨e, herror⟩ | ⟨opened, others, -, hread⟩
    · exact .inl ⟨e, fun rest => herror _⟩
    · refine .inr ⟨outer.length + 1 + inner.length, ⟨connective, outer.length, others⟩ :: opened, items, hnothing,
        fun rest => ?_⟩
      rw [hread, readForest, hdescribes.readForest_append, List.nil_append]

private theorem outcome_eq_none {entries : List Entry} {e : SearchError} (h : forest entries = .error e) :
    outcome entries = none := by
  rw [outcome, h]
  rfl

/-- A change after a prefix is without effect if it is from where the prefix
    leads. Each kind of change is made in one place, and what comes after that
    place is read from states that are alike. -/
theorem Change.outcome_eq {entries others : List Entry} (h : Change entries others) :
    outcome entries = outcome others := by
  cases h with
  | closing before after old new =>
    rcases exists_pending before with ⟨e, herror⟩ | ⟨opened, items, -, hread⟩
    · rw [outcome_eq_none (herror _), outcome_eq_none (herror _)]
    · rw [outcome, outcome, hread, hread]
      cases opened <;> rw [readForest, readForest]
  | firstCondition hleads after old new condition =>
    rcases hleads.exists_state with ⟨e, herror⟩ | ⟨position, opened, items, hnothing, hread⟩
    · rw [outcome_eq_none (herror _), outcome_eq_none (herror _)]
    · rw [outcome, outcome, hread, hread, readForest, readForest]
      refine readForest_alike _ _ (forall₂_alike_refl opened) ?_
      rw [written_concat, written_concat, hnothing, joined_nil, joined_nil]
  | firstOpening hleads after old new =>
    rcases hleads.exists_state with ⟨e, herror⟩ | ⟨position, opened, items, hnothing, hread⟩
    · rw [outcome_eq_none (herror _), outcome_eq_none (herror _)]
    · rw [outcome, outcome, hread, hread, readForest, readForest]
      exact readForest_alike _ _ (.cons ⟨rfl, .inl hnothing⟩ (forall₂_alike_refl opened)) rfl
  | insert before hsegment after =>
    obtain ⟨hollow, hdescribes⟩ := exists_describes_of_balanced hsegment.balanced
    have hnone := hdescribes.forestConditions_eq_nil hsegment.noCondition
    rw [List.append_assoc]
    rcases exists_pending before with ⟨e, herror⟩ | ⟨opened, items, -, hread⟩
    · rw [outcome_eq_none (herror _), outcome_eq_none (herror _)]
    · rw [outcome, outcome, hread, hread, hdescribes.readForest_append]
      exact readForest_alike _ _ (forall₂_alike_refl opened) (written_append_of_hollow items hnone).symm

private theorem outcome_eq_of_changes {entries others : List Entry} (h : Relation.EqvGen Change entries others) :
    outcome entries = outcome others := by
  induction h with
  | rel _ _ hchange => exact hchange.outcome_eq
  | refl _ => rfl
  | symm _ _ _ ih => exact ih.symm
  | trans _ _ _ _ _ ihfirst ihsecond => exact ihfirst.trans ihsecond

end changes

/-- Changes without effect, as many as there may be, one way or the other, and
    in any order, leave the compiled list as it is, and a refused stream
    refused. The three kinds are another connective of a closing marker, another
    connective in front of the first item of a list that survives, and whole
    groups without a condition. -/
theorem compile_ignores_irrelevant {entries others : List Entry} (h : Relation.EqvGen Change entries others) :
    (∃ clause, compile entries = .ok clause ∧ compile others = .ok clause) ∨
      ¬Accepted entries ∧ ¬Accepted others := by
  have heq := outcome_eq_of_changes h
  simp only [Accepted, compile_eq_ok_iff, ← heq]
  cases outcome entries with
  | none => exact .inr ⟨by simp, by simp⟩
  | some values => exact .inl ⟨_, rfl, rfl⟩

/-- A group of nothing but a group, an empty group in front of a condition, and
    OR where nothing is joined. -/
def wordyStream : List Entry :=
  [.opening .or, .opening .or, .closing .or, .closing .or, .condition .or ⟨"A", "=", .null⟩, .opening .or,
    .opening .or, .closing .and, .condition .or ⟨"B", "=", .null⟩, .closing .or]

/-- The same search in few words. -/
def plainStream : List Entry :=
  [.condition .and ⟨"A", "=", .null⟩, .opening .or, .condition .and ⟨"B", "=", .null⟩, .closing .and]

private theorem Hollow.wrap {segment : List Entry} (h : Hollow segment) (connective closing : Connective) :
    Hollow (.opening connective :: (segment ++ [.closing closing])) where
  balanced := h.balanced.wrap rfl rfl
  noCondition := by
    have hsegment := h.noCondition
    simpa [NoCondition, Entry.condition?, or_imp, forall_and] using hsegment

private theorem hollow_nil : Hollow [] :=
  ⟨Nesting.balanced_nil, List.forall_mem_nil _⟩

theorem compile_ignores_irrelevant_wordy :
    Relation.EqvGen Change wordyStream plainStream ∧
      ∃ clause, compile wordyStream = .ok clause ∧ compile plainStream = .ok clause := by
  have hpair (connective closing : Connective) : Hollow [.opening connective, .closing closing] :=
    hollow_nil.wrap connective closing
  have hfront : Change (wordyStream.drop 4) wordyStream := .insert [] ((hpair .or .or).wrap .or .or) _
  have hstart : Leads [] := .inl (List.forall_mem_nil _)
  have hfirst : Change (wordyStream.drop 4) (.condition .and ⟨"A", "=", .null⟩ :: wordyStream.drop 5) :=
    .firstCondition hstart _ _ _ _
  have hinside : Change
      ([.condition .and ⟨"A", "=", .null⟩, .opening .or] ++ wordyStream.drop 8)
      (.condition .and ⟨"A", "=", .null⟩ :: wordyStream.drop 5) :=
    .insert [.condition .and ⟨"A", "=", .null⟩, .opening .or] (hpair .or .and) _
  have hsecond : Change
      ([.condition .and ⟨"A", "=", .null⟩, .opening .or] ++ wordyStream.drop 8)
      ([.condition .and ⟨"A", "=", .null⟩, .opening .or] ++ .condition .and ⟨"B", "=", .null⟩ :: wordyStream.drop 9) :=
    .firstCondition (.inr ⟨[_], .or, [], rfl, hollow_nil⟩) _ _ _ _
  have hclosing : Change
      ([.condition .and ⟨"A", "=", .null⟩, .opening .or] ++ .condition .and ⟨"B", "=", .null⟩ :: wordyStream.drop 9)
      plainStream :=
    .closing [.condition .and ⟨"A", "=", .null⟩, .opening .or, .condition .and ⟨"B", "=", .null⟩] [] .or .and
  have hchanges : Relation.EqvGen Change wordyStream plainStream :=
    .trans _ _ _ (.symm _ _ (.rel _ _ hfront)) <| .trans _ _ _ (.rel _ _ hfirst) <|
      .trans _ _ _ (.symm _ _ (.rel _ _ hinside)) <| .trans _ _ _ (.rel _ _ hsecond) (.rel _ _ hclosing)
  refine ⟨hchanges, (compile_ignores_irrelevant hchanges).resolve_right fun hrefused => ?_⟩
  exact hrefused.2 ⟨_, rfl⟩

end Brokerage.Predicate
