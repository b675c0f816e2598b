import Brokerage.Search.Builder

namespace Brokerage.Builder

/-- A call of a setter with its arguments. What a run of setters leaves in a
    part comes from the setters of that part alone, so runs with the same
    setters part by part build the same search. -/
inductive Setter where
  | inContext (context : String)
  | select (items : List SelectItem)
  | column (name : String)
  | computed (expression label : String)
  | filter (column operator : String) (value : Json)
  | andWhere (column operator : String) (value : Json)
  | orWhere (column operator : String) (value : Json)
  | whereOpen
  | andWhereOpen
  | orWhereOpen
  | whereClose
  | andWhereClose
  | orWhereClose
  | groupedBy (column : String)
  | orderBy (column : String) (direction : Option SortDirection)
  | limitTo (limit : UInt64)
  | startAt (offset : UInt64)
  | withFloats (enabled : Bool)

inductive Part where
  | context
  | projection
  | predicate
  | grouping
  | sorting
  | limit
  | offset
  | floatMode
deriving DecidableEq

def apply (b : Builder) : Setter → Builder
  | .inContext context => b.inContext context
  | .select items => b.select items
  | .column name => b.column name
  | .computed expression label => b.computed expression label
  | .filter column operator value => b.filter column operator value
  | .andWhere column operator value => b.andWhere column operator value
  | .orWhere column operator value => b.orWhere column operator value
  | .whereOpen => b.whereOpen
  | .andWhereOpen => b.andWhereOpen
  | .orWhereOpen => b.orWhereOpen
  | .whereClose => b.whereClose
  | .andWhereClose => b.andWhereClose
  | .orWhereClose => b.orWhereClose
  | .groupedBy column => b.groupedBy column
  | .orderBy column direction => b.orderBy column direction
  | .limitTo limit => b.limitTo limit
  | .startAt offset => b.startAt offset
  | .withFloats enabled => b.withFloats enabled

/-- The search after a run of setters. -/
def after (b : Builder) (setters : List Setter) : Builder :=
  setters.foldl apply b

namespace Setter

def part : Setter → Part
  | inContext _ => .context
  | select _ | column _ | computed .. => .projection
  | filter .. | andWhere .. | orWhere .. => .predicate
  | whereOpen | andWhereOpen | orWhereOpen | whereClose | andWhereClose | orWhereClose => .predicate
  | groupedBy _ => .grouping
  | orderBy .. => .sorting
  | limitTo _ => .limit
  | startAt _ => .offset
  | withFloats _ => .floatMode

/-- The entry that the setter adds to the predicate, if it writes there. -/
def addition : Setter → Option Predicate.Entry
  | filter name operator value | andWhere name operator value => some (.condition .and ⟨name, operator, value⟩)
  | orWhere name operator value => some (.condition .or ⟨name, operator, value⟩)
  | whereOpen | andWhereOpen => some (.opening .and)
  | orWhereOpen => some (.opening .or)
  | whereClose | andWhereClose => some (.closing .and)
  | orWhereClose => some (.closing .or)
  | _ => none

/-- The setter under the name that says AND. -/
def spelledOut : Setter → Setter
  | filter name operator value => andWhere name operator value
  | whereOpen => andWhereOpen
  | whereClose => andWhereClose
  | s => s

/-- What the part held before is gone after the setter. -/
def Overwrites : Setter → Prop
  | column _ | computed .. => False
  | s => s.part ≠ .predicate

/-- A later setter overwrites the part that this one writes. Columns are
    overwritten by a selection only, and entries of the predicate by nothing. -/
def Superseded (s : Setter) (later : List Setter) : Prop :=
  match s.part with
  | .predicate => False
  | .projection => ∃ items, select items ∈ later
  | part => ∃ other ∈ later, other.part = part

/-- A setter that is superseded has a later one of its part that overwrites. -/
theorem Superseded.exists_overwrites {s : Setter} {later : List Setter} (h : s.Superseded later) :
    ∃ other ∈ later, other.part = s.part ∧ other.Overwrites := by
  unfold Superseded at h
  split at h
  · contradiction
  · next hpart =>
    obtain ⟨items, hmem⟩ := h
    exact ⟨select items, hmem, hpart.symm, nofun⟩
  · next hpredicate hprojection =>
    obtain ⟨other, hmem, hpart⟩ := h
    refine ⟨other, hmem, hpart, ?_⟩
    rw [← hpart] at hpredicate hprojection
    cases other with
    | column | computed => exact hprojection rfl
    | _ => exact hpredicate

end Setter

/-- Two searches hold the same in a part. -/
def AgreeOn (a b : Builder) : Part → Prop
  | .context => a.context = b.context
  | .projection => a.columns = b.columns
  | .predicate => a.entries = b.entries
  | .grouping => a.groupBy = b.groupBy
  | .sorting => a.sortBy = b.sortBy ∧ a.sortDirection = b.sortDirection
  | .limit => a.limit = b.limit
  | .offset => a.offset = b.offset
  | .floatMode => a.floatMode = b.floatMode

variable {a b c : Builder} {p : Part}

private theorem AgreeOn.refl (b : Builder) (p : Part) : AgreeOn b b p := by
  cases p <;> simp [AgreeOn]

private theorem AgreeOn.symm (h : AgreeOn a b p) : AgreeOn b a p := by
  cases p <;> simp_all [AgreeOn]

private theorem AgreeOn.trans (hab : AgreeOn a b p) (hbc : AgreeOn b c p) : AgreeOn a c p := by
  cases p <;> simp_all [AgreeOn]

private theorem eq_of_agreeOn (h : ∀ p, AgreeOn a b p) : a = b := by
  obtain ⟨hsort, hdirection⟩ := h .sorting
  cases a
  cases b
  rw [mk.injEq]
  exact ⟨h .context, h .projection, h .predicate, h .grouping, hsort, hdirection, h .limit, h .offset, h .floatMode⟩

/-- A setter leaves the parts of the others alone. -/
theorem agreeOn_apply_of_ne (b : Builder) {s : Setter} (h : s.part ≠ p) : AgreeOn (b.apply s) b p := by
  cases p with
  | context =>
    cases s with
    | inContext => exact absurd rfl h
    | _ => rfl
  | projection =>
    cases s with
    | select | column | computed => exact absurd rfl h
    | _ => rfl
  | predicate =>
    cases s with
    | inContext | select | column | computed | groupedBy | orderBy | limitTo | startAt | withFloats => rfl
    | _ => exact absurd rfl h
  | grouping =>
    cases s with
    | groupedBy => exact absurd rfl h
    | _ => rfl
  | sorting =>
    cases s with
    | orderBy => exact absurd rfl h
    | _ => exact ⟨rfl, rfl⟩
  | limit =>
    cases s with
    | limitTo => exact absurd rfl h
    | _ => rfl
  | offset =>
    cases s with
    | startAt => exact absurd rfl h
    | _ => rfl
  | floatMode =>
    cases s with
    | withFloats => exact absurd rfl h
    | _ => rfl

/-- A setter that overwrites leaves its part the same, whatever the search was
    before. -/
theorem agreeOn_apply_of_overwrites (a b : Builder) {s : Setter} (h : s.Overwrites) :
    AgreeOn (a.apply s) (b.apply s) s.part := by
  cases s with
  | inContext | select | groupedBy | limitTo | startAt | withFloats => rfl
  | orderBy => exact ⟨rfl, rfl⟩
  | column | computed => exact h.elim
  | _ => exact absurd rfl h

/-- A setter of the predicate adds its entry at the end and changes nothing
    else. -/
theorem apply_eq_of_addition (b : Builder) {s : Setter} {e : Predicate.Entry} (h : s.addition = some e) :
    b.apply s = { b with entries := b.entries ++ [e] } := by
  cases s <;> cases h <;> rfl

private theorem Setter.isSome_addition_iff (s : Setter) : s.addition.isSome ↔ s.part = .predicate := by
  cases s <;> simp [addition, part]

/-- What a setter makes of a part depends on nothing but that part. This is the
    step of `AgreeOn.after`: it fails for a setter that looks at one part to set
    another, and there is none. -/
theorem AgreeOn.apply (h : AgreeOn a b p) (s : Setter) : AgreeOn (a.apply s) (b.apply s) p := by
  by_cases hpart : s.part = p
  · subst hpart
    by_cases hentry : s.part = .predicate
    · obtain ⟨e, he⟩ := Option.isSome_iff_exists.mp (s.isSome_addition_iff.mpr hentry)
      rw [hentry] at h ⊢
      rw [apply_eq_of_addition a he, apply_eq_of_addition b he]
      exact congrArg (· ++ [e]) h
    · cases s with
      | column name => exact congrArg (· ++ [SelectItem.column name]) h
      | computed expression label => exact congrArg (· ++ [SelectItem.computed expression label]) h
      | _ => exact agreeOn_apply_of_overwrites a b hentry
  · exact (agreeOn_apply_of_ne a hpart).trans (h.trans (agreeOn_apply_of_ne b hpart).symm)

/-- What a run makes of a part depends on nothing but that part. -/
theorem AgreeOn.after (h : AgreeOn a b p) (setters : List Setter) : AgreeOn (a.after setters) (b.after setters) p := by
  induction setters generalizing a b with
  | nil => exact h
  | cons s setters ih => exact ih (h.apply s)

theorem after_cons (b : Builder) (s : Setter) (setters : List Setter) :
    b.after (s :: setters) = (b.apply s).after setters :=
  rfl

theorem after_append (b : Builder) (setters others : List Setter) :
    b.after (setters ++ others) = (b.after setters).after others :=
  List.foldl_append

/-- A part is what its own setters make of it. -/
theorem agreeOn_after_filter (b : Builder) (setters : List Setter) (p : Part) :
    AgreeOn (b.after setters) (b.after (setters.filter (·.part = p))) p := by
  induction setters generalizing b with
  | nil => exact .refl b p
  | cons s setters ih =>
    by_cases hpart : s.part = p
    · rw [List.filter_cons_of_pos (by simpa using hpart)]
      exact ih (b.apply s)
    · rw [List.filter_cons_of_neg (by simpa using hpart)]
      have hskip : AgreeOn (b.after (s :: setters)) (b.after setters) p :=
        (agreeOn_apply_of_ne b hpart).after setters
      exact hskip.trans (ih b)

/-- Setters of different parts may be given in any order. The premise keeps the
    order within each part, where it matters: the later of two setters wins, or
    comes second. -/
theorem after_eq_of_filter_eq (b : Builder) {setters others : List Setter}
    (h : ∀ p, setters.filter (·.part = p) = others.filter (·.part = p)) : b.after setters = b.after others := by
  apply eq_of_agreeOn
  intro p
  have hsetters := agreeOn_after_filter b setters p
  have hothers := agreeOn_after_filter b others p
  rw [h p] at hsetters
  exact hsetters.trans hothers.symm

/-- Once a part has been overwritten, it no longer tells what it held before,
    even if setters that append to it follow. -/
theorem agreeOn_after_of_overwrites (a b : Builder) {s : Setter} {later : List Setter} (hmem : s ∈ later)
    (h : s.Overwrites) : AgreeOn (a.after later) (b.after later) s.part := by
  obtain ⟨between, rest, rfl⟩ := List.append_of_mem hmem
  rw [after_append, after_append]
  have hs := agreeOn_apply_of_overwrites (a.after between) (b.after between) h
  exact hs.after rest

/-- A setter whose part is overwritten later may be left out. Setters in between
    may append to the part; what they append is gone as well. -/
theorem after_drop_of_superseded (b : Builder) (before : List Setter) {s : Setter} {later : List Setter}
    (h : s.Superseded later) : b.after (before ++ s :: later) = b.after (before ++ later) := by
  rw [after_append, after_append]
  apply eq_of_agreeOn
  intro p
  by_cases hpart : s.part = p
  · obtain ⟨other, hmem, hother, hover⟩ := h.exists_overwrites
    rw [← hpart, ← hother]
    exact agreeOn_after_of_overwrites ((b.after before).apply s) (b.after before) hmem hover
  · exact (agreeOn_apply_of_ne (b.after before) hpart).after later

/-- The predicate holds one entry for each setter that writes there, in the
    order of the setters. -/
theorem entries_after (b : Builder) (setters : List Setter) :
    (b.after setters).entries = b.entries ++ setters.filterMap Setter.addition := by
  induction setters generalizing b with
  | nil => exact (List.append_nil b.entries).symm
  | cons s setters ih =>
    rw [after_cons, ih]
    cases he : s.addition with
    | some e =>
      have hadded : (b.apply s).entries = b.entries ++ [e] := by rw [apply_eq_of_addition b he]
      rw [hadded, List.filterMap_cons_some he, List.append_assoc, List.singleton_append]
    | none =>
      have hpart : s.part ≠ .predicate := by simp [← s.isSome_addition_iff, he]
      have hkept : (b.apply s).entries = b.entries := agreeOn_apply_of_ne b hpart
      rw [hkept, List.filterMap_cons_none he]

private theorem apply_spelledOut (b : Builder) (s : Setter) : b.apply s.spelledOut = b.apply s := by
  cases s <;> rfl

/-- The short names of setters build the same search as those that say AND. -/
theorem after_map_spelledOut (b : Builder) (setters : List Setter) :
    b.after (setters.map Setter.spelledOut) = b.after setters := by
  induction setters generalizing b with
  | nil => rfl
  | cons s setters ih =>
    rw [List.map_cons, after_cons, apply_spelledOut]
    exact ih (b.apply s)

/-- A search, and what it compiles to, comes from the setters of each part in
    their order, however the parts are interleaved, and of these only from the
    latest where they overwrite. Every setter of the predicate adds one entry at
    its end, the short names the same as those that say AND. The search that the
    setters start from is any, and need not be a new one. -/
theorem after_determined_by_parts (b : Builder) :
    (∀ setters others : List Setter, (∀ p, setters.filter (·.part = p) = others.filter (·.part = p)) →
      b.after setters = b.after others ∧ (b.after setters).compile = (b.after others).compile) ∧
    (∀ (before : List Setter) (s : Setter) (later : List Setter), s.Superseded later →
      b.after (before ++ s :: later) = b.after (before ++ later) ∧
        (b.after (before ++ s :: later)).compile = (b.after (before ++ later)).compile) ∧
    (∀ s : Setter, (∃ e, s.addition = some e) ↔ s.part = .predicate) ∧
    (∀ s e, s.addition = some e → b.apply s = { b with entries := b.entries ++ [e] }) ∧
    (∀ setters, (b.after setters).entries = b.entries ++ setters.filterMap Setter.addition) ∧
    ∀ setters, b.after (setters.map Setter.spelledOut) = b.after setters := by
  refine ⟨?_, ?_, ?_, fun s e he => apply_eq_of_addition b he, entries_after b, after_map_spelledOut b⟩
  · intro setters others hparts
    have heq := after_eq_of_filter_eq b hparts
    exact ⟨heq, congrArg compile heq⟩
  · intro before s later hsuperseded
    have heq := after_drop_of_superseded b before hsuperseded
    exact ⟨heq, congrArg compile heq⟩
  · intro s
    rw [← Option.isSome_iff_exists]
    exact s.isSome_addition_iff

example :
    new.after [.limitTo 5, .column "Ticket", .filter "Volume" ">" .null, .inContext "Orders", .select [], .limitTo 7] =
      new.after [.inContext "Orders", .select [], .limitTo 7, .andWhere "Volume" ">" .null] := by
  rfl

end Brokerage.Builder
