import Brokerage.Proofs.Predicate.Irrelevance

namespace Brokerage.Predicate

/-- A group still open while the list is written in one pass: the connective and
    the position of the entry that opened it, and the values written into it so
    far. -/
structure Frame where
  connective : Connective
  openedAt : Nat
  values : List Json

/-- What one pass over the entries keeps: the values written outside every
    group, and the open groups, innermost first. Unlike an `OpenGroup`, which
    holds items, a frame holds values in their final form. -/
structure Accumulator where
  root : List Json
  frames : List Frame

/-- More values behind those written so far, with the connective between the two
    if there is anything to join to. -/
def append (values : List Json) (connective : Connective) (more : List Json) : List Json :=
  if values = [] then more else values ++ .string connective.text :: more

namespace Accumulator

/-- Values go into the innermost open group, or to the root if no group is
    open. -/
def add (a : Accumulator) (connective : Connective) (more : List Json) : Accumulator :=
  match a.frames with
  | [] => { a with root := append a.root connective more }
  | frame :: frames => { a with frames := { frame with values := append frame.values connective more } :: frames }

/-- One entry. A closing marker takes the innermost group off the stack and
    writes it as one value into what is around it; a group without values is
    dropped together with its connective. -/
def step (a : Accumulator) (position : Nat) : Entry → Except SearchError Accumulator
  | .condition connective condition => .ok (a.add connective condition.normalize.triple)
  | .opening connective => .ok { a with frames := ⟨connective, position, []⟩ :: a.frames }
  | .closing _ =>
    match a.frames with
    | [] => .error (.malformedGrouping position .closeWithoutOpen)
    | group :: frames =>
      let outer : Accumulator := { a with frames }
      .ok (if group.values = [] then outer else outer.add group.connective [.array group.values])

/-- The entries from `position` on, one after another. -/
def run (a : Accumulator) (position : Nat) : List Entry → Except SearchError Accumulator
  | [] => .ok a
  | entry :: entries => do
    let a ← a.step position entry
    a.run (position + 1) entries

/-- The list at the end of the entries. The outermost group left open is
    reported; a root of one value that is a list is that list. -/
def result (a : Accumulator) : Except SearchError Json :=
  match a.frames.getLast?, a.root with
  | some frame, _ => .error (.malformedGrouping frame.openedAt .neverClosed)
  | none, [] => .ok everyRow
  | none, [v] => .ok (if v.isArray then v else .array [v])
  | none, values => .ok (.array values)

/-- What stands in the accumulator once the items and the open groups have been
    read: of each list under way, the values that its items leave. -/
def holding : List OpenGroup → Forest → Accumulator
  | [], items => ⟨written items, []⟩
  | group :: opened, items =>
    let outer := holding opened group.before
    { outer with frames := ⟨group.connective, group.openedAt, written items⟩ :: outer.frames }

end Accumulator

/-- The list for a stream of entries, written in one pass and without the forest
    in between. -/
def compileInOnePass (entries : List Entry) : Except SearchError Json := do
  let a ← (⟨[], []⟩ : Accumulator).run 0 entries
  a.result

private theorem append_eq_joined (values : List Json) (connective : Connective) {more : List Json}
    (hmore : more ≠ []) : append values connective more = joined values connective more := by
  by_cases hvalues : values = []
  · rw [hvalues, joined_nil, append, if_pos rfl]
  · rw [joined_of_ne_nil connective hvalues hmore, append, if_neg hvalues]

/-- Adding what one item leaves is reading that item, provided the item leaves
    anything: `append` writes the connective before it looks at what follows, so
    an item without values must not get that far. -/
private theorem Accumulator.holding_add (opened : List OpenGroup) (items : Forest) (connective : Connective)
    (item : Item) (hitem : item.written ≠ []) :
    (holding opened items).add connective item.written = holding opened (items ++ [(connective, item)]) := by
  cases opened with
  | nil => simp only [holding, add, append_eq_joined _ _ hitem, written_concat]
  | cons group opened => simp only [holding, add, append_eq_joined _ _ hitem, written_concat]

/-- An item that leaves nothing is not seen in the accumulator, whatever its
    connective. -/
private theorem Accumulator.holding_of_written_eq_nil (opened : List OpenGroup) (items : Forest)
    (connective : Connective) {item : Item} (hitem : item.written = []) :
    holding opened (items ++ [(connective, item)]) = holding opened items := by
  have hwritten : written (items ++ [(connective, item)]) = written items := by
    rw [written_concat, hitem, joined_nil_right]
  cases opened with
  | nil => rw [holding, holding, hwritten]
  | cons group opened => rw [holding, holding, hwritten]

/-- A closing marker does to the accumulator what closing the group does to the
    items. The two cases are those of the machine: a group with values is added
    to what is around it, and one without is dropped. -/
private theorem Accumulator.step_closing_holding (position : Nat) (group : OpenGroup) (opened : List OpenGroup)
    (items : Forest) (connective : Connective) :
    (holding (group :: opened) items).step position (.closing connective) =
      .ok (holding opened (group.before ++ [(group.connective, .group items)])) := by
  by_cases hempty : written items = []
  · have hnothing : (Item.group items).written = [] := by rw [Item.written, hempty, grouped]
    simp [step, holding, hempty, holding_of_written_eq_nil opened group.before group.connective hnothing]
  · have hvalue : (Item.group items).written = [.array (written items)] := by
      rw [Item.written, grouped_of_ne_nil hempty]
    have hadd := holding_add opened group.before group.connective (.group items) (by simp [hvalue])
    rw [hvalue] at hadd
    simp [step, holding, hempty, hadd]

private theorem Accumulator.getLast?_holding (opened : List OpenGroup) (items : Forest) :
    (holding opened items).frames.getLast?.map Frame.openedAt = opened.getLast?.map OpenGroup.openedAt := by
  induction opened generalizing items with
  | nil => rfl
  | cons group opened ih =>
    have houter := ih group.before
    simp only [holding, List.getLast?_cons, Option.map_some, Option.some.injEq]
    cases hlast : opened.getLast? <;> cases hframe : (holding opened group.before).frames.getLast? <;>
      simp_all

/-- A condition is at least three values and the connective of a second item
    comes before it, so only a group leaves a list of one value. -/
private theorem isArray_of_written_eq {items : Forest} {v : Json} (h : written items = [v]) : v.isArray := by
  rw [written] at h
  cases hitems : survivors items with
  | nil => simp [hitems, encodeForest] at h
  | cons head others =>
    obtain ⟨connective, item⟩ := head
    rw [hitems, encodeForest] at h
    cases item with
    | condition c => simp [Item.encode, Condition.triple] at h
    | group inner =>
      simp only [Item.encode, List.singleton_append, List.cons.injEq] at h
      rw [← h.1]
      rfl

/-- With no group open the accumulator gives the list for the items. -/
private theorem Accumulator.result_holding_nil (items : Forest) :
    (holding [] items).result = .ok (whereClause (pruneForest items)) := by
  rw [whereClause_eq_clauseOf, pruneForest_eq_survivors, ← written, result, holding]
  cases hwritten : written items with
  | nil => rfl
  | cons v values =>
    cases values with
    | nil => simp [clauseOf, isArray_of_written_eq hwritten]
    | cons w values => simp [clauseOf]

/-- One pass from an accumulator that holds what has been read so far gives what
    reading the rest of the entries gives, errors and their positions included.
    The induction is on the entries; `holding` is what each step preserves. -/
theorem Accumulator.run_holding (entries : List Entry) (position : Nat) (opened : List OpenGroup) (items : Forest) :
    ((holding opened items).run position entries >>= result) =
      (readForest position opened items entries).map fun items => whereClause (pruneForest items) := by
  induction entries generalizing position opened items with
  | nil =>
    cases opened with
    | nil => exact result_holding_nil items
    | cons group opened =>
      have hlast := getLast?_holding (group :: opened) items
      cases hframe : (holding (group :: opened) items).frames.getLast? with
      | none => simp [hframe] at hlast
      | some frame =>
        simp only [hframe, Option.map_some, List.getLast?_cons, Option.some.injEq] at hlast
        simp [run, bind, Except.bind, result, hframe, hlast, readForest, List.getLast?_cons, Except.map]
  | cons entry entries ih =>
    cases entry with
    | condition connective condition =>
      have hadd := holding_add opened items connective (.condition condition)
        (by simp [Item.written, Condition.triple])
      rw [readForest, ← ih, ← hadd]
      rfl
    | opening connective =>
      rw [readForest, ← ih]
      rfl
    | closing connective =>
      cases opened with
      | nil => rfl
      | cons group opened =>
        rw [readForest, ← ih, run, step_closing_holding]
        rfl

/-- The list of a stream can be written in one pass over a stack of lists under
    way. Every stream gives the same list both ways, or is refused with the same
    error at the same entry; nothing is asked of the entries. -/
theorem compileInOnePass_eq_compile (entries : List Entry) : compileInOnePass entries = compile entries :=
  Accumulator.run_holding entries 0 [] []

end Brokerage.Predicate
