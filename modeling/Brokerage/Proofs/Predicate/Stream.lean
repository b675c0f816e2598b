import Brokerage.Search.Predicate

namespace Brokerage.Predicate

/-- The stream writes the forest down: conditions one after the other, and each
    group as its items between an opening and a closing marker. The connective
    of a closing marker says nothing. -/
inductive Describes : List Entry → Forest → Prop where
  | nil : Describes [] []
  | condition (connective : Connective) (condition : Condition) {entries : List Entry} {items : Forest}
      (hentries : Describes entries items) :
      Describes (.condition connective condition :: entries) ((connective, .condition condition) :: items)
  | group (connective closing : Connective) {inner entries : List Entry} {innerItems items : Forest}
      (hinner : Describes inner innerItems) (hentries : Describes entries items) :
      Describes (.opening connective :: inner ++ .closing closing :: entries) ((connective, .group innerItems) :: items)

/-- Two streams that describe forests describe, one after the other, the forests
    one after the other. -/
theorem Describes.append {entries others : List Entry} {items otherItems : Forest}
    (h : Describes entries items) (hothers : Describes others otherItems) :
    Describes (entries ++ others) (items ++ otherItems) := by
  induction h with
  | nil => exact hothers
  | condition connective condition _ ih => exact .condition connective condition ih
  | group connective closing hinner _ _ ih =>
    have hgroup := Describes.group connective closing hinner ih
    simpa only [List.cons_append, List.append_assoc] using hgroup

/-- What the entries read so far have left behind: the groups open, innermost
    first, and the items of the list being read. Below the innermost opening
    marker the entries describe those items; what stands before the marker is
    pending in the groups around. -/
inductive Pending : List Entry → List OpenGroup → Forest → Prop where
  | outermost {entries : List Entry} {items : Forest} (hentries : Describes entries items) : Pending entries [] items
  | inside {before : List Entry} {opened : List OpenGroup} (group : OpenGroup)
      (hbefore : Pending before opened group.before) {entries : List Entry} {items : Forest}
      (hentries : Describes entries items) :
      Pending (before ++ .opening group.connective :: entries) (group :: opened) items

/-- More items at the level being read leave the groups around as they are. It
    is what carries the invariant of the reader over a whole group once that is
    closed. -/
theorem Pending.extend {entries more : List Entry} {opened : List OpenGroup} {items moreItems : Forest}
    (h : Pending entries opened items) (hmore : Describes more moreItems) :
    Pending (entries ++ more) opened (items ++ moreItems) := by
  cases h with
  | outermost hentries => exact .outermost (hentries.append hmore)
  | inside group hbefore hentries =>
    have hinside := Pending.inside group hbefore (hentries.append hmore)
    simpa only [List.append_assoc, List.cons_append] using hinside

/-- A closing marker turns the items of the innermost group into one more item
    of the list around it, with the connective of the marker that opened the
    group. -/
theorem Pending.close {entries : List Entry} {opened : List OpenGroup} {group : OpenGroup} {items : Forest}
    (h : Pending entries (group :: opened) items) (closing : Connective) :
    Pending (entries ++ [.closing closing]) opened (group.before ++ [(group.connective, .group items)]) := by
  cases h with
  | inside _ hbefore hentries =>
    have hclosed := hbefore.extend (Describes.group group.connective closing hentries .nil)
    simpa only [List.append_assoc, List.cons_append] using hclosed

/-- Whatever has been read, a successful end means that the whole stream
    describes the result. The induction is on what is still to be read, and
    `Pending` is what each entry preserves. -/
theorem Pending.describes_of_readForest {done entries : List Entry} {opened : List OpenGroup} {items result : Forest}
    {position : Nat} (h : Pending done opened items) (hread : readForest position opened items entries = .ok result) :
    Describes (done ++ entries) result := by
  induction entries generalizing done opened items position with
  | nil =>
    cases h with
    | outermost hentries =>
      simp only [readForest, List.getLast?_nil, Except.ok.injEq] at hread
      subst hread
      simpa using hentries
    | inside group _ _ => simp [readForest, List.getLast?_cons] at hread
  | cons entry entries ih =>
    rw [List.append_cons]
    cases entry with
    | condition connective condition =>
      rw [readForest] at hread
      exact ih (h.extend (.condition connective condition .nil)) hread
    | opening connective =>
      rw [readForest] at hread
      exact ih (.inside ⟨connective, position, items⟩ h .nil) hread
    | closing closing =>
      cases opened with
      | nil => simp [readForest] at hread
      | cons group opened =>
        rw [readForest] at hread
        exact ih (h.close closing) hread

/-- A described segment is read through in any state: its items are added to the
    list being read, and the open groups and the reading of the rest stay as
    they would be without it. -/
theorem Describes.readForest_append {entries : List Entry} {items : Forest} (h : Describes entries items)
    (position : Nat) (opened : List OpenGroup) (before : Forest) (rest : List Entry) :
    readForest position opened before (entries ++ rest) =
      readForest (position + entries.length) opened (before ++ items) rest := by
  induction h generalizing position opened before rest with
  | nil => simp
  | condition connective condition _ ih =>
    rw [List.cons_append, readForest, ih, List.length_cons, List.append_assoc]
    simp only [List.singleton_append]
    congr 1
    omega
  | group connective closing hinner _ ihinner ihentries =>
    simp only [List.cons_append, List.append_assoc, readForest, ihinner, ihentries, List.nil_append,
      List.length_append, List.length_cons]
    congr 1
    omega

/-- The forest found is the one described, and only streams that describe one
    are accepted. `Describes` speaks of nesting alone and knows neither
    positions nor a stack. -/
theorem forest_eq_ok_iff {entries : List Entry} {items : Forest} :
    forest entries = .ok items ↔ Describes entries items := by
  constructor
  · intro h
    simpa using Pending.describes_of_readForest (.outermost .nil) h
  · intro h
    have hread := h.readForest_append 0 [] [] []
    simpa [forest, readForest] using hread

/-- A stream describes at most one forest. The reader is a function and accepts
    every stream that describes one, so that no induction over two derivations
    is needed. -/
theorem Describes.unique {entries : List Entry} {items otherItems : Forest}
    (h : Describes entries items) (hother : Describes entries otherItems) : items = otherItems := by
  have heq := (forest_eq_ok_iff.mpr h).symm.trans (forest_eq_ok_iff.mpr hother)
  exact Except.ok.inj heq

end Brokerage.Predicate
