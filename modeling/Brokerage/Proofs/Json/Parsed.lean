import Brokerage.Json.RecordText
import Brokerage.Proofs.Json.Sorted

namespace Brokerage

namespace Json

variable {α : Type} {P : α → Prop}

/-- Whatever the reader reads has the property. -/
def Yields (read : List Char → Option (α × List Char)) (P : α → Prop) : Prop :=
  ∀ cs a rest, read cs = some (a, rest) → P a

/-- What holds of every item that is read holds of all the items of a list. The
    induction is on the steps that the reader is given. -/
theorem Yields.items {item : List Char → Option (α × List Char)} (h : Yields item P) (close : Char) (steps : Nat) :
    Yields (readItems? item close steps) fun items => ∀ a ∈ items, P a := by
  intro cs items rest hread
  induction steps generalizing cs items with
  | zero => cases hread
  | succ steps ih =>
    rw [readItems?] at hread
    obtain ⟨⟨first, cs⟩, hfirst, hread⟩ := Option.bind_eq_some_iff.mp hread
    have hP : P first := h _ first cs hfirst
    dsimp only at hread
    split at hread
    · obtain ⟨⟨others, after⟩, hothers, hread⟩ := Option.bind_eq_some_iff.mp hread
      cases hread
      exact List.forall_mem_cons.mpr ⟨hP, ih _ others hothers⟩
    · split at hread
      · cases hread
        exact List.forall_mem_singleton.mpr hP
      · cases hread
    · cases hread

private theorem Yields.sequence {item : List Char → Option (α × List Char)} (h : Yields item P) (close : Char) :
    Yields (readSequence? item close) fun items => ∀ a ∈ items, P a := by
  intro cs items rest hread
  unfold readSequence? at hread
  split at hread
  · split at hread
    · cases hread
      exact List.forall_mem_nil P
    · exact h.items close _ _ items rest hread
  · cases hread

private theorem Yields.member {value : List Char → Option (α × List Char)} (h : Yields value P) :
    Yields (readMember? value) fun m => P m.2 := by
  intro cs m rest hread
  obtain ⟨⟨name, cs⟩, -, hread⟩ := Option.bind_eq_some_iff.mp hread
  dsimp only at hread
  split at hread
  · obtain ⟨⟨v, after⟩, hvalue, hread⟩ := Option.bind_eq_some_iff.mp hread
    cases hread
    exact h _ v after hvalue
  · cases hread

private theorem Yields.of_map {β : Type} {Q : β → Prop} {read : List Char → Option (α × List Char)} (h : Yields read P)
    {f : α → β} (hf : ∀ a, P a → Q (f a)) : Yields (fun cs => (read cs).map fun (a, rest) => (f a, rest)) Q := by
  intro cs b rest hread
  obtain ⟨⟨a, after⟩, ha, heq⟩ := Option.map_eq_some_iff.mp hread
  cases heq
  exact hf a (h cs a rest ha)

/-- The value is neither an array nor an object. -/
def Scalar : Json → Prop
  | array _ | object _ => False
  | _ => True

/-- What is read as a scalar is one. -/
theorem yields_readScalar : Yields readScalar? Scalar := by
  intro cs v rest hread
  unfold readScalar? at hread
  split at hread
  case h_5 =>
    obtain ⟨⟨numeral, after⟩, -, hread⟩ := Option.bind_eq_some_iff.mp hread
    obtain ⟨n, -, hread⟩ := Option.bind_eq_some_iff.mp hread
    cases hread
    trivial
  all_goals
    obtain ⟨_, -, heq⟩ := Option.map_eq_some_iff.mp hread
    cases heq
    trivial

/-- What holds of scalars, and one level further out of arrays and objects,
    holds of every value that is read. The property may speak of the depth that
    the reader had left. -/
theorem yields_readValue_of {P : Nat → Json → Prop} (hscalar : ∀ depth v, v.Scalar → P depth v)
    (harray : ∀ depth items, (∀ v ∈ items, P depth v) → P (depth + 1) (array items))
    (hobject : ∀ depth members, (∀ m ∈ members, P depth m.2) → P (depth + 1) (ofMembers members)) (depth : Nat) :
    Yields (readValue? depth) (P depth) := by
  induction depth with
  | zero =>
    intro cs v rest hread
    exact hscalar 0 v (yields_readScalar cs v rest (by rwa [readValue?] at hread))
  | succ depth ih =>
    intro cs v rest hread
    rw [readValue?.eq_def] at hread
    dsimp only at hread
    split at hread
    · exact (ih.sequence ']').of_map (harray depth) _ v rest hread
    · exact (ih.member.sequence '\x7d').of_map (hobject depth) _ v rest hread
    · exact hscalar _ v (yields_readScalar _ v rest hread)

private theorem Scalar.isSorted {v : Json} (h : v.Scalar) : v.IsSorted := by
  cases v with
  | array items => cases h
  | object members => cases h
  | _ => rfl

private theorem yields_readValue (depth : Nat) : Yields (readValue? depth) IsSorted :=
  yields_readValue_of (fun _ _ h => h.isSorted) (fun _ _ h => isSorted_array_iff.mpr h)
    (fun _ _ h => isSorted_ofMembers h) depth

/-- What holds of everything that is read holds of what a whole text writes.
    Reading a text adds nothing but the demand that blanks alone are left. -/
theorem Yields.of_readAll {read : List Char → Option (α × List Char)} (h : Yields read P) {s : String} {a : α}
    (hread : readAll? read s = some a) : P a := by
  unfold readAll? at hread
  split at hread
  · next v rest hv =>
    split at hread
    · cases hread
      exact h _ _ rest hv
    · cases hread
  · cases hread

/-- Values are sorted when they are read. -/
theorem isSorted_of_parse? {s : String} {v : Json} (h : parse? s = some v) : v.IsSorted :=
  (yields_readValue maxDepth).of_readAll h

end Json

namespace Record

open Json (Yields IsSorted)

variable {fields : List Field}

/-- A member of a record that is read has a sorted value, if it belongs to a
    field. -/
theorem yields_readMember (fields : List Field) :
    Yields (readMember? fields) fun m => ∀ field v, m = some (field, v) → v.IsSorted := by
  intro cs m rest hread field v hm
  obtain ⟨⟨name, cs⟩, -, hread⟩ := Option.bind_eq_some_iff.mp hread
  dsimp only at hread
  split at hread
  · split at hread
    · obtain ⟨⟨w, after⟩, hvalue, heq⟩ := Option.map_eq_some_iff.mp hread
      cases heq
      cases hm
      exact Json.yields_readValue _ _ _ _ hvalue
    · obtain ⟨_, -, heq⟩ := Option.map_eq_some_iff.mp hread
      cases heq
      cases hm
  · cases hread

/-- The members of a record that are read have sorted values, whether the record
    is written as an object or as a list. -/
theorem yields_readFields (fields : List Field) :
    Yields (readFields? fields) fun known => ∀ m ∈ known, m.2.IsSorted := by
  intro cs known rest hread
  unfold readFields? at hread
  split at hread
  · obtain ⟨⟨members, after⟩, hmembers, hread⟩ := Option.bind_eq_some_iff.mp hread
    dsimp only at hread
    split at hread
    · cases hread
      intro m hm
      obtain ⟨member, hmember, heq⟩ := List.mem_filterMap.mp hm
      exact (yields_readMember fields).sequence '\x7d' _ members rest hmembers member hmember m.1 m.2 heq
    · cases hread
  · obtain ⟨⟨items, after⟩, hitems, hread⟩ := Option.bind_eq_some_iff.mp hread
    obtain ⟨known, hknown, hread⟩ := Option.bind_eq_some_iff.mp hread
    cases hread
    rw [ofItems?] at hknown
    split at hknown
    · cases hknown
      intro m hm
      exact (Json.yields_readValue _).sequence ']' _ items rest hitems m.2 (List.of_mem_zip hm).2
    · cases hknown
  · cases hread

/-- The fields that a text writes hold sorted values. -/
theorem isSorted_of_parse? {s : String} {known : List (String × Json)} (h : parse? fields s = some known) :
    ∀ m ∈ known, m.2.IsSorted :=
  (yields_readFields fields).of_readAll h

end Record

end Brokerage
