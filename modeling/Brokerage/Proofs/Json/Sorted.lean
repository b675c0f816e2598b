import Brokerage.Json.Basic
import Mathlib.Data.List.Nodup
import Mathlib.Data.String.Basic

namespace Brokerage.Json

/-- The members are ascending by name, so that no two have one name. -/
def Ascending (members : List (String × Json)) : Prop :=
  members.Pairwise fun m n => m.1 < n.1

/-- The members of every object in the value are ascending by name, so that none
    stands twice. Sorting leaves such a value as it is, and values that are
    parsed are of this kind. -/
def IsSorted (v : Json) : Prop :=
  v.sorted = v

theorem IsSorted.sorted_eq {v : Json} (h : v.IsSorted) : v.sorted = v :=
  h

variable {members others : List (String × Json)}

theorem lookup_cons_eq_ite (name other : String) (v : Json) (members : List (String × Json)) :
    ((other, v) :: members).lookup name = if name = other then some v else members.lookup name := by
  rw [List.lookup_cons]
  split
  · next heq => rw [if_pos (by simpa using heq)]
  · next hne => rw [if_neg (by simpa using hne)]

theorem mem_of_lookup {name : String} {v : Json} (h : members.lookup name = some v) : (name, v) ∈ members := by
  obtain ⟨before, after, rfl, -⟩ := List.lookup_eq_some_iff.mp h
  simp

theorem lookup_eq_none_iff_not_mem {name : String} :
    members.lookup name = none ↔ name ∉ members.map Prod.fst := by
  rw [List.lookup_eq_none_iff]
  simp only [bne_iff_ne, List.mem_map, not_exists, not_and]
  exact ⟨fun h m hm heq => h m hm heq.symm, fun h m hm heq => h m hm heq.symm⟩

theorem Ascending.nodup (h : Ascending members) : (members.map Prod.fst).Nodup :=
  List.pairwise_map.mpr (h.imp fun hlt => hlt.ne)

theorem Ascending.sublist (h : Ascending members) (hsublist : others.Sublist members) : Ascending others :=
  List.Pairwise.sublist hsublist h

/-- Where no name stands twice, every member is found. A second member of the
    name would be hidden by the first. -/
theorem lookup_of_mem (hnodup : (members.map Prod.fst).Nodup) {m : String × Json} (h : m ∈ members) :
    members.lookup m.1 = some m.2 := by
  induction members with
  | nil => cases h
  | cons first members ih =>
    rw [List.map_cons, List.nodup_cons] at hnodup
    rw [lookup_cons_eq_ite]
    rcases List.mem_cons.mp h with rfl | hmem
    · exact if_pos rfl
    · have hne : m.1 ≠ first.1 := fun heq => hnodup.1 (heq ▸ List.mem_map_of_mem hmem)
      rw [if_neg hne, ih hnodup.2 hmem]

/-- Of members chosen by their names, those chosen are found and no others. -/
theorem lookup_filter (chosen : String → Bool) (members : List (String × Json)) (name : String) :
    (members.filter fun m => chosen m.1).lookup name = if chosen name then members.lookup name else none := by
  induction members with
  | nil => exact (ite_self none).symm
  | cons m members ih =>
    rw [List.filter_cons, lookup_cons_eq_ite]
    by_cases hname : name = m.1
    · subst hname
      split
      · rw [lookup_cons_eq_ite, if_pos rfl, if_pos rfl]
      · next hnot => rw [ih, if_neg hnot]
    · rw [if_neg hname, ← ih]
      split
      · rw [lookup_cons_eq_ite, if_neg hname]
      · rfl

/-- Changing the values of members leaves their names, and each value is found
    changed. -/
theorem lookup_map_snd (f : Json → Json) (members : List (String × Json)) (name : String) :
    (members.map fun m => (m.1, f m.2)).lookup name = (members.lookup name).map f := by
  induction members with
  | nil => rfl
  | cons m members ih =>
    rw [List.map_cons, lookup_cons_eq_ite, lookup_cons_eq_ite, ih]
    split <;> rfl

/-- Ascending members are determined by what is found under every name. The
    order is what makes this so: unordered members would only agree up to it. -/
theorem Ascending.eq_of_lookup_eq (h : Ascending members) (hothers : Ascending others)
    (hlookup : ∀ name, members.lookup name = others.lookup name) : members = others := by
  have hmem (m : String × Json) : m ∈ members ↔ m ∈ others := by
    constructor
    · intro hm
      exact mem_of_lookup ((hlookup m.1).symm.trans (lookup_of_mem h.nodup hm))
    · intro hm
      exact mem_of_lookup ((hlookup m.1).trans (lookup_of_mem hothers.nodup hm))
  have hperm : members.Perm others :=
    (List.perm_ext_iff_of_nodup (List.Nodup.of_map _ h.nodup) (List.Nodup.of_map _ hothers.nodup)).mpr hmem
  exact hperm.eq_of_pairwise (fun _ _ _ _ hlt hgt => absurd hlt hgt.asymm) h hothers

section insertion

variable (name : String) (value : Json)

/-- Inserting a member sets the value at its name and no other. -/
theorem lookup_insertMember (other : String) (members : List (String × Json)) :
    (insertMember name value members).lookup other = if other = name then some value else members.lookup other := by
  induction members with
  | nil => exact lookup_cons_eq_ite other name value []
  | cons m members ih =>
    obtain ⟨k, v⟩ := m
    rw [insertMember]
    split
    · exact lookup_cons_eq_ite ..
    · split
      · next heq =>
        subst heq
        rw [lookup_cons_eq_ite, lookup_cons_eq_ite]
        split <;> rfl
      · next hne =>
        rw [lookup_cons_eq_ite, lookup_cons_eq_ite, ih]
        by_cases hother : other = k
        · rw [if_pos hother, if_neg (fun heq => hne (heq.symm.trans hother)), if_pos hother]
        · rw [if_neg hother, if_neg hother]

/-- Inserting a member adds nothing else. -/
theorem eq_or_mem_of_mem_insertMember {m : String × Json} (h : m ∈ insertMember name value members) :
    m = (name, value) ∨ m ∈ members := by
  induction members with
  | nil => exact .inl (List.mem_singleton.mp h)
  | cons first members ih =>
    obtain ⟨k, v⟩ := first
    rw [insertMember] at h
    split at h
    · exact List.mem_cons.mp h
    · split at h
      · exact (List.mem_cons.mp h).imp_right (List.mem_cons_of_mem _)
      · rcases List.mem_cons.mp h with rfl | hmem
        · exact .inr List.mem_cons_self
        · exact (ih hmem).imp_right (List.mem_cons_of_mem _)

/-- Members stay ascending when one more is inserted, whether its name is new or
    was there. -/
theorem Ascending.insertMember (h : Ascending members) : Ascending (insertMember name value members) := by
  induction members with
  | nil => exact List.pairwise_singleton ..
  | cons first members ih =>
    obtain ⟨k, v⟩ := first
    obtain ⟨hfirst, hmembers⟩ := List.pairwise_cons.mp h
    rw [Json.insertMember]
    split
    · next hlt =>
      refine List.pairwise_cons.mpr ⟨?_, h⟩
      rintro m (_ | ⟨_, hm⟩)
      · exact hlt
      · exact hlt.trans (hfirst m hm)
    · next hnlt =>
      split
      · next heq =>
        subst heq
        exact List.pairwise_cons.mpr ⟨hfirst, hmembers⟩
      · next hne =>
        refine List.pairwise_cons.mpr ⟨?_, ih hmembers⟩
        intro m hm
        rcases eq_or_mem_of_mem_insertMember name value hm with rfl | hm
        · exact lt_of_le_of_ne (not_lt.mp hnlt) (Ne.symm hne)
        · exact hfirst m hm

end insertion

theorem sortMembers_eq_foldl (members : List (String × Json)) :
    sortMembers members = members.foldl (fun acc m => insertMember m.1 m.2 acc) [] :=
  rfl

/-- Sorted members ascend, whatever order they were given in and however often a
    name was given. -/
theorem ascending_sortMembers (members : List (String × Json)) : Ascending (sortMembers members) := by
  suffices h : ∀ acc, Ascending acc → Ascending (members.foldl (fun acc m => insertMember m.1 m.2 acc) acc) from
    h [] List.Pairwise.nil
  induction members with
  | nil => exact fun _ hacc => hacc
  | cons m members ih => exact fun acc hacc => ih _ (hacc.insertMember m.1 m.2)

/-- Sorting makes no member up. -/
theorem mem_of_mem_sortMembers {m : String × Json} (h : m ∈ sortMembers members) : m ∈ members := by
  suffices hmem : ∀ acc, m ∈ members.foldl (fun acc m => insertMember m.1 m.2 acc) acc → m ∈ acc ∨ m ∈ members from
    (hmem [] h).resolve_left List.not_mem_nil
  clear h
  induction members with
  | nil => exact fun _ hacc => .inl hacc
  | cons first members ih =>
    intro acc hacc
    rcases ih _ hacc with hinserted | hmem
    · rcases eq_or_mem_of_mem_insertMember first.1 first.2 hinserted with rfl | hmem
      · exact .inr List.mem_cons_self
      · exact .inl hmem
    · exact .inr (List.mem_cons_of_mem _ hmem)

/-- Of members with one name the last is kept. -/
theorem lookup_sortMembers_eq_reverse (members : List (String × Json)) (name : String) :
    (sortMembers members).lookup name = members.reverse.lookup name := by
  suffices h : ∀ acc, (members.foldl (fun acc m => insertMember m.1 m.2 acc) acc).lookup name =
      (members.reverse.lookup name).or (acc.lookup name) by
    simpa [sortMembers_eq_foldl] using h []
  induction members with
  | nil => exact fun _ => rfl
  | cons m members ih =>
    intro acc
    rw [List.foldl_cons, ih, lookup_insertMember, List.reverse_cons, List.lookup_append, Option.or_assoc,
      lookup_cons_eq_ite]
    by_cases hname : name = m.1
    · rw [if_pos hname, if_pos hname, Option.some_or]
    · rw [if_neg hname, if_neg hname, List.lookup_nil, Option.none_or]

/-- Where no name stands twice, members are found from either end. -/
theorem lookup_reverse (hnodup : (members.map Prod.fst).Nodup) (name : String) :
    members.reverse.lookup name = members.lookup name := by
  cases hfound : members.lookup name with
  | none =>
    rw [lookup_eq_none_iff_not_mem] at hfound ⊢
    rwa [List.map_reverse, List.mem_reverse]
  | some v =>
    have hreversed : (members.reverse.map Prod.fst).Nodup := by rwa [List.map_reverse, List.nodup_reverse]
    exact lookup_of_mem hreversed (List.mem_reverse.mpr (mem_of_lookup hfound))

/-- Sorting members whose names differ keeps each of them. Of two with one name
    the later would stay, while a look-up finds the earlier. -/
theorem lookup_sortMembers (hnodup : (members.map Prod.fst).Nodup) (name : String) :
    (sortMembers members).lookup name = members.lookup name := by
  rw [lookup_sortMembers_eq_reverse, lookup_reverse hnodup]

/-- Members that ascend are left as they are, so that sorting a sorted value
    changes nothing. -/
theorem sortMembers_of_ascending (h : Ascending members) : sortMembers members = members :=
  (ascending_sortMembers members).eq_of_lookup_eq h (lookup_sortMembers h.nodup)

theorem sortedItems_eq_map (items : List Json) : sortedItems items = items.map sorted := by
  induction items with
  | nil => rfl
  | cons v items ih => rw [sortedItems, ih, List.map_cons]

private theorem sortedValues_eq_map (members : List (String × Json)) :
    sortedValues members = members.map fun m => (m.1, m.2.sorted) := by
  induction members with
  | nil => rfl
  | cons m members ih => rw [sortedValues, ih, List.map_cons]

private theorem lookup_sortedValues (members : List (String × Json)) (name : String) :
    (sortedValues members).lookup name = (members.lookup name).map sorted := by
  rw [sortedValues_eq_map, lookup_map_snd]

@[simp]
theorem map_fst_sortedValues (members : List (String × Json)) :
    (sortedValues members).map Prod.fst = members.map Prod.fst := by
  simp [sortedValues_eq_map]

/-- In a sorted object each member is found sorted. The names have to differ, as
    the last one of a name would be kept. -/
theorem lookup_sortMembers_sortedValues (hnodup : (members.map Prod.fst).Nodup) (name : String) :
    (sortMembers (sortedValues members)).lookup name = (members.lookup name).map sorted := by
  rw [lookup_sortMembers (by rwa [map_fst_sortedValues]), lookup_sortedValues]

/-- A list is sorted exactly if its items are; their order is their own. -/
theorem isSorted_array_iff {items : List Json} : (array items).IsSorted ↔ ∀ v ∈ items, v.IsSorted := by
  rw [IsSorted, sorted, array.injEq, sortedItems_eq_map]
  constructor
  · intro h v hv
    exact List.map_inj_left.mp (h.trans items.map_id.symm) v hv
  · intro h
    exact (List.map_congr_left h).trans items.map_id

/-- An object is sorted exactly if its members ascend and their values are
    sorted. -/
theorem isSorted_object_iff : (object members).IsSorted ↔ Ascending members ∧ ∀ m ∈ members, m.2.IsSorted := by
  rw [IsSorted, sorted, object.injEq]
  constructor
  · intro h
    have hascending : Ascending members := h ▸ ascending_sortMembers _
    refine ⟨hascending, fun m hm => ?_⟩
    have hfound := lookup_of_mem hascending.nodup hm
    have hsorted := lookup_sortMembers_sortedValues hascending.nodup m.1
    rw [h, hfound] at hsorted
    exact (Option.some.inj hsorted).symm
  · rintro ⟨hascending, hvalues⟩
    have hkept : sortedValues members = members := by
      have heach (m : String × Json) (hm : m ∈ members) : (m.1, m.2.sorted) = id m := Prod.ext rfl (hvalues m hm)
      rw [sortedValues_eq_map, List.map_congr_left heach, List.map_id]
    rw [hkept, sortMembers_of_ascending hascending]

/-- An object made from members with sorted values is sorted, whatever the order
    of the members. -/
theorem isSorted_ofMembers (h : ∀ m ∈ members, m.2.IsSorted) : (ofMembers members).IsSorted :=
  isSorted_object_iff.mpr ⟨ascending_sortMembers members, fun m hm => h m (mem_of_mem_sortMembers hm)⟩

mutual

/-- Sorting once is enough. -/
theorem isSorted_sorted : (v : Json) → v.sorted.IsSorted
  | null | bool _ | number _ | string _ => rfl
  | array items => isSorted_array_iff.mpr (isSorted_sortedItems items)
  | object members => isSorted_ofMembers (isSorted_sortedValues members)

theorem isSorted_sortedItems : (items : List Json) → ∀ v ∈ sortedItems items, v.IsSorted
  | [] => List.forall_mem_nil _
  | v :: items => List.forall_mem_cons.mpr ⟨isSorted_sorted v, isSorted_sortedItems items⟩

theorem isSorted_sortedValues : (members : List (String × Json)) → ∀ m ∈ sortedValues members, m.2.IsSorted
  | [] => List.forall_mem_nil _
  | m :: members => List.forall_mem_cons.mpr ⟨isSorted_sorted m.2, isSorted_sortedValues members⟩

end

end Brokerage.Json
