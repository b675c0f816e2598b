import Brokerage.Client.Registry

namespace Brokerage.Registry

variable {τ : Type} {r : Registry τ}

private theorem lookup_row (broker id : UInt64) (client : Client τ) (rows : List (UInt64 × Client τ)) :
    ((broker, client) :: rows).lookup id = if id = broker then some client else rows.lookup id := by
  rw [List.lookup_cons]
  by_cases hid : id = broker
  · simp [hid]
  · rw [if_neg hid, beq_eq_false_iff_ne.mpr hid]

private theorem lookup_filter_ne (removed id : UInt64) (rows : List (UInt64 × Client τ)) :
    (rows.filter fun (id, _) => id != removed).lookup id = if id = removed then none else rows.lookup id := by
  induction rows with
  | nil => simp
  | cons row rows ih =>
    obtain ⟨broker, client⟩ := row
    rw [List.filter_cons, lookup_row]
    by_cases hremoved : broker = removed
    · subst hremoved
      rw [if_neg (by simp), ih]
      split <;> rfl
    · rw [if_pos (by simpa using hremoved), lookup_row, ih]
      by_cases hid : id = broker
      · subst hid
        rw [if_pos rfl, if_pos rfl, if_neg hremoved]
      · rw [if_neg hid, if_neg hid]

theorem get?_empty (id : UInt64) : (empty : Registry τ).get? id = none := rfl

/-- Taking out the client of a broker leaves all others. -/
theorem get?_remove (r : Registry τ) (removed id : UInt64) :
    (r.remove removed).get? id = if id = removed then none else r.get? id :=
  lookup_filter_ne removed id r.clients

/-- A client is put in for its broker, in the place of one that is there, and
    leaves all others. -/
theorem get?_insert (r : Registry τ) (inserted id : UInt64) (client : Client τ) :
    (r.insert inserted client).get? id = if id = inserted then some client else r.get? id := by
  have hlookup : (r.insert inserted client).get? id =
      ((r.remove inserted).get? id).or (List.lookup id [(inserted, client)]) := by
    rw [get?, insert, List.lookup_append]
    rfl
  rw [hlookup, get?_remove, lookup_row]
  by_cases hid : id = inserted
  · rw [if_pos hid, if_pos hid, if_pos hid, Option.none_or]
  · rw [if_neg hid, if_neg hid, if_neg hid, List.lookup_nil, Option.or_none]

/-- The brokers that have a client. -/
def brokers (r : Registry τ) : List UInt64 :=
  r.clients.map Prod.fst

theorem length_brokers (r : Registry τ) : r.brokers.length = r.count :=
  List.length_map _

/-- The brokers listed are those whose look-up finds a client. -/
theorem mem_brokers_iff {id : UInt64} : id ∈ r.brokers ↔ ∃ client, r.get? id = some client := by
  obtain ⟨clients⟩ := r
  simp only [brokers, get?]
  induction clients with
  | nil => simp
  | cons row rows ih =>
    obtain ⟨broker, client⟩ := row
    rw [List.map_cons, List.mem_cons, ih, lookup_row]
    by_cases hid : id = broker
    · simp [hid]
    · rw [if_neg hid, or_iff_right hid]

/-- No broker is listed twice after one is taken out, if none was before. -/
theorem nodup_brokers_remove (h : r.brokers.Nodup) (removed : UInt64) : (r.remove removed).brokers.Nodup :=
  h.sublist (List.filter_sublist.map Prod.fst)

/-- No broker is listed twice after a client is put in, since one of the same
    broker is taken out first. -/
theorem nodup_brokers_insert (h : r.brokers.Nodup) (inserted : UInt64) (client : Client τ) :
    (r.insert inserted client).brokers.Nodup := by
  have habsent : inserted ∉ (r.remove inserted).brokers := by
    rw [mem_brokers_iff, get?_remove]
    simp
  have hbrokers : (r.insert inserted client).brokers = (r.remove inserted).brokers ++ [inserted] :=
    List.map_append
  rw [hbrokers, List.nodup_append]
  refine ⟨nodup_brokers_remove h inserted, by simp, ?_⟩
  intro id hid other hother heq
  rw [heq, List.mem_singleton.mp hother] at hid
  exact habsent hid

end Brokerage.Registry
