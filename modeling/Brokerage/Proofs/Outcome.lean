namespace Brokerage

variable {ε δ α β : Type}

/-- Two steps in a row give a result exactly if the first does and the second
    does from there. -/
theorem bind_eq_ok_iff {x : Except ε α} {f : α → Except ε β} {b : β} :
    (x >>= f) = .ok b ↔ ∃ a, x = .ok a ∧ f a = .ok b := by
  cases x <;> simp [bind, Except.bind]

theorem map_eq_ok_iff {x : Except ε α} {f : α → β} {b : β} :
    x.map f = .ok b ↔ ∃ a, x = .ok a ∧ f a = b := by
  cases x <;> simp [Except.map]

/-- Two steps in a row fail with an error exactly if the first does, or if it
    succeeds and the second does from there. With `bind_eq_ok_iff` this takes
    apart any program of such steps without unfolding it. -/
theorem bind_eq_error_iff {x : Except ε α} {f : α → Except ε β} {e : ε} :
    (x >>= f) = .error e ↔ x = .error e ∨ ∃ a, x = .ok a ∧ f a = .error e := by
  cases x <;> simp [bind, Except.bind]

theorem map_eq_error_iff {x : Except ε α} {f : α → β} {e : ε} : x.map f = .error e ↔ x = .error e := by
  cases x <;> simp [Except.map]

/-- Putting an error in other words neither makes nor loses a result. -/
theorem mapError_eq_ok_iff {x : Except ε α} {f : ε → δ} {a : α} : x.mapError f = .ok a ↔ x = .ok a := by
  constructor
  · intro h
    cases x <;> cases h
    rfl
  · rintro rfl
    rfl

/-- A list is read item by item, each in its place: the results are as many as
    the items, and the result at a place is that of the item there. -/
theorem mapM_eq_some_iff {f : α → Option β} {items : List α} {results : List β} :
    items.mapM f = some results ↔ items.map f = results.map some := by
  induction items generalizing results with
  | nil => cases results <;> simp
  | cons item items ih =>
    rw [List.mapM_cons]
    cases results with
    | nil => cases f item <;> cases items.mapM f <;> simp
    | cons result results =>
      have hitems := @ih results
      cases hitem : f item with
      | none => simp [hitem]
      | some first => cases hrest : items.mapM f <;> simp_all

/-- A list cannot be read exactly if one of its items cannot. Which one does not
    matter, since nothing is said about the others. -/
theorem mapM_eq_none_iff {f : α → Option β} {items : List α} :
    items.mapM f = none ↔ ∃ item ∈ items, f item = none := by
  induction items with
  | nil => simp
  | cons item items ih =>
    simp only [List.mapM_cons, List.mem_cons, exists_eq_or_imp, ← ih]
    cases f item <;> cases items.mapM f <;> simp

end Brokerage
