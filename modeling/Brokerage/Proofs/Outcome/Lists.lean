import Brokerage.Proofs.Outcome
import Mathlib.Data.List.Forall2

namespace Brokerage

variable {ε α β γ : Type}

/-- Some item fails, and the first one that does fails with this error. -/
def FirstFails (f : α → Except ε β) (items : List α) (e : ε) : Prop :=
  ∃ before item after, items = before ++ item :: after ∧ (∀ a ∈ before, ∃ b, f a = .ok b) ∧ f item = .error e

variable {f : α → Except ε β} {items : List α} {item : α}

theorem FirstFails.exists_eq_error {e : ε} (h : FirstFails f items e) : ∃ a, f a = .error e := by
  obtain ⟨_, item, _, _, _, hitem⟩ := h
  exact ⟨item, hitem⟩

theorem not_firstFails_nil (f : α → Except ε β) (e : ε) : ¬FirstFails f [] e := by
  rintro ⟨before, item, after, hitems, -⟩
  simp at hitems

theorem firstFails_cons_of_error {e e' : ε} (h : f item = .error e) : FirstFails f (item :: items) e' ↔ e = e' := by
  constructor
  · rintro ⟨before, failed, after, hitems, hbefore, hfailed⟩
    cases before with
    | nil =>
      cases hitems
      exact Except.error.inj (h.symm.trans hfailed)
    | cons first before =>
      cases hitems
      obtain ⟨b, hb⟩ := hbefore item List.mem_cons_self
      cases h.symm.trans hb
  · rintro rfl
    exact ⟨[], item, items, rfl, nofun, h⟩

theorem firstFails_cons_of_ok {b : β} {e : ε} (h : f item = .ok b) :
    FirstFails f (item :: items) e ↔ FirstFails f items e := by
  constructor
  · rintro ⟨before, failed, after, hitems, hbefore, hfailed⟩
    cases before with
    | nil =>
      cases hitems
      cases h.symm.trans hfailed
    | cons first before =>
      cases hitems
      exact ⟨before, failed, after, rfl, fun a ha => hbefore a (List.mem_cons_of_mem _ ha), hfailed⟩
  · rintro ⟨before, failed, after, rfl, hbefore, hfailed⟩
    refine ⟨item :: before, failed, after, rfl, ?_, hfailed⟩
    rintro a (_ | ⟨_, ha⟩)
    · exact ⟨b, h⟩
    · exact hbefore a ha

/-- Whether an item fails, and how, does not depend on what the others result
    in. -/
theorem firstFails_congr {g : α → Except ε γ} (h : ∀ a e, f a = .error e ↔ g a = .error e) (e : ε) :
    FirstFails f items e ↔ FirstFails g items e := by
  induction items with
  | nil => simp [not_firstFails_nil]
  | cons item items ih =>
    cases hitem : f item with
    | error e' => rw [firstFails_cons_of_error hitem, firstFails_cons_of_error ((h item e').mp hitem)]
    | ok b =>
      cases hother : g item with
      | error e' => cases hitem.symm.trans ((h item e').mpr hother)
      | ok c => rw [firstFails_cons_of_ok hitem, firstFails_cons_of_ok hother, ih]

theorem mapM_eq_ok_iff {results : List β} :
    items.mapM f = .ok results ↔ List.Forall₂ (fun a b => f a = .ok b) items results := by
  induction items generalizing results with
  | nil => simp [List.forall₂_nil_left_iff, pure, Except.pure, eq_comm]
  | cons item items ih =>
    rw [List.mapM_cons, List.forall₂_cons_left_iff, bind_eq_ok_iff]
    simp only [bind_eq_ok_iff, ih, pure, Except.pure, Except.ok.injEq]
    constructor
    · rintro ⟨b, hb, others, hothers, rfl⟩
      exact ⟨b, others, hb, hothers, rfl⟩
    · rintro ⟨b, others, hb, hothers, rfl⟩
      exact ⟨b, hb, others, hothers, rfl⟩

theorem mapM_eq_error_iff {e : ε} : items.mapM f = .error e ↔ FirstFails f items e := by
  induction items with
  | nil => simp [not_firstFails_nil, pure, Except.pure]
  | cons item items ih =>
    rw [List.mapM_cons]
    cases hitem : f item with
    | error e' =>
      rw [firstFails_cons_of_error hitem]
      exact ⟨fun h => Except.error.inj h, fun h => congrArg Except.error h⟩
    | ok b =>
      rw [firstFails_cons_of_ok hitem, ← ih]
      cases items.mapM f with
      | error e' => exact Iff.rfl
      | ok others => exact ⟨nofun, nofun⟩

theorem exists_mapM_eq_ok_iff : (∃ results, items.mapM f = .ok results) ↔ ∀ a ∈ items, ∃ b, f a = .ok b := by
  induction items with
  | nil => simp [pure, Except.pure]
  | cons item items ih =>
    simp only [List.mapM_cons, List.forall_mem_cons, ← ih, bind_eq_ok_iff, pure, Except.pure, Except.ok.injEq]
    constructor
    · rintro ⟨_, b, hb, others, hothers, -⟩
      exact ⟨⟨b, hb⟩, others, hothers⟩
    · rintro ⟨⟨b, hb⟩, others, hothers⟩
      exact ⟨b :: others, b, hb, others, hothers, rfl⟩

theorem mapM_congr {g : α → Except ε β} (h : ∀ a ∈ items, f a = g a) : items.mapM f = items.mapM g := by
  induction items with
  | nil => rfl
  | cons item items ih =>
    obtain ⟨hitem, hitems⟩ := List.forall_mem_cons.mp h
    rw [List.mapM_cons, List.mapM_cons, hitem, ih hitems]

/-- Each of the results belongs to an item. -/
theorem exists_mem_of_forall₂ {R : α → β → Prop} {results : List β} (h : List.Forall₂ R items results) {b : β}
    (hb : b ∈ results) : ∃ a ∈ items, R a b := by
  induction h with
  | nil => cases hb
  | @cons first _ _ _ hfirst _ ih =>
    rcases List.mem_cons.mp hb with rfl | hb
    · exact ⟨first, List.mem_cons_self, hfirst⟩
    · obtain ⟨a, ha, hab⟩ := ih hb
      exact ⟨a, List.mem_cons_of_mem first ha, hab⟩

/-- Folding while reading is reading first and folding then. -/
theorem foldlM_map_eq (f : α → Except ε β) (add : γ → β → γ) (items : List α) (start : γ) :
    items.foldlM (fun c a => (f a).map (add c)) start = (items.mapM f).map fun results => results.foldl add start := by
  induction items generalizing start with
  | nil => rfl
  | cons item items ih =>
    rw [List.foldlM_cons, List.mapM_cons]
    cases f item with
    | error e => rfl
    | ok b =>
      refine (ih (add start b)).trans ?_
      cases items.mapM f <;> rfl

end Brokerage
