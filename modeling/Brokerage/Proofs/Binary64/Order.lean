import Brokerage.Proofs.Binary64.Units

namespace Brokerage.Binary64

private theorem Magnitude.units_lt_iff {m n : Magnitude} : m.units < n.units ↔ m.rank < n.rank :=
  unitsAt_lt_iff

theorem Magnitude.units_pos_iff {m : Magnitude} : 0 < m.units ↔ m.rank ≠ 0 := by
  have h : unitsAt 0 < unitsAt m.rank ↔ 0 < m.rank := unitsAt_lt_iff
  rw [unitsAt_zero] at h
  exact h.trans Nat.pos_iff_ne_zero

theorem Magnitude.units_eq_zero_iff {m : Magnitude} : m.units = 0 ↔ m = .zero := by
  constructor
  · intro h
    have hrank : ¬ m.rank ≠ 0 := fun hne => Nat.ne_of_gt (units_pos_iff.mpr hne) h
    cases m
    simp_all [zero]
  · rintro rfl
    exact unitsAt_zero

/-- Of two finite numbers the one of the smaller value is less. The two zeros
    have one value, so neither is less than the other. -/
theorem lt_iff_units {x y : Binary64} {u v : Int} (hx : x.units? = some u) (hy : y.units? = some v) :
    x.lt y = true ↔ u < v := by
  cases x with
  | nan => cases hx
  | infinite => cases hx
  | finite s m =>
    cases y with
    | nan => cases hy
    | infinite => cases hy
    | finite t n =>
      have horder := @Magnitude.units_lt_iff m n
      have horder' := @Magnitude.units_lt_iff n m
      have hm := @Magnitude.units_pos_iff m
      have hn := @Magnitude.units_pos_iff n
      cases s <;> cases t <;> cases hx <;> cases hy <;> simp only [lt, decide_eq_true_eq, Bool.or_eq_true, bne_iff_ne]
      · omega
      · simp only [Bool.false_eq_true, false_iff]
        omega
      · omega
      · omega

/-- The number is no less than an integer. Of the numbers without a value only
    positive infinity is. -/
def AtLeast (x : Binary64) (n : Int) : Prop :=
  x = infinite false ∨ ∃ units, x.units? = some units ∧ n * unitsInOne ≤ units

private theorem atLeast_iff_of_units {x : Binary64} {n units : Int} (hx : x.units? = some units) :
    x.AtLeast n ↔ n * unitsInOne ≤ units := by
  constructor
  · rintro (rfl | ⟨v, hv, hle⟩)
    · cases hx
    · cases hx.symm.trans hv
      exact hle
  · exact fun h => .inr ⟨units, hx, h⟩

instance (x : Binary64) (n : Int) : Decidable (x.AtLeast n) :=
  match x with
  | nan => isFalse (by rintro (h | ⟨_, h, _⟩) <;> cases h)
  | infinite true => isFalse (by rintro (h | ⟨_, h, _⟩) <;> cases h)
  | infinite false => isTrue (.inl rfl)
  | finite false m => decidable_of_iff (n * unitsInOne ≤ m.units) (atLeast_iff_of_units rfl).symm
  | finite true m => decidable_of_iff (n * unitsInOne ≤ -m.units) (atLeast_iff_of_units rfl).symm

/-- What is not less than a number is at least what the number is, provided it
    is a number itself: NaN is less than nothing. -/
theorem AtLeast.of_lt_eq_false {x y : Binary64} {n : Int} (hy : y.AtLeast n) (hlt : x.lt y = false) (hx : x ≠ nan) :
    x.AtLeast n := by
  cases x with
  | nan => exact absurd rfl hx
  | infinite s =>
    left
    obtain rfl | ⟨v, hv, -⟩ := hy
    · simpa [lt] using hlt
    · cases y with
      | finite t n => exact congrArg infinite hlt
      | _ => cases hv
  | finite s m =>
    obtain rfl | ⟨v, hv, hle⟩ := hy
    · cases hlt
    · obtain ⟨u, hu⟩ : ∃ u, (finite s m).units? = some u := by cases s <;> exact ⟨_, rfl⟩
      rw [atLeast_iff_of_units hu]
      have hnot : ¬ u < v := by rw [← lt_iff_units hu hv, hlt]; exact Bool.false_ne_true
      omega

/-- No number is less than itself, NaN and the infinities included. -/
theorem lt_self (x : Binary64) : x.lt x = false := by
  cases x with
  | nan => rfl
  | infinite s => cases s <;> rfl
  | finite s m => cases s <;> simp [lt]

end Brokerage.Binary64
