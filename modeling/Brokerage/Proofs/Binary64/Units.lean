import Brokerage.Binary64.Basic

namespace Brokerage.Binary64

theorem binade_pos : 0 < binade := by decide

theorem pow_two_succ (exponent : Nat) : Nat.pow 2 (exponent + 1) = 2 * Nat.pow 2 exponent :=
  Nat.mul_comm _ _

/-- The distance from the magnitude at `rank` to the next, in units. -/
def gap (rank : Nat) : Nat :=
  Nat.pow 2 (rank / binade - 1)

private theorem gap_pos (rank : Nat) : 0 < gap rank :=
  Nat.pow_pos (by decide)

/-- A grid is a stretch of ranks whose values are the multiples `count` of one
    power of two. It starts at zero if the power is one, and half way up
    otherwise. -/
structure OnGrid (shift count : Nat) : Prop where
  count_le : count ≤ 2 * binade
  le_count : shift = 0 ∨ binade ≤ count

/-- The next value of a grid is on it too, up to where the next binade
    begins. -/
theorem OnGrid.succ {shift count : Nat} (h : OnGrid shift count) (hlt : count < 2 * binade) :
    OnGrid shift (count + 1) :=
  ⟨hlt, h.le_count.imp_right fun hle => Nat.le_succ_of_le hle⟩

/-- On a grid a value is the number of its steps times the power of two that is
    the step. -/
theorem unitsAt_grid {shift count : Nat} (h : OnGrid shift count) :
    unitsAt (shift * binade + count) = count * Nat.pow 2 shift := by
  have hpos := binade_pos
  by_cases hlow : count < binade
  · -- Subnormal magnitudes lie in the first binade only.
    obtain rfl : shift = 0 := h.le_count.resolve_right (by omega)
    rw [unitsAt, if_pos (by omega)]
    simp
  · have hnormal : ¬ shift * binade + count < binade := by omega
    rw [unitsAt, if_neg hnormal]
    by_cases htop : count = 2 * binade
    · have hrank : shift * binade + count = (shift + 2) * binade := by rw [htop, Nat.add_mul]
      rw [hrank, Nat.mul_mod_left, Nat.mul_div_cancel _ hpos, htop, Nat.add_zero, Nat.mul_comm 2, Nat.mul_assoc]
      rw [Nat.succ_sub_one, pow_two_succ]
    · have hcount := h.count_le
      have hrank : shift * binade + count = (count - binade) + (shift + 1) * binade := by
        rw [Nat.add_mul]
        omega
      rw [hrank, Nat.add_mul_mod_self_right, Nat.add_mul_div_right _ _ hpos, Nat.mod_eq_of_lt (by omega),
        Nat.div_eq_of_lt (by omega), Nat.add_sub_cancel' (by omega), Nat.zero_add, Nat.add_sub_cancel]

/-- Every rank is on the grid that has a next value for it. -/
theorem exists_onGrid (rank : Nat) :
    ∃ shift count, OnGrid shift count ∧ count < 2 * binade ∧ rank = shift * binade + count ∧
      gap rank = Nat.pow 2 shift := by
  have hpos := binade_pos
  have hdiv := Nat.div_add_mod' rank binade
  have hmod := Nat.mod_lt rank hpos
  cases hquotient : rank / binade with
  | zero =>
    rw [hquotient] at hdiv
    exact ⟨0, rank, ⟨by omega, .inl rfl⟩, by omega, by omega, by rw [gap, hquotient]⟩
  | succ shift =>
    rw [hquotient, Nat.add_mul] at hdiv
    exact ⟨shift, rank % binade + binade, ⟨by omega, .inr (by omega)⟩, by omega, by omega, by
      rw [gap, hquotient, Nat.add_sub_cancel]⟩

/-- One rank further is one gap further, across the ends of binades too, where
    the gap doubles. -/
theorem unitsAt_succ (rank : Nat) : unitsAt (rank + 1) = unitsAt rank + gap rank := by
  obtain ⟨shift, count, hgrid, hlt, hrank, hgap⟩ := exists_onGrid rank
  rw [hgap, hrank, Nat.add_assoc, unitsAt_grid (hgrid.succ hlt), unitsAt_grid hgrid, Nat.add_mul, Nat.one_mul]

theorem unitsAt_zero : unitsAt 0 = 0 := by
  rw [unitsAt, if_pos binade_pos]

/-- The values ascend with their ranks, so that comparing numbers is comparing
    places. -/
theorem unitsAt_lt {rank other : Nat} (h : rank < other) : unitsAt rank < unitsAt other := by
  induction h with
  | refl =>
    rw [unitsAt_succ]
    exact Nat.lt_add_of_pos_right (gap_pos rank)
  | step _ ih =>
    rw [unitsAt_succ]
    exact Nat.lt_add_right _ ih

theorem unitsAt_lt_iff {rank other : Nat} : unitsAt rank < unitsAt other ↔ rank < other := by
  refine ⟨fun h => ?_, unitsAt_lt⟩
  rcases Nat.lt_trichotomy rank other with hlt | rfl | hgt
  · exact hlt
  · exact absurd h (Nat.lt_irrefl _)
  · exact absurd (unitsAt_lt hgt) (Nat.lt_asymm h)

theorem unitsAt_le_iff {rank other : Nat} : unitsAt rank ≤ unitsAt other ↔ rank ≤ other := by
  rw [← Nat.not_lt, unitsAt_lt_iff, Nat.not_lt]

end Brokerage.Binary64
