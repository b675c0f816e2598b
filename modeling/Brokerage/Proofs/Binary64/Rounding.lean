import Brokerage.Binary64.Arithmetic
import Brokerage.Proofs.Binary64.Order

namespace Brokerage.Binary64

private theorem pow_two_add (m n : Nat) : Nat.pow 2 (m + n) = Nat.pow 2 m * Nat.pow 2 n :=
  Nat.pow_add 2 m n

theorem pow_two_pos (n : Nat) : 0 < Nat.pow 2 n :=
  Nat.pow_pos (by decide)

private theorem pow_two_52 : Nat.pow 2 52 = binade := by decide

theorem pow_two_eq_unitsInOne {n : Nat} (h : n = 1074) : Nat.pow 2 n = unitsInOne := by
  unfold unitsInOne
  congr

private theorem pow_two_53 : Nat.pow 2 53 = 2 * binade := by decide

/-- The leading 53 bits of a number count the steps of the grid that it lies
    on. -/
theorem onGrid_leading (n : Nat) :
    OnGrid (n.log2 - 52) (n / Nat.pow 2 (n.log2 - 52)) ∧ n / Nat.pow 2 (n.log2 - 52) < 2 * binade := by
  have htop : n < Nat.pow 2 (n.log2 + 1) := Nat.lt_log2_self
  have hpos := pow_two_pos (n.log2 - 52)
  have hlt : n / Nat.pow 2 (n.log2 - 52) < 2 * binade := by
    rw [Nat.div_lt_iff_lt_mul hpos, ← pow_two_53, ← pow_two_add]
    exact Nat.lt_of_lt_of_le htop (Nat.pow_le_pow_right (by decide) (by omega))
  refine ⟨⟨Nat.le_of_lt hlt, ?_⟩, hlt⟩
  by_cases hshort : n.log2 ≤ 52
  · exact .inl (by omega)
  · have hne : n ≠ 0 := by
      rintro rfl
      exact hshort (by decide)
    have hbottom : Nat.pow 2 n.log2 ≤ n := Nat.log2_self_le hne
    right
    rw [Nat.le_div_iff_mul_le hpos, ← pow_two_52, ← pow_two_add]
    rwa [Nat.add_sub_cancel' (by omega)]

/-- The fraction lies between two neighbouring values. The upper one is taken
    past the middle, and in the middle if its rank is even. The comparison is
    made over one denominator, so it is one of natural numbers. -/
theorem exists_nearestRank_eq (num : Nat) {den : Nat} (hden : 0 < den) :
    ∃ rank, unitsAt rank * den ≤ num ∧ num < unitsAt (rank + 1) * den ∧
      nearestRank num den =
        if (unitsAt rank + unitsAt (rank + 1)) * den < 2 * num ∨
          ((unitsAt rank + unitsAt (rank + 1)) * den = 2 * num ∧ rank % 2 = 1) then rank + 1 else rank := by
  obtain ⟨hgrid, hlt⟩ := onGrid_leading (num / den)
  unfold nearestRank
  generalize (num / den).log2 - 52 = shift at hgrid hlt ⊢
  simp only
  rw [Nat.div_div_eq_div_mul] at hgrid hlt
  have hstep : 0 < den * Nat.pow 2 shift := Nat.mul_pos hden (pow_two_pos shift)
  have hsplit := Nat.div_add_mod num (den * Nat.pow 2 shift)
  have hrest := Nat.mod_lt num hstep
  generalize num / (den * Nat.pow 2 shift) = below at hgrid hlt hsplit ⊢
  generalize num % (den * Nat.pow 2 shift) = rest at hsplit hrest ⊢
  have hlower : unitsAt (shift * binade + below) * den = den * Nat.pow 2 shift * below := by
    rw [unitsAt_grid hgrid, Nat.mul_comm, Nat.mul_comm below, Nat.mul_assoc]
  have hupper : unitsAt (shift * binade + below + 1) * den = den * Nat.pow 2 shift * below + den * Nat.pow 2 shift := by
    rw [Nat.add_assoc, unitsAt_grid (hgrid.succ hlt), Nat.mul_comm, Nat.mul_comm (below + 1), ← Nat.mul_assoc,
      Nat.mul_succ]
  have hparity : (shift * binade + below) % 2 = below % 2 := by
    simp only [binade]
    omega
  refine ⟨shift * binade + below, ?_, ?_, ?_⟩
  · omega
  · omega
  · rw [Nat.add_mul, hlower, hupper, hparity]
    generalize den * Nat.pow 2 shift * below = base at *
    split <;> split <;> omega

/-- A value rounds to its own rank, over any denominator. -/
theorem nearestRank_unitsAt (rank : Nat) {den : Nat} (hden : 0 < den) :
    nearestRank (unitsAt rank * den) den = rank := by
  obtain ⟨other, hle, hlt, hnearest⟩ := exists_nearestRank_eq (unitsAt rank * den) hden
  have hother : other ≤ rank := unitsAt_le_iff.mp (Nat.le_of_mul_le_mul_right hle hden)
  have hrank : rank < other + 1 := unitsAt_lt_iff.mp (Nat.lt_of_mul_lt_mul_right hlt)
  obtain rfl : other = rank := by omega
  have hmiddle : 2 * (unitsAt other * den) < (unitsAt other + unitsAt (other + 1)) * den := by
    rw [Nat.add_mul]
    omega
  rw [hnearest, if_neg (by omega)]

/-- Rounding does not go past the next rank. The bound on the fraction is one on
    its value, and rounding up adds one step at most. -/
theorem nearestRank_le {num den bound : Nat} (hden : 0 < den) (h : num ≤ unitsAt bound * den) :
    nearestRank num den ≤ bound + 1 := by
  obtain ⟨rank, hle, -, hnearest⟩ := exists_nearestRank_eq num hden
  have hrank : rank ≤ bound := unitsAt_le_iff.mp (Nat.le_of_mul_le_mul_right (Nat.le_trans hle h) hden)
  rw [hnearest]
  split <;> omega

/-- Below the bound a rank is that of a finite number. -/
theorem ofRank_of_lt {negative : Bool} {rank : Nat} (h : rank < rankBound) :
    ofRank negative rank = finite negative ⟨rank, h⟩ := by
  rw [ofRank, dif_pos h]

private theorem ofRank_ne_nan (negative : Bool) (rank : Nat) : ofRank negative rank ≠ nan := by
  intro h
  rw [ofRank] at h
  split at h <;> cases h

private theorem ofUnits_units (negative : Bool) (m : Magnitude) : ofUnits negative m.units 1 = finite negative m := by
  have hrank : nearestRank (m.units * 1) 1 = m.rank := nearestRank_unitsAt m.rank Nat.one_pos
  rw [Nat.mul_one] at hrank
  rw [ofUnits, hrank, ofRank_of_lt m.rank_lt]

/-- The number 2^64 is a magnitude, far below the bound on ranks. -/
theorem unitsAt_two_pow_64 : unitsAt (1086 * binade + binade) = 0x10000000000000000 * unitsInOne := by
  rw [unitsAt_grid ⟨by decide, .inr (Nat.le_refl _)⟩]
  decide +kernel

private theorem exists_ofRatio_eq_finite (negative : Bool) {n : Nat} (h : n ≤ 0x10000000000000000) :
    ∃ m, ofRatio negative n 1 = finite negative m ∧ m.rank = nearestRank (n * unitsInOne) 1 := by
  have hle : nearestRank (n * unitsInOne) 1 ≤ 1086 * binade + binade + 1 := by
    refine nearestRank_le Nat.one_pos ?_
    rw [Nat.mul_one, unitsAt_two_pow_64]
    exact Nat.mul_le_mul_right unitsInOne h
  have hlt : nearestRank (n * unitsInOne) 1 < rankBound := Nat.lt_of_le_of_lt hle (by decide)
  exact ⟨⟨_, hlt⟩, by rw [ofRatio, ofUnits, ofRank_of_lt hlt], rfl⟩

/-- Integers of up to 64 bits, with or without a sign, become finite numbers:
    those of the rank that they round to. -/
theorem exists_ofInt_eq_finite {n : Int} (h : n.natAbs ≤ 0x10000000000000000) :
    ∃ m, ofInt n = finite (n < 0) m ∧ m.rank = nearestRank (n.natAbs * unitsInOne) 1 :=
  exists_ofRatio_eq_finite _ h

/-- Integers up to 2^53 are values of magnitudes. Above, only the even ones
    are. -/
theorem exists_unitsAt_eq {n : Nat} (h : n ≤ 0x20000000000000) : ∃ rank, unitsAt rank = n * unitsInOne := by
  by_cases hzero : n = 0
  · exact ⟨0, by rw [hzero, unitsAt_zero, Nat.zero_mul]⟩
  · have hbottom : Nat.pow 2 n.log2 ≤ n := Nat.log2_self_le hzero
    have htop : n < Nat.pow 2 (n.log2 + 1) := Nat.lt_log2_self
    -- Shifted up until 53 bits are taken, the number counts steps of its grid.
    have hgrid : OnGrid (1074 - (52 - n.log2)) (n * Nat.pow 2 (52 - n.log2)) := by
      refine ⟨?_, .inr ?_⟩
      · by_cases hlong : 52 < n.log2
        · rw [Nat.sub_eq_zero_of_le (Nat.le_of_lt hlong)]
          exact Nat.le_trans (Nat.le_of_eq (Nat.mul_one n)) h
        · rw [← pow_two_53]
          have hshift : n.log2 + 1 + (52 - n.log2) = 53 := by omega
          rw [← hshift, pow_two_add (n.log2 + 1)]
          exact Nat.mul_le_mul_right _ (Nat.le_of_lt htop)
      · refine Nat.le_trans ?_ (Nat.mul_le_mul_right _ hbottom)
        rw [← pow_two_add, ← pow_two_52]
        exact Nat.pow_le_pow_right (by decide) (by omega)
    have hshift : 52 - n.log2 + (1074 - (52 - n.log2)) = 1074 := by omega
    exact ⟨_, by rw [unitsAt_grid hgrid, Nat.mul_assoc, ← pow_two_add, pow_two_eq_unitsInOne hshift]⟩

/-- Integers up to 2^53 are not rounded, so the number is no less than the
    integer. The bound is needed: 2^53 + 1 is rounded down. -/
theorem ofInt_atLeast {n : Int} (h₀ : 0 ≤ n) (h : n ≤ 0x20000000000000) : (ofInt n).AtLeast n := by
  obtain ⟨m, hm, hrank⟩ := @exists_ofInt_eq_finite n (by omega)
  obtain ⟨rank, hunits⟩ := @exists_unitsAt_eq n.natAbs (by omega)
  have hexact : m.units = n.natAbs * unitsInOne := by
    have hkept := nearestRank_unitsAt rank Nat.one_pos
    rw [Nat.mul_one, hunits, ← hrank] at hkept
    rw [Magnitude.units, hkept, hunits]
  have hsign : decide (n < 0) = false := by simpa using h₀
  refine .inr ⟨m.units, by rw [hm, hsign]; rfl, ?_⟩
  exact Int.le_of_eq (by rw [hexact, Int.natCast_mul, Int.natAbs_of_nonneg h₀])

/-- The sum of two finite numbers may be infinite but is a number. -/
theorem add_finite_ne_nan (s t : Bool) (m n : Magnitude) : (finite s m).add (finite t n) ≠ nan := by
  intro h
  simp only [add] at h
  by_cases hsigns : s = t
  · rw [if_pos hsigns] at h
    exact ofRank_ne_nan _ _ h
  · rw [if_neg hsigns] at h
    by_cases hfirst : n.units < m.units
    · rw [if_pos hfirst] at h
      exact ofRank_ne_nan _ _ h
    · rw [if_neg hfirst] at h
      by_cases hsecond : m.units < n.units
      · rw [if_pos hsecond] at h
        exact ofRank_ne_nan _ _ h
      · rw [if_neg hsecond] at h
        cases h

/-- The difference of two finite numbers may be infinite but is a number. -/
theorem sub_finite_ne_nan (s t : Bool) (m n : Magnitude) : (finite s m).sub (finite t n) ≠ nan :=
  add_finite_ne_nan s (!t) m n

/-- Nothing is lost by taking nothing away, whatever the number. -/
theorem sub_zero (s : Bool) (m : Magnitude) : (finite s m).sub zero = finite s m := by
  have hzero : Magnitude.zero.units = 0 := unitsAt_zero
  simp only [sub, zero, neg, add, hzero, Nat.add_zero, Nat.sub_zero, ofUnits_units, Nat.not_lt_zero, if_false]
  cases s with
  | true => rfl
  | false =>
    simp only [Bool.not_false, Bool.false_eq_true, if_false]
    split
    · rfl
    · next hpos => rw [Magnitude.units_eq_zero_iff.mp (Nat.eq_zero_of_not_pos hpos)]

end Brokerage.Binary64
