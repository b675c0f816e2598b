import Brokerage.Proofs.Binary64.Rounding
import Mathlib.Algebra.Order.Field.Basic
import Mathlib.Algebra.Order.Field.Rat
import Mathlib.Tactic.FieldSimp
import Mathlib.Tactic.Linarith
import Mathlib.Tactic.Positivity

namespace Brokerage.Binary64

/-- The value of the magnitude at `rank`. -/
def valueAt (rank : Nat) : ℚ :=
  unitsAt rank / unitsInOne

/-- The value of a finite number, `none` for the others. -/
def value? (x : Binary64) : Option ℚ :=
  x.units?.map fun (units : Int) => (units : ℚ) / unitsInOne

/-- No finite number is nearer to the rational. -/
def IsNearest (x : Binary64) (q : ℚ) : Prop :=
  ∃ v, x.value? = some v ∧ ∀ (y : Binary64) (w : ℚ), y.value? = some w → |v - q| ≤ |w - q|

/-- The middle between the values at `rank` and at the rank before it. -/
def lower (rank : Nat) : ℚ :=
  (valueAt (rank - 1) + valueAt rank) / 2

/-- The middle between the values at `rank` and at the next rank. -/
def upper (rank : Nat) : ℚ :=
  (valueAt rank + valueAt (rank + 1)) / 2

/-- The rational is rounded to the rank: it lies between the middles to both
    neighbours, a tie going to the even one. -/
structure RoundsTo (q : ℚ) (rank : Nat) : Prop where
  lower_le : lower rank ≤ q
  le_upper : q ≤ upper rank
  inside : rank % 2 = 1 → lower rank < q ∧ q < upper rank

theorem unitsInOne_pos : (0 : ℚ) < unitsInOne := by
  have hpos : ∀ n, n = 1074 → 0 < unitsInOne := fun n h => pow_two_eq_unitsInOne h ▸ pow_two_pos n
  exact Nat.cast_pos.mpr (hpos _ rfl)

/-- The values ascend with their ranks. -/
theorem valueAt_lt_iff {rank other : Nat} : valueAt rank < valueAt other ↔ rank < other := by
  rw [valueAt, valueAt, div_lt_div_iff_of_pos_right unitsInOne_pos, Nat.cast_lt, unitsAt_lt_iff]

theorem valueAt_le_iff {rank other : Nat} : valueAt rank ≤ valueAt other ↔ rank ≤ other := by
  rw [← not_lt, valueAt_lt_iff, not_lt]

theorem valueAt_zero : valueAt 0 = 0 := by
  rw [valueAt, unitsAt_zero, Nat.cast_zero, zero_div]

theorem valueAt_nonneg (rank : Nat) : 0 ≤ valueAt rank := by
  rw [← valueAt_zero, valueAt_le_iff]
  exact Nat.zero_le rank

/-- The middle below a rank is the middle above the one before it. -/
theorem lower_succ (rank : Nat) : lower (rank + 1) = upper rank := by
  rw [lower, upper, Nat.add_sub_cancel]

theorem lower_le_valueAt (rank : Nat) : lower rank ≤ valueAt rank := by
  have hbefore : valueAt (rank - 1) ≤ valueAt rank := valueAt_le_iff.mpr (Nat.sub_le rank 1)
  rw [lower]
  linarith

theorem valueAt_lt_upper (rank : Nat) : valueAt rank < upper rank := by
  have hnext : valueAt rank < valueAt (rank + 1) := valueAt_lt_iff.mpr (Nat.lt_succ_self rank)
  rw [upper]
  linarith

theorem lower_le_lower {rank other : Nat} (h : rank ≤ other) : lower rank ≤ lower other := by
  have hbefore : valueAt (rank - 1) ≤ valueAt (other - 1) := valueAt_le_iff.mpr (Nat.sub_le_sub_right h 1)
  have hat : valueAt rank ≤ valueAt other := valueAt_le_iff.mpr h
  rw [lower, lower]
  linarith

private theorem lower_lt_lower {rank other : Nat} (h : rank < other) : lower rank < lower other := by
  have hbefore : valueAt (rank - 1) ≤ valueAt (other - 1) := valueAt_le_iff.mpr (by omega)
  have hat : valueAt rank < valueAt other := valueAt_lt_iff.mpr h
  rw [lower, lower]
  linarith

/-- A value rounds to its own rank. -/
theorem roundsTo_valueAt (rank : Nat) : RoundsTo (valueAt rank) rank where
  lower_le := lower_le_valueAt rank
  le_upper := (valueAt_lt_upper rank).le
  inside hodd := by
    refine ⟨?_, valueAt_lt_upper rank⟩
    have hbefore : valueAt (rank - 1) < valueAt rank := valueAt_lt_iff.mpr (by omega)
    rw [lower]
    linarith

/-- What lies between two rationals that round to a rank rounds to it too.
    Whether the ends of the interval belong to it is decided by the parity of
    the rank, which is the same for all three. -/
theorem RoundsTo.between {p q r : ℚ} {rank : Nat} (hp : RoundsTo p rank) (hr : RoundsTo r rank) (hpq : p ≤ q)
    (hqr : q ≤ r) : RoundsTo q rank where
  lower_le := hp.lower_le.trans hpq
  le_upper := hqr.trans hr.le_upper
  inside hodd := ⟨(hp.inside hodd).1.trans_le hpq, hqr.trans_lt (hr.inside hodd).2⟩

/-- Rounding keeps the order. Two ranks could only change places in the middle
    between neighbours, where the tie goes to the same one for both. -/
theorem RoundsTo.le {p q : ℚ} {rank other : Nat} (hp : RoundsTo p rank) (hq : RoundsTo q other) (h : p ≤ q) :
    rank ≤ other := by
  by_contra! hlt
  -- The two would have to meet in the middle between neighbours, one of which is odd.
  have hbelow : lower (other + 1) ≤ lower rank := lower_le_lower hlt
  have hupper : lower (other + 1) = upper other := lower_succ other
  have hpLower := hp.lower_le
  have hqUpper := hq.le_upper
  have hnext : rank = other + 1 := by
    by_contra hne
    have hstrict : lower (other + 1) < lower rank := lower_lt_lower (by omega)
    linarith
  rcases Nat.mod_two_eq_zero_or_one other with heven | hodd
  · have hinside := (hp.inside (by omega)).1
    linarith
  · have hinside := (hq.inside hodd).2
    linarith

/-- A rational rounds to one rank. A middle lies between an even and an odd
    rank, and belongs to the interval of the even one alone. -/
theorem RoundsTo.unique {q : ℚ} {rank other : Nat} (h : RoundsTo q rank) (hother : RoundsTo q other) :
    rank = other :=
  Nat.le_antisymm (h.le hother le_rfl) (hother.le h le_rfl)

/-- Both sides over one denominator, so that a comparison of rationals is one of
    natural numbers. -/
private theorem upper_eq_div (rank : Nat) {den : Nat} (hden : 0 < den) :
    upper rank = ((unitsAt rank + unitsAt (rank + 1)) * den : Nat) / (2 * (den * unitsInOne)) := by
  have hone := unitsInOne_pos
  have hpos : (0 : ℚ) < den := Nat.cast_pos.mpr hden
  rw [upper, valueAt, valueAt, Nat.cast_mul, Nat.cast_add]
  generalize (unitsInOne : ℚ) = one at hone ⊢
  field_simp

private theorem fraction_eq_div (num : Nat) {den : Nat} (hden : 0 < den) :
    (num / den : ℚ) = (2 * (num * unitsInOne) : Nat) / (2 * (den * unitsInOne)) := by
  have hone := unitsInOne_pos
  have hpos : (0 : ℚ) < den := Nat.cast_pos.mpr hden
  rw [Nat.cast_mul, Nat.cast_mul, Nat.cast_ofNat]
  generalize (unitsInOne : ℚ) = one at hone ⊢
  field_simp

/-- The rank computed for a fraction is the one it rounds to. With
    `RoundsTo.unique` the relation and the computation say the same. -/
theorem roundsTo_nearestRank (num : Nat) {den : Nat} (hden : 0 < den) :
    RoundsTo (num / den) (nearestRank (num * unitsInOne) den) := by
  obtain ⟨rank, hle, hlt, hnearest⟩ := exists_nearestRank_eq (num * unitsInOne) hden
  have hpos : (0 : ℚ) < den := Nat.cast_pos.mpr hden
  have hone := unitsInOne_pos
  have hscale : (0 : ℚ) < 2 * (den * unitsInOne) := mul_pos two_pos (mul_pos hpos hone)
  have hbelow : valueAt rank ≤ num / den := by
    rw [valueAt, div_le_div_iff₀ hone hpos, ← Nat.cast_mul, ← Nat.cast_mul]
    exact Nat.cast_le.mpr hle
  have habove : (num / den : ℚ) < valueAt (rank + 1) := by
    rw [valueAt, div_lt_div_iff₀ hpos hone, ← Nat.cast_mul, ← Nat.cast_mul]
    exact Nat.cast_lt.mpr hlt
  have hcompare : (unitsAt rank + unitsAt (rank + 1)) * den < 2 * (num * unitsInOne) ↔ upper rank < num / den := by
    rw [upper_eq_div rank hden, fraction_eq_div num hden, div_lt_div_iff_of_pos_right hscale, Nat.cast_lt]
  have htie : (unitsAt rank + unitsAt (rank + 1)) * den = 2 * (num * unitsInOne) ↔ upper rank = num / den := by
    rw [upper_eq_div rank hden, fraction_eq_div num hden, div_left_inj' hscale.ne', Nat.cast_inj]
  have hlow := lower_le_valueAt rank
  have hhigh := valueAt_lt_upper (rank + 1)
  rw [hnearest]
  split
  · next hup =>
    rw [hcompare, htie] at hup
    have hmiddle : upper rank ≤ num / den := hup.elim le_of_lt fun h => h.1.le
    refine ⟨by rwa [lower_succ], by linarith, fun hodd => ⟨?_, by linarith⟩⟩
    rw [lower_succ]
    exact hup.resolve_right fun h => by omega
  · next hdown =>
    rw [hcompare, htie, not_or, not_and] at hdown
    obtain ⟨hnot, hodd⟩ := hdown
    have hmiddle : (num / den : ℚ) ≤ upper rank := not_lt.mp hnot
    refine ⟨by linarith, hmiddle, fun h => ⟨?_, lt_of_le_of_ne hmiddle fun heq => hodd heq.symm h⟩⟩
    exact ((roundsTo_valueAt rank).inside h).1.trans_le hbelow

/-- From the second binade on, a step is at most a 2^52nd part of the value it
    starts from. In the first binade all steps are one unit, and for small
    values that is more. -/
theorem valueAt_succ_le {rank : Nat} (h : binade ≤ rank) :
    valueAt (rank + 1) - valueAt rank ≤ valueAt rank / binade := by
  obtain ⟨shift, count, hgrid, -, rfl, hgap⟩ := exists_onGrid rank
  have hone := unitsInOne_pos
  have hbinade : (0 : ℚ) < binade := Nat.cast_pos.mpr binade_pos
  have hcount : binade ≤ count := by
    rcases hgrid.le_count with rfl | hle
    · omega
    · exact hle
  have hstep : gap (shift * binade + count) * binade ≤ unitsAt (shift * binade + count) := by
    rw [hgap, unitsAt_grid hgrid, Nat.mul_comm]
    exact Nat.mul_le_mul_right _ hcount
  have hdiff : valueAt (shift * binade + count + 1) - valueAt (shift * binade + count) =
      gap (shift * binade + count) / unitsInOne := by
    rw [valueAt, valueAt, unitsAt_succ, Nat.cast_add, add_div, add_sub_cancel_left]
  rw [hdiff, le_div_iff₀ hbinade, valueAt, div_mul_eq_mul_div, div_le_div_iff_of_pos_right hone, ← Nat.cast_mul]
  exact Nat.cast_le.mpr hstep

/-- The steps never become shorter as the ranks ascend. -/
theorem valueAt_succ_mono {rank other : Nat} (h : rank ≤ other) :
    valueAt (rank + 1) - valueAt rank ≤ valueAt (other + 1) - valueAt other := by
  have hgap : gap rank ≤ gap other :=
    Nat.pow_le_pow_right (by decide) (Nat.sub_le_sub_right (Nat.div_le_div_right h) 1)
  simp only [valueAt, unitsAt_succ, Nat.cast_add, add_div, add_sub_cancel_left]
  exact (div_le_div_iff_of_pos_right unitsInOne_pos).mpr (Nat.cast_le.mpr hgap)

/-- Two rationals that round to one rank are no further apart than a step, from
    the second binade on. -/
theorem RoundsTo.sub_le {p q : ℚ} {rank : Nat} (hp : RoundsTo p rank) (hq : RoundsTo q rank) (h : binade ≤ rank) :
    |p - q| ≤ valueAt rank / binade := by
  have hstep := valueAt_succ_le h
  have hbefore := valueAt_succ_mono (Nat.sub_le rank 1)
  rw [Nat.sub_add_cancel (Nat.le_trans binade_pos h)] at hbefore
  have hpLower := hp.lower_le
  have hpUpper := hp.le_upper
  have hqLower := hq.lower_le
  have hqUpper := hq.le_upper
  rw [lower] at hpLower hqLower
  rw [upper] at hpUpper hqUpper
  rw [abs_le]
  constructor <;> linarith

/-- No rank is nearer than the one that is rounded to. This needs the intervals
    to end in the middles, and the ranks to ascend with their values. -/
theorem RoundsTo.nearest {q : ℚ} {rank : Nat} (h : RoundsTo q rank) (other : Nat) :
    |valueAt rank - q| ≤ |valueAt other - q| := by
  have hlower := h.lower_le
  have hupper := h.le_upper
  rw [lower] at hlower
  rw [upper] at hupper
  rcases Nat.lt_trichotomy other rank with hlt | rfl | hgt
  · have hother : valueAt other ≤ valueAt (rank - 1) := valueAt_le_iff.mpr (by omega)
    have hrank : valueAt other ≤ valueAt rank := valueAt_le_iff.mpr hlt.le
    refine (abs_le.mpr ⟨?_, ?_⟩).trans (neg_le_abs _) <;> linarith
  · exact le_rfl
  · have hother : valueAt (rank + 1) ≤ valueAt other := valueAt_le_iff.mpr hgt
    have hrank : valueAt rank ≤ valueAt other := valueAt_le_iff.mpr hgt.le
    refine (abs_le.mpr ⟨?_, ?_⟩).trans (le_abs_self _) <;> linarith

/-- The value of a finite number is that of its magnitude, with its sign. -/
theorem value?_finite (s : Bool) (m : Magnitude) :
    (finite s m).value? = some (if s then -valueAt m.rank else valueAt m.rank) := by
  cases s
  · rw [value?, units?, Option.map_some, Int.cast_natCast, valueAt, Magnitude.units, if_neg Bool.false_ne_true]
  · rw [value?, units?, Option.map_some, Int.cast_neg, Int.cast_natCast, neg_div, valueAt, Magnitude.units, if_pos rfl]

/-- Only finite numbers have a value. -/
theorem exists_finite_of_value? {x : Binary64} {v : ℚ} (h : x.value? = some v) : ∃ s m, x = finite s m := by
  cases x with
  | finite s m => exact ⟨s, m, rfl⟩
  | _ => cases h

/-- The distance from a number with the sign of the rational is that between the
    magnitudes. -/
private theorem abs_signed_sub {q v : ℚ} {s : Bool} (hsign : if s then q ≤ 0 else 0 ≤ q) :
    |(if s then -v else v) - q| = |v - (|q|)| := by
  cases s
  · simp only [Bool.false_eq_true, if_false] at hsign ⊢
    rw [abs_of_nonneg hsign]
  · simp only [if_true] at hsign ⊢
    rw [abs_of_nonpos hsign, ← abs_neg, neg_sub, sub_neg_eq_add, sub_neg_eq_add, add_comm]

/-- The sign of a rational, taken for zero as that of the positive ones, fits
    the rational. -/
theorem signed_of_lt (q : ℚ) : if decide (q < 0) then q ≤ 0 else 0 ≤ q := by
  by_cases hq : q < 0
  · simpa [hq] using hq.le
  · simpa [hq] using not_lt.mp hq

/-- The number of the sign and of the rank that the magnitude rounds to is the
    nearest number. For zero either sign will do. -/
theorem isNearest_of_roundsTo {q : ℚ} {s : Bool} {m : Magnitude} (h : RoundsTo |q| m.rank)
    (hsign : if s then q ≤ 0 else 0 ≤ q) : (finite s m).IsNearest q := by
  refine ⟨_, value?_finite s m, fun y w hw => ?_⟩
  obtain ⟨t, n, rfl⟩ := exists_finite_of_value? hw
  rw [value?_finite, Option.some.injEq] at hw
  have hmagnitude : |w| = valueAt n.rank := by
    rw [← hw, apply_ite abs, abs_neg, ite_self, abs_of_nonneg (valueAt_nonneg _)]
  calc |(if s then -valueAt m.rank else valueAt m.rank) - q|
      = |valueAt m.rank - (|q|)| := abs_signed_sub hsign
    _ ≤ |valueAt n.rank - (|q|)| := h.nearest n.rank
    _ = |(|w|) - (|q|)| := by rw [hmagnitude]
    _ ≤ |w - q| := abs_abs_sub_abs_le_abs_sub w q

private theorem middle_le_of_abs_le {a b q : ℚ} (hlt : b < a) (h : |a - q| ≤ |b - q|) : (b + a) / 2 ≤ q := by
  by_contra! hq
  have hnearer : |b - q| < a - q := abs_lt.mpr ⟨by linarith, by linarith⟩
  exact absurd (h.trans_lt hnearer) (not_lt.mpr (le_abs_self _))

private theorem le_middle_of_abs_le {a b q : ℚ} (hlt : a < b) (h : |a - q| ≤ |b - q|) : q ≤ (a + b) / 2 := by
  by_contra! hq
  have hnearer : |b - q| < q - a := abs_lt.mpr ⟨by linarith, by linarith⟩
  exact absurd (h.trans_lt hnearer) (not_lt.mpr (neg_sub a q ▸ neg_le_abs _))

/-- The nearest number has the sign of the rational and lies between the middles
    to its neighbours. The rational has to lie between the smallest and the
    largest magnitude: below, the nearest number may be a zero of either sign,
    and above it has a neighbour on one side only. -/
theorem IsNearest.exists_finite {x : Binary64} {q : ℚ} (h : x.IsNearest q) (hlow : valueAt 1 ≤ |q|)
    (hhigh : |q| ≤ valueAt (rankBound - 1)) :
    ∃ m, x = finite (q < 0) m ∧ lower m.rank ≤ |q| ∧ |q| ≤ upper m.rank := by
  obtain ⟨v, hv, hnearest⟩ := h
  obtain ⟨s, m, rfl⟩ := exists_finite_of_value? hv
  rw [value?_finite, Option.some.injEq] at hv
  have hdistance (n : Magnitude) : |v - q| ≤ |valueAt n.rank - (|q|)| :=
    (hnearest (finite (q < 0) n) _ (value?_finite _ n)).trans_eq (abs_signed_sub (signed_of_lt q))
  -- The smallest positive magnitude with the sign of the rational is nearer than anything of the other sign.
  have hsign : s = decide (q < 0) := by
    have hfirst : 0 < valueAt 1 := valueAt_zero ▸ valueAt_lt_iff.mpr Nat.one_pos
    have hvalue := valueAt_nonneg m.rank
    have hone := hdistance ⟨1, by decide⟩
    rw [abs_of_nonpos (a := valueAt 1 - (|q|)) (by linarith)] at hone
    by_contra hne
    by_cases hq : q < 0
    · simp only [hq, decide_true, Bool.not_eq_true] at hne
      rw [hne, if_neg Bool.false_ne_true] at hv
      rw [← hv, abs_of_neg hq, abs_of_nonneg (by linarith)] at hone
      linarith
    · simp only [hq, decide_false, Bool.not_eq_false] at hne
      rw [hne, if_pos rfl] at hv
      rw [← hv, abs_of_nonneg (not_lt.mp hq), abs_of_nonpos (by linarith [not_lt.mp hq])] at hone
      linarith
  subst hsign
  rw [← hv, abs_signed_sub (signed_of_lt q)] at hdistance
  refine ⟨m, rfl, ?_, ?_⟩
  · by_cases hzero : m.rank = 0
    · rw [lower, hzero, valueAt_zero]
      simp
    · have hbefore : valueAt (m.rank - 1) < valueAt m.rank := valueAt_lt_iff.mpr (by omega)
      exact middle_le_of_abs_le hbefore (hdistance ⟨m.rank - 1, by have := m.rank_lt; omega⟩)
  · by_cases htop : m.rank + 1 < rankBound
    · exact le_middle_of_abs_le (valueAt_lt_iff.mpr (Nat.lt_succ_self _)) (hdistance ⟨m.rank + 1, htop⟩)
    · have hlast : m.rank = rankBound - 1 := by have := m.rank_lt; omega
      exact (hlast ▸ hhigh).trans (valueAt_lt_upper _).le

/-- Only the two zeros are nearest to zero. Both are at no distance from it,
    which no other finite number is. -/
theorem IsNearest.eq_zero {x : Binary64} (h : x.IsNearest 0) : ∃ s, x = finite s .zero := by
  obtain ⟨v, hv, hnearest⟩ := h
  obtain ⟨s, m, rfl⟩ := exists_finite_of_value? hv
  have hzero : v = 0 := by
    have hnearer := hnearest (finite false .zero) 0 (by rw [value?_finite]; simp [Magnitude.zero, valueAt_zero])
    simpa using hnearer
  rw [value?_finite, hzero, Option.some.injEq] at hv
  have hvalue : valueAt m.rank = valueAt 0 := by
    rw [valueAt_zero]
    cases s <;> simpa using hv
  have hrank : m.rank ≤ 0 := valueAt_le_iff.mp hvalue.le
  refine ⟨s, ?_⟩
  cases m
  simp_all [Magnitude.zero]

end Brokerage.Binary64
