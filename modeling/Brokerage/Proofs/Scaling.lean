import Brokerage.Proofs.Binary64.Text
import Brokerage.Scaling
import Mathlib.Algebra.Order.Floor.Semifield

namespace Brokerage

namespace Binary64

/-- The whole number of ones in a magnitude is the integer part of its value. -/
theorem units_div_eq_floor (m : Magnitude) : m.units / unitsInOne = ⌊valueAt m.rank⌋₊ := by
  rw [valueAt, Nat.floor_div_eq_div]
  rfl

/-- The integer part of a number that fits in 64 bits is cut off toward zero,
    whatever the sign. Beyond that bound the largest or smallest integer is
    taken instead. -/
theorem toInt_toInt64 (s : Bool) {m : Magnitude} (h : ⌊valueAt m.rank⌋₊ < 2 ^ 63) :
    (finite s m).toInt64.toInt = if s then -(⌊valueAt m.rank⌋₊ : Int) else ⌊valueAt m.rank⌋₊ := by
  have hfits : ¬0x8000000000000000 ≤ ⌊valueAt m.rank⌋₊ := by omega
  rw [toInt64]
  simp only [units_div_eq_floor, if_neg hfits]
  split
  · exact Int64.toInt_ofInt_of_le (by omega) (by omega)
  · exact Int64.toInt_ofInt_of_le (by omega) (by omega)

/-- The values of the first two binades are far below the decimals that are
    scaled. -/
private theorem valueAt_binade_succ_lt : valueAt (binade + 1) < 10 ^ (-300 : Int) := by
  have hone := unitsInOne_pos
  have hunits : ∀ places, places = 300 → unitsAt (binade + 1) * Nat.pow 10 places < unitsInOne := by
    rintro places rfl
    decide +kernel
  obtain ⟨places, hplaces⟩ : ∃ places : Nat, places = 300 := ⟨_, rfl⟩
  have hexponent : (-300 : Int) = -(places : Int) := by omega
  have hscale : (0 : ℚ) < 10 ^ places := by positivity
  rw [hexponent, zpow_neg, zpow_natCast, valueAt, ← one_div, div_lt_div_iff₀ hone hscale, one_mul]
  exact_mod_cast hunits places hplaces

private theorem lt_rank_of_le_upper {rank : Nat} (h : 10 ^ (-300 : Int) ≤ upper rank) : binade < rank := by
  by_contra! hle
  have hupper : upper rank ≤ valueAt (binade + 1) :=
    calc upper rank
      _ = lower (rank + 1) := (lower_succ rank).symm
      _ ≤ lower (binade + 1) := lower_le_lower (Nat.succ_le_succ hle)
      _ ≤ valueAt (binade + 1) := lower_le_valueAt _
  exact absurd (h.trans hupper) (not_le.mpr valueAt_binade_succ_lt)

private theorem cutoff_le : (10 : ℚ) ^ (-330 : Int) ≤ 10 ^ (-300 : Int) :=
  zpow_le_zpow_right₀ (by norm_num) (by norm_num)

/-- Every decimal that is scaled lies between the smallest and the largest
    magnitude. -/
private theorem valueAt_bounds {q : ℚ} (hlow : 10 ^ (-300 : Int) ≤ q) (hhigh : q < 2 ^ 53) :
    valueAt 1 ≤ q ∧ q ≤ valueAt (rankBound - 1) := by
  have hfirst : valueAt 1 ≤ valueAt (binade + 1) := valueAt_le_iff.mpr (by omega)
  have hlast : valueAt (1086 * binade + binade) ≤ valueAt (rankBound - 1) := valueAt_le_iff.mpr (by decide)
  rw [valueAt_two_pow_64] at hlast
  exact ⟨hfirst.trans (valueAt_binade_succ_lt.le.trans hlow), by linarith⟩

end Binary64

namespace Scaling

open Binary64

/-- The integer part of a rational, toward zero. -/
def truncated (q : ℚ) : Int :=
  if 0 ≤ q then ⌊q⌋ else ⌈q⌉

private theorem truncated_eq (q : ℚ) : truncated q = if q < 0 then -(⌊|q|⌋₊ : Int) else ⌊|q|⌋₊ := by
  rw [truncated]
  rcases lt_or_ge q 0 with hneg | hnonneg
  · rw [if_neg (not_le.mpr hneg), if_pos hneg, abs_of_neg hneg, Int.natCast_floor_eq_floor (by linarith), Int.floor_neg,
      neg_neg]
  · rw [if_pos hnonneg, if_neg (not_lt.mpr hnonneg), abs_of_nonneg hnonneg, Int.natCast_floor_eq_floor hnonneg]

private theorem truncated_intCast (n : Int) : truncated n = n := by
  rw [truncated, Int.floor_intCast, Int.ceil_intCast, ite_self]

/-- Either zero is scaled to zero, by any number of digits. -/
theorem toInt_zero (s : Bool) (digits : UInt32) : toInt (finite s .zero) digits = 0 := by
  rw [toInt, readChars?_zero, Option.getD_some]
  cases s <;> decide +kernel

/-- A decimal of at most fifteen digits, as it was rounded to the number, is
    scaled exactly. Fifteen digits are what a number keeps through its text, so
    the text read again is that of the decimal; the bound on the scaled value
    keeps its integer part exact, and the lower bound keeps away from the
    numbers with fewer digits. -/
theorem toInt_toInt_finite (s : Bool) {m : Magnitude} {d : Decimal} {digits : UInt32} (hpos : 0 < d.digits)
    (hdigits : d.digits < 10 ^ 15) (hlow : 10 ^ (-300 : Int) ≤ d.value)
    (hscaled : d.value * 10 ^ (digits.toNat : Int) < 2 ^ 53) (hlower : lower m.rank ≤ d.value)
    (hupper : d.value ≤ upper m.rank) :
    (toInt (finite s m) digits).toInt =
      if s then -(⌊d.value * 10 ^ (digits.toNat : Int)⌋₊ : Int) else ⌊d.value * 10 ^ (digits.toNat : Int)⌋₊ := by
  have hvalue := Decimal.value_pos hpos
  have hgrow : d.value ≤ d.value * 10 ^ (digits.toNat : Int) :=
    le_mul_of_one_le_right hvalue.le (one_le_zpow₀ (by norm_num) (Int.natCast_nonneg _))
  have hnormal := lt_rank_of_le_upper (hlow.trans hupper)
  have hrounds := roundsTo_of_between hpos hdigits (hgrow.trans_lt hscaled) hnormal hlower hupper
  -- The text is that of the decimal itself, and moving its point gives the scaled decimal.
  obtain ⟨read, hread, hmoved⟩ := exists_readChars?_plain s (Nat.ne_of_gt (Nat.zero_lt_of_lt hnormal)) digits.toNat
  rw [shortest_value .up hrounds hdigits hnormal.le] at hmoved
  have hreadPos : 0 < read.digits := by
    by_contra! hzero
    rw [Decimal.value, Nat.le_zero.mp hzero, Nat.cast_zero, zero_mul] at hmoved
    linarith
  have hcut := cutoff_le
  obtain ⟨n, hdecimal, hresult⟩ := exists_ofDecimal_eq s hreadPos (by linarith) (by linarith)
  -- The scaled decimal has the digits of the decimal.
  have hshift : read.value = Decimal.value ⟨d.digits, d.exponent + digits.toNat⟩ := by
    rw [hmoved, Decimal.value, Decimal.value, zpow_add₀ (by norm_num), mul_assoc]
  have hfloor : ⌊valueAt n.rank⌋₊ = ⌊read.value⌋₊ := by
    rw [hshift] at hresult ⊢
    exact floor_valueAt hdigits (by linarith) hresult
  have hsmall : ⌊valueAt n.rank⌋₊ < 2 ^ 63 := by
    rw [hfloor, Nat.floor_lt (by linarith), hmoved]
    push_cast
    linarith
  rw [toInt, hread, Option.getD_some, hdecimal, toInt_toInt64 s hsmall, hfloor, hmoved]

private theorem abs_decimal (m e : Int) : |(m * 10 ^ e : ℚ)| = Decimal.value ⟨m.natAbs, e⟩ := by
  rw [abs_mul, abs_of_pos (ten_zpow_pos e), Decimal.value, Nat.cast_natAbs, Int.cast_abs]

private theorem decimal_neg_iff (m e : Int) : (m * 10 ^ e : ℚ) < 0 ↔ m < 0 := by
  rw [← not_le, mul_nonneg_iff_of_pos_right (ten_zpow_pos e), Int.cast_nonneg_iff, not_le]

/-- The decimal `m * 10 ^ e` is scaled to its exact multiple, cut off toward
    zero. It may be of any sign, or zero, and the number has to be the nearest
    one to it. -/
theorem toInt_toInt_eq {number : Binary64} {m e : Int} {digits : UInt32} (hm : m.natAbs < 10 ^ 15)
    (hlow : m = 0 ∨ (10 : ℚ) ^ (-300 : Int) ≤ |(m * 10 ^ e : ℚ)|)
    (hscaled : |(m * 10 ^ e : ℚ)| * 10 ^ digits.toNat < 2 ^ 53) (hnearest : number.IsNearest (m * 10 ^ e)) :
    (toInt number digits).toInt = truncated (m * 10 ^ e * 10 ^ digits.toNat) := by
  by_cases hzero : m = 0
  · rw [hzero, Int.cast_zero, zero_mul] at hnearest ⊢
    obtain ⟨s, rfl⟩ := hnearest.eq_zero
    rw [toInt_zero, zero_mul]
    exact (truncated_intCast 0).symm
  have hlow := hlow.resolve_left hzero
  have habs := abs_decimal m e
  have hpower : (1 : ℚ) ≤ 10 ^ digits.toNat := one_le_pow₀ (by norm_num)
  have hbound : |(m * 10 ^ e : ℚ)| < 2 ^ 53 := (le_mul_of_one_le_right (abs_nonneg _) hpower).trans_lt hscaled
  obtain ⟨hfirst, hlast⟩ := valueAt_bounds hlow hbound
  obtain ⟨n, rfl, hlower, hupper⟩ := hnearest.exists_finite hfirst hlast
  have hpowerPos : (0 : ℚ) < 10 ^ digits.toNat := by positivity
  have hsign : (m * 10 ^ e * 10 ^ digits.toNat : ℚ) < 0 ↔ (m * 10 ^ e : ℚ) < 0 := by
    rw [← not_le, mul_nonneg_iff_of_pos_right hpowerPos, not_le]
  rw [habs] at hlow hscaled hlower hupper
  rw [toInt_toInt_finite _ (Int.natAbs_pos.mpr hzero) hm hlow (by rwa [zpow_natCast]) hlower hupper, truncated_eq,
    abs_mul, habs, abs_of_pos hpowerPos, zpow_natCast]
  simp only [decide_eq_true_eq, hsign]

/-- An integer of at most fifteen digits, with its point moved down by at most
    300 places, keeps to the bounds under which decimals are scaled exactly. -/
theorem shiftedDown_bounds {n : Int} {places : Nat} (hn : n.natAbs < 10 ^ 15) (hplaces : places ≤ 300) :
    (n = 0 ∨ (10 : ℚ) ^ (-300 : Int) ≤ |(n * 10 ^ (-(places : Int)) : ℚ)|) ∧
      |(n * 10 ^ (-(places : Int)) : ℚ)| < 10 ^ 15 := by
  have hten := ten_zpow_pos (-(places : Int))
  rw [abs_mul, abs_of_pos hten]
  constructor
  · refine or_iff_not_imp_left.mpr fun hzero => ?_
    have hone : (1 : ℚ) ≤ |(n : ℚ)| := by exact_mod_cast Int.one_le_abs hzero
    calc (10 : ℚ) ^ (-300 : Int)
      _ ≤ 10 ^ (-(places : Int)) := zpow_le_zpow_right₀ (by norm_num) (by omega)
      _ ≤ |(n : ℚ)| * 10 ^ (-(places : Int)) := le_mul_of_one_le_left hten.le hone
  · have habs : |(n : ℚ)| < 10 ^ 15 := by
      rw [← Int.cast_abs, ← Nat.cast_natAbs]
      exact_mod_cast hn
    calc |(n : ℚ)| * 10 ^ (-(places : Int))
      _ ≤ |(n : ℚ)| := mul_le_of_le_one_right (abs_nonneg _) (zpow_le_one_of_nonpos₀ (by norm_num) (by omega))
      _ < 10 ^ 15 := habs

/-- The number of an integer with its point moved down is the nearest to that
    decimal, as reading a text rounds correctly. -/
theorem isNearest_toFloat {n : Int64} {digits : UInt32} (hn : n.toInt.natAbs < 10 ^ 15) (hdigits : digits.toNat ≤ 300) :
    (toFloat n digits).IsNearest (n.toInt * 10 ^ (-(digits.toNat : Int))) := by
  obtain ⟨hlow, hhigh⟩ := shiftedDown_bounds hn hdigits
  have hread := readChars?_integerChars n.toInt (endsNumber_down digits.toNat)
  rw [toFloat, hread, Option.getD_some]
  by_cases hzero : n.toInt = 0
  · rw [hzero, Int.natAbs_zero, ofDecimal, if_pos rfl, Int.cast_zero, zero_mul]
    refine isNearest_of_roundsTo ?_ le_rfl
    rw [abs_zero, ← valueAt_zero]
    exact roundsTo_valueAt 0
  · have habs := abs_decimal n.toInt (-(digits.toNat : Int))
    have hcut := cutoff_le.trans (hlow.resolve_left hzero)
    rw [habs] at hcut hhigh
    have hfits : Decimal.value ⟨n.toInt.natAbs, -digits.toNat⟩ ≤ 2 ^ 64 := hhigh.le.trans (by norm_num)
    obtain ⟨m, hdecimal, hrounds⟩ := exists_ofDecimal_eq (n.toInt < 0) (Int.natAbs_pos.mpr hzero) hcut hfits
    rw [hdecimal]
    have hsign := signed_of_lt (n.toInt * 10 ^ (-(digits.toNat : Int)))
    simp only [decimal_neg_iff] at hsign
    exact isNearest_of_roundsTo (habs ▸ hrounds) hsign

/-- Scaling down and up again gives back the integer, if it has at most fifteen
    digits and the point moves by at most 300 places. -/
theorem toInt_toFloat {n : Int64} {digits : UInt32} (hn : n.toInt.natAbs < 10 ^ 15) (hdigits : digits.toNat ≤ 300) :
    toInt (toFloat n digits) digits = n := by
  obtain ⟨hlow, -⟩ := shiftedDown_bounds hn hdigits
  have hten : (0 : ℚ) < 10 ^ digits.toNat := by positivity
  have hback : (n.toInt * 10 ^ (-(digits.toNat : Int)) * 10 ^ digits.toNat : ℚ) = n.toInt := by
    rw [mul_assoc, zpow_neg, zpow_natCast, inv_mul_cancel₀ hten.ne', mul_one]
  have hscaled : |(n.toInt * 10 ^ (-(digits.toNat : Int)) : ℚ)| * 10 ^ digits.toNat < 2 ^ 53 := by
    have habs : |(n.toInt : ℚ)| < 2 ^ 53 := by
      rw [← Int.cast_abs, ← Nat.cast_natAbs]
      exact_mod_cast hn.trans (by norm_num)
    rwa [← hback, abs_mul, abs_of_pos hten] at habs
  have hexact := toInt_toInt_eq hn hlow hscaled (isNearest_toFloat hn hdigits)
  rw [hback, truncated_intCast] at hexact
  exact Int64.toInt_inj.mp hexact

/-- Scaling makes no error of its own. The number nearest to a decimal of at
    most fifteen digits is scaled to the exact multiple of that decimal, cut off
    toward zero, and an integer that was scaled down comes back. The number is
    not required to be the decimal, which it hardly ever is. -/
theorem toInt_exact :
    (∀ (number : Binary64) (m e : Int) (digits : UInt32), m.natAbs < 10 ^ 15 →
      (m = 0 ∨ (10 : ℚ) ^ (-300 : Int) ≤ |(m * 10 ^ e : ℚ)|) → |(m * 10 ^ e : ℚ)| * 10 ^ digits.toNat < 2 ^ 53 →
      number.IsNearest (m * 10 ^ e) → (toInt number digits).toInt = truncated (m * 10 ^ e * 10 ^ digits.toNat)) ∧
    ∀ (n : Int64) (digits : UInt32), n.toInt.natAbs < 10 ^ 15 → digits.toNat ≤ 300 →
      toInt (toFloat n digits) digits = n :=
  ⟨fun _ _ _ _ hm hlow hscaled hnearest => toInt_toInt_eq hm hlow hscaled hnearest,
    fun _ _ hn hdigits => toInt_toFloat hn hdigits⟩

/-- The number nearest to -1.239 is cut off at two places, and 0.29 is exactly
    29 there. -/
theorem toInt_exact_price :
    (toFloat (-1239) 3).IsNearest ((-1239 : Int) * 10 ^ (-3 : Int)) ∧ (toInt (toFloat (-1239) 3) 2).toInt = -123 ∧
      toInt (toFloat 29 2) 2 = 29 := by
  have hnearest : (toFloat (-1239) 3).IsNearest ((-1239 : Int) * 10 ^ (-3 : Int)) :=
    isNearest_toFloat (n := -1239) (by decide) (by decide)
  have hcut : truncated ((-1239 : Int) * 10 ^ (-3 : Int) * 10 ^ (2 : UInt32).toNat) = -123 := by decide +kernel
  refine ⟨hnearest, ?_, toInt_exact.2 29 2 (by decide) (by decide)⟩
  rw [← hcut]
  have hlow := (shiftedDown_bounds (n := -1239) (by decide) (by decide : 3 ≤ 300)).1
  exact toInt_exact.1 _ (-1239) (-3) 2 (by decide) hlow (by decide +kernel) hnearest

end Scaling

end Brokerage
