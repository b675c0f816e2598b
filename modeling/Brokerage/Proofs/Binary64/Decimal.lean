import Brokerage.Proofs.Binary64.Shortest
import Mathlib.Data.Nat.Prime.Basic
import Mathlib.Data.Rat.Floor

namespace Brokerage.Binary64

namespace Decimal

/-- The numerator of the decimal as a fraction. -/
def num (d : Decimal) : Nat :=
  if 0 ≤ d.exponent then d.digits * Nat.pow 10 d.exponent.toNat else d.digits

/-- The denominator of the decimal as a fraction. -/
def den (d : Decimal) : Nat :=
  if 0 ≤ d.exponent then 1 else Nat.pow 10 (-d.exponent).toNat

theorem den_pos (d : Decimal) : 0 < d.den := by
  rw [den]
  split
  · exact Nat.one_pos
  · exact Nat.pow_pos (by decide)

/-- The value of a decimal is the quotient of its numerator and its denominator.
    These are natural numbers, whichever sign the exponent has. -/
theorem value_eq_div (d : Decimal) : d.value = d.num / d.den := by
  rw [value, ten_zpow_eq, num, den]
  split
  · rw [Nat.cast_mul, Nat.cast_one, div_one]
  · rw [mul_one_div]

theorem value_pos {d : Decimal} (h : 0 < d.digits) : 0 < d.value :=
  mul_pos (Nat.cast_pos.mpr h) (ten_zpow_pos d.exponent)

private theorem num_pos {d : Decimal} (h : 0 < d.digits) : 0 < d.num := by
  rw [num]
  split
  · exact Nat.mul_pos h (Nat.pow_pos (by decide))
  · exact h

/-- A decimal below an integer is at least one part of its denominator below
    it. -/
private theorem num_succ_le {d : Decimal} {n : Nat} (h : d.value < n) : (d.num : ℚ) + 1 ≤ n * d.den := by
  have hden : (0 : ℚ) < d.den := Nat.cast_pos.mpr d.den_pos
  have hscaled : (d.num : ℚ) < n * d.den := by
    rw [value_eq_div, div_lt_iff₀ hden] at h
    exact h
  have hnat : d.num < n * d.den := by exact_mod_cast hscaled
  exact_mod_cast hnat

/-- The numerator is small, for one of two reasons. -/
private theorem num_lt {d : Decimal} (hdigits : d.digits < 10 ^ 15) (hbound : d.value < 2 ^ 53) : d.num < 2 * binade := by
  by_cases hexponent : 0 ≤ d.exponent
  · have hwhole : d.value = d.num := by rw [value_eq_div, den, if_pos hexponent, Nat.cast_one, div_one]
    rw [hwhole] at hbound
    exact_mod_cast hbound
  · rw [num, if_neg hexponent]
    exact Nat.lt_trans hdigits (by decide)

/-- The decimal exponent above the leading digit bounds the value from both
    sides. A decimal without digits other than zero has no leading one. -/
theorem value_bounds {d : Decimal} (h : 0 < d.digits) :
    (10 : ℚ) ^ (d.exponent + decimalLength d.digits - 1) ≤ d.value ∧
      d.value < 10 ^ (d.exponent + decimalLength d.digits) := by
  have hpos := ten_zpow_pos d.exponent
  have hlength := decimalLength_pos d.digits
  have hlast : d.exponent + decimalLength d.digits - 1 = d.exponent + (decimalLength d.digits - 1 : Nat) := by omega
  constructor
  · rw [hlast, zpow_add₀ (by norm_num), zpow_natCast, mul_comm]
    refine mul_le_mul_of_nonneg_right ?_ hpos.le
    exact_mod_cast ten_pow_le_of_pos h
  · rw [zpow_add₀ (by norm_num), zpow_natCast, mul_comm, value]
    refine mul_lt_mul_of_pos_right ?_ hpos
    exact_mod_cast lt_ten_pow_decimalLength d.digits

end Decimal

/-- In between the cut-offs the exact power is formed, and the decimal is
    rounded as a fraction. -/
theorem ofDecimal_eq_ofRatio (negative : Bool) {d : Decimal} (hpos : 0 < d.digits) (hlow : 10 ^ (-330 : Int) ≤ d.value)
    (hhigh : d.value < 10 ^ (310 : Int)) : ofDecimal negative d.digits d.exponent = ofRatio negative d.num d.den := by
  obtain ⟨hleading, hnext⟩ := Decimal.value_bounds hpos
  have htop : d.exponent + decimalLength d.digits - 1 < 310 :=
    (zpow_lt_zpow_iff_right₀ (by norm_num)).mp (hleading.trans_lt hhigh)
  have hbottom : -330 < d.exponent + decimalLength d.digits :=
    (zpow_lt_zpow_iff_right₀ (by norm_num)).mp (hlow.trans_lt hnext)
  rw [ofDecimal, if_neg hpos.ne']
  simp only
  rw [if_neg (by omega), if_neg (by omega), Decimal.num, Decimal.den]
  split <;> rfl

/-- The number 2^64 is a magnitude. -/
theorem valueAt_two_pow_64 : valueAt (1086 * binade + binade) = 2 ^ 64 := by
  have hone := unitsInOne_pos
  rw [valueAt, unitsAt_two_pow_64, Nat.cast_mul, mul_div_cancel_right₀ _ hone.ne']
  norm_num

private theorem rank_le_of_value_le {q : ℚ} {rank : Nat} (h : RoundsTo q rank) (hq : q ≤ 2 ^ 64) :
    rank ≤ 1086 * binade + binade :=
  h.le (roundsTo_valueAt _) (hq.trans_eq valueAt_two_pow_64.symm)

/-- Reading a decimal gives the magnitude that its value rounds to. Within the
    bounds it is finite and not cut off to zero. -/
theorem exists_ofDecimal_eq (negative : Bool) {d : Decimal} (hpos : 0 < d.digits) (hlow : 10 ^ (-330 : Int) ≤ d.value)
    (hhigh : d.value ≤ 2 ^ 64) :
    ∃ m, ofDecimal negative d.digits d.exponent = finite negative m ∧ RoundsTo d.value m.rank := by
  have hcut : d.value < 10 ^ (310 : Int) :=
    calc d.value
      _ ≤ 2 ^ 64 := hhigh
      _ < 10 ^ (20 : Int) := by norm_num
      _ ≤ 10 ^ (310 : Int) := zpow_le_zpow_right₀ (by norm_num) (by norm_num)
  have hrounds := roundsTo_nearestRank d.num d.den_pos
  rw [← Decimal.value_eq_div] at hrounds
  have hrank : nearestRank (d.num * unitsInOne) d.den < rankBound :=
    Nat.lt_of_le_of_lt (rank_le_of_value_le hrounds hhigh) (by decide)
  refine ⟨⟨_, hrank⟩, ?_, hrounds⟩
  rw [ofDecimal_eq_ofRatio negative hpos hlow hcut, ofRatio, ofUnits, ofRank_of_lt hrank]

private theorem exists_unitsInOne_eq : ∃ n, unitsInOne = Nat.pow 2 n := by
  have hpow : ∀ n, n = 1074 → unitsInOne = Nat.pow 2 n := fun n h => (pow_two_eq_unitsInOne h).symm
  exact ⟨_, hpow _ rfl⟩

/-- The middle between two magnitudes of normal size takes 54 bits, which no
    decimal of fifteen digits has. Were they equal, the odd number in the middle
    would divide the numerator of the decimal, which fifteen digits and the
    bound on the value keep smaller. -/
theorem value_ne_upper {d : Decimal} {rank : Nat} (hpos : 0 < d.digits) (hdigits : d.digits < 10 ^ 15)
    (hbound : d.value < 2 ^ 53) (hnormal : binade ≤ rank) : d.value ≠ upper rank := by
  intro htie
  obtain ⟨shift, count, hgrid, -, rfl, hgap⟩ := exists_onGrid rank
  have hcount : binade ≤ count := by
    rcases hgrid.le_count with rfl | hle
    · omega
    · exact hle
  obtain ⟨bits, hbits⟩ := exists_unitsInOne_eq
  have hone := unitsInOne_pos
  have hden : (0 : ℚ) < d.den := Nat.cast_pos.mpr d.den_pos
  have hsum : unitsAt (shift * binade + count) + unitsAt (shift * binade + count + 1) =
      (2 * count + 1) * Nat.pow 2 shift := by
    rw [unitsAt_succ, hgap, unitsAt_grid hgrid]
    ring
  rw [Decimal.value_eq_div, upper_eq_half, hsum, div_eq_div_iff hden.ne' (mul_pos two_pos hone).ne'] at htie
  have hnat : d.num * (2 * unitsInOne) = (2 * count + 1) * Nat.pow 2 shift * d.den := by
    generalize unitsInOne = one at htie ⊢
    exact_mod_cast htie
  have hdvd : 2 * count + 1 ∣ d.num * Nat.pow 2 (bits + 1) := by
    rw [pow_two_succ, ← hbits, hnat, Nat.mul_assoc]
    exact Nat.dvd_mul_right _ _
  have hcoprime : Nat.Coprime (2 * count + 1) (Nat.pow 2 (bits + 1)) :=
    Nat.Coprime.pow_right _ (Nat.coprime_two_right.mpr (odd_two_mul_add_one count))
  have hle := Nat.le_of_dvd (Decimal.num_pos hpos) (hcoprime.dvd_of_dvd_mul_right hdvd)
  have hlt := Decimal.num_lt hdigits hbound
  omega

/-- A decimal of at most fifteen digits rounds to a rank as soon as it lies
    between the middles to its neighbours, since it is never one of the middles
    itself. -/
theorem roundsTo_of_between {d : Decimal} {rank : Nat} (hpos : 0 < d.digits) (hdigits : d.digits < 10 ^ 15)
    (hbound : d.value < 2 ^ 53) (hnormal : binade < rank) (hlower : lower rank ≤ d.value)
    (hupper : d.value ≤ upper rank) : RoundsTo d.value rank := by
  have hbefore : lower rank = upper (rank - 1) := by
    rw [← lower_succ, Nat.sub_add_cancel (by omega)]
  have hneLower : lower rank ≠ d.value :=
    hbefore ▸ (value_ne_upper hpos hdigits hbound (Nat.le_sub_one_of_lt hnormal)).symm
  have hneUpper : d.value ≠ upper rank := value_ne_upper hpos hdigits hbound hnormal.le
  exact ⟨hlower, hupper, fun _ => ⟨lt_of_le_of_ne hlower hneLower, lt_of_le_of_ne hupper hneUpper⟩⟩

/-- Integers up to 2^53 are values of magnitudes. Beyond the bound the steps
    between magnitudes are longer than one, and odd integers are lost. -/
theorem exists_valueAt_eq {n : Nat} (h : n ≤ 2 ^ 53) : ∃ rank, valueAt rank = n := by
  obtain ⟨rank, hrank⟩ := exists_unitsAt_eq h
  have hone := unitsInOne_pos
  exact ⟨rank, by rw [valueAt, hrank, Nat.cast_mul, mul_div_cancel_right₀ _ hone.ne']⟩

theorem valueAt_binade_lt : valueAt (binade + 1) < 1 := by
  have hone := unitsInOne_pos
  have hunits : unitsAt (binade + 1) < unitsInOne := by decide +kernel
  rw [valueAt, div_lt_one hone]
  exact Nat.cast_lt.mpr hunits

/-- Rounding a decimal of at most fifteen digits keeps it below the next
    integer. The distance to that integer is a fraction of the decimal's own
    denominator, and too large for the step there. A decimal with more digits
    can be rounded up to the integer. -/
theorem valueAt_lt_of_value_lt {d : Decimal} {rank n : Nat} (hdigits : d.digits < 10 ^ 15)
    (hfraction : d.exponent < 0) (h : RoundsTo d.value rank) (hn : n ≤ 2 ^ 53) (hpos : 0 < n) (hlt : d.value < n) :
    valueAt rank < n := by
  by_contra! hle
  obtain ⟨whole, hwhole⟩ := exists_valueAt_eq hn
  have hrank : rank = whole := by
    refine Nat.le_antisymm (h.le (roundsTo_valueAt whole) (hwhole ▸ hlt.le)) ?_
    rw [← valueAt_le_iff, hwhole]
    exact hle
  subst hrank
  have hone : (1 : ℚ) ≤ n := by exact_mod_cast hpos
  have hnormal : binade + 1 < rank := by
    rw [← valueAt_lt_iff, hwhole]
    exact valueAt_binade_lt.trans_le hone
  have hden : (0 : ℚ) < d.den := Nat.cast_pos.mpr d.den_pos
  have hbefore : valueAt (rank - 1) < n := hwhole ▸ valueAt_lt_iff.mpr (by omega)
  have hbinade : binade ≤ rank - 1 := by omega
  have hstep := valueAt_succ_le hbinade
  have hlower := h.lower_le
  rw [Nat.sub_add_cancel (by omega), hwhole, binade_eq] at hstep
  rw [lower, hwhole] at hlower
  -- The distance is at least one over the denominator.
  have hnum : (d.num : ℚ) = d.value * d.den := by rw [Decimal.value_eq_div, div_mul_cancel₀ _ hden.ne']
  have hdistance := Decimal.num_succ_le hlt
  have hsmall : (d.num : ℚ) < 10 ^ 15 := by
    rw [Decimal.num, if_neg (not_le.mpr hfraction)]
    exact_mod_cast hdigits
  have hscaled : (n - d.value) * d.den * 9007199254740992 ≤ n * d.den := by
    have hclose : (n - d.value) * 9007199254740992 ≤ n := by linarith
    calc (n - d.value) * d.den * 9007199254740992
        = (n - d.value) * 9007199254740992 * d.den := by ring
      _ ≤ n * d.den := mul_le_mul_of_nonneg_right hclose hden.le
  rw [sub_mul, ← hnum] at hscaled
  linarith

/-- Rounding a decimal of at most fifteen digits keeps its integer part, up to
    2^53, where the steps become longer than one. -/
theorem floor_valueAt {d : Decimal} {rank : Nat} (hdigits : d.digits < 10 ^ 15) (hbound : d.value < 2 ^ 53)
    (h : RoundsTo d.value rank) : ⌊valueAt rank⌋₊ = ⌊d.value⌋₊ := by
  have hnonneg : 0 ≤ d.value := mul_nonneg (Nat.cast_nonneg _) (ten_zpow_pos _).le
  have hfloor : ⌊d.value⌋₊ < 2 ^ 53 := (Nat.floor_lt hnonneg).mpr (by exact_mod_cast hbound)
  rcases le_or_gt 0 d.exponent with hwhole | hfraction
  · have hvalue : d.value = d.num := by rw [Decimal.value_eq_div, Decimal.den, if_pos hwhole, Nat.cast_one, div_one]
    rw [hvalue, Nat.floor_natCast] at hfloor
    obtain ⟨whole, hexact⟩ := exists_valueAt_eq hfloor.le
    rw [← hexact] at hvalue
    rw [hvalue] at h
    rw [h.unique (roundsTo_valueAt whole), hvalue]
  · rw [Nat.floor_eq_iff (valueAt_nonneg rank)]
    constructor
    · obtain ⟨whole, hexact⟩ := exists_valueAt_eq hfloor.le
      rw [← hexact, valueAt_le_iff]
      exact (roundsTo_valueAt whole).le h (hexact ▸ Nat.floor_le hnonneg)
    · have hnext := valueAt_lt_of_value_lt (n := ⌊d.value⌋₊ + 1) hdigits hfraction h hfloor (Nat.succ_pos _)
        (by exact_mod_cast Nat.lt_floor_add_one d.value)
      exact_mod_cast hnext

end Brokerage.Binary64
