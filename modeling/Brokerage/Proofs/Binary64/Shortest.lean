import Brokerage.Binary64.Shortest
import Brokerage.Proofs.Binary64.Nearest
import Brokerage.Proofs.Text.Numeral
import Mathlib.Algebra.Order.Field.Power
import Mathlib.Tactic.Ring

namespace Brokerage.Binary64

/-- The value of a decimal. -/
def Decimal.value (d : Decimal) : ℚ :=
  d.digits * 10 ^ d.exponent

theorem ten_zpow_pos (exponent : Int) : (0 : ℚ) < 10 ^ exponent :=
  zpow_pos (by norm_num) exponent

/-- A power of ten with a nonnegative exponent is a natural number, and one with
    another is the inverse of one. -/
theorem ten_zpow_eq (exponent : Int) :
    (10 : ℚ) ^ exponent = if 0 ≤ exponent then (Nat.pow 10 exponent.toNat : ℚ)
      else 1 / (Nat.pow 10 (-exponent).toNat : ℚ) := by
  split
  · next h =>
    obtain ⟨n, rfl⟩ := Int.eq_ofNat_of_zero_le h
    simp
  · next h =>
    obtain ⟨n, hn⟩ := Int.eq_ofNat_of_zero_le (a := -exponent) (by omega)
    obtain rfl : exponent = -(n : Int) := by omega
    simp

private theorem gridFraction_pos (doubled : Nat) (exponent : Int) : 0 < (gridFraction doubled exponent).2 := by
  have hone : 0 < unitsInOne := Nat.cast_pos.mp unitsInOne_pos
  unfold gridFraction
  split
  · exact Nat.mul_pos (Nat.pow_pos (by decide)) (Nat.mul_pos (by decide) hone)
  · exact Nat.mul_pos (by decide) hone

/-- The grid only changes the denominator. -/
private theorem gridFraction_snd (doubled other : Nat) (exponent : Int) :
    (gridFraction doubled exponent).2 = (gridFraction other exponent).2 := by
  unfold gridFraction
  split <;> rfl

private theorem gridFraction_value (doubled : Nat) (exponent : Int) :
    ((gridFraction doubled exponent).1 : ℚ) / (gridFraction doubled exponent).2 * 10 ^ exponent =
      doubled / (2 * unitsInOne) := by
  have hone := unitsInOne_pos
  have hpow (n : Nat) : (0 : ℚ) < Nat.pow 10 n := Nat.cast_pos.mpr (Nat.pow_pos (by decide))
  rw [ten_zpow_eq]
  unfold gridFraction
  split
  · have hpos := hpow exponent.toNat
    simp only [Nat.cast_mul, Nat.cast_ofNat]
    generalize (unitsInOne : ℚ) = one at hone ⊢
    generalize ((Nat.pow 10 exponent.toNat : Nat) : ℚ) = power at hpos ⊢
    field_simp
  · have hpos := hpow (-exponent).toNat
    simp only [Nat.cast_mul, Nat.cast_ofNat]
    generalize (unitsInOne : ℚ) = one at hone ⊢
    generalize ((Nat.pow 10 (-exponent).toNat : Nat) : ℚ) = power at hpos ⊢
    field_simp

/-- A multiple of the grid is compared with a number of half units without a
    fraction. -/
private theorem grid_le_iff (doubled count : Nat) (exponent : Int) :
    (gridFraction doubled exponent).1 ≤ count * (gridFraction doubled exponent).2 ↔
      (doubled : ℚ) / (2 * unitsInOne) ≤ count * 10 ^ exponent := by
  have hunit : (0 : ℚ) < (gridFraction doubled exponent).2 := Nat.cast_pos.mpr (gridFraction_pos doubled exponent)
  rw [← gridFraction_value, mul_le_mul_iff_left₀ (ten_zpow_pos exponent), div_le_iff₀ hunit, ← Nat.cast_mul,
    Nat.cast_le]

private theorem le_grid_iff (doubled count : Nat) (exponent : Int) :
    count * (gridFraction doubled exponent).2 ≤ (gridFraction doubled exponent).1 ↔
      count * 10 ^ exponent ≤ (doubled : ℚ) / (2 * unitsInOne) := by
  have hunit : (0 : ℚ) < (gridFraction doubled exponent).2 := Nat.cast_pos.mpr (gridFraction_pos doubled exponent)
  rw [← gridFraction_value, mul_le_mul_iff_left₀ (ten_zpow_pos exponent), le_div_iff₀ hunit, ← Nat.cast_mul,
    Nat.cast_le]

private theorem lower_eq_div (rank : Nat) : lower rank = (unitsAt (rank - 1) + unitsAt rank : Nat) / (2 * unitsInOne) := by
  rw [lower, valueAt, valueAt, ← add_div, div_div, mul_comm, Nat.cast_add]

/-- The middle above a rank, as a number of half units. -/
theorem upper_eq_half (rank : Nat) : upper rank = (unitsAt rank + unitsAt (rank + 1) : Nat) / (2 * unitsInOne) := by
  rw [upper, valueAt, valueAt, ← add_div, div_div, mul_comm, Nat.cast_add]

/-- A decimal reads back as the rank that its value rounds to. The test runs on
    natural numbers, and the relation is the one on rationals. -/
theorem readsBack_iff {rank : Nat} {d : Decimal} : readsBack rank d = true ↔ RoundsTo d.value rank := by
  have hlow := grid_le_iff (unitsAt (rank - 1) + unitsAt rank) d.digits d.exponent
  have hhigh := le_grid_iff (unitsAt rank + unitsAt (rank + 1)) d.digits d.exponent
  have hlow' := le_grid_iff (unitsAt (rank - 1) + unitsAt rank) d.digits d.exponent
  have hhigh' := grid_le_iff (unitsAt rank + unitsAt (rank + 1)) d.digits d.exponent
  rw [← lower_eq_div] at hlow hlow'
  rw [← upper_eq_half, gridFraction_snd _ (unitsAt (rank - 1) + unitsAt rank)] at hhigh hhigh'
  unfold readsBack
  simp only
  split
  · next heven =>
    rw [Bool.and_eq_true, decide_eq_true_eq, decide_eq_true_eq, hlow, hhigh]
    exact ⟨fun h => ⟨h.1, h.2, fun hodd => by omega⟩, fun h => ⟨h.lower_le, h.le_upper⟩⟩
  · next hodd =>
    rw [Bool.and_eq_true, decide_eq_true_eq, decide_eq_true_eq, ← Nat.not_le, ← Nat.not_le, hlow', hhigh', not_le,
      not_le]
    exact ⟨fun h => ⟨h.1.le, h.2.le, fun _ => h⟩, fun h => h.inside (by omega)⟩

/-- What is found on a grid is a multiple of its power of ten and reads back.
    That it is the nearest such multiple is another matter, and not needed for
    reading. -/
theorem onGrid?_eq_some {tie : Tie} {rank : Nat} {exponent : Int} {d : Decimal}
    (h : onGrid? tie rank exponent = some d) : d.exponent = exponent ∧ RoundsTo d.value rank := by
  unfold onGrid? at h
  simp only at h
  split at h
  · next hdown hup =>
    cases h
    split
    · exact ⟨rfl, readsBack_iff.mp hup⟩
    · exact ⟨rfl, readsBack_iff.mp hdown⟩
  · next hdown _ =>
    cases h
    exact ⟨rfl, readsBack_iff.mp hdown⟩
  · next _ hup =>
    cases h
    exact ⟨rfl, readsBack_iff.mp hup⟩
  · cases h

/-- If nothing is found on a grid, neither of the two multiples around the value
    reads back. No other multiple does either, as these are the nearest. -/
theorem onGrid?_eq_none {tie : Tie} {rank : Nat} {exponent : Int} (h : onGrid? tie rank exponent = none) :
    ∃ below : Nat, below * 10 ^ exponent ≤ valueAt rank ∧ valueAt rank < (below + 1 : Nat) * 10 ^ exponent ∧
      ¬RoundsTo (below * 10 ^ exponent) rank ∧ ¬RoundsTo ((below + 1 : Nat) * 10 ^ exponent) rank := by
  have hvalue : ((2 * unitsAt rank : Nat) : ℚ) / (2 * unitsInOne) = valueAt rank := by
    rw [Nat.cast_mul, Nat.cast_ofNat, mul_div_mul_left _ _ two_ne_zero, valueAt]
  have hunit := gridFraction_pos (2 * unitsAt rank) exponent
  unfold onGrid? at h
  simp only at h
  refine ⟨(gridFraction (2 * unitsAt rank) exponent).1 / (gridFraction (2 * unitsAt rank) exponent).2, ?_, ?_, ?_⟩
  · rw [← hvalue, ← le_grid_iff]
    exact Nat.div_mul_le_self _ _
  · rw [← hvalue, ← not_le, ← le_grid_iff, not_le, Nat.add_mul, Nat.one_mul]
    exact Nat.lt_div_mul_add hunit
  · split at h
    · cases h
    · cases h
    · cases h
    · next hdown hup =>
      exact ⟨fun hrounds => Bool.false_ne_true (hdown.symm.trans (readsBack_iff.mpr hrounds)),
        fun hrounds => Bool.false_ne_true (hup.symm.trans (readsBack_iff.mpr hrounds))⟩

/-- If some multiple of the grid reads back, a neighbour of the exact value
    does. -/
theorem onGrid?_ne_none (tie : Tie) {rank count : Nat} {exponent : Int}
    (h : RoundsTo (count * 10 ^ exponent) rank) : onGrid? tie rank exponent ≠ none := by
  intro hnone
  obtain ⟨below, hle, hlt, hdown, hup⟩ := onGrid?_eq_none hnone
  have hstep := ten_zpow_pos exponent
  rcases Nat.lt_or_ge below count with habove | hbelow
  · have hcount : ((below + 1 : Nat) : ℚ) * 10 ^ exponent ≤ count * 10 ^ exponent :=
      mul_le_mul_of_nonneg_right (Nat.cast_le.mpr habove) hstep.le
    exact hup ((roundsTo_valueAt rank).between h hlt.le hcount)
  · have hcount : (count : ℚ) * 10 ^ exponent ≤ below * 10 ^ exponent :=
      mul_le_mul_of_nonneg_right (Nat.cast_le.mpr hbelow) hstep.le
    exact hdown (h.between (roundsTo_valueAt rank) hcount hle)

/-- Taking zeros off the end of the digits leaves the value. -/
theorem Decimal.value_trim (d : Decimal) : d.trim.value = d.value := by
  fun_induction Decimal.trim d with
  | case1 d hd ih =>
    rw [ih, Decimal.value, Decimal.value, zpow_add_one₀ (by norm_num), mul_comm (_ ^ _), ← mul_assoc]
    congr 1
    have hwhole : d.digits / 10 * 10 = d.digits := Nat.div_mul_cancel (Nat.dvd_of_mod_eq_zero hd.2)
    exact_mod_cast hwhole
  | case2 d hd => rfl

theorem decimalLength_pos (n : Nat) : 0 < decimalLength n :=
  List.length_pos_iff.mpr Nat.toDigits_ne_nil

theorem lt_ten_pow_decimalLength (n : Nat) : n < 10 ^ decimalLength n :=
  (Nat.length_toDigits_le_iff (by decide) (decimalLength_pos n)).mp (Nat.le_refl _)

theorem ten_pow_le_of_pos {n : Nat} (h : 0 < n) : 10 ^ (decimalLength n - 1) ≤ n := by
  by_contra! hlt
  by_cases hone : decimalLength n = 1
  · rw [hone] at hlt
    omega
  · have hpos := decimalLength_pos n
    have hshorter : decimalLength n ≤ decimalLength n - 1 :=
      (Nat.length_toDigits_le_iff (by decide) (by omega)).mpr hlt
    omega

private theorem unitsInOne_le {places : Nat} (h : places = 324) : unitsInOne ≤ Nat.pow 10 places := by
  subst h
  decide +kernel

private theorem leadingExponent_eq (rank : Nat) {places : Nat} (h : places = 324) :
    leadingExponent rank = decimalLength (unitsAt rank * Nat.pow 10 places / unitsInOne) - (places + 1 : Int) := by
  have hlength : (325 : Int) = places + 1 := by omega
  rw [leadingExponent, ← h, hlength]

/-- The value, scaled by a power of ten, lies between its integer part and the
    next integer. -/
private theorem scaled_bounds (rank places : Nat) :
    ((unitsAt rank * Nat.pow 10 places / unitsInOne : Nat) : ℚ) ≤ valueAt rank * 10 ^ (places : Int) ∧
      valueAt rank * 10 ^ (places : Int) < (unitsAt rank * Nat.pow 10 places / unitsInOne + 1 : Nat) := by
  have hunit := unitsInOne_pos
  have hvalue : valueAt rank * 10 ^ (places : Int) * unitsInOne = (unitsAt rank * Nat.pow 10 places : Nat) := by
    rw [valueAt, div_mul_eq_mul_div, div_mul_cancel₀ _ hunit.ne', Nat.cast_mul, zpow_natCast]
    simp
  constructor
  · rw [← mul_le_mul_iff_left₀ hunit, hvalue, ← Nat.cast_mul]
    exact Nat.cast_le.mpr (Nat.div_mul_le_self _ _)
  · rw [← mul_lt_mul_iff_left₀ hunit, hvalue, ← Nat.cast_mul, Nat.add_mul, Nat.one_mul]
    exact Nat.cast_lt.mpr (Nat.lt_div_mul_add (Nat.cast_pos.mp hunit))

/-- The leading exponent is where the value has its first digit. Zero has
    none. -/
theorem leadingExponent_spec {rank : Nat} (h : 0 < rank) :
    (10 : ℚ) ^ leadingExponent rank ≤ valueAt rank ∧ valueAt rank < 10 ^ (leadingExponent rank + 1) := by
  have hunits : 0 < unitsAt rank := unitsAt_zero ▸ unitsAt_lt h
  obtain ⟨places, hplaces⟩ : ∃ places : Nat, places = 324 := ⟨_, rfl⟩
  obtain ⟨hlow, hhigh⟩ := scaled_bounds rank places
  have hpos : 0 < unitsAt rank * Nat.pow 10 places / unitsInOne :=
    Nat.div_pos (Nat.le_trans (unitsInOne_le hplaces) (Nat.le_mul_of_pos_left _ hunits))
      (Nat.cast_pos.mp unitsInOne_pos)
  have hlead := leadingExponent_eq rank hplaces
  generalize unitsAt rank * Nat.pow 10 places / unitsInOne = whole at hlow hhigh hpos hlead
  have hlength := decimalLength_pos whole
  have hfirst : leadingExponent rank = (decimalLength whole - 1 : Nat) - (places : Int) := by omega
  have hnext : leadingExponent rank + 1 = (decimalLength whole : Int) - places := by omega
  have hshift (digits : Nat) : (10 : ℚ) ^ ((digits : Int) - places) * 10 ^ (places : Int) = (10 ^ digits : Nat) := by
    rw [← zpow_add₀ (by norm_num), sub_add_cancel, zpow_natCast, Nat.cast_pow, Nat.cast_ofNat]
  have hscale := ten_zpow_pos places
  constructor
  · rw [hfirst, ← mul_le_mul_iff_left₀ hscale, hshift]
    exact (Nat.cast_le.mpr (ten_pow_le_of_pos hpos)).trans hlow
  · rw [hnext, ← mul_lt_mul_iff_left₀ hscale, hshift]
    exact hhigh.trans_le (Nat.cast_le.mpr (lt_ten_pow_decimalLength whole))

/-- A decimal lies on every finer grid. -/
private theorem mul_ten_zpow_eq (count : Nat) {e exponent : Int} (h : e ≤ exponent) :
    (count * 10 ^ exponent : ℚ) = (count * 10 ^ (exponent - e).toNat : Nat) * 10 ^ e := by
  obtain ⟨n, rfl⟩ := Int.le.dest h
  rw [zpow_add₀ (by norm_num), zpow_natCast, add_sub_cancel_left, Int.toNat_natCast]
  push_cast
  ring

/-- Multiples of one power of ten that are closer than that power are equal. The
    exponents may differ; both have to be at least that of the grid. -/
theorem eq_of_grid_close {a b : Nat} {i j e : Int} (hi : e ≤ i) (hj : e ≤ j)
    (h : |(a * 10 ^ i - b * 10 ^ j : ℚ)| < 10 ^ e) : (a * 10 ^ i : ℚ) = b * 10 ^ j := by
  have hpos := ten_zpow_pos e
  rw [mul_ten_zpow_eq a hi, mul_ten_zpow_eq b hj] at h ⊢
  generalize a * 10 ^ (i - e).toNat = a, b * 10 ^ (j - e).toNat = b at h ⊢
  rw [← sub_mul, abs_mul, abs_of_pos hpos, mul_lt_iff_lt_one_left hpos] at h
  have hclose : |(a - b : Int)| < 1 := by exact_mod_cast h
  have hequal : (a : Int) = b := sub_eq_zero.mp (Int.abs_lt_one_iff.mp hclose)
  rw [Int.natCast_inj.mp hequal]

/-- The search from a coarse grid down to the grid of a decimal finds that
    decimal, when nothing else that rounds to the rank is as near to it as the
    grid is fine. The induction is on the steps of the search: a coarser grid
    either finds the same value or nothing. -/
theorem searchGrids_value {tie : Tie} {rank : Nat} {d : Decimal} {e : Int} (hd : RoundsTo d.value rank)
    (hgrid : e ≤ d.exponent)
    (honly : ∀ q, RoundsTo q rank → |q - d.value| < 10 ^ e) {steps : Nat} {exponent : Int} (hlow : e ≤ exponent)
    (hhigh : exponent < e + steps) : (searchGrids tie rank steps exponent).value = d.value := by
  induction steps generalizing exponent with
  | zero => omega
  | succ steps ih =>
    rw [searchGrids]
    cases hfound : onGrid? tie rank exponent with
    | some found =>
      obtain ⟨hexponent, hrounds⟩ := onGrid?_eq_some hfound
      rw [Option.getD_some]
      exact eq_of_grid_close (hexponent ▸ hlow) hgrid (honly _ hrounds)
    | none =>
      have hne : exponent ≠ e := by
        rintro rfl
        rw [Decimal.value, mul_ten_zpow_eq d.digits hgrid] at hd
        exact onGrid?_ne_none tie hd hfound
      rw [Option.getD_none]
      exact ih (by omega) (by omega)

/-- A magnitude is at most twice any rational that rounds to it. For zero this
    holds because nothing below zero rounds to it. -/
theorem RoundsTo.valueAt_le {q : ℚ} {rank : Nat} (h : RoundsTo q rank) : valueAt rank ≤ 2 * q := by
  have hlower := h.lower_le
  have hbefore := valueAt_nonneg (rank - 1)
  rw [lower] at hlower
  linarith

theorem binade_eq : (binade : ℚ) = 4503599627370496 := by
  rw [binade]
  norm_num

/-- A decimal of at most fifteen digits is the shortest that reads back as the
    magnitude it rounds to. The magnitude has to be of normal size: the smaller
    ones are read back from fewer digits, so another decimal may be found
    first. -/
theorem shortest_value (tie : Tie) {m : Magnitude} {d : Decimal} (hd : RoundsTo d.value m.rank)
    (hdigits : d.digits < 10 ^ 15) (hnormal : binade ≤ m.rank) : (shortest tie m).value = d.value := by
  obtain ⟨hlead, hnext⟩ := leadingExponent_spec (Nat.lt_of_lt_of_le binade_pos hnormal)
  have hpos := ten_zpow_pos d.exponent
  have hsmall : d.value < 10 ^ 15 * 10 ^ d.exponent := by
    have hcount : (d.digits : ℚ) < 10 ^ 15 := by exact_mod_cast hdigits
    exact mul_lt_mul_of_pos_right hcount hpos
  have htwice := hd.valueAt_le
  have hclose (q : ℚ) (hq : RoundsTo q m.rank) : |q - d.value| ≤ valueAt m.rank / 4503599627370496 :=
    binade_eq ▸ hq.sub_le hd hnormal
  rw [shortest, Decimal.value_trim]
  rcases le_or_gt (leadingExponent m.rank) d.exponent with hle | hlt
  · refine searchGrids_value hd hle (fun q hq => ?_) le_rfl (by omega)
    have hleadPos := ten_zpow_pos (leadingExponent m.rank)
    rw [zpow_add_one₀ (by norm_num)] at hnext
    linarith [hclose q hq]
  · refine searchGrids_value hd le_rfl (fun q hq => ?_) hlt.le ?_
    · linarith [hclose q hq]
    · have hbound : (10 : ℚ) ^ leadingExponent m.rank < 10 ^ (d.exponent + 16) := by
        rw [zpow_add₀ (by norm_num)]
        norm_num
        linarith
      have horder := (zpow_lt_zpow_iff_right₀ (by norm_num)).mp hbound
      omega

end Brokerage.Binary64
