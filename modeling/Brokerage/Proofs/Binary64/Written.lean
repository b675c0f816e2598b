import Brokerage.Proofs.Binary64.Decimal

namespace Brokerage.Binary64

private theorem roundsTo_of_inside {q : ℚ} {rank : Nat} (hlower : lower rank < q) (hupper : q < upper rank) :
    RoundsTo q rank :=
  ⟨hlower.le, hupper.le, fun _ => ⟨hlower, hupper⟩⟩

/-- A magnitude is at most 2^53 times the step that leads to it. -/
private theorem valueAt_succ_le_steps (rank : Nat) :
    valueAt (rank + 1) ≤ 2 * binade * (valueAt (rank + 1) - valueAt rank) := by
  obtain ⟨shift, count, hgrid, hlt, rfl, hgap⟩ := exists_onGrid rank
  have hunits : unitsAt (shift * binade + count + 1) ≤ 2 * binade * gap (shift * binade + count) := by
    rw [hgap, Nat.add_assoc, unitsAt_grid (hgrid.succ hlt)]
    exact Nat.mul_le_mul_right _ hlt
  have hstep : valueAt (shift * binade + count + 1) - valueAt (shift * binade + count) =
      gap (shift * binade + count) / unitsInOne := by
    rw [valueAt, valueAt, unitsAt_succ, Nat.cast_add, add_div, add_sub_cancel_left]
  rw [hstep, mul_div_assoc', valueAt, div_le_div_iff_of_pos_right unitsInOne_pos]
  exact_mod_cast hunits

/-- The rationals that round to a magnitude fill a stretch of at least a 2^53rd
    part of it. -/
theorem valueAt_le_width {rank : Nat} (h : 0 < rank) : valueAt rank ≤ 2 * binade * (upper rank - lower rank) := by
  have hsteps := valueAt_succ_le_steps (rank - 1)
  have hnext := valueAt_succ_mono (Nat.sub_le rank 1)
  rw [Nat.sub_add_cancel h] at hsteps hnext
  have hwidth : valueAt rank - valueAt (rank - 1) ≤ upper rank - lower rank := by
    rw [upper, lower]
    linarith
  have hbinade : (0 : ℚ) ≤ 2 * binade := by positivity
  exact hsteps.trans (mul_le_mul_of_nonneg_left hwidth hbinade)

/-- A grid finer than a 2^53rd part of a magnitude has a decimal that reads back
    as it, because two neighbouring multiples cannot both lie outside the
    stretch that rounds to it. -/
theorem onGrid?_ne_none_of_fine (tie : Tie) {rank : Nat} (h : 0 < rank) {exponent : Int}
    (hfine : 2 * binade * 10 ^ exponent < valueAt rank) : onGrid? tie rank exponent ≠ none := by
  intro hnone
  obtain ⟨below, hle, hlt, hdown, hup⟩ := onGrid?_eq_none hnone
  have hwidth := valueAt_le_width h
  have hbinade : (0 : ℚ) < 2 * binade := by
    have := binade_pos
    positivity
  -- Neither neighbour of the value reads back, so the stretch between them holds all that does.
  have hbelow : below * 10 ^ exponent ≤ lower rank := by
    by_contra! hlower
    exact hdown (roundsTo_of_inside hlower (hle.trans_lt (valueAt_lt_upper rank)))
  have habove : upper rank ≤ (below + 1 : Nat) * 10 ^ exponent := by
    by_contra! hupper
    exact hup (roundsTo_of_inside ((lower_le_valueAt rank).trans_lt hlt) hupper)
  have hstep : upper rank - lower rank ≤ 10 ^ exponent := by
    push_cast at habove
    linarith
  have hscaled := mul_le_mul_of_nonneg_left hstep hbinade.le
  linarith

/-- The search gives a decimal that reads back, if there is one on a grid that
    it reaches. -/
theorem roundsTo_searchGrids {tie : Tie} {rank : Nat} {e : Int} (hfound : onGrid? tie rank e ≠ none) {steps : Nat}
    {exponent : Int} (hlow : e ≤ exponent) (hhigh : exponent < e + steps) :
    RoundsTo (searchGrids tie rank steps exponent).value rank := by
  induction steps generalizing exponent with
  | zero => omega
  | succ steps ih =>
    rw [searchGrids]
    cases hgrid : onGrid? tie rank exponent with
    | some found => exact (onGrid?_eq_some hgrid).2
    | none =>
      have hne : exponent ≠ e := by
        rintro rfl
        exact hfound hgrid
      rw [Option.getD_none]
      exact ih (by omega) (by omega)

/-- The shortest decimal of a magnitude reads back as it: seventeen digits are
    enough. Zero is written apart and has no shortest decimal. -/
theorem roundsTo_shortest (tie : Tie) {m : Magnitude} (h : 0 < m.rank) : RoundsTo (shortest tie m).value m.rank := by
  obtain ⟨hlead, -⟩ := leadingExponent_spec h
  have hlast := ten_zpow_pos (leadingExponent m.rank - 16)
  have hfine : 2 * binade * 10 ^ (leadingExponent m.rank - 16) < valueAt m.rank := by
    have hsplit : (10 : ℚ) ^ leadingExponent m.rank = 10 ^ (leadingExponent m.rank - 16) * 10 ^ 16 := by
      rw [← zpow_natCast, ← zpow_add₀ (by norm_num)]
      congr 1
      omega
    rw [hsplit] at hlead
    rw [binade_eq]
    linarith
  rw [shortest, Decimal.value_trim]
  exact roundsTo_searchGrids (onGrid?_ne_none_of_fine tie h hfine) (by omega) (by omega)

namespace Magnitude

theorem eq_zero_of_rank_eq_zero {m : Magnitude} (h : m.rank = 0) : m = .zero := by
  cases m
  cases h
  rfl

/-- The value of the digits that are written for a magnitude. -/
def written (m : Magnitude) : ℚ :=
  if m.rank = 0 then 0 else (shortest .up m).value

/-- The digits that are written for a magnitude round to it, zero included. -/
theorem roundsTo_written (m : Magnitude) : RoundsTo m.written m.rank := by
  rw [written]
  split
  · next hzero =>
    rw [hzero, ← valueAt_zero]
    exact roundsTo_valueAt 0
  · next hne => exact roundsTo_shortest .up (Nat.pos_of_ne_zero hne)

/-- The digits of a larger magnitude are those of no smaller decimal. Between
    two different magnitudes this is so because rounding keeps the order. -/
theorem written_le_written {m n : Magnitude} (h : m.rank ≤ n.rank) : m.written ≤ n.written := by
  rcases Nat.eq_or_lt_of_le h with heq | hlt
  · rw [written, written, shortest, shortest, heq]
  · by_contra! hgt
    have hrank := n.roundsTo_written.le m.roundsTo_written hgt.le
    omega

end Magnitude

/-- From the bound on a rank is past the last finite number, and read as
    infinite. -/
theorem ofRank_of_le {negative : Bool} {rank : Nat} (h : rankBound ≤ rank) :
    ofRank negative rank = infinite negative := by
  rw [ofRank, dif_neg (Nat.not_lt.mpr h)]

/-- The first power of ten that is read as infinite is past the last finite
    number. -/
theorem valueAt_rankBound_le : valueAt rankBound ≤ 10 ^ (310 : Int) := by
  have hunits : ∀ places, places = 310 → unitsAt rankBound ≤ Nat.pow 10 places * unitsInOne := by
    rintro places rfl
    decide +kernel
  obtain ⟨places, hplaces⟩ : ∃ places : Nat, places = 310 := ⟨_, rfl⟩
  have hexponent : (310 : Int) = (places : Int) := by omega
  rw [hexponent, zpow_natCast, valueAt, div_le_iff₀ unitsInOne_pos]
  exact_mod_cast hunits places hplaces

/-- What is read as zero without forming a power of ten is nearer to zero than
    to any other number. -/
theorem cutoff_le_upper_zero : (10 : ℚ) ^ (-330 : Int) ≤ upper 0 := by
  have hunits : ∀ places, places = 330 → 2 * unitsInOne ≤ Nat.pow 10 places := by
    rintro places rfl
    decide +kernel
  obtain ⟨places, hplaces⟩ : ∃ places : Nat, places = 330 := ⟨_, rfl⟩
  have hexponent : (-330 : Int) = -(places : Int) := by omega
  have hscale : (0 : ℚ) < 10 ^ places := by positivity
  have hfirst : unitsAt 0 + unitsAt 1 = 1 := by decide
  have htwice : (0 : ℚ) < 2 * unitsInOne := mul_pos two_pos unitsInOne_pos
  rw [hexponent, zpow_neg, zpow_natCast, upper_eq_half, hfirst, Nat.cast_one, ← one_div,
    one_div_le_one_div hscale htwice]
  exact_mod_cast hunits places hplaces

/-- Any decimal is read as the number of the rank that it rounds to, past the
    last finite number too. The cut-offs, where no power of ten is formed, make
    no exception. -/
theorem exists_ofDecimal_eq_ofRank (negative : Bool) (d : Decimal) :
    ∃ rank, ofDecimal negative d.digits d.exponent = ofRank negative rank ∧ RoundsTo d.value rank := by
  have hzero : ofRank negative 0 = finite negative .zero := ofRank_of_lt Magnitude.zero.rank_lt
  by_cases hdigits : d.digits = 0
  · refine ⟨0, by rw [ofDecimal, if_pos hdigits, hzero], ?_⟩
    rw [Decimal.value, hdigits, Nat.cast_zero, zero_mul, ← valueAt_zero]
    exact roundsTo_valueAt 0
  have hpos := Nat.pos_of_ne_zero hdigits
  obtain ⟨hlow, hhigh⟩ := Decimal.value_bounds hpos
  have hten : (1 : ℚ) ≤ 10 := by norm_num
  have hrounds := roundsTo_nearestRank d.num d.den_pos
  rw [← Decimal.value_eq_div] at hrounds
  by_cases htop : 311 ≤ d.exponent + decimalLength d.digits
  · have hlarge : valueAt rankBound ≤ d.value :=
      calc valueAt rankBound
        _ ≤ 10 ^ (310 : Int) := valueAt_rankBound_le
        _ ≤ 10 ^ (d.exponent + decimalLength d.digits - 1) := zpow_le_zpow_right₀ hten (by omega)
        _ ≤ d.value := hlow
    have hrank := (roundsTo_valueAt rankBound).le hrounds hlarge
    refine ⟨_, ?_, hrounds⟩
    rw [ofRank_of_le hrank, ofDecimal, if_neg hdigits]
    exact if_pos htop
  by_cases hbottom : d.exponent + decimalLength d.digits ≤ -330
  · have hsmall : d.value ≤ upper 0 :=
      calc d.value
        _ ≤ 10 ^ (d.exponent + decimalLength d.digits) := hhigh.le
        _ ≤ 10 ^ (-330 : Int) := zpow_le_zpow_right₀ hten hbottom
        _ ≤ upper 0 := cutoff_le_upper_zero
    have hnonneg : lower 0 ≤ d.value := by
      rw [lower, valueAt_zero, add_zero, zero_div]
      exact (Decimal.value_pos hpos).le
    refine ⟨0, ?_, hnonneg, hsmall, fun hodd => absurd hodd (by decide)⟩
    rw [hzero, ofDecimal, if_neg hdigits]
    exact (if_neg htop).trans (if_pos hbottom)
  · have hcut : (10 : ℚ) ^ (-330 : Int) ≤ d.value := (zpow_le_zpow_right₀ hten (by omega)).trans hlow
    have hbound : d.value < 10 ^ (310 : Int) := hhigh.trans_le (zpow_le_zpow_right₀ hten (by omega))
    exact ⟨_, by rw [ofDecimal_eq_ofRatio negative hpos hcut hbound, ofRatio, ofUnits], hrounds⟩

end Brokerage.Binary64
