import Brokerage.Proofs.Binary64.Written
import Brokerage.Proofs.Scaling

namespace Brokerage

/-- A whole number with a sign, or the end of the range of 64 bits that it lies
    beyond. -/
def clamped (negative : Bool) (whole : Nat) : Int :=
  if negative then -(min whole 0x8000000000000000 : Nat) else (min whole 0x7FFFFFFFFFFFFFFF : Nat)

private theorem clamped_neg_le (whole other : Nat) : clamped true whole ≤ clamped false other := by
  simp only [clamped, if_true, Bool.false_eq_true, if_false]
  omega

private theorem clamped_le {whole other : Nat} (h : whole ≤ other) :
    clamped false whole ≤ clamped false other ∧ clamped true other ≤ clamped true whole := by
  simp only [clamped, if_true, Bool.false_eq_true, if_false]
  omega

private theorem clamped_zero (negative : Bool) : clamped negative 0 = 0 := by
  cases negative <;> rfl

namespace Binary64

/-- The integer part of a rounded number, clamped to 64 bits. Infinity is beyond
    either end, and so is every rank from the bound on. -/
theorem toInt_toInt64_ofRank (negative : Bool) (rank : Nat) :
    (ofRank negative rank).toInt64.toInt = clamped negative ⌊valueAt rank⌋₊ := by
  rcases Nat.lt_or_ge rank rankBound with hlt | hge
  · rw [ofRank_of_lt hlt]
    rcases Nat.lt_or_ge ⌊valueAt rank⌋₊ 0x8000000000000000 with hfits | hlarge
    · rw [toInt_toInt64 (m := ⟨rank, hlt⟩) negative hfits, clamped]
      dsimp only
      split <;> omega
    · rw [toInt64]
      simp only [units_div_eq_floor, if_pos hlarge]
      rw [clamped]
      split
      · rw [Int64.toInt_minValue]
        omega
      · rw [Int64.toInt_maxValue]
        omega
  · have htop : (2 : ℚ) ^ 64 ≤ valueAt rank := by
      rw [← valueAt_two_pow_64, valueAt_le_iff]
      exact Nat.le_trans (by decide) hge
    have hlarge : 0x10000000000000000 ≤ ⌊valueAt rank⌋₊ := Nat.le_floor (by exact_mod_cast htop)
    rw [ofRank_of_le hge, clamped]
    cases negative
    · rw [toInt64, Int64.toInt_maxValue]
      simp only [Bool.false_eq_true, if_false]
      omega
    · rw [toInt64, Int64.toInt_minValue]
      simp only [if_true]
      omega

private theorem Magnitude.written_of_rank_eq_zero {m : Magnitude} (h : m.rank = 0) : m.written = 0 :=
  if_pos h

end Binary64

namespace Scaling

open Binary64

/-- The integer of a finite number is that of the rank which its written digits,
    with their point moved, round to. -/
theorem exists_toInt_eq_clamped (s : Bool) (m : Magnitude) (digits : UInt32) :
    ∃ rank, RoundsTo (m.written * 10 ^ digits.toNat) rank ∧
      (toInt (finite s m) digits).toInt = clamped s ⌊valueAt rank⌋₊ := by
  by_cases hzero : m.rank = 0
  · obtain rfl := Magnitude.eq_zero_of_rank_eq_zero hzero
    refine ⟨0, ?_, ?_⟩
    · rw [Magnitude.written_of_rank_eq_zero rfl, zero_mul, ← valueAt_zero]
      exact roundsTo_valueAt 0
    · rw [toInt_zero, valueAt_zero, Nat.floor_zero, clamped_zero]
      rfl
  · obtain ⟨read, hread, hmoved⟩ := exists_readChars?_plain s hzero digits.toNat
    obtain ⟨rank, hrank, hrounds⟩ := exists_ofDecimal_eq_ofRank s read
    refine ⟨rank, ?_, ?_⟩
    · rwa [Magnitude.written, if_neg hzero, ← zpow_natCast, ← hmoved]
    · rw [toInt, hread, Option.getD_some, hrank, toInt_toInt64_ofRank]

/-- The whole number that a magnitude is scaled to, before it is clamped. It
    does not depend on the sign. -/
theorem exists_scaled (m : Magnitude) (digits : UInt32) :
    ∃ rank, RoundsTo (m.written * 10 ^ digits.toNat) rank ∧
      ∀ s, (toInt (finite s m) digits).toInt = clamped s ⌊valueAt rank⌋₊ := by
  obtain ⟨rank, hrounds, -⟩ := exists_toInt_eq_clamped false m digits
  refine ⟨rank, hrounds, fun s => ?_⟩
  obtain ⟨other, hother, hresult⟩ := exists_toInt_eq_clamped s m digits
  rw [hrounds.unique hother, hresult]

/-- The integers are the two ends of the range of 64 bits. -/
def OppositeEnds (a b : Int64) : Prop :=
  a = Int64.minValue ∧ b = Int64.maxValue ∨ a = Int64.maxValue ∧ b = Int64.minValue

private theorem neg_or_oppositeEnds_of_clamped {a b : Int64} {s : Bool} {whole : Nat} (ha : a.toInt = clamped s whole)
    (hb : b.toInt = clamped (!s) whole) : b.toInt = -a.toInt ∨ OppositeEnds a b := by
  simp only [OppositeEnds, ← Int64.toInt_inj, Int64.toInt_minValue, Int64.toInt_maxValue, ha, hb]
  cases s
  all_goals
    simp only [clamped, Bool.not_true, Bool.not_false, if_true, Bool.false_eq_true, if_false]
    omega

/-- A number and its negative are scaled to opposite integers, or else to the
    two ends of the range: the lower end has no opposite within 64 bits. -/
theorem toInt_neg_or_oppositeEnds {x : Binary64} {v : ℚ} (hx : x.value? = some v) (digits : UInt32) :
    (toInt x.neg digits).toInt = -(toInt x digits).toInt ∨ OppositeEnds (toInt x digits) (toInt x.neg digits) := by
  obtain ⟨s, m, rfl⟩ := exists_finite_of_value? hx
  obtain ⟨rank, -, hscaled⟩ := exists_scaled m digits
  exact neg_or_oppositeEnds_of_clamped (hscaled s) (hscaled !s)

/-- Of two magnitudes the larger is scaled to no smaller whole number. Its
    digits make no smaller decimal, moving the point and rounding keep that, and
    so do cutting off the fraction and staying within 64 bits. -/
theorem toInt_magnitude_le {m n : Magnitude} (h : valueAt m.rank ≤ valueAt n.rank) (digits : UInt32) :
    toInt (finite false m) digits ≤ toInt (finite false n) digits ∧
      toInt (finite true n) digits ≤ toInt (finite true m) digits := by
  obtain ⟨rank, hrank, hm⟩ := exists_scaled m digits
  obtain ⟨other, hother, hn⟩ := exists_scaled n digits
  have hmoved : m.written * 10 ^ digits.toNat ≤ n.written * 10 ^ digits.toNat :=
    mul_le_mul_of_nonneg_right (Magnitude.written_le_written (valueAt_le_iff.mp h)) (by positivity)
  have hfloor : ⌊valueAt rank⌋₊ ≤ ⌊valueAt other⌋₊ := Nat.floor_mono (valueAt_le_iff.mpr (hrank.le hother hmoved))
  rw [Int64.le_iff_toInt_le, Int64.le_iff_toInt_le, hm, hm, hn, hn]
  exact clamped_le hfloor

private theorem toInt_opposite_le (m n : Magnitude) (digits : UInt32) :
    toInt (finite true m) digits ≤ toInt (finite false n) digits := by
  obtain ⟨rank, -, hm⟩ := exists_scaled m digits
  obtain ⟨other, -, hn⟩ := exists_scaled n digits
  rw [Int64.le_iff_toInt_le, hm, hn]
  exact clamped_neg_le _ _

/-- Scaling keeps the order of all finite numbers. Numbers of one sign are
    compared by their magnitudes, and those of opposite signs lie on the two
    sides of zero. -/
theorem toInt_le_toInt {x y : Binary64} {v w : ℚ} (hx : x.value? = some v) (hy : y.value? = some w) (h : v ≤ w)
    (digits : UInt32) : toInt x digits ≤ toInt y digits := by
  obtain ⟨s, m, rfl⟩ := exists_finite_of_value? hx
  obtain ⟨t, n, rfl⟩ := exists_finite_of_value? hy
  rw [value?_finite, Option.some.injEq] at hx hy
  have hm := valueAt_nonneg m.rank
  have hn := valueAt_nonneg n.rank
  rw [← hx, ← hy] at h
  cases s <;> cases t <;> simp only [if_true, Bool.false_eq_true, if_false] at h
  case false.false => exact (toInt_magnitude_le h digits).1
  case true.true => exact (toInt_magnitude_le (neg_le_neg_iff.mp h) digits).2
  case true.false => exact toInt_opposite_le m n digits
  case false.true =>
    -- Both are zero.
    have hzero {k : Magnitude} (hk : valueAt k.rank ≤ 0) : k = .zero :=
      Magnitude.eq_zero_of_rank_eq_zero (Nat.le_zero.mp (valueAt_le_iff.mp (hk.trans_eq valueAt_zero.symm)))
    have hsame : toInt (finite false m) digits = toInt (finite true n) digits := by
      rw [hzero (k := m) (by linarith), hzero (k := n) (by linarith), toInt_zero, toInt_zero]
    exact hsame ▸ Int64.le_refl _

/-- Scaling keeps the order of all finite numbers, whatever their size and
    however many digits they are scaled by. A number and its negative are scaled
    to opposite integers, unless the integers are the two ends of the range. -/
theorem toInt_order_and_sign (digits : UInt32) :
    (∀ (x y : Binary64) (v w : ℚ), x.value? = some v → y.value? = some w → v ≤ w → toInt x digits ≤ toInt y digits) ∧
      ∀ (x : Binary64) (v : ℚ), x.value? = some v →
        (toInt x.neg digits).toInt = -(toInt x digits).toInt ∨ OppositeEnds (toInt x digits) (toInt x.neg digits) :=
  ⟨fun _ _ _ _ hx hy h => toInt_le_toInt hx hy h digits, fun _ _ hx => toInt_neg_or_oppositeEnds hx digits⟩

/-- The smallest number above zero. -/
def smallest : Binary64 :=
  finite false ⟨1, by decide⟩

/-- The largest finite number. -/
def largest : Binary64 :=
  finite false ⟨rankBound - 1, by decide⟩

/-- Scaled by as many digits as bring the smallest number into the range, the
    largest one is beyond it. -/
theorem toInt_order_and_sign_extremes :
    smallest.value? = some (valueAt 1) ∧ largest.value? = some (valueAt (rankBound - 1)) ∧
      valueAt 1 ≤ valueAt (rankBound - 1) ∧ (toInt smallest 342).toInt = 5000000000000000000 ∧
      toInt smallest 342 ≤ toInt largest 342 ∧
      ((toInt smallest.neg 342).toInt = -(toInt smallest 342).toInt ∨
        OppositeEnds (toInt smallest 342) (toInt smallest.neg 342)) := by
  have hsmallest : smallest.value? = some (valueAt 1) := value?_finite false ⟨1, by decide⟩
  have hlargest : largest.value? = some (valueAt (rankBound - 1)) := value?_finite false ⟨rankBound - 1, by decide⟩
  have hle : valueAt 1 ≤ valueAt (rankBound - 1) := valueAt_le_iff.mpr (by decide)
  obtain ⟨horder, hsign⟩ := toInt_order_and_sign 342
  exact ⟨hsmallest, hlargest, hle, by decide +kernel, horder _ _ _ _ hsmallest hlargest hle, hsign _ _ hsmallest⟩

end Scaling

end Brokerage
