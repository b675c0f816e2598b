import Brokerage.Proofs.Binary64.Written

namespace Brokerage.Binary64

/-- Rounding does not depend on the scale that both sides of a fraction have in
    common. -/
theorem nearestRank_mul_right (num den : Nat) {scale : Nat} (h : 0 < scale) :
    nearestRank (num * scale) (den * scale) = nearestRank num den := by
  have hstep (shift : Nat) : den * scale * Nat.pow 2 shift = den * Nat.pow 2 shift * scale := Nat.mul_right_comm _ _ _
  unfold nearestRank
  rw [Nat.mul_div_mul_right _ _ h]
  generalize (num / den).log2 - 52 = shift
  simp only
  rw [hstep, Nat.mul_div_mul_right _ _ h, Nat.mul_mod_mul_right]
  generalize den * Nat.pow 2 shift = step
  generalize num / step = below
  generalize num % step = rest
  have hlt : step * scale < 2 * (rest * scale) ↔ step < 2 * rest := by
    rw [← Nat.mul_assoc, Nat.mul_lt_mul_right h]
  have heq : step * scale = 2 * (rest * scale) ↔ step = 2 * rest := by
    rw [← Nat.mul_assoc, Nat.mul_left_inj (Nat.ne_of_gt h)]
  simp only [hlt, heq]

/-- The product of two magnitudes is the rank that the exact product rounds
    to. -/
theorem exists_mul_eq_ofRank (s t : Bool) (m n : Magnitude) :
    ∃ rank, (finite s m).mul (finite t n) = ofRank (s != t) rank ∧ RoundsTo (valueAt m.rank * valueAt n.rank) rank := by
  have hone : 0 < unitsInOne := Nat.cast_pos.mp unitsInOne_pos
  have hrounds := roundsTo_nearestRank (m.units * n.units) (Nat.mul_pos hone hone)
  rw [nearestRank_mul_right _ _ hone] at hrounds
  refine ⟨nearestRank (m.units * n.units) unitsInOne, by rw [mul, ofUnits], ?_⟩
  rwa [valueAt, valueAt, div_mul_div_comm, ← Nat.cast_mul, ← Nat.cast_mul]

/-- The quotient of two magnitudes is the rank that the exact quotient rounds
    to. Division by zero is an operation of its own. -/
theorem exists_div_eq_ofRank (s t : Bool) (m : Magnitude) {n : Magnitude} (hn : n.rank ≠ 0) :
    ∃ rank, (finite s m).div (finite t n) = ofRank (s != t) rank ∧ RoundsTo (valueAt m.rank / valueAt n.rank) rank := by
  have hrounds := roundsTo_nearestRank m.units (Magnitude.units_pos_iff.mpr hn)
  refine ⟨nearestRank (m.units * unitsInOne) n.units, by rw [div, if_neg hn, ofRatio, ofUnits], ?_⟩
  rwa [valueAt, valueAt, div_div_div_cancel_right₀ unitsInOne_pos.ne']

/-- One rounding makes a number of at least one larger or smaller by less than
    this factor. -/
def spread : ℚ := 1001 / 1000

private theorem one_lt_spread : 1 < spread := by
  rw [spread]
  norm_num

/-- From one on, rounding stays within the spread. Every product is rounded
    once, so a power by repeated squaring stays within as many spreads as its
    exponent. -/
theorem RoundsTo.within_spread {q : ℚ} {rank : Nat} (h : RoundsTo q rank) (hq : 1 ≤ q) :
    q ≤ valueAt rank * spread ∧ valueAt rank ≤ q * spread := by
  obtain ⟨one, hone⟩ := exists_valueAt_eq (n := 1) (by norm_num)
  rw [Nat.cast_one] at hone
  have hrank : one ≤ rank := (roundsTo_valueAt one).le h (hone.trans_le hq)
  have hnormal : binade + 1 < one := by
    rw [← valueAt_lt_iff, hone]
    exact valueAt_binade_lt
  have hvalue : 1 ≤ valueAt rank := hone ▸ valueAt_le_iff.mpr hrank
  have hclose := (roundsTo_valueAt rank).sub_le h (by omega)
  rw [binade_eq, abs_le] at hclose
  rw [spread]
  constructor <;> linarith [hclose.1, hclose.2]

/-- The number is positive and lies between two bounds. It may be infinite only
    if the upper bound is past the last finite number. -/
inductive Within (low high : ℚ) : Binary64 → Prop
  | finite {m : Magnitude} (hlow : low ≤ valueAt m.rank) (hhigh : valueAt m.rank ≤ high) :
      Within low high (.finite false m)
  | infinite (hhigh : valueAt (rankBound - 1) < high) : Within low high (.infinite false)

private theorem Within.finite_or_infinite {x : Binary64} {low high : ℚ} (h : Within low high x) :
    (∃ m, x = .finite false m ∧ low ≤ valueAt m.rank ∧ valueAt m.rank ≤ high) ∨
      x = .infinite false ∧ valueAt (rankBound - 1) < high := by
  cases h with
  | finite hlow hhigh => exact .inl ⟨_, rfl, hlow, hhigh⟩
  | infinite hhigh => exact .inr ⟨rfl, hhigh⟩

private theorem exists_finite_of_pos {x : Binary64} {v : ℚ} (hx : x.value? = some v) (h : 0 < v) :
    ∃ m, x = finite false m ∧ valueAt m.rank = v := by
  obtain ⟨s, m, rfl⟩ := exists_finite_of_value? hx
  have hm := valueAt_nonneg m.rank
  rw [value?_finite, Option.some.injEq] at hx
  cases s
  · exact ⟨m, rfl, hx⟩
  · rw [if_pos rfl] at hx
    linarith

private theorem Within.of_value {x : Binary64} {v : ℚ} (hx : x.value? = some v) (h : 0 < v) : Within v v x := by
  obtain ⟨m, rfl, hm⟩ := exists_finite_of_pos hx h
  exact .finite hm.ge hm.le

/-- A rational of at least one is rounded to a number within the spread. Near
    zero the relative error of rounding has no bound, which is why `hq` is asked
    for. -/
theorem RoundsTo.within {q low high : ℚ} {rank : Nat} (h : RoundsTo q rank) (hq : 1 ≤ q) (hlow : low ≤ q)
    (hhigh : q ≤ high) : Within (low / spread) (high * spread) (ofRank false rank) := by
  have hspread : 0 < spread := zero_lt_one.trans one_lt_spread
  obtain ⟨hbelow, habove⟩ := h.within_spread hq
  have hupper : valueAt rank ≤ high * spread := habove.trans (mul_le_mul_of_nonneg_right hhigh hspread.le)
  rcases Nat.lt_or_ge rank rankBound with hlt | hge
  · rw [ofRank_of_lt hlt]
    exact .finite ((div_le_iff₀ hspread).mpr (hlow.trans hbelow)) hupper
  · rw [ofRank_of_le hge]
    exact .infinite ((valueAt_lt_iff.mpr (Nat.lt_of_lt_of_le (by decide) hge)).trans_le hupper)

/-- A product lies between the products of the bounds, but for one rounding. The
    lower bounds have to be at least one, which keeps the product where rounding
    is within the spread. -/
theorem Within.mul {x y : Binary64} {a b c d : ℚ} (hx : Within a b x) (hy : Within c d y) (ha : 1 ≤ a) (hc : 1 ≤ c)
    (hab : a ≤ b) (hcd : c ≤ d) : Within (a * c / spread) (b * d * spread) (x.mul y) := by
  have hspread := one_lt_spread
  have hfirst : b ≤ b * d * spread := by
    rw [mul_assoc]
    exact le_mul_of_one_le_right (by linarith) (by nlinarith)
  have hsecond : d ≤ b * d * spread := by
    rw [mul_comm b, mul_assoc]
    exact le_mul_of_one_le_right (by linarith) (by nlinarith)
  have hne {m : Magnitude} (hm : 1 ≤ valueAt m.rank) : m.rank ≠ 0 := by
    intro hzero
    rw [hzero, valueAt_zero] at hm
    linarith
  cases hx with
  | @finite m hm hm' =>
    cases hy with
    | @finite n hn hn' =>
      obtain ⟨rank, hproduct, hrounds⟩ := exists_mul_eq_ofRank false false m n
      rw [hproduct]
      refine hrounds.within ?_ ?_ ?_
      · nlinarith
      · exact mul_le_mul hm hn (by linarith) (by linarith)
      · exact mul_le_mul hm' hn' (by linarith) (by linarith)
    | infinite hd =>
      rw [Binary64.mul, if_neg (hne (ha.trans hm))]
      exact .infinite (hd.trans_le hsecond)
  | infinite hb =>
    cases hy with
    | @finite n hn hn' =>
      rw [Binary64.mul, if_neg (hne (hc.trans hn))]
      exact .infinite (hb.trans_le hfirst)
    | infinite hd => exact .infinite (hb.trans_le hfirst)

private theorem mul_div_spread_le {a b c d : ℚ} (ha : 0 ≤ a) (hc : 0 ≤ c) (hab : a ≤ b) (hcd : c ≤ d) :
    a * c / spread ≤ b * d * spread := by
  have hspread := one_lt_spread
  calc a * c / spread
    _ ≤ a * c := div_le_self (mul_nonneg ha hc) hspread.le
    _ ≤ b * d := mul_le_mul hab hcd hc (ha.trans hab)
    _ ≤ b * d * spread := le_mul_of_one_le_right (mul_nonneg (ha.trans hab) (hc.trans hcd)) hspread.le

/-- A power by repeated squaring lies between the powers of the bounds, each
    factor widened by one rounding. The induction follows the squaring: an even
    exponent squares the base, and an odd one multiplies the base into what has
    been gathered. -/
theorem Within.squaring {base acc : Binary64} {a a' b b' : ℚ} (hacc : Within a a' acc) (hbase : Within b b' base)
    (ha : 1 ≤ a) (haa' : a ≤ a') (hb : spread ≤ b) (hbb' : b ≤ b') (n : Nat) :
    Within (a * (b / spread) ^ n) (a' * (b' * spread) ^ n) (squaring base acc n) := by
  have hspread := one_lt_spread
  have hpos : 0 < spread := by linarith
  induction base, acc, n using squaring.induct generalizing a a' b b' with
  | case1 base acc =>
    rw [Binary64.squaring, dif_pos le_rfl, if_pos rfl, pow_one, pow_one, ← mul_div_assoc, ← mul_assoc]
    exact hacc.mul hbase ha (by linarith) haa' hbb'
  | case2 base acc n hle hne =>
    obtain rfl : n = 0 := by omega
    rw [Binary64.squaring, dif_pos hle, if_neg hne, pow_zero, pow_zero, mul_one, mul_one]
    exact hacc
  | case3 base acc n hgt ih =>
    have hnext : spread ≤ b * b / spread := by
      rw [le_div_iff₀ hpos]
      exact mul_self_le_mul_self hpos.le hb
    have hwidth := mul_div_spread_le (by linarith) (by linarith) hbb' hbb'
    have hsquare := hbase.mul hbase (by linarith) (by linarith) hbb' hbb'
    have hlow : b * b / spread / spread = (b / spread) ^ 2 := by ring
    have hhigh : b' * b' * spread * spread = (b' * spread) ^ 2 := by ring
    rw [Binary64.squaring, dif_neg hgt]
    obtain ⟨half, rfl | rfl⟩ := Nat.even_or_odd' n
    · have hparity : ¬2 * half % 2 = 1 := by omega
      have hhalf : 2 * half / 2 = half := by omega
      rw [dif_neg hparity, hhalf] at ih
      have hpower := ih hacc hsquare ha haa' hnext hwidth
      rwa [if_neg hparity, hhalf, pow_mul, pow_mul, ← hlow, ← hhigh]
    · have hparity : (2 * half + 1) % 2 = 1 := by omega
      have hhalf : (2 * half + 1) / 2 = half := by omega
      have hone : 1 ≤ b / spread := (one_le_div₀ hpos).mpr hb
      have hstart : 1 ≤ a * b / spread := by
        rw [mul_div_assoc]
        exact one_le_mul_of_one_le_of_one_le ha hone
      have hproduct := hacc.mul hbase ha (by linarith) haa' hbb'
      have hproductWidth := mul_div_spread_le (by linarith) (by linarith) haa' hbb'
      rw [dif_pos hparity, hhalf] at ih
      have hpower := ih hproduct hsquare hstart hproductWidth hnext hwidth
      have hlowPower : a * (b / spread) ^ (2 * half + 1) = a * b / spread * (b * b / spread / spread) ^ half := by
        rw [hlow, ← pow_mul]
        ring
      have hhighPower :
          a' * (b' * spread) ^ (2 * half + 1) = a' * b' * spread * (b' * b' * spread * spread) ^ half := by
        rw [hhigh, ← pow_mul]
        ring
      rwa [if_pos hparity, hhalf, hlowPower, hhighPower]

/-- Integers up to 2^53 are themselves numbers, so that converting one of them
    is exact. -/
theorem value?_ofInt {n : Int} (h : n.natAbs ≤ 2 ^ 53) : (ofInt n).value? = some n := by
  obtain ⟨m, hm, hrank⟩ := exists_ofInt_eq_finite (n := n) (by omega)
  obtain ⟨rank, hvalue⟩ := exists_valueAt_eq h
  have hrounds := roundsTo_nearestRank n.natAbs Nat.one_pos
  rw [Nat.cast_one, div_one, ← hrank, ← hvalue] at hrounds
  rw [hm, value?_finite, hrounds.unique (roundsTo_valueAt rank), hvalue, Nat.cast_natAbs]
  by_cases hneg : n < 0
  · simp [hneg, abs_of_neg]
  · simp [hneg, abs_of_nonneg (not_lt.mp hneg)]

/-- A power of ten by repeated squaring. -/
def tenPower (n : Nat) : Binary64 :=
  squaring (ofInt 10) (ofInt 1) n

/-- The power of ten by repeated squaring lies between the powers of a base that
    is one rounding smaller, and of one that is one rounding larger. -/
theorem within_tenPower (n : Nat) : Within ((10 / spread) ^ n) ((10 * spread) ^ n) (tenPower n) := by
  have hone : Within 1 1 (ofInt 1) := .of_value (value?_ofInt (by decide)) one_pos
  have hten : Within 10 10 (ofInt 10) := .of_value (value?_ofInt (by decide)) (by norm_num)
  have hspread : spread ≤ 10 := by
    rw [spread]
    norm_num
  have hpower := hone.squaring hten le_rfl le_rfl hspread le_rfl n
  rwa [one_mul, one_mul] at hpower

private theorem one_le_ten_div_spread_pow (n : Nat) : 1 ≤ (10 / spread) ^ n := by
  apply one_le_pow₀
  rw [spread]
  norm_num

/-- No power of ten is zero; the large ones are infinite. -/
theorem exists_tenPower_eq_ofRank (n : Nat) : ∃ rank, 0 < rank ∧ tenPower n = ofRank false rank := by
  have hlow := one_le_ten_div_spread_pow n
  obtain ⟨m, hpower, hm, -⟩ | ⟨hpower, -⟩ := (within_tenPower n).finite_or_infinite
  · have hpos : valueAt 0 < valueAt m.rank := by
      rw [valueAt_zero]
      linarith
    exact ⟨m.rank, valueAt_lt_iff.mp hpos, by rw [hpower, ofRank_of_lt m.rank_lt]⟩
  · exact ⟨rankBound, by decide, by rw [hpower, ofRank_of_le le_rfl]⟩

/-- The powers of ten up to 10^308 are finite. The error made by repeated
    squaring is too small to carry the last of them past the largest number. -/
theorem exists_tenPower_eq_finite {n : Nat} (h : n ≤ 308) :
    ∃ m, tenPower n = finite false m ∧ 1 ≤ valueAt m.rank := by
  have hfits : ∀ places, places = 308 →
      1001 ^ places * unitsInOne ≤ unitsAt (rankBound - 1) * 100 ^ places := by
    rintro places rfl
    decide +kernel
  have hbound : (10 * spread) ^ n ≤ valueAt (rankBound - 1) := by
    obtain ⟨places, hplaces⟩ : ∃ places, places = 308 := ⟨_, rfl⟩
    have hten : (10 * spread : ℚ) = 1001 / 100 := by
      rw [spread]
      norm_num
    have hscale : (0 : ℚ) < 100 ^ places := by positivity
    calc (10 * spread) ^ n
      _ ≤ (10 * spread) ^ places := pow_le_pow_right₀ (by rw [hten]; norm_num) (hplaces ▸ h)
      _ ≤ valueAt (rankBound - 1) := by
        rw [hten, div_pow, valueAt, div_le_div_iff₀ hscale unitsInOne_pos]
        exact_mod_cast hfits places hplaces
  have hlow := one_le_ten_div_spread_pow n
  obtain ⟨m, hpower, hm, -⟩ | ⟨-, hhigh⟩ := (within_tenPower n).finite_or_infinite
  · exact ⟨m, hpower, hlow.trans hm⟩
  · exact absurd hhigh (not_lt.mpr hbound)

/-- The powers of ten from 10^309 on are infinite, and no error made by repeated
    squaring keeps one of them finite. -/
theorem tenPower_eq_infinite {n : Nat} (h : 309 ≤ n) : tenPower n = infinite false := by
  have hexceeds : ∀ places, places = 309 →
      unitsAt (rankBound - 1) * 1001 ^ places < 10000 ^ places * unitsInOne := by
    rintro places rfl
    decide +kernel
  have hbound : valueAt (rankBound - 1) < (10 / spread) ^ n := by
    obtain ⟨places, hplaces⟩ : ∃ places, places = 309 := ⟨_, rfl⟩
    have hten : (10 / spread : ℚ) = 10000 / 1001 := by
      rw [spread]
      norm_num
    have hscale : (0 : ℚ) < 1001 ^ places := by positivity
    calc valueAt (rankBound - 1)
      _ < (10 / spread) ^ places := by
        rw [hten, div_pow, valueAt, div_lt_div_iff₀ unitsInOne_pos hscale]
        exact_mod_cast hexceeds places hplaces
      _ ≤ (10 / spread) ^ n := pow_le_pow_right₀ (by rw [hten]; norm_num) (hplaces ▸ h)
  obtain ⟨m, -, hm, -⟩ | ⟨hpower, -⟩ := (within_tenPower n).finite_or_infinite
  · have hlast : valueAt m.rank ≤ valueAt (rankBound - 1) := valueAt_le_iff.mpr (Nat.le_sub_one_of_lt m.rank_lt)
    exact absurd (hbound.trans_le hm) (not_lt.mpr hlast)
  · exact hpower

/-- The inverse of a magnitude other than zero is above zero. -/
private theorem valueAt_one_le_inverse {m : Magnitude} (h : 0 < valueAt m.rank) : valueAt 1 ≤ 1 / valueAt m.rank := by
  have hunits : unitsAt 1 * unitsAt (rankBound - 1) ≤ unitsInOne * unitsInOne := by decide +kernel
  have hone := unitsInOne_pos
  have hlast : valueAt m.rank ≤ valueAt (rankBound - 1) := valueAt_le_iff.mpr (Nat.le_sub_one_of_lt m.rank_lt)
  rw [le_div_iff₀ h]
  calc valueAt 1 * valueAt m.rank
    _ ≤ valueAt 1 * valueAt (rankBound - 1) := mul_le_mul_of_nonneg_left hlast (valueAt_nonneg 1)
    _ ≤ 1 := by
      rw [valueAt, valueAt, div_mul_div_comm, div_le_one (mul_pos hone hone)]
      exact_mod_cast hunits

theorem exists_ofInt_one : ∃ m, ofInt 1 = finite false m ∧ valueAt m.rank = 1 := by
  obtain ⟨m, hm, hvalue⟩ := exists_finite_of_pos (value?_ofInt (n := 1) (by decide)) (by norm_num)
  exact ⟨m, hm, hvalue.trans Int.cast_one⟩

/-- The inverse of a finite power of ten is not zero, though it may be smaller
    than the numbers of full precision. -/
theorem exists_inverse_tenPower_eq_ofRank {n : Nat} (h : n ≤ 308) :
    ∃ rank, 0 < rank ∧ (ofInt 1).div (tenPower n) = ofRank false rank := by
  obtain ⟨m, hpower, hm⟩ := exists_tenPower_eq_finite h
  have hpos : 0 < valueAt m.rank := by linarith
  have hrank : m.rank ≠ 0 := by
    intro hzero
    rw [hzero, valueAt_zero] at hpos
    exact lt_irrefl _ hpos
  obtain ⟨one, hone, hvalue⟩ := exists_ofInt_one
  obtain ⟨rank, hquotient, hrounds⟩ := exists_div_eq_ofRank false false one hrank
  rw [hvalue] at hrounds
  refine ⟨rank, (roundsTo_valueAt 1).le hrounds (valueAt_one_le_inverse hpos), ?_⟩
  rw [hone, hpower, hquotient]
  rfl

/-- The inverse of an infinite power of ten is zero. The first power past the
    range of finite numbers is that with 309 zeros. -/
theorem inverse_tenPower_eq_zero {n : Nat} (h : 309 ≤ n) : (ofInt 1).div (tenPower n) = zero := by
  obtain ⟨one, hone, -⟩ := exists_ofInt_one
  rw [tenPower_eq_infinite h, hone]
  rfl

end Brokerage.Binary64
