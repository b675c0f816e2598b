import Brokerage.Proofs.Binary64.Power
import Brokerage.Proofs.Scaling.Order

namespace Brokerage

namespace Binary64

/-- The text of an infinity is read neither as a name nor as a number once an
    exponent stands behind it, so infinities are scaled by multiplication
    instead. -/
theorem readChars?_infinite (s : Bool) (ds : List Char) :
    readChars? ((infinite s).plainChars ++ 'e' :: ds) = none := by
  have hname (negative : Bool) : readName? negative ('i' :: 'n' :: 'f' :: 'e' :: ds) = none := by
    have hother (name : String) (hfourth : name.toList[3]? ≠ some 'e') :
        String.ofList (('i' :: 'n' :: 'f' :: 'e' :: ds).map Char.toLower) ≠ name := by
      rintro rfl
      simp at hfourth
    rw [readName?, if_neg (not_or.mpr ⟨hother _ (by decide), hother _ (by decide)⟩), if_neg (hother _ (by decide))]
  have hdigits (negative : Bool) : readMagnitude? negative ('i' :: 'n' :: 'f' :: 'e' :: ds) = none := by
    simp [readMagnitude?]
  cases s
  · simp [plainChars, readChars?, hname, hdigits]
  · simp [plainChars, readChars?, hname, hdigits]

end Binary64

namespace Scaling

open Binary64

/-- From 2^31 on the digits are read as a negative exponent. -/
theorem toInt_toInt32 (digits : UInt32) : digits.toInt32.toInt =
    if digits.toNat < 0x80000000 then (digits.toNat : Int) else (digits.toNat : Int) - 0x100000000 := by
  have hbits : digits.toInt32.toInt = digits.toBitVec.toInt := rfl
  have hnat : digits.toBitVec.toNat = digits.toNat := rfl
  rw [hbits, BitVec.toInt_eq_toNat_cond, hnat]
  split <;> split <;> omega

/-- An infinity is multiplied by a power of ten. -/
theorem toInt_infinite (s : Bool) (digits : UInt32) :
    toInt (infinite s) digits = ((infinite s).mul ((ofInt 10).powInt digits.toInt32.toInt)).toInt64 := by
  rw [toInt, readChars?_infinite, Option.getD_none]

/-- The end of the range on the side of an infinity. -/
def rangeEnd (s : Bool) : Int64 :=
  if s then Int64.minValue else Int64.maxValue

private theorem toInt64_infinite (s : Bool) : (infinite s).toInt64 = rangeEnd s := by
  cases s <;> rfl

private theorem infinite_mul_ofRank (s : Bool) {rank : Nat} (h : 0 < rank) :
    (infinite s).mul (ofRank false rank) = infinite s := by
  rcases Nat.lt_or_ge rank rankBound with hlt | hge
  · rw [ofRank_of_lt hlt, mul, if_neg (Nat.ne_of_gt h), Bool.bne_false]
  · rw [ofRank_of_le hge, mul, Bool.bne_false]

/-- The digits for which the power of ten is not zero: those that are read as a
    positive exponent, and those that are read as one from -308 on. -/
def KeepsInfinities (digits : UInt32) : Prop :=
  digits.toNat < 0x80000000 ∨ 0x100000000 ≤ digits.toNat + 308

instance (digits : UInt32) : Decidable (KeepsInfinities digits) :=
  inferInstanceAs (Decidable (_ ∨ _))

private theorem powInt_ten (exponent : Int) : (ofInt 10).powInt exponent =
    if exponent < 0 then (ofInt 1).div (tenPower exponent.natAbs) else tenPower exponent.natAbs := by
  rw [powInt, tenPower]

/-- Where the power of ten is not zero, an infinity times it is infinite, and
    cut to the end of the range on its side. -/
theorem toInt_infinite_of_keeps {digits : UInt32} (h : KeepsInfinities digits) (s : Bool) :
    toInt (infinite s) digits = rangeEnd s := by
  have hpower : ∃ rank, 0 < rank ∧ (ofInt 10).powInt digits.toInt32.toInt = ofRank false rank := by
    rw [powInt_ten, toInt_toInt32]
    split
    · rw [if_neg (by omega)]
      exact exists_tenPower_eq_ofRank _
    · next hlarge =>
      have hback := h.resolve_left hlarge
      have hbelow := digits.toNat_lt
      rw [if_pos (by omega)]
      exact exists_inverse_tenPower_eq_ofRank (by omega)
  obtain ⟨rank, hrank, hpower⟩ := hpower
  rw [toInt_infinite, hpower, infinite_mul_ofRank s hrank, toInt64_infinite]

/-- Where the power of ten is zero, an infinity times it is not a number, and
    the integer is zero instead of an end of the range. -/
theorem toInt_infinite_of_not_keeps {digits : UInt32} (h : ¬KeepsInfinities digits) (s : Bool) :
    toInt (infinite s) digits = 0 := by
  rw [KeepsInfinities, not_or] at h
  have hpower : (ofInt 10).powInt digits.toInt32.toInt = zero := by
    rw [powInt_ten, toInt_toInt32, if_neg h.1, if_pos (by omega)]
    exact inverse_tenPower_eq_zero (by omega)
  rw [toInt_infinite, hpower]
  rfl

/-- One lies beyond the range when it is scaled by enough digits. Nineteen would
    do; with twenty a rough bound on the digits that are written for it is
    enough. -/
theorem toInt_one_eq_maxValue {digits : UInt32} (h : 20 ≤ digits.toNat) : toInt (ofInt 1) digits = Int64.maxValue := by
  obtain ⟨m, hm, hone⟩ := exists_ofInt_one
  obtain ⟨rank, hrounds, hscaled⟩ := exists_scaled m digits
  have hwritten := m.roundsTo_written.valueAt_le
  have hlarge : (2 : ℚ) ^ 64 ≤ m.written * 10 ^ digits.toNat :=
    calc (2 : ℚ) ^ 64
      _ ≤ 1 / 2 * 10 ^ 20 := by norm_num
      _ ≤ m.written * 10 ^ digits.toNat :=
        mul_le_mul (by linarith) (pow_le_pow_right₀ (by norm_num) h) (by positivity) (by linarith)
  rw [← valueAt_two_pow_64] at hlarge
  have hrank := valueAt_le_iff.mpr ((roundsTo_valueAt _).le hrounds hlarge)
  rw [valueAt_two_pow_64] at hrank
  have hfloor : 0x10000000000000000 ≤ ⌊valueAt rank⌋₊ := Nat.le_floor (by exact_mod_cast hrank)
  rw [hm, ← Int64.toInt_inj, hscaled, Int64.toInt_maxValue, clamped, if_neg Bool.false_ne_true]
  omega

/-- Every finite number is scaled to an integer between those of the two
    infinities. -/
def InfinitiesEnclose (digits : UInt32) : Prop :=
  ∀ (x : Binary64) (v : ℚ), x.value? = some v →
    toInt (infinite true) digits ≤ toInt x digits ∧ toInt x digits ≤ toInt (infinite false) digits

/-- The infinities enclose the finite numbers just when the power of ten that
    they are multiplied by is not zero. It is zero for digits from 2^31 on that
    stand for an exponent of less than -308, as their sign is read off the
    highest bit. -/
theorem infinitiesEnclose_iff (digits : UInt32) : InfinitiesEnclose digits ↔ KeepsInfinities digits := by
  constructor
  · intro h
    by_contra hnot
    have hone := (h (ofInt 1) 1 (value?_ofInt (by decide))).2
    rw [toInt_infinite_of_not_keeps hnot, toInt_one_eq_maxValue] at hone
    · exact absurd hone (by decide)
    · rw [KeepsInfinities, not_or] at hnot
      omega
  · intro h x v _
    rw [toInt_infinite_of_keeps h, toInt_infinite_of_keeps h]
    exact ⟨Int64.minValue_le _, Int64.le_maxValue _⟩

/-- By 2^31 digits one is scaled to the largest integer, and positive infinity
    to zero. -/
theorem not_infinitiesEnclose : ¬InfinitiesEnclose 0x80000000 := by
  intro h
  have hone := (h (ofInt 1) 1 (value?_ofInt (by decide))).2
  exact absurd hone (by decide +kernel)

end Scaling

end Brokerage
