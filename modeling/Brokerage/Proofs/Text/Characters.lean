import Brokerage.Text.WhiteSpace
import Mathlib.Data.Nat.Basic

namespace Brokerage.Text

/-- Only letters are changed by lower-casing, and they become lower-case
    letters. So a character below the letters comes out of no other one. -/
theorem toLower_eq_iff {c d : Char} (h : d.toNat < 'A'.toNat) : c.toLower = d ↔ c = d := by
  unfold Char.toLower
  split
  · next hupper =>
    have hlower : 'A'.toNat ≤ c.toNat := hupper.1
    have hletter : c.toNat ≤ 'Z'.toNat := hupper.2
    have hA : 'A'.toNat = 65 := rfl
    have hZ : 'Z'.toNat = 90 := rfl
    have hshifted : (c.val + ('a'.val - 'A'.val)).toNat = c.toNat + 32 := by
      rw [UInt32.toNat_add]
      exact Nat.mod_eq_of_lt (by change c.toNat + 32 < 2 ^ 32; omega)
    constructor
    · rintro rfl
      change (c.val + ('a'.val - 'A'.val)).toNat < _ at h
      omega
    · rintro rfl
      omega
  · rfl

/-- Lower-casing changes no white space. -/
theorem isWhiteSpace_toLower {c : Char} (h : isWhiteSpace c = true) : isWhiteSpace c.toLower = true := by
  unfold Char.toLower
  split
  · next hupper =>
    have hlower : 'A'.toNat ≤ c.toNat := hupper.1
    have hletter : c.toNat ≤ 'Z'.toNat := hupper.2
    have hA : 'A'.toNat = 65 := rfl
    have hZ : 'Z'.toNat = 90 := rfl
    simp only [isWhiteSpace, Bool.or_eq_true, Bool.and_eq_true, decide_eq_true_eq, beq_iff_eq] at h
    omega
  · exact h

theorem isWhiteSpace_of_isDigit {c : Char} (h : c.isDigit = true) : isWhiteSpace c = false := by
  have hbounds := Char.isDigit_iff_toNat.mp h
  have hzero : '0'.toNat = 48 := rfl
  have hnine : '9'.toNat = 57 := rfl
  simp only [isWhiteSpace, Bool.or_eq_false_iff, Bool.and_eq_false_iff, decide_eq_false_iff_not, beq_eq_false_iff_ne]
  omega

theorem toLower_of_isDigit {c : Char} (h : c.isDigit = true) : c.toLower = c := by
  have hbounds := Char.isDigit_iff_toNat.mp h
  have hbelow : '9'.toNat < 'A'.toNat := by decide
  exact (toLower_eq_iff (by omega)).mpr rfl

end Brokerage.Text
