import Brokerage.Text.Numeral
import Mathlib.Data.Nat.Digits.Defs

namespace Brokerage.Text

private theorem digitsValue_eq_ofDigitChars (acc : Nat) (ds : List Char) : digitsValue acc ds = Nat.ofDigitChars 10 ds acc :=
  Nat.ofDigitChars_eq_foldl.symm

/-- Digits are read one after the other, so a reading can be stopped anywhere
    and taken up again. -/
theorem digitsValue_append (acc : Nat) (ds es : List Char) :
    digitsValue acc (ds ++ es) = digitsValue (digitsValue acc ds) es :=
  List.foldl_append

/-- Digits in front count as many powers of ten higher as there are digits after
    them. -/
theorem digitsValue_eq_add (acc : Nat) (ds : List Char) :
    digitsValue acc ds = 10 ^ ds.length * acc + digitsValue 0 ds := by
  rw [digitsValue_eq_ofDigitChars, digitsValue_eq_ofDigitChars]
  exact Nat.ofDigitChars_eq_ofDigitChars_zero

theorem digitsValue_zeros (acc count : Nat) : digitsValue acc (List.replicate count '0') = 10 ^ count * acc := by
  rw [digitsValue_eq_ofDigitChars]
  exact Nat.ofDigitChars_replicate_zero

/-- The digits of a number are read back as the number. -/
theorem digitsValue_toDigits (n : Nat) : digitsValue 0 (Nat.toDigits 10 n) = n := by
  rw [digitsValue_eq_ofDigitChars]
  exact Nat.ofDigitChars_ten_toDigits

theorem isDigit_of_mem_toDigits {n : Nat} {c : Char} (h : c ∈ Nat.toDigits 10 n) : c.isDigit = true :=
  Nat.isDigit_of_mem_toDigits (by decide) (by decide) h

private theorem all_isDigit_toDigits (n : Nat) : (Nat.toDigits 10 n).all Char.isDigit = true :=
  List.all_eq_true.mpr fun _ h => isDigit_of_mem_toDigits h

theorem exists_toDigits_eq_cons (n : Nat) : ∃ c ds, Nat.toDigits 10 n = c :: ds ∧ c.isDigit = true := by
  obtain ⟨c, ds, hcons⟩ := List.exists_cons_of_ne_nil (Nat.toDigits_ne_nil (b := 10) (n := n))
  exact ⟨c, ds, hcons, isDigit_of_mem_toDigits (hcons ▸ List.mem_cons_self)⟩

/-- The digits of a number are a text that is read as it, and not empty. -/
theorem wholeDigits?_toDigits (n : Nat) : wholeDigits? (Nat.toDigits 10 n) = some n := by
  rw [wholeDigits?, if_pos ⟨Nat.toDigits_ne_nil, all_isDigit_toDigits n⟩, digitsValue_toDigits]

/-- A run of digits is read as less than the power of ten of its length. -/
theorem digitsValue_lt {ds : List Char} (h : ∀ c ∈ ds, c.isDigit = true) : digitsValue 0 ds < 10 ^ ds.length := by
  induction ds with
  | nil => exact Nat.one_pos
  | cons c ds ih =>
    obtain ⟨hc, hds⟩ := List.forall_mem_cons.mp h
    have hdigit : c.toNat - '0'.toNat ≤ 9 := by
      have hbounds := Char.isDigit_iff_toNat.mp hc
      have hnine : '9'.toNat = '0'.toNat + 9 := rfl
      omega
    have hrest := ih hds
    have hsplit : digitsValue 0 (c :: ds) = 10 ^ ds.length * (c.toNat - '0'.toNat) + digitsValue 0 ds := by
      rw [← digitsValue_eq_add]
      exact congrArg (digitsValue · ds) (Nat.zero_add _)
    have hscaled := Nat.mul_le_mul_left (10 ^ ds.length) hdigit
    rw [hsplit, List.length_cons, Nat.pow_succ]
    omega

/-- No number but zero is written with a zero in front, so a number has one text
    only. -/
theorem toDigits_ne_zero_cons (n : Nat) (c : Char) (ds : List Char) : Nat.toDigits 10 n ≠ '0' :: c :: ds := by
  intro h
  have hdigits : ∀ d ∈ c :: ds, d.isDigit = true := fun d hd =>
    isDigit_of_mem_toDigits (n := n) (h ▸ List.mem_cons_of_mem _ hd)
  have hvalue : digitsValue 0 (c :: ds) = n := by
    have hall := digitsValue_toDigits n
    rw [h] at hall
    exact hall
  have hshort : (Nat.toDigits 10 n).length ≤ (c :: ds).length :=
    Nat.toDigits_length 10 n _ (Nat.succ_pos _) (hvalue ▸ digitsValue_lt hdigits)
  rw [h] at hshort
  exact absurd hshort (Nat.not_succ_le_self _)

theorem toDigits_inj {m n : Nat} (h : Nat.toDigits 10 m = Nat.toDigits 10 n) : m = n := by
  rw [← digitsValue_toDigits m, h, digitsValue_toDigits]

private theorem neg_cons_ne_toDigits (cs : List Char) (n : Nat) : '-' :: cs ≠ Nat.toDigits 10 n := by
  intro heq
  cases isDigit_of_mem_toDigits (n := n) (heq ▸ List.mem_cons_self)

/-- Different integers have different texts. The sign tells negative ones from
    the others, and there is none in front of zero. -/
theorem integerChars_inj {m n : Int} (h : integerChars m = integerChars n) : m = n := by
  unfold integerChars at h
  split at h
  · split at h
    · have habs := toDigits_inj (List.cons.inj h).2
      omega
    · exact absurd h (neg_cons_ne_toDigits _ _)
  · split at h
    · exact absurd h.symm (neg_cons_ne_toDigits _ _)
    · have habs := toDigits_inj h
      omega

/-- The printed text of an integer is the one that is read back. -/
theorem toList_toString_int (n : Int) : (toString n).toList = integerChars n := by
  cases n with
  | ofNat m =>
    have hnonneg : ¬Int.ofNat m < 0 := Int.not_lt.mpr (Int.natCast_nonneg m)
    rw [integerChars, if_neg hnonneg]
    exact String.toList_ofList
  | negSucc m =>
    rw [integerChars, if_pos (Int.negSucc_lt_zero m)]
    have htext : toString (Int.negSucc m) = "-" ++ String.ofList (Nat.toDigits 10 (m + 1)) := rfl
    rw [htext, String.toList_append]
    exact congrArg ('-' :: ·) String.toList_ofList

/-- A run of digits ends where what follows it begins otherwise. With nothing
    behind it the second premise holds as it is. -/
theorem takeWhile_isDigit_append {ds rest : List Char} (hdigits : ∀ c ∈ ds, c.isDigit = true)
    (hrest : ∀ c, rest.head? = some c → c.isDigit = false) :
    (ds ++ rest).takeWhile Char.isDigit = ds ∧ (ds ++ rest).dropWhile Char.isDigit = rest := by
  rw [List.takeWhile_append_of_pos hdigits, List.dropWhile_append_of_pos hdigits]
  cases rest with
  | nil => simp
  | cons c rest =>
    have hc := hrest c rfl
    simp [hc]

end Brokerage.Text
