import Brokerage.Binary64.Text
import Brokerage.Proofs.Binary64.Decimal
import Brokerage.Proofs.Text.Characters

namespace Brokerage.Binary64

/-- What may follow the digits of a number: the exponent part `e`, which no
    digit or point begins. -/
structure EndsNumber (rest : List Char) (e : Int) : Prop where
  exponent : exponentPart? rest = some e
  noDigit : ∀ c, rest.head? = some c → c.isDigit = false
  noPoint : ∀ c, rest.head? = some c → c ≠ '.'

private theorem endsNumber_up (digits : Nat) : EndsNumber ('e' :: Nat.toDigits 10 digits) digits where
  exponent := by
    have hread := Text.wholeDigits?_toDigits digits
    obtain ⟨c, ds, hcons, hdigit⟩ := Text.exists_toDigits_eq_cons digits
    rw [hcons] at hread ⊢
    have hminus : c ≠ '-' := by rintro rfl; cases hdigit
    have hplus : c ≠ '+' := by rintro rfl; cases hdigit
    simp [exponentPart?, hminus, hplus, hread]
  noDigit c hc := by cases hc; rfl
  noPoint c hc := by cases hc; decide

/-- An exponent part that moves the point down may follow the digits of a
    number. -/
theorem endsNumber_down (digits : Nat) : EndsNumber ('e' :: '-' :: Nat.toDigits 10 digits) (-digits) where
  exponent := by simp [exponentPart?, Text.wholeDigits?_toDigits digits]
  noDigit c hc := by cases hc; rfl
  noPoint c hc := by cases hc; decide

section digits

variable {whole fraction rest : List Char} {e : Int}

/-- Digits without a point are read as the whole number they write, its point
    moved by what follows. There has to be a digit. -/
theorem readMagnitude?_whole (negative : Bool) (hwhole : ∀ c ∈ whole, c.isDigit = true) (hne : whole ≠ [])
    (hrest : EndsNumber rest e) : readMagnitude? negative (whole ++ rest) =
      some (ofDecimal negative (Text.digitsValue 0 whole) e) := by
  obtain ⟨htake, hdrop⟩ := Text.takeWhile_isDigit_append hwhole hrest.noDigit
  unfold readMagnitude?
  rw [htake, hdrop]
  split
  next fraction after hsplit =>
  split at hsplit
  · next tail => exact absurd rfl (hrest.noPoint '.' rfl)
  · cases hsplit
    simp [hne, hrest.exponent]

/-- Digits with a point are read as all of them together, its point moved up by
    what follows and down by the number of digits behind it. -/
theorem readMagnitude?_point (negative : Bool) (hwhole : ∀ c ∈ whole, c.isDigit = true) (hne : whole ≠ [])
    (hfraction : ∀ c ∈ fraction, c.isDigit = true) (hrest : EndsNumber rest e) :
    readMagnitude? negative (whole ++ '.' :: (fraction ++ rest)) =
      some (ofDecimal negative (Text.digitsValue 0 (whole ++ fraction)) (e - fraction.length)) := by
  have hpoint : ∀ c, ('.' :: (fraction ++ rest)).head? = some c → c.isDigit = false := by
    intro c hc
    cases hc
    rfl
  obtain ⟨htake, hdrop⟩ := Text.takeWhile_isDigit_append hwhole hpoint
  obtain ⟨hafter, hend⟩ := Text.takeWhile_isDigit_append hfraction hrest.noDigit
  simp [readMagnitude?, htake, hdrop, hafter, hend, hne, hrest.exponent]

/-- The digits before and behind the point of a decimal in positions. Without
    digits behind it there is no point. -/
structure Positions (d : Decimal) (whole fraction : List Char) : Prop where
  wholeDigits : ∀ c ∈ whole, c.isDigit = true
  nonempty : whole ≠ []
  fractionDigits : ∀ c ∈ fraction, c.isDigit = true
  text : positionalText false d = whole ++ (if fraction = [] then [] else '.' :: fraction)
  value : d.value = Text.digitsValue 0 (whole ++ fraction) * 10 ^ (-(fraction.length : Int))

private theorem isDigit_of_mem_zeros {n : Nat} {c : Char} (h : c ∈ List.replicate n '0') : c.isDigit = true := by
  rw [List.eq_of_mem_replicate h]
  rfl

/-- Every decimal has its digits before and behind the point, whichever side of
    its digits the point falls on. -/
theorem exists_positions (d : Decimal) : ∃ whole fraction, Positions d whole fraction := by
  have hdigits : ∀ c ∈ Nat.toDigits 10 d.digits, c.isDigit = true := fun c => Text.isDigit_of_mem_toDigits
  have hvalue := Text.digitsValue_toDigits d.digits
  have hne : Nat.toDigits 10 d.digits ≠ [] := Nat.toDigits_ne_nil
  obtain ⟨ds, hds⟩ : ∃ ds, Nat.toDigits 10 d.digits = ds := ⟨_, rfl⟩
  rw [hds] at hdigits hvalue hne
  rcases le_or_gt 0 d.exponent with hwhole | hfraction
  · -- Zeros fill up to the point.
    obtain ⟨n, hn⟩ := Int.eq_ofNat_of_zero_le hwhole
    refine ⟨ds ++ List.replicate n '0', [], List.forall_mem_append.mpr ⟨hdigits, fun _ => isDigit_of_mem_zeros⟩,
      by simp [hne], List.forall_mem_nil _, by simp [positionalText, hds, hn], ?_⟩
    rw [List.append_nil, Text.digitsValue_append, hvalue, Text.digitsValue_zeros, Decimal.value, hn, zpow_natCast]
    push_cast
    simp [mul_comm]
  · obtain ⟨places, hplaces⟩ : ∃ places : Nat, d.exponent = -(places : Int) := ⟨(-d.exponent).toNat, by omega⟩
    have hcount : (-d.exponent).toNat = places := by omega
    have hnot : ¬0 ≤ d.exponent := not_le.mpr hfraction
    by_cases hshort : places < ds.length
    · -- The point stands among the digits.
      have hlength : (ds.drop (ds.length - places)).length = places := by
        rw [List.length_drop]
        omega
      have hbehind := List.ne_nil_of_length_pos (hlength.trans_gt (by omega))
      refine ⟨ds.take (ds.length - places), ds.drop (ds.length - places),
        fun c hc => hdigits c (List.mem_of_mem_take hc), ?_, fun c hc => hdigits c (List.mem_of_mem_drop hc), ?_, ?_⟩
      · rw [← List.length_pos_iff, List.length_take]
        omega
      · simp only [positionalText, hds, hcount, if_neg hnot, if_pos hshort, if_neg hbehind]
      · rw [List.take_append_drop, hvalue, hlength, Decimal.value, hplaces]
    · -- Zeros stand before the digits, on both sides of the point.
      have hlength : (List.replicate (places - ds.length) '0' ++ ds).length = places := by
        rw [List.length_append, List.length_replicate]
        omega
      have hbehind := List.ne_nil_of_length_pos (hlength.trans_gt (by omega))
      refine ⟨['0'], List.replicate (places - ds.length) '0' ++ ds, fun _ hc => isDigit_of_mem_zeros (n := 1) hc,
        List.cons_ne_nil _ _, List.forall_mem_append.mpr ⟨fun _ => isDigit_of_mem_zeros, hdigits⟩, ?_, ?_⟩
      · simp only [positionalText, hds, hcount, if_neg hnot, if_neg hshort, if_neg hbehind]
        rfl
      · have hzero : ['0'] = List.replicate 1 '0' := rfl
        rw [hlength, hzero, ← List.append_assoc, ← List.replicate_add, Text.digitsValue_append, Text.digitsValue_zeros,
          Nat.mul_zero, hvalue, Decimal.value, hplaces]

private theorem Positions.exists_eq_cons {d : Decimal} (h : Positions d whole fraction) :
    ∃ c cs, positionalText false d = c :: cs ∧ c.isDigit = true := by
  obtain ⟨c, cs, rfl⟩ := List.exists_cons_of_ne_nil h.nonempty
  exact ⟨c, _, h.text, h.wholeDigits c List.mem_cons_self⟩

/-- The text of a decimal in positions, with an exponent behind it, is read as
    that decimal with its point moved. The decimal read may have other digits,
    as zeros are written to fill the positions, but its value is the same. -/
theorem Positions.exists_readMagnitude? {d : Decimal} (h : Positions d whole fraction) (negative : Bool)
    (hrest : EndsNumber rest e) :
    ∃ read : Decimal, readMagnitude? negative (positionalText false d ++ rest) =
      some (ofDecimal negative read.digits read.exponent) ∧ read.value = d.value * 10 ^ e := by
  refine ⟨⟨Text.digitsValue 0 (whole ++ fraction), e - fraction.length⟩, ?_, ?_⟩
  · rw [h.text]
    by_cases hfraction : fraction = []
    · have hread := readMagnitude?_whole negative h.wholeDigits h.nonempty hrest
      simpa [hfraction] using hread
    · have hread := readMagnitude?_point negative h.wholeDigits h.nonempty h.fractionDigits hrest
      simpa [hfraction] using hread
  · rw [h.value, Decimal.value, mul_assoc, ← zpow_add₀ (by norm_num), neg_add_eq_sub]

end digits

private theorem readName?_of_digit (negative : Bool) {c : Char} (h : c.isDigit = true) (cs : List Char) :
    readName? negative (c :: cs) = none := by
  have hother (name : String) (hname : name.toList.all (!·.isDigit) = true) :
      String.ofList ((c :: cs).map Char.toLower) ≠ name := by
    rintro rfl
    have hc := List.all_eq_true.mp hname c (by simp [Text.toLower_of_isDigit h])
    rw [h] at hc
    cases hc
  rw [readName?, if_neg (not_or.mpr ⟨hother _ (by decide), hother _ (by decide)⟩), if_neg (hother _ (by decide))]

/-- A sign in front of a digit is the sign of the number. In front of anything
    else it might be that of an infinity or of NaN. -/
theorem readChars?_signed (negative : Bool) {c : Char} (h : c.isDigit = true) (cs : List Char) :
    readChars? (if negative then '-' :: c :: cs else c :: cs) = readMagnitude? negative (c :: cs) := by
  cases negative with
  | true => simp [readChars?, readName?_of_digit true h]
  | false =>
    have hminus : c ≠ '-' := by rintro rfl; cases h
    have hplus : c ≠ '+' := by rintro rfl; cases h
    simp [readChars?, readName?_of_digit false h, hminus, hplus]

private theorem plainChars_finite (s : Bool) {m : Magnitude} (h : m.rank ≠ 0) : (finite s m).plainChars =
    if s then '-' :: positionalText false (shortest .up m) else positionalText false (shortest .up m) := by
  simp only [plainChars, TextForm.finite, TextForm.magnitude, TextForm.plain, if_neg h, if_true]

private theorem plainChars_zero (s : Bool) : (finite s .zero).plainChars = if s then ['-', '0'] else ['0'] := by
  have hrank : Magnitude.zero.rank = 0 := rfl
  simp only [plainChars, TextForm.finite, TextForm.magnitude, TextForm.plain, hrank, if_true, Bool.false_eq_true,
    if_false]

/-- The plain text of a number that is not zero, with an exponent behind it, is
    read as the shortest decimal with its point moved. The text never has an
    exponent of its own. -/
theorem exists_readChars?_plain (s : Bool) {m : Magnitude} (hne : m.rank ≠ 0) (digits : Nat) :
    ∃ read : Decimal, readChars? ((finite s m).plainChars ++ 'e' :: Nat.toDigits 10 digits) =
      some (ofDecimal s read.digits read.exponent) ∧ read.value = (shortest .up m).value * 10 ^ (digits : Int) := by
  obtain ⟨whole, fraction, hpositions⟩ := exists_positions (shortest .up m)
  obtain ⟨read, hread, hvalue⟩ := hpositions.exists_readMagnitude? s (endsNumber_up digits)
  obtain ⟨c, cs, hcons, hdigit⟩ := hpositions.exists_eq_cons
  have hsigned := readChars?_signed s hdigit (cs ++ 'e' :: Nat.toDigits 10 digits)
  rw [hcons, List.cons_append] at hread
  refine ⟨read, ?_, hvalue⟩
  rw [plainChars_finite s hne, hcons, ← hread, ← hsigned]
  cases s <;> simp

/-- Either zero keeps its sign through its text, whatever the exponent behind
    it. -/
theorem readChars?_zero (s : Bool) (digits : Nat) :
    readChars? ((finite s .zero).plainChars ++ 'e' :: Nat.toDigits 10 digits) = some (finite s .zero) := by
  have hsigned := readChars?_signed s (c := '0') rfl ('e' :: Nat.toDigits 10 digits)
  have hread := readMagnitude?_whole s (List.forall_mem_singleton.mpr rfl) (List.cons_ne_nil '0' [])
    (endsNumber_up digits)
  have hvalue : Text.digitsValue 0 ['0'] = 0 := rfl
  rw [List.singleton_append, hvalue, ofDecimal, if_pos rfl, ← hsigned] at hread
  rw [plainChars_zero, ← hread]
  cases s <;> simp

/-- The text of an integer, with an exponent behind it, is read as that integer
    with its point moved. -/
theorem readChars?_integerChars (n : Int) {rest : List Char} {e : Int} (hrest : EndsNumber rest e) :
    readChars? (Text.integerChars n ++ rest) = some (ofDecimal (n < 0) n.natAbs e) := by
  obtain ⟨c, ds, hcons, hdigit⟩ := Text.exists_toDigits_eq_cons n.natAbs
  have hdigits : ∀ d ∈ Nat.toDigits 10 n.natAbs, d.isDigit = true := fun _ => Text.isDigit_of_mem_toDigits
  have hread := readMagnitude?_whole (n < 0) hdigits Nat.toDigits_ne_nil hrest
  rw [Text.digitsValue_toDigits] at hread
  have hsigned := readChars?_signed (n < 0) hdigit (ds ++ rest)
  rw [← List.cons_append, ← hcons, hread] at hsigned
  rw [← hsigned, Text.integerChars]
  by_cases hneg : n < 0 <;> simp [hneg]

end Brokerage.Binary64
