import Brokerage.Json.Parser
import Brokerage.Json.Printer
import Brokerage.Proofs.Text.Numeral

namespace Brokerage.Json

private theorem hexValue?_hexDigit {n : Nat} (h : n < 16) : hexValue? (hexDigit n) = some n := by
  revert n
  decide

private theorem unit?_hexDigit {n : Nat} (h : n < 0x20) : unit? '0' '0' (hexDigit (n / 16)) (hexDigit (n % 16)) = some n := by
  have hhigh := hexValue?_hexDigit (n := n / 16) (by omega)
  have hlow := hexValue?_hexDigit (n := n % 16) (by omega)
  have hzero : hexValue? '0' = some 0 := rfl
  rw [unit?, hzero, hhigh, hlow]
  simp only [bind, Option.bind, pure, Option.some.injEq]
  omega

private theorem readStringBody?_unit {a b c d : Char} {n : Nat} (h : unit? a b c d = some n) (hsingle : isSurrogate n = false)
    (cs : List Char) : readStringBody? ('\\' :: 'u' :: a :: b :: c :: d :: cs) =
      (readStringBody? cs).map fun (text, after) => (Char.ofNat n :: text, after) := by
  simp [readStringBody?, h, hsingle]

private theorem readStringBody?_simple {letter c : Char} (h : simpleEscape? letter = some c) (cs : List Char) :
    readStringBody? ('\\' :: letter :: cs) =
      (readStringBody? cs).map fun (text, after) => (c :: text, after) := by
  have hne : letter ≠ 'u' := by
    rintro rfl
    cases h
  simp [readStringBody?, h, hne]

private theorem readStringBody?_plain {c : Char} (hquote : c ≠ '"') (hescape : c ≠ '\\') (hcontrol : 0x20 ≤ c.toNat)
    (cs : List Char) :
    readStringBody? (c :: cs) = (readStringBody? cs).map fun (text, after) => (c :: text, after) := by
  rw [readStringBody?.eq_def]
  split <;> simp_all

/-- Whichever way a character is written, one step of the reader takes it off
    again: as itself, by a letter, or by its number. -/
theorem readStringBody?_escapeChar (c : Char) (cs : List Char) :
    readStringBody? (escapeChar c ++ cs) = (readStringBody? cs).map fun (text, after) => (c :: text, after) := by
  have hnamed (n : Nat) (h : c.toNat = n) : Char.ofNat n = c := by rw [← h, Char.ofNat_toNat]
  unfold escapeChar
  split_ifs with hquote hescape hb hf hn hr ht hcontrol
  · subst hquote
    exact readStringBody?_simple rfl cs
  · subst hescape
    exact readStringBody?_simple rfl cs
  · exact hnamed _ hb ▸ readStringBody?_simple rfl cs
  · exact hnamed _ hf ▸ readStringBody?_simple rfl cs
  · exact hn ▸ readStringBody?_simple rfl cs
  · exact hr ▸ readStringBody?_simple rfl cs
  · exact ht ▸ readStringBody?_simple rfl cs
  · have hsingle : isSurrogate c.toNat = false := by
      simp only [isSurrogate, Bool.and_eq_false_iff, decide_eq_false_iff_not]
      omega
    have hread := readStringBody?_unit (unit?_hexDigit hcontrol) hsingle cs
    rwa [Char.ofNat_toNat] at hread
  · exact readStringBody?_plain hquote hescape (Nat.le_of_not_lt hcontrol) cs

/-- The characters of a string are read back up to the closing quote, which is
    never among them unescaped. -/
theorem readStringBody?_escaped (text rest : List Char) :
    readStringBody? (text.flatMap escapeChar ++ '"' :: rest) = some (text, rest) := by
  induction text with
  | nil => simp [readStringBody?]
  | cons c text ih =>
    rw [List.flatMap_cons, List.append_assoc, readStringBody?_escapeChar, ih]
    rfl

/-- A string is read back from its text, and what stands behind it is left. -/
theorem readString?_stringChars (s : String) (rest : List Char) :
    readString? (stringChars s ++ rest) = some (s, rest) := by
  have hbody := readStringBody?_escaped s.toList rest
  simp [stringChars, readString?, hbody]

/-- What may follow a number: nothing that would carry its word on. -/
def Stops (rest : List Char) : Prop :=
  ∀ c, rest.head? = some c → c.isDigit = false ∧ c ≠ '.' ∧ c ≠ 'e' ∧ c ≠ 'E'

/-- The digits of a number are read as a whole if nothing after them carries
    them on. A leading zero would end the word, and only zero has one. -/
theorem readWhole?_toDigits (n : Nat) {rest : List Char} (h : Stops rest) :
    readWhole? (Nat.toDigits 10 n ++ rest) = some (Nat.toDigits 10 n, rest) := by
  have hends : ∀ c, rest.head? = some c → c.isDigit = false := fun c hc => (h c hc).1
  obtain ⟨htake, hdrop⟩ := Text.takeWhile_isDigit_append (fun _ => Text.isDigit_of_mem_toDigits (n := n)) hends
  have hread : readDigits? (Nat.toDigits 10 n ++ rest) = some (Nat.toDigits 10 n, rest) := by
    rw [readDigits?, htake, hdrop]
    split
    · next hnil => exact absurd hnil Nat.toDigits_ne_nil
    · rfl
  rw [readWhole?, hread]
  split
  · next c ds after heq =>
    exact absurd (congrArg Prod.fst (Option.some.inj heq)) (Text.toDigits_ne_zero_cons n c ds)
  · rfl

private theorem readFraction?_of_stops {rest : List Char} (h : Stops rest) : readFraction? rest = some (none, rest) := by
  unfold readFraction?
  split
  · next after => exact absurd rfl (h '.' rfl).2.1
  · rfl

private theorem readExponent?_of_stops {rest : List Char} (h : Stops rest) : readExponent? rest = some (none, rest) := by
  cases rest with
  | nil => rfl
  | cons c rest =>
    obtain ⟨-, -, he, hE⟩ := h c rfl
    simp [readExponent?, he, hE]

/-- The text of an integer is read as a word without point and exponent, if
    nothing after it would carry it on. -/
theorem readNumeral?_integerChars (n : Int) {rest : List Char} (h : Stops rest) :
    readNumeral? (Text.integerChars n ++ rest) =
      some (⟨decide (n < 0), Nat.toDigits 10 n.natAbs, none, none⟩, rest) := by
  have hwhole := readWhole?_toDigits n.natAbs h
  unfold Text.integerChars
  split
  · next hneg =>
    simp [readNumeral?, hwhole, readFraction?_of_stops h, readExponent?_of_stops h, hneg]
  · next hnonneg =>
    obtain ⟨c, ds, hcons, hdigit⟩ := Text.exists_toDigits_eq_cons n.natAbs
    have hsign : c ≠ '-' := by
      rintro rfl
      cases hdigit
    rw [hcons, List.cons_append] at hwhole ⊢
    simp [readNumeral?, hwhole, readFraction?_of_stops h, readExponent?_of_stops h, hnonneg, hsign]

/-- Digits that fit in 64 bits are all taken. -/
theorem takeSignificand_of_lt {acc : Nat} {ds : List Char} (h : Text.digitsValue acc ds < UInt64.size) :
    takeSignificand acc ds = (Text.digitsValue acc ds, []) := by
  induction ds generalizing acc with
  | nil => rfl
  | cons c ds ih =>
    have hsplit : Text.digitsValue acc (c :: ds) = Text.digitsValue (Text.digitsValue acc [c]) ds := rfl
    rw [hsplit] at h ⊢
    -- The digits after this one only make the number larger.
    have hnext : Text.digitsValue acc [c] ≤ Text.digitsValue (Text.digitsValue acc [c]) ds := by
      rw [Text.digitsValue_eq_add (Text.digitsValue acc [c]) ds]
      exact Nat.le_add_right_of_le (Nat.le_mul_of_pos_left _ (Nat.pow_pos (by decide)))
    rw [takeSignificand, if_pos (Nat.lt_of_le_of_lt hnext h), ih h]

/-- A word of digits within the range of 64-bit integers, signed or unsigned, is
    read as that integer. Minus zero is not among the words here, because no
    integer is written so. -/
theorem value?_integer (n : Int) (lower : -0x8000000000000000 ≤ n) (upper : n < 0x10000000000000000) :
    Numeral.value? ⟨decide (n < 0), Nat.toDigits 10 n.natAbs, none, none⟩ = some (.integer n lower upper) := by
  have hvalue := Text.digitsValue_toDigits n.natAbs
  have hfits : Text.digitsValue 0 (Nat.toDigits 10 n.natAbs) < UInt64.size := by
    rw [hvalue]
    have hsize : UInt64.size = 0x10000000000000000 := rfl
    omega
  have hinteger : Number.ofInt? n = some (.integer n lower upper) := dif_pos ⟨lower, upper⟩
  simp only [Numeral.value?, takeSignificand_of_lt hfits, hvalue]
  by_cases hneg : n < 0
  · have hsign : -(n.natAbs : Int) = n := by omega
    rw [if_neg (by simp), if_neg (by simp [hneg]), if_neg (by omega), hsign, hinteger]
  · have hsign : (n.natAbs : Int) = n := by omega
    rw [if_neg (by simp), if_pos (by simp [hneg]), hsign, hinteger]

end Brokerage.Json
