import Brokerage.Text.Base64
import Mathlib.Algebra.Order.Group.Nat
import Mathlib.Data.List.Forall2
import Mathlib.Data.List.Nodup

namespace Brokerage.Text.Base64

/-- The characters in the order of the numbers that they stand for. -/
def alphabet : List Char :=
  "ABCDEFGHIJKLMNOPQRSTUVWXYZabcdefghijklmnopqrstuvwxyz0123456789+/".toList

/-- The lowest `width` bits of a number, the most significant first. -/
def bits : (width : Nat) → Nat → List Bool
  | 0, _ => []
  | width + 1, n => bits width (n / 2) ++ [decide (n % 2 = 1)]

/-- The number with the given bits. -/
def number (bs : List Bool) : Nat :=
  bs.foldl (fun n b => 2 * n + b.toNat) 0

/-- The bits of bytes. -/
def byteBits (bytes : List UInt8) : List Bool :=
  bytes.flatMap fun b => bits 8 b.toNat

/-- The bits of the numbers that characters stand for. -/
def sextetBits (sextets : List Nat) : List Bool :=
  sextets.flatMap (bits 6)

/-- The character stands for the number. -/
def StandsFor (c : Char) (n : Nat) : Prop :=
  alphabet[n]? = some c

instance (c : Char) (n : Nat) : Decidable (StandsFor c n) :=
  inferInstanceAs (Decidable (_ = _))

/-- The text is the padded text of the bytes: each character stands for six
    bits, and together they stand for the bits of the bytes and less than six
    zeros behind them. At most two characters of padding make their number a
    multiple of four. -/
inductive Encodes (bytes : List UInt8) (text : List Char) : Prop
  | intro {chars : List Char} {sextets : List Nat} (zeros padding : Nat)
      (letters : List.Forall₂ StandsFor chars sextets) (text_eq : text = chars ++ List.replicate padding '=')
      (filled : sextetBits sextets = byteBits bytes ++ List.replicate zeros false) (zeros_lt : zeros < 6)
      (padding_le : padding ≤ 2) (whole : 4 ∣ text.length)

/-- The bytes with the given bits. A rest of less than eight bits does not
    count. -/
def bytesOf : List Bool → List UInt8
  | b₀ :: b₁ :: b₂ :: b₃ :: b₄ :: b₅ :: b₆ :: b₇ :: rest =>
    UInt8.ofNat (number [b₀, b₁, b₂, b₃, b₄, b₅, b₆, b₇]) :: bytesOf rest
  | _ => []

/-- The bytes that a padded text stands for. -/
def decode? (text : List Char) : Option (List UInt8) :=
  let chars := text.takeWhile (· ≠ '=')
  let padding := text.dropWhile (· ≠ '=')
  if 4 ∣ text.length ∧ padding ∈ [[], ['='], ['=', '=']] then
    (chars.mapM (alphabet.idxOf? ·)).map fun sextets => bytesOf (sextetBits sextets)
  else none

section bits

private theorem bits_add (n width low : Nat) : bits (width + low) n = bits width (n / 2 ^ low) ++ bits low n := by
  induction low generalizing n with
  | zero => rw [bits, List.append_nil, Nat.pow_zero, Nat.div_one, Nat.add_zero]
  | succ low ih => rw [← Nat.add_assoc, bits, ih, bits, List.append_assoc, Nat.div_div_eq_div_mul, Nat.pow_succ']

/-- Only the lowest bits of a number count. -/
theorem bits_mod (width n : Nat) : bits width (n % 2 ^ width) = bits width n := by
  induction width generalizing n with
  | zero => rfl
  | succ width ih =>
    have hlow : n % 2 ^ (width + 1) % 2 = n % 2 := Nat.mod_mod_of_dvd n ⟨2 ^ width, Nat.pow_succ'⟩
    have hhigh : n % 2 ^ (width + 1) / 2 = n / 2 % 2 ^ width := by
      rw [Nat.pow_succ', Nat.mod_mul_right_div_self]
    rw [bits, bits, hlow, hhigh, ih]

private theorem bits_zero (width : Nat) : bits width 0 = List.replicate width false := by
  induction width with
  | zero => rfl
  | succ width ih => rw [bits, ih, List.replicate_succ']; rfl

/-- A number is made up again of its bits, less those that have been left
    out. -/
theorem number_bits (width n : Nat) : number (bits width n) = n % 2 ^ width := by
  induction width generalizing n with
  | zero => rw [Nat.pow_zero, Nat.mod_one]; rfl
  | succ width ih =>
    have hlast : (decide (n % 2 = 1)).toNat = n % 2 := by
      rcases Nat.mod_two_eq_zero_or_one n with h | h <;> rw [h] <;> rfl
    have hsplit : number (bits (width + 1) n) = 2 * number (bits width (n / 2)) + n % 2 := by
      rw [bits, number, List.foldl_append, List.foldl_cons, List.foldl_nil, hlast]
      rfl
    rw [hsplit, ih, Nat.pow_succ', Nat.mod_mul, Nat.add_comm]

/-- Two numbers side by side have their bits side by side, provided the lower
    one fits in the space that it is given. -/
theorem bits_mul_add (width high : Nat) {space low : Nat} (h : low < 2 ^ space) :
    bits (width + space) (high * 2 ^ space + low) = bits width high ++ bits space low := by
  rw [bits_add, Nat.mul_comm, Nat.mul_add_div (Nat.two_pow_pos space), Nat.div_eq_of_lt h, Nat.add_zero,
    ← bits_mod space (2 ^ space * high + low), Nat.mul_add_mod, bits_mod]

/-- The bits of a number that is moved up are followed by zeros. -/
theorem bits_mul (width high unit space : Nat) (hunit : unit = 2 ^ space) :
    bits (width + space) (high * unit) = bits width high ++ List.replicate space false := by
  have h := bits_mul_add width high (Nat.two_pow_pos space)
  rw [Nat.add_zero, bits_zero] at h
  rw [hunit, h]

/-- The last character of a number stands for its lowest six bits. -/
private theorem bits_sextet (width n : Nat) : bits (width + 6) n = bits width (n / 64) ++ bits 6 (n % 64) :=
  (bits_add n width 6).trans (congrArg (bits width (n / 64) ++ ·) (bits_mod 6 n).symm)

/-- Behind a number stands a byte. -/
private theorem bits_byte (width n : Nat) (b : UInt8) :
    bits (width + 8) (n * 256 + b.toNat) = bits width n ++ bits 8 b.toNat :=
  bits_mul_add width n b.toNat_lt

end bits

section encode

variable (a b c : UInt8)

/-- Three bytes side by side, cut into four characters, keep their bits. -/
theorem sextetBits_three {n : Nat} (hn : n = (a.toNat * 256 + b.toNat) * 256 + c.toNat) :
    sextetBits [n / 64 / 64 / 64, n / 64 / 64 % 64, n / 64 % 64, n % 64] = byteBits [a, b, c] := by
  have hsextets : bits 24 n =
      bits 6 (n / 64 / 64 / 64) ++ bits 6 (n / 64 / 64 % 64) ++ bits 6 (n / 64 % 64) ++ bits 6 (n % 64) := by
    rw [bits_sextet 18, bits_sextet 12, bits_sextet 6]
  have hbytes : bits 24 n = bits 8 a.toNat ++ bits 8 b.toNat ++ bits 8 c.toNat := by
    rw [hn, bits_byte 16, bits_byte 8]
  simp only [sextetBits, byteBits, List.flatMap_cons, List.flatMap_nil, List.append_nil, ← List.append_assoc]
  rw [← hsextets, hbytes]

/-- Two bytes side by side and two zeros behind them are cut into three
    characters. -/
theorem sextetBits_two {n : Nat} (hn : n = (a.toNat * 256 + b.toNat) * 4) :
    sextetBits [n / 64 / 64, n / 64 % 64, n % 64] = byteBits [a, b] ++ List.replicate 2 false := by
  have hsextets : bits 18 n = bits 6 (n / 64 / 64) ++ bits 6 (n / 64 % 64) ++ bits 6 (n % 64) := by
    rw [bits_sextet 12, bits_sextet 6]
  have hbytes : bits 18 n = bits 8 a.toNat ++ bits 8 b.toNat ++ List.replicate 2 false := by
    rw [hn, bits_mul 16 _ 4 2 rfl, bits_byte 8]
  simp only [sextetBits, byteBits, List.flatMap_cons, List.flatMap_nil, List.append_nil, ← List.append_assoc]
  rw [← hsextets, hbytes]

/-- One byte and four zeros behind it are cut into two characters. -/
theorem sextetBits_one {n : Nat} (hn : n = a.toNat * 16) :
    sextetBits [n / 64, n % 64] = byteBits [a] ++ List.replicate 4 false := by
  have hsextets : bits 12 n = bits 6 (n / 64) ++ bits 6 (n % 64) := bits_sextet 6 n
  have hbytes : bits 12 n = bits 8 a.toNat ++ List.replicate 4 false := by
    rw [hn, bits_mul 8 _ 16 4 rfl]
  simp only [sextetBits, byteBits, List.flatMap_cons, List.flatMap_nil, List.append_nil]
  rw [← hsextets, hbytes]

private theorem standsFor_digit {n : Nat} (h : n < 64) : StandsFor (digit n) n := by
  revert n
  decide +kernel

/-- Whole groups of characters in front of a text put their bytes in front of
    the bytes. The groups have to be whole, since padding stands at the end
    only. -/
theorem Encodes.prepend {bytes front : List UInt8} {text chars : List Char} {sextets : List Nat}
    (h : Encodes bytes text) (letters : List.Forall₂ StandsFor chars sextets)
    (filled : sextetBits sextets = byteBits front) (whole : 4 ∣ chars.length) :
    Encodes (front ++ bytes) (chars ++ text) := by
  obtain ⟨zeros, padding, letters_text, text_eq, filled_text, zeros_lt, padding_le, whole_text⟩ := h
  refine .intro zeros padding (List.rel_append letters letters_text) (by rw [text_eq, List.append_assoc]) ?_ zeros_lt
    padding_le ?_
  · rw [sextetBits, List.flatMap_append, byteBits, List.flatMap_append, List.append_assoc]
    exact congrArg₂ (· ++ ·) filled filled_text
  · rw [List.length_append]
    exact Nat.dvd_add whole whole_text

/-- Every list of bytes is encoded to a text that stands for it. The induction
    takes three bytes at a time, as the encoder does, and a rest of one or two
    bytes makes the last group. -/
theorem encodes_encode (bytes : List UInt8) : Encodes bytes (encode bytes) := by
  have hmod (n : Nat) : StandsFor (digit (n % 64)) (n % 64) := standsFor_digit (Nat.mod_lt n (by decide))
  induction bytes using encode.induct with
  | case1 a b c rest ih =>
    have hfirst : ((a.toNat * 256 + b.toNat) * 256 + c.toNat) / 64 / 64 / 64 < 64 := by
      have := a.toNat_lt
      have := b.toNat_lt
      have := c.toNat_lt
      omega
    exact ih.prepend (.cons (standsFor_digit hfirst) (.cons (hmod _) (.cons (hmod _) (.cons (hmod _) .nil))))
      (sextetBits_three a b c rfl) ⟨1, rfl⟩
  | case2 a b =>
    have hfirst : (a.toNat * 256 + b.toNat) * 4 / 64 / 64 < 64 := by
      have := a.toNat_lt
      have := b.toNat_lt
      omega
    exact .intro 2 1 (.cons (standsFor_digit hfirst) (.cons (hmod _) (.cons (hmod _) .nil))) rfl
      (sextetBits_two a b rfl) (by decide) (by decide) ⟨1, rfl⟩
  | case3 a =>
    have hfirst : a.toNat * 16 / 64 < 64 := by
      have := a.toNat_lt
      omega
    exact .intro 4 2 (.cons (standsFor_digit hfirst) (.cons (hmod _) .nil)) rfl (sextetBits_one a rfl) (by decide)
      (by decide) ⟨1, rfl⟩
  | case4 => exact .intro 0 0 .nil rfl rfl (by decide) (by decide) ⟨0, rfl⟩

end encode

section decode

private theorem nodup_alphabet : alphabet.Nodup := by
  decide +kernel

private theorem StandsFor.idxOf?_eq {c : Char} {n : Nat} (h : StandsFor c n) : alphabet.idxOf? c = some n := by
  obtain ⟨hlt, heq⟩ := List.getElem?_eq_some_iff.mp h
  refine List.idxOf?_eq_some_iff.mpr ⟨hlt, heq, fun i hi hsame => ?_⟩
  have hindex := nodup_alphabet.getElem_inj_iff.mp (hsame.trans heq.symm)
  omega

private theorem StandsFor.ne_padding {c : Char} {n : Nat} (h : StandsFor c n) : c ≠ '=' := by
  intro heq
  have hmem := List.mem_of_getElem? h
  rw [heq] at hmem
  exact absurd hmem (by decide +kernel)

private theorem mapM_idxOf? {chars : List Char} {sextets : List Nat} (h : List.Forall₂ StandsFor chars sextets) :
    chars.mapM (alphabet.idxOf? ·) = some sextets := by
  induction h with
  | nil => rfl
  | cons hc _ ih => rw [List.mapM_cons, hc.idxOf?_eq, ih]; rfl

/-- No character that stands for a number is padding. -/
private theorem all_ne_padding {chars : List Char} {sextets : List Nat} (h : List.Forall₂ StandsFor chars sextets) :
    ∀ c ∈ chars, decide (c ≠ '=') = true := by
  induction h with
  | nil => intro c hc; cases hc
  | cons hc _ ih => exact List.forall_mem_cons.mpr ⟨decide_eq_true hc.ne_padding, ih⟩

/-- The bytes come back from their bits, and bits behind the last whole byte do
    not count. -/
theorem bytesOf_byteBits (bytes : List UInt8) {rest : List Bool} (h : rest.length < 8) :
    bytesOf (byteBits bytes ++ rest) = bytes := by
  induction bytes with
  | nil =>
    unfold bytesOf
    split
    · rename_i heq
      have hlength := congrArg List.length heq
      simp only [byteBits, List.flatMap_nil, List.nil_append, List.length_cons] at hlength
      omega
    · rfl
  | cons b bytes ih =>
    have hb : UInt8.ofNat (number (bits 8 b.toNat)) = b := by
      rw [number_bits, Nat.mod_eq_of_lt b.toNat_lt, UInt8.ofNat_toNat]
    have hfirst : bytesOf (bits 8 b.toNat ++ (byteBits bytes ++ rest)) =
        UInt8.ofNat (number (bits 8 b.toNat)) :: bytesOf (byteBits bytes ++ rest) := by
      simp only [bits, List.nil_append, List.cons_append]
      rfl
    rw [byteBits, List.flatMap_cons, List.append_assoc, ← byteBits, hfirst, hb, ih]

/-- Whatever bytes a text stands for are the bytes that it is decoded to, so no
    text stands for two lists of bytes. -/
theorem decode?_of_encodes {bytes : List UInt8} {text : List Char} (h : Encodes bytes text) :
    decode? text = some bytes := by
  cases h with | @intro chars sextets zeros padding letters text_eq filled zeros_lt padding_le whole
  have hchars : text.takeWhile (· ≠ '=') = chars := by
    rw [text_eq, List.takeWhile_append_of_pos (all_ne_padding letters)]
    simp
  have hpadding : text.dropWhile (· ≠ '=') = List.replicate padding '=' := by
    rw [text_eq, List.dropWhile_append_of_pos (all_ne_padding letters)]
    simp
  have hmem : ∀ padding ≤ 2, List.replicate padding '=' ∈ [[], ['='], ['=', '=']] := by decide
  have hrest : (List.replicate zeros false).length < 8 := by
    rw [List.length_replicate]
    omega
  unfold decode?
  rw [hchars, hpadding, if_pos ⟨whole, hmem padding padding_le⟩, mapM_idxOf? letters, Option.map_some, filled,
    bytesOf_byteBits bytes hrest]

end decode

end Brokerage.Text.Base64
