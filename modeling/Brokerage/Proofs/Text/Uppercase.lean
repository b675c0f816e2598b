import Brokerage.Text.Uppercase
import Mathlib.Data.List.Chain
import Mathlib.Data.List.Nodup
import Mathlib.Data.Nat.Bitwise

namespace Brokerage.Text

/-- The entries of a run, one for each of its characters. -/
def CaseRun.entries (run : CaseRun) : List (Nat × List Nat) :=
  (List.range run.count).map fun k => (run.first + run.stride * k, [run.target + run.stride * k])

/-- The whole mapping: code points with the code points of their upper cases. -/
def caseTable : List (Nat × List Nat) :=
  caseRuns.flatMap CaseRun.entries ++ caseExpansions

/-- The upper case of a code point by the mapping: what its entry says, or
    itself if it has none. -/
inductive UpperCaseCodes (n : Nat) : List Nat → Prop
  | entry {codes : List Nat} (h : (n, codes) ∈ caseTable) : UpperCaseCodes n codes
  | itself (h : n ∉ caseTable.map Prod.fst) : UpperCaseCodes n [n]

/-- The characters are the upper case of this one. -/
def UpperCase (c : Char) (us : List Char) : Prop :=
  UpperCaseCodes c.toNat (us.map Char.toNat)

section bits

/-- A set of numbers as the bits of one number, in which two sets of a thousand
    are compared at once. -/
def bits (ns : List Nat) : Nat :=
  ns.foldr (fun n rest => 1 <<< n ||| rest) 0

private theorem testBit_bits (ns : List Nat) (n : Nat) : (bits ns).testBit n = true ↔ n ∈ ns := by
  induction ns with
  | nil => simp [bits]
  | cons m ns ih =>
    have hone : (1 <<< m).testBit n = true ↔ n = m := by
      rw [Nat.one_shiftLeft, Nat.testBit_two_pow, decide_eq_true_eq, eq_comm]
    rw [bits, List.foldr_cons, Nat.testBit_or, Bool.or_eq_true, hone, List.mem_cons]
    exact or_congr_right ih

private theorem not_mem_of_bits {ns ms : List Nat} (h : bits ns &&& bits ms = 0) {n : Nat} (hn : n ∈ ns) : n ∉ ms := by
  intro hm
  have hboth : (bits ns &&& bits ms).testBit n = true := by
    rw [Nat.testBit_and, (testBit_bits ns n).mpr hn, (testBit_bits ms n).mpr hm, Bool.and_self]
  rw [h, Nat.zero_testBit] at hboth
  cases hboth

end bits

/-- No character has two entries. A table of more than a thousand is too long to
    compare entry with entry, so the code points are compared as bits of one
    number. -/
theorem nodup_caseTable : (caseTable.map Prod.fst).Nodup := by
  have hruns : ((caseRuns.flatMap CaseRun.entries).map Prod.fst).IsChain (· < ·) := by decide +kernel
  have hexpansions : (caseExpansions.map Prod.fst).IsChain (· < ·) := by decide +kernel
  have happart : bits ((caseRuns.flatMap CaseRun.entries).map Prod.fst) &&& bits (caseExpansions.map Prod.fst) = 0 := by
    decide +kernel
  rw [caseTable, List.map_append]
  refine List.Nodup.append hruns.pairwise.nodup hexpansions.pairwise.nodup ?_
  intro n hrun hexpansion
  exact not_mem_of_bits happart hrun hexpansion

/-- No part of an upper case has an entry, so that upper-casing again finds
    nothing to change. -/
theorem not_mem_of_mem_upper {e : Nat × List Nat} (he : e ∈ caseTable) {m : Nat} (hm : m ∈ e.2) :
    m ∉ caseTable.map Prod.fst := by
  have hclosed : bits (caseTable.flatMap Prod.snd) &&& bits (caseTable.map Prod.fst) = 0 := by decide +kernel
  exact not_mem_of_bits hclosed (List.mem_flatMap.mpr ⟨e, he, hm⟩)

/-- Every part of an upper case is a character, so none is lost when its code
    point is turned into one. -/
theorem isValidChar_of_mem_upper {e : Nat × List Nat} (he : e ∈ caseTable) {m : Nat} (hm : m ∈ e.2) :
    m.isValidChar := by
  have hvalid : (caseTable.flatMap Prod.snd).all (fun n => n.isValidChar) = true := by decide +kernel
  exact of_decide_eq_true (List.all_eq_true.mp hvalid m (List.mem_flatMap.mpr ⟨e, he, hm⟩))

/-- A code point has one upper case. -/
theorem UpperCaseCodes.unique {n : Nat} {codes others : List Nat} (h : UpperCaseCodes n codes) (hothers : UpperCaseCodes n others) :
    codes = others := by
  cases h with
  | entry hmem =>
    cases hothers with
    | entry hother =>
      have heq : (n, codes) = (n, others) := List.inj_on_of_nodup_map nodup_caseTable hmem hother rfl
      exact congrArg Prod.snd heq
    | itself hnone => exact absurd (List.mem_map_of_mem hmem) hnone
  | itself hnone =>
    cases hothers with
    | entry hother => exact absurd (List.mem_map_of_mem hother) hnone
    | itself => rfl

/-- The parts of an upper case are their own upper cases. This is why
    upper-casing twice is upper-casing once, and it is a fact about the table,
    decided over all its rows. -/
theorem UpperCaseCodes.fixed {n : Nat} {codes : List Nat} (h : UpperCaseCodes n codes) {m : Nat} (hm : m ∈ codes) :
    UpperCaseCodes m [m] := by
  cases h with
  | entry hmem => exact .itself (not_mem_of_mem_upper hmem hm)
  | itself hnone =>
    obtain rfl := List.mem_singleton.mp hm
    exact .itself hnone

section runs

variable {run : CaseRun} {n m : Nat}

private theorem CaseRun.mem_entries_of_map? (h : run.map? n = some m) : (n, [m]) ∈ run.entries := by
  unfold map? at h
  split at h
  · next hin =>
    obtain ⟨hfirst, hlast, hstep⟩ := hin
    have hplace : run.stride * ((n - run.first) / run.stride) = n - run.first :=
      Nat.mul_div_cancel' (Nat.dvd_of_mod_eq_zero hstep)
    refine List.mem_map.mpr ⟨(n - run.first) / run.stride, List.mem_range.mpr ?_, ?_⟩
    · exact Nat.div_lt_of_lt_mul (by omega)
    · rw [hplace, ← Option.some.inj h]
      exact Prod.ext (by omega) rfl
  · cases h

private theorem CaseRun.map?_ne_none (hstride : 0 < run.stride) (h : n ∈ run.entries.map Prod.fst) : run.map? n ≠ none := by
  obtain ⟨e, he, rfl⟩ := List.mem_map.mp h
  obtain ⟨k, hk, rfl⟩ := List.mem_map.mp he
  have hlast : run.stride * k < run.stride * run.count := Nat.mul_lt_mul_of_pos_left (List.mem_range.mp hk) hstride
  have hplace : run.first + run.stride * k - run.first = run.stride * k := Nat.add_sub_cancel_left ..
  rw [map?, if_pos ⟨by omega, by omega, by rw [hplace, Nat.mul_mod_right]⟩]
  exact Option.some_ne_none _

end runs

/-- What is computed for a code point is its upper case by the mapping. The runs
    are searched in order, and an entry of one run stands in no other. -/
theorem upperCaseCodes_upperCodes (n : Nat) : UpperCaseCodes n (upperCodes n) := by
  unfold upperCodes
  split
  · next m hrun =>
    obtain ⟨before, run, after, hsplit, hm, -⟩ := List.findSome?_eq_some_iff.mp hrun
    have hmem : run ∈ caseRuns := by rw [hsplit]; exact List.mem_append_right _ List.mem_cons_self
    exact .entry (List.mem_append_left _ (List.mem_flatMap.mpr ⟨run, hmem, CaseRun.mem_entries_of_map? hm⟩))
  · next hnone =>
    cases hlookup : caseExpansions.lookup n with
    | some codes =>
      obtain ⟨before, after, hsplit, -⟩ := List.lookup_eq_some_iff.mp hlookup
      have hmem : (n, codes) ∈ caseExpansions := by rw [hsplit]; exact List.mem_append_right _ List.mem_cons_self
      exact .entry (List.mem_append_right _ hmem)
    | none =>
      refine .itself fun hmem => ?_
      have hstrides : caseRuns.all (fun run => 0 < run.stride) = true := by decide +kernel
      rw [caseTable, List.map_append, List.map_flatMap] at hmem
      rcases List.mem_append.mp hmem with hrun | hexpansion
      · obtain ⟨run, hrun, hentry⟩ := List.mem_flatMap.mp hrun
        have hstride : 0 < run.stride := of_decide_eq_true (List.all_eq_true.mp hstrides run hrun)
        exact CaseRun.map?_ne_none hstride hentry (List.findSome?_eq_none_iff.mp hnone run hrun)
      · obtain ⟨e, he, rfl⟩ := List.mem_map.mp hexpansion
        simpa using List.lookup_eq_none_iff.mp hlookup e he

private theorem upperCaseCodes_iff {n : Nat} {codes : List Nat} : UpperCaseCodes n codes ↔ upperCodes n = codes := by
  constructor
  · exact (upperCaseCodes_upperCodes n).unique
  · rintro rfl
    exact upperCaseCodes_upperCodes n

private theorem map_toNat_upperChar (c : Char) : (upperChar c).map Char.toNat = upperCodes c.toNat := by
  rw [upperChar, List.map_map]
  conv_rhs => rw [← List.map_id (upperCodes c.toNat)]
  refine List.map_congr_left fun m hm => ?_
  have hvalid : m.isValidChar := by
    generalize hcodes : upperCodes c.toNat = codes at hm
    cases upperCaseCodes_iff.mpr hcodes with
    | entry he => exact isValidChar_of_mem_upper he hm
    | itself => exact List.mem_singleton.mp hm ▸ c.valid
  exact congrArg Char.toNat (dif_pos hvalid : Char.ofNat m = Char.ofNatAux m hvalid)

private theorem upperCase_iff {c : Char} {us : List Char} : UpperCase c us ↔ upperChar c = us := by
  rw [UpperCase, upperCaseCodes_iff, ← map_toNat_upperChar]
  exact List.map_inj_right fun _ _ => Char.toNat_inj.mp

private theorem UpperCase.fixed {c : Char} {us : List Char} (h : UpperCase c us) {u : Char} (hu : u ∈ us) :
    UpperCase u [u] :=
  UpperCaseCodes.fixed h (List.mem_map_of_mem hu)

/-- A text is upper-cased character by character, each part being the upper case
    of its character. -/
theorem exists_upperCases (cs : List Char) :
    ∃ parts, List.Forall₂ UpperCase cs parts ∧ upperChars cs = parts.flatten := by
  refine ⟨cs.map upperChar, ?_, List.flatMap_def⟩
  rw [List.forall₂_map_right_iff]
  exact List.forall₂_same.mpr fun c _ => upperCase_iff.mpr rfl

/-- A text in upper case stays as it is, because every part of an upper case is
    its own. -/
@[simp]
theorem upperChars_upperChars (cs : List Char) : upperChars (upperChars cs) = upperChars cs := by
  have hfixed : ∀ u ∈ upperChars cs, upperChar u = [u] := by
    intro u hu
    obtain ⟨c, -, hc⟩ := List.mem_flatMap.mp hu
    exact upperCase_iff.mp ((upperCase_iff.mpr rfl : UpperCase c (upperChar c)).fixed hc)
  rw [upperChars, List.flatMap_congr hfixed, List.flatMap_singleton']

@[simp]
theorem toList_uppercase (s : String) : (uppercase s).toList = upperChars s.toList :=
  String.toList_ofList

@[simp]
theorem uppercase_uppercase (s : String) : uppercase (uppercase s) = uppercase s := by
  rw [uppercase, toList_uppercase, upperChars_upperChars, ← uppercase]

end Brokerage.Text
