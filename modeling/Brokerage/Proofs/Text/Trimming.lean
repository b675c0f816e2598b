import Brokerage.Text.WhiteSpace
import Mathlib.Data.List.DropRight

namespace Brokerage.Text

/-- A run of white space, perhaps empty. -/
def Blank (cs : List Char) : Prop :=
  ∀ c ∈ cs, isWhiteSpace c = true

instance (cs : List Char) : Decidable (Blank cs) :=
  decidable_of_iff (cs.all isWhiteSpace = true) List.all_eq_true

/-- The text neither begins nor ends with white space. -/
structure Bare (cs : List Char) : Prop where
  head : ∀ c, cs.head? = some c → isWhiteSpace c = false
  last : ∀ c, cs.getLast? = some c → isWhiteSpace c = false

/-- A text is bare if what it begins with begins visibly and what it ends with
    ends so. What stands between may hold white space. -/
theorem Bare.of_ends {front back cs : List Char} (hfront : front <+: cs) (hne : front ≠ [])
    (hhead : ∀ c, front.head? = some c → isWhiteSpace c = false) (hback : back <:+ cs) (hback' : back ≠ [])
    (hlast : ∀ c, back.getLast? = some c → isWhiteSpace c = false) : Bare cs where
  head c hc := by
    obtain ⟨rest, rfl⟩ := hfront
    rw [List.head?_append_of_ne_nil _ hne] at hc
    exact hhead c hc
  last c hc := by
    obtain ⟨before, rfl⟩ := hback
    rw [List.getLast?_append_of_ne_nil _ hback'] at hc
    exact hlast c hc

private theorem Blank.reverse {cs : List Char} (h : Blank cs) : Blank cs.reverse :=
  fun c hc => h c (List.mem_reverse.mp hc)

/-- White space in front is trimmed, together with what white space the text
    itself begins with. -/
theorem Blank.trimStart_append {before : List Char} (h : Blank before) (cs : List Char) :
    trimStart (before ++ cs) = trimStart cs :=
  List.dropWhile_append_of_pos h

theorem trimStart_of_head {cs : List Char} (h : ∀ c, cs.head? = some c → isWhiteSpace c = false) :
    trimStart cs = cs := by
  cases cs with
  | nil => rfl
  | cons c cs => exact List.dropWhile_cons_of_neg (by simp [h c rfl])

private theorem trimEnd_eq (cs : List Char) : trimEnd cs = (trimStart cs.reverse).reverse :=
  rfl

private theorem Blank.trimEnd_append {after : List Char} (h : Blank after) (cs : List Char) :
    trimEnd (cs ++ after) = trimEnd cs := by
  rw [trimEnd_eq, trimEnd_eq, List.reverse_append, h.reverse.trimStart_append]

private theorem trimEnd_of_last {cs : List Char} (h : ∀ c, cs.getLast? = some c → isWhiteSpace c = false) :
    trimEnd cs = cs := by
  rw [trimEnd_eq, trimStart_of_head (by simpa using h), List.reverse_reverse]

private theorem trimStart_eq_nil_iff {cs : List Char} : trimStart cs = [] ↔ Blank cs :=
  List.dropWhile_eq_nil_iff

/-- Nothing is left of a text exactly if it is white space throughout. -/
theorem trim_eq_nil_iff {cs : List Char} : trim cs = [] ↔ Blank cs := by
  rw [trim, trimEnd_eq, List.reverse_eq_nil_iff, trimStart_eq_nil_iff]
  constructor
  · intro h
    have hstart : Blank (trimStart cs) := fun c hc => h c (List.mem_reverse.mpr hc)
    rw [← trimStart_eq_nil_iff, trimStart, trimStart, List.dropWhile_idempotent] at hstart
    exact trimStart_eq_nil_iff.mp hstart
  · intro h
    rw [trimStart_eq_nil_iff.mpr h]
    exact List.forall_mem_nil _

/-- Trimming finds a text again between any two runs of white space, when the
    text itself neither begins nor ends with white space. White space within it
    stays. -/
theorem Blank.trim_eq {before after body : List Char} (hbefore : Blank before) (hafter : Blank after)
    (h : Bare body) : trim (before ++ body ++ after) = body := by
  rw [trim, List.append_assoc, hbefore.trimStart_append]
  cases body with
  | nil =>
    have hnothing : trimStart after = [] := by
      have hall := hafter.trimStart_append []
      rwa [List.append_nil] at hall
    rw [List.nil_append, hnothing]
    rfl
  | cons c body =>
    rw [trimStart_of_head (by simpa using h.head), hafter.trimEnd_append, trimEnd_of_last h.last]

end Brokerage.Text
