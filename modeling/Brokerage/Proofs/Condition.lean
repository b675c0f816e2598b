import Brokerage.Proofs.Text.Uppercase
import Brokerage.Search.Condition

namespace Brokerage

private theorem containsIn_iff {cs : List Char} : containsIn cs = true ↔ ['I', 'N'] <:+: cs := by
  fun_induction containsIn cs with
  | case1 cs => exact iff_of_true rfl ⟨[], cs, rfl⟩
  | case2 c cs hne ih =>
    rw [ih, List.infix_cons_iff]
    refine (or_iff_right ?_).symm
    rintro ⟨rest, hrest⟩
    obtain ⟨rfl, rfl⟩ := List.cons.inj hrest
    exact hne rest rfl rfl
  | case3 => simp

/-- Upper case is reached at once, so the test for membership gives the same
    before and after it. -/
@[simp]
theorem isMembership_uppercase (operator : String) : isMembership (Text.uppercase operator) = isMembership operator := by
  rw [isMembership, Text.toList_uppercase, Text.upperChars_upperChars, ← isMembership]

private theorem isMembership_iff {operator : String} :
    isMembership operator = true ↔ ['I', 'N'] <:+: (Text.uppercase operator).toList := by
  rw [isMembership, containsIn_iff, Text.toList_uppercase]

namespace Condition

/-- The value has to be put into a list. -/
def NeedsList (c : Condition) : Prop :=
  isMembership c.operator = true ∧ c.value.isArray = false

variable {c : Condition}

private theorem normalize_of_needsList (h : c.NeedsList) :
    c.normalize = ⟨c.column, Text.uppercase c.operator, .array [c.value]⟩ := by
  have hlisted : listed (Text.uppercase c.operator) c.value = .array [c.value] :=
    if_pos ⟨by rw [isMembership_uppercase, h.1], by rw [h.2]; exact Bool.false_ne_true⟩
  rw [normalize, hlisted]

private theorem normalize_of_not_needsList (h : ¬c.NeedsList) :
    c.normalize = ⟨c.column, Text.uppercase c.operator, c.value⟩ := by
  have hlisted : listed (Text.uppercase c.operator) c.value = c.value := by
    refine if_neg fun hneeds => h ⟨?_, Bool.eq_false_iff.mpr hneeds.2⟩
    rw [← isMembership_uppercase, hneeds.1]
  rw [normalize, hlisted]

/-- The value is put into a list exactly if it has to be. A list around a value
    is not the value, so the two cases cannot be confused. -/
theorem value_normalize_eq_array_iff : c.normalize.value = .array [c.value] ↔ c.NeedsList := by
  constructor
  · intro h
    by_contra hneeds
    rw [normalize_of_not_needsList hneeds] at h
    have hsize := congrArg sizeOf h
    simp only [Json.array.sizeOf_spec, List.cons.sizeOf_spec] at hsize
    omega
  · intro h
    rw [normalize_of_needsList h]

private theorem not_needsList_normalize (c : Condition) : ¬c.normalize.NeedsList := by
  by_cases h : c.NeedsList
  · rw [normalize_of_needsList h]
    rintro ⟨-, harray⟩
    cases harray
  · rw [normalize_of_not_needsList h]
    rintro ⟨hmembership, harray⟩
    exact h ⟨by rwa [isMembership_uppercase] at hmembership, harray⟩

private theorem value_normalize_eq_iff : c.normalize.value = c.value ↔ ¬c.NeedsList := by
  constructor
  · intro h hneeds
    rw [value_normalize_eq_array_iff.mpr hneeds] at h
    have harray := hneeds.2
    rw [← h] at harray
    cases harray
  · intro h
    rw [normalize_of_not_needsList h]

/-- The canonical form is reached at once. Its operator is the upper case of
    every character of the operator given, is the same kind of test, and gets a
    list if it is a membership test, whether `IN` was in the operator given or
    only came in with the upper case. Neither the column nor the operator has to
    be a known one. -/
theorem normalize_stable (c : Condition) :
    c.normalize.normalize = c.normalize ∧
    c.normalize.column = c.column ∧
    (∃ parts, List.Forall₂ Text.UpperCase c.operator.toList parts ∧ c.normalize.operator.toList = parts.flatten) ∧
    isMembership c.normalize.operator = isMembership c.operator ∧
    (isMembership c.operator = true ↔ ['I', 'N'] <:+: c.normalize.operator.toList) ∧
    (c.normalize.value = .array [c.value] ↔ c.NeedsList) ∧
    (c.normalize.value = c.value ↔ ¬c.NeedsList) ∧
    (isMembership c.normalize.operator = true → ∃ items, c.normalize.value = .array items) := by
  have hoperator : c.normalize.operator = Text.uppercase c.operator := rfl
  refine ⟨?once, rfl, ?upper, ?same, ?contains, value_normalize_eq_array_iff, value_normalize_eq_iff, ?list⟩
  case once =>
    rw [normalize_of_not_needsList (not_needsList_normalize c), hoperator, Text.uppercase_uppercase, ← hoperator]
  case upper =>
    rw [hoperator, Text.toList_uppercase]
    exact Text.exists_upperCases c.operator.toList
  case same => rw [hoperator, isMembership_uppercase]
  case contains => exact isMembership_iff
  case list =>
    intro hmembership
    have harray : c.normalize.value.isArray ≠ false := fun h => not_needsList_normalize c ⟨hmembership, h⟩
    cases hvalue : c.normalize.value with
    | array items => exact ⟨items, rfl⟩
    | _ => exact absurd (by rw [hvalue]; rfl) harray

-- The `IN` comes out of a dotless i in one, and out of a ligature in the other.
example : normalize ⟨"Login", "ın", .null⟩ = ⟨"Login", "IN", .array [.null]⟩ ∧
    normalize ⟨"Login", "ﬁn", .array []⟩ = ⟨"Login", "FIN", .array []⟩ := by
  decide +kernel

end Condition

end Brokerage
