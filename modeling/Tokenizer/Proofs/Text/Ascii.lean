import Mathlib.Data.List.Basic

/-!
The letters and digits of ASCII, and the decimal digits of a natural number.
-/

namespace Tokenizer.Text

variable {value : Nat}

/-- Characters on different sides of a test are different. -/
theorem ne_of_class {character other : Char} (member : Char → Bool)
    (inside : member character = true) (outside : member other = false) : character ≠ other := by
  rintro rfl
  rw [inside] at outside
  cases outside

theorem isAlpha_iff (character : Char) : character.isAlpha = true ↔
    ('a' ≤ character ∧ character ≤ 'z') ∨ ('A' ≤ character ∧ character ≤ 'Z') := by
  have upper : character.isUpper = true ↔ 'A' ≤ character ∧ character ≤ 'Z' :=
    decide_eq_true_iff
  have lower : character.isLower = true ↔ 'a' ≤ character ∧ character ≤ 'z' :=
    (Bool.and_eq_true _ _).to_iff.trans (and_congr decide_eq_true_iff decide_eq_true_iff)
  have letter : character.isAlpha = true ↔
      character.isUpper = true ∨ character.isLower = true := (Bool.or_eq_true _ _).to_iff
  rw [letter, upper, lower]
  exact or_comm

theorem isDigit_iff (character : Char) :
    character.isDigit = true ↔ '0' ≤ character ∧ character ≤ '9' := by
  simp only [Char.isDigit, Bool.and_eq_true, decide_eq_true_eq, ge_iff_le, Char.le_def]

theorem head?_toDigits_ne_zero (positive : 0 < value) :
    (Nat.toDigits 10 value).head? ≠ some '0' := by
  induction value using Nat.strongRecOn with
  | ind value inductionHypothesis =>
      rw [Nat.toDigits_eq_if (by decide)]
      split
      · simpa using Nat.ne_of_gt positive
      · next large =>
          rw [List.head?_append_of_ne_nil _ Nat.toDigits_ne_nil]
          exact inductionHypothesis (value / 10) (by omega) (by omega)

theorem isDigit_of_mem_repr {digit : Char} (membership : digit ∈ (Nat.repr value).toList) :
    digit.isDigit = true := by
  rw [Nat.toList_repr] at membership
  exact Nat.isDigit_of_mem_toDigits (by decide) (by decide) membership

theorem exists_repr (value : Nat) : ∃ digit digits, (Nat.repr value).toList = digit :: digits := by
  apply List.exists_cons_of_ne_nil
  rw [Nat.toList_repr]
  exact Nat.toDigits_ne_nil

end Tokenizer.Text
