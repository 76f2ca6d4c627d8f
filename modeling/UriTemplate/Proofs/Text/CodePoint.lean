import UriTemplate.Text.Blank

/-!
# Classes of code points

The classes of ASCII code points are given by bounds on their numbers, in which form arithmetic
tells them apart.
-/

namespace UriTemplate.CodePoint

variable {c : CodePoint}

/-- A code point is within a range by its number. -/
theorem within_iff {lo hi : Char} :
    c.within lo hi = true ↔ lo.toNat ≤ c.val ∧ c.val ≤ hi.toNat := by
  simp [within]

/-- The numbers of the ASCII characters. -/
theorem is_ascii_iff : c.isAscii = true ↔ c.val < 128 := by
  simp [isAscii]

/-- The numbers of the digits. -/
theorem is_digit_iff : c.isDigit = true ↔ 48 ≤ c.val ∧ c.val ≤ 57 := within_iff

/-- The numbers of the letters. -/
theorem is_letter_iff :
    c.isLetter = true ↔ (65 ≤ c.val ∧ c.val ≤ 90) ∨ (97 ≤ c.val ∧ c.val ≤ 122) := by
  rw [isLetter, Bool.or_eq_true, within_iff, within_iff]
  rfl

/-- The numbers of the hexadecimal digits. -/
theorem is_hex_digit_iff : c.isHexDigit = true ↔
    c.isDigit = true ∨ (65 ≤ c.val ∧ c.val ≤ 70) ∨ (97 ≤ c.val ∧ c.val ≤ 102) := by
  rw [isHexDigit, Bool.or_eq_true, Bool.or_eq_true, within_iff, within_iff, or_assoc]
  rfl

/-- The braces. -/
theorem is_brace_iff : c.isBrace = true ↔ c = ofChar '{' ∨ c = ofChar '}' := by
  simp [isBrace]

/-- The opening brace is one. -/
@[simp] theorem is_brace_opening : (ofChar '{').isBrace = true := rfl

/-- The closing brace is one. -/
@[simp] theorem is_brace_closing : (ofChar '}').isBrace = true := rfl

/-- No digit is a blank. -/
theorem is_blank_eq_false_of_is_digit (h : c.isDigit = true) : c.isBlank = false := by
  have hbounds := is_digit_iff.1 h
  have htab : c ≠ ofChar '\t' := by
    rintro rfl
    exact absurd h (by decide)
  simp only [isBlank, isSpaceSeparator, htab, decide_false, Bool.false_or, Bool.or_eq_false_iff,
    Bool.and_eq_false_iff, decide_eq_false_iff_not]
  omega

end UriTemplate.CodePoint
