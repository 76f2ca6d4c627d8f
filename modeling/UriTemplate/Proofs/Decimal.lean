import Mathlib.Algebra.Group.Nat.Defs
import Mathlib.Data.List.Induction
import Mathlib.Tactic.Ring
import UriTemplate.Decimal
import UriTemplate.Proofs.Text.CodePoint

/-!
# Decimal texts

The decimal text of a number is a non-empty run of digits, without a digit to spare, and its value
is the number (`Decimal.value_of_nat`). A run of digits has at least as many places as the decimal
text of its value (`Decimal.length_of_nat_value_le`), so a number that was read within the digit
limit can be written within it.
-/

namespace UriTemplate.Decimal

variable {n : Nat} {t : Text}

/-! ## Digits -/

/-- The code point of a digit. -/
theorem val_digit (n : Nat) : (digit n).val = '0'.toNat + n % 10 := by
  have hzero : '0'.toNat = 48 := rfl
  have hlt : '0'.toNat + n % 10 < 0x110000 := by omega
  rw [digit, CodePoint.ofNat, dif_pos hlt]

/-- Every digit is one. -/
theorem is_digit_digit (n : Nat) : (digit n).isDigit = true := by
  have hzero : '0'.toNat = 48 := rfl
  rw [CodePoint.is_digit_iff, val_digit]
  omega

/-- A number below ten is one digit. -/
theorem digits_onto_of_lt (h : n < 10) (tail : Text) : digitsOnto n tail = digit n :: tail := by
  rw [digitsOnto, if_pos h]

/-- Any other number is the digits of its tenth and a last one. -/
theorem digits_onto_of_ge (h : 10 ≤ n) (tail : Text) :
    digitsOnto n tail = digitsOnto (n / 10) (digit n :: tail) := by
  rw [digitsOnto, if_neg (Nat.not_lt.2 h)]

/-- What holds of the numbers of one place, and of a number whenever it holds without the last
place, holds of every number. -/
theorem place_induction {motive : Nat → Prop} (one : ∀ n, n < 10 → motive n)
    (more : ∀ n, 10 ≤ n → motive (n / 10) → motive n) (n : Nat) : motive n := by
  induction n using Nat.strongRecOn with
  | ind n ih =>
      by_cases hn : n < 10
      · exact one n hn
      · exact more n (by omega) (ih _ (by omega))

/-- Digits stand in front of what follows. -/
theorem digits_onto_eq (n : Nat) (tail : Text) : digitsOnto n tail = ofNat n ++ tail := by
  unfold ofNat
  induction n using place_induction generalizing tail with
  | one n hn => rw [digits_onto_of_lt hn, digits_onto_of_lt hn, List.singleton_append]
  | more n hn ih =>
      rw [digits_onto_of_ge hn, digits_onto_of_ge hn, ih, ih [digit n], List.append_assoc,
        List.singleton_append]

/-- A number below ten is written as its digit. -/
theorem of_nat_of_lt (h : n < 10) : ofNat n = [digit n] := digits_onto_of_lt h []

/-- Any other number is written as its tenth and a last digit. -/
theorem of_nat_of_ge (h : 10 ≤ n) : ofNat n = ofNat (n / 10) ++ [digit n] := by
  rw [ofNat, digits_onto_of_ge h, digits_onto_eq]

/-! ## The text of a number -/

/-- No number is written as nothing. -/
theorem of_nat_ne_nil (n : Nat) : ofNat n ≠ [] := by
  by_cases hn : n < 10
  · simp [of_nat_of_lt hn]
  · simp [of_nat_of_ge (Nat.le_of_not_lt hn)]

/-- A number is written in digits. -/
theorem is_digit_of_mem_of_nat (n : Nat) : ∀ c ∈ ofNat n, c.isDigit = true := by
  induction n using place_induction with
  | one n hn => simp [of_nat_of_lt hn, is_digit_digit]
  | more n hn ih =>
      rw [of_nat_of_ge hn]
      intro c hc
      rcases List.mem_append.1 hc with hc | hc
      · exact ih c hc
      · rw [List.mem_singleton.1 hc]
        exact is_digit_digit n

/-- A digit at the end moves the others up. -/
theorem value_append_singleton (t : Text) (c : CodePoint) :
    value (t ++ [c]) = value t * 10 + (c.val - '0'.toNat) := by
  simp [value]

/-- The text of a number has the number as its value. -/
theorem value_of_nat (n : Nat) : value (ofNat n) = n := by
  have hdigit : ∀ n, (digit n).val - '0'.toNat = n % 10 := fun n => by
    rw [val_digit]
    omega
  induction n using place_induction with
  | one n hn =>
      have hvalue := value_append_singleton [] (digit n)
      rw [List.nil_append, hdigit] at hvalue
      rw [of_nat_of_lt hn, hvalue]
      simp only [value, List.foldl_nil]
      omega
  | more n hn ih =>
      rw [of_nat_of_ge hn, value_append_singleton, ih, hdigit]
      omega

/-- A number has at most `k` places exactly when it is less than the power `k` of ten. -/
theorem length_of_nat_le_iff {k : Nat} (hk : 0 < k) : (ofNat n).length ≤ k ↔ n < 10 ^ k := by
  induction n using place_induction generalizing k with
  | one n hn =>
      have hpow : 10 ≤ 10 ^ k := Nat.le_self_pow (by omega) 10
      rw [of_nat_of_lt hn, List.length_singleton]
      omega
  | more n hn ih =>
      obtain ⟨k, rfl⟩ : ∃ m, k = m + 1 := ⟨k - 1, by omega⟩
      rw [of_nat_of_ge hn, List.length_append, List.length_singleton, Nat.add_le_add_iff_right,
        Nat.pow_succ]
      -- The last place is one of the places, which leaves at least one for the rest.
      cases k with
      | zero =>
          have hne := List.length_pos_iff.2 (of_nat_ne_nil (n / 10))
          omega
      | succ k =>
          rw [ih (Nat.succ_pos k)]
          omega

/-! ## The value of a text -/

/-- The value of digits is below the power of ten of their number. -/
theorem value_lt (h : ∀ c ∈ t, c.isDigit = true) : value t < 10 ^ t.length := by
  induction t using List.reverseRecOn with
  | nil => simp [value]
  | append_singleton t c ih =>
      have hrest := ih fun d hd => h d (by simp [hd])
      have hc := CodePoint.is_digit_iff.1 (h c (by simp))
      have hzero : '0'.toNat = 48 := rfl
      rw [value_append_singleton, List.length_append, List.length_singleton, Nat.pow_succ]
      omega

/-- The value of digits one after the other. -/
theorem value_append (t u : Text) : value (t ++ u) = value t * 10 ^ u.length + value u := by
  induction u using List.reverseRecOn with
  | nil => simp [value]
  | append_singleton u c ih =>
      rw [← List.append_assoc, value_append_singleton, ih, value_append_singleton,
        List.length_append, List.length_singleton, Nat.pow_succ]
      ring

/-- Zeros have the value zero. -/
theorem value_zeros (count : Nat) : value (List.replicate count (CodePoint.ofChar '0')) = 0 := by
  induction count with
  | zero => rfl
  | succ count ih =>
      have hzero : (CodePoint.ofChar '0').val - '0'.toNat = 0 := rfl
      rw [List.replicate_succ', value_append_singleton, ih, hzero]

/-- Zeros in front do not count. -/
theorem value_padded (width n : Nat) : value (padded width n) = n := by
  have hzero : digit 0 = CodePoint.ofChar '0' := rfl
  rw [padded, hzero, value_append, value_zeros, value_of_nat]
  omega

/-- A padded number is written in digits. -/
theorem is_digit_of_mem_padded (width n : Nat) : ∀ c ∈ padded width n, c.isDigit = true := by
  intro c hc
  rcases List.mem_append.1 hc with hc | hc
  · rw [List.eq_of_mem_replicate hc]
    rfl
  · exact is_digit_of_mem_of_nat n c hc

/-- No padded number is written as nothing. -/
theorem padded_ne_nil (width n : Nat) : padded width n ≠ [] := by
  simp [padded, of_nat_ne_nil]

/-- The value of a run of digits has no more places than the run. -/
theorem length_of_nat_value_le (hne : t ≠ []) (h : ∀ c ∈ t, c.isDigit = true) :
    (ofNat (value t)).length ≤ t.length :=
  (length_of_nat_le_iff (List.length_pos_iff.2 hne)).2 (value_lt h)

/-! ## Within the digit limit -/

/-- A natural number is written as an integer in the same way. -/
theorem of_int_nat_cast (n : Nat) : ofInt (n : Int) = ofNat n := by
  have hn : ¬(n : Int) < 0 := by omega
  rw [ofInt, if_neg hn, Int.natAbs_natCast]

/-- Digits are read as their value if there are not too many of them. -/
theorem of_digits?_eq_ok_iff : ofDigits? t = .ok n ↔ t.length ≤ digitLimit ∧ value t = n := by
  unfold ofDigits?
  split <;> simp <;> omega

/-- A number of not too many digits is read back from its text. -/
theorem of_digits?_of_nat (h : (ofNat n).length ≤ digitLimit) : ofDigits? (ofNat n) = .ok n :=
  of_digits?_eq_ok_iff.2 ⟨h, value_of_nat n⟩

end UriTemplate.Decimal
