import UriTemplate.Name
import UriTemplate.Proofs.Text.CodePoint
import UriTemplate.Proofs.Text.Join

/-!
# The grammar of names

A text with escapes is made of units, each an escape or a code point of its own
(`Name.is_escaped_iff_made_of`), and a name is such a text with an escape, or a run of bare code
points (`Name.is_name_iff`). So a name holds none of the ASCII code points that structure an
expression: no brace, no comma, no modifier sign, no blank, and of the operator symbols only the
full stop. `Name.Allows` says which code points may stand in a name at all, and
`Name.allows_of_mem` that no others do.
-/

namespace UriTemplate.Name

variable {t : Text} {c : CodePoint}

/-- A name is not empty. -/
theorem ne_nil_of_is_name (h : isName t = true) : t ≠ [] := by
  rintro rfl
  simp [isName] at h

/-! ## Plain code points -/

/-- The plain characters are letters, digits, underscores and points. -/
theorem is_plain_iff : isPlain c = true ↔
    c.isAlphanumeric = true ∨ c = CodePoint.ofChar '_' ∨ c = CodePoint.ofChar '.' := by
  simp [isPlain, or_assoc]

/-- Of the ASCII code points the letters, the digits, the underscore and the full stop are
plain. -/
theorem is_plain_iff_of_is_ascii (h : c.isAscii = true) : isPlain c = true ↔
    c.isLetter = true ∨ c.isDigit = true ∨ c = CodePoint.ofChar '_' ∨
      c = CodePoint.ofChar '.' := by
  rw [is_plain_iff, CodePoint.isAlphanumeric, if_pos h, Bool.or_eq_true, or_assoc]

/-- Hexadecimal digits are plain. -/
theorem is_plain_of_is_hex_digit (h : c.isHexDigit = true) : isPlain c = true := by
  rw [CodePoint.is_hex_digit_iff, CodePoint.is_digit_iff] at h
  have hascii : c.isAscii = true := by
    rw [CodePoint.is_ascii_iff]
    omega
  rw [is_plain_iff_of_is_ascii hascii, CodePoint.is_letter_iff, CodePoint.is_digit_iff]
  omega

/-- A percent sign is not plain. -/
theorem ne_percent_of_is_plain (h : isPlain c = true) : c ≠ CodePoint.ofChar '%' := by
  rintro rfl
  exact absurd h (by decide)

/-! ## Texts with escapes -/

/-- `IsUnit t` says that `t` is a unit of a text with escapes: a percent sign and two hexadecimal
digits, a letter or number of some script, an underscore or a full stop. -/
inductive IsUnit : Text → Prop where
  | escape (high low : CodePoint) : high.isHexDigit = true → low.isHexDigit = true →
      IsUnit [CodePoint.ofChar '%', high, low]
  | alphanumeric (c : CodePoint) : c.isAlphanumeric = true → IsUnit [c]
  | underscore : IsUnit [CodePoint.ofChar '_']
  | fullStop : IsUnit [CodePoint.ofChar '.']

/-- A plain character is a unit. -/
theorem is_unit_of_is_plain (h : isPlain c = true) : IsUnit [c] := by
  rcases is_plain_iff.1 h with halphanumeric | rfl | rfl
  · exact .alphanumeric c halphanumeric
  · exact .underscore
  · exact .fullStop

/-- A unit is an escape or a plain character. -/
theorem IsUnit.escape_or_is_plain (h : IsUnit t) :
    (∃ high low, high.isHexDigit = true ∧ low.isHexDigit = true ∧
      t = [CodePoint.ofChar '%', high, low]) ∨ ∃ c, isPlain c = true ∧ t = [c] := by
  cases h with
  | escape high low hhigh hlow => exact .inl ⟨high, low, hhigh, hlow, rfl⟩
  | alphanumeric c hc => exact .inr ⟨c, is_plain_iff.2 (.inl hc), rfl⟩
  | underscore => exact .inr ⟨_, by decide, rfl⟩
  | fullStop => exact .inr ⟨_, by decide, rfl⟩

/-- A character that is no percent sign stands for itself. -/
theorem is_escaped_cons_of_ne (h : c ≠ CodePoint.ofChar '%') (rest : Text) :
    isEscaped (c :: rest) = (isPlain c && isEscaped rest) := by
  rw [isEscaped.eq_def]
  simp [h]

/-- A unit in front of a text changes nothing of how the text is read. -/
theorem IsUnit.is_escaped_append (h : IsUnit t) (rest : Text) :
    isEscaped (t ++ rest) = isEscaped rest := by
  obtain ⟨high, low, hhigh, hlow, rfl⟩ | ⟨c, hc, rfl⟩ := h.escape_or_is_plain
  · simp [isEscaped, hhigh, hlow]
  · rw [List.singleton_append, is_escaped_cons_of_ne (ne_percent_of_is_plain hc), hc, Bool.true_and]

/-- The texts with well-formed escapes are those made of units. -/
theorem is_escaped_iff_made_of : isEscaped t = true ↔ MadeOf IsUnit t := by
  constructor
  · intro h
    -- The induction is on how the text is read: a whole escape at a time, or one code point.
    fun_induction isEscaped t with
    | case1 => exact made_of_nil
    | case2 high low rest ih =>
        simp only [Bool.and_eq_true] at h
        obtain ⟨⟨hhigh, hlow⟩, hrest⟩ := h
        exact (made_of_part (.escape high low hhigh hlow)).append (ih hrest)
    | case3 => simp at h
    | case4 c rest hpercent ih =>
        simp only [Bool.and_eq_true] at h
        exact (made_of_part (is_unit_of_is_plain h.1)).append (ih h.2)
  · rintro ⟨units, rfl, hunits⟩
    induction units with
    | nil => rfl
    | cons unit rest ih =>
        obtain ⟨hunit, hrest⟩ := List.forall_mem_cons.1 hunits
        rw [List.flatten_cons, hunit.is_escaped_append, ih hrest]

/-! ## Names -/

/-- `IsBare c` says that `c` may stand in a name without escapes: it is an ASCII letter or digit, an
underscore, a full stop, or above ASCII. -/
def IsBare (c : CodePoint) : Prop :=
  c.isLetter = true ∨ c.isDigit = true ∨ c = CodePoint.ofChar '_' ∨ c = CodePoint.ofChar '.' ∨
    0x7F < c.val

/-- The bare characters are the plain ones and those beyond ASCII. -/
theorem is_bare_iff : IsBare c ↔ isPlain c = true ∨ c.isAscii = false := by
  have hwide : 0x7F < c.val ↔ c.isAscii = false := by
    rw [Bool.eq_false_iff, Ne, CodePoint.is_ascii_iff]
    omega
  cases hascii : c.isAscii with
  | false => simp [IsBare, hwide, hascii]
  | true => simp [IsBare, hwide, hascii, is_plain_iff_of_is_ascii hascii]

/-- A name has escapes and is made of units, or is not empty and consists of bare code points. -/
theorem is_name_iff : isName t = true ↔ t ≠ [] ∧
    (CodePoint.ofChar '%' ∈ t ∧ MadeOf IsUnit t ∨
      CodePoint.ofChar '%' ∉ t ∧ ∀ c ∈ t, IsBare c) := by
  rw [← is_escaped_iff_made_of]
  by_cases hempty : t = []
  · simp [isName, hempty]
  · by_cases hpercent : CodePoint.ofChar '%' ∈ t
    · simp [isName, hempty, hpercent]
    · simp [isName, hempty, hpercent, is_bare_iff]

/-- `Allows c` says that `c` may stand in a name: it is plain, a percent sign, or above ASCII. -/
def Allows (c : CodePoint) : Prop :=
  isPlain c = true ∨ c = CodePoint.ofChar '%' ∨ c.isAscii = false

instance (c : CodePoint) : Decidable (Allows c) :=
  inferInstanceAs (Decidable (_ ∨ _ ∨ _))

/-- The characters of a unit are allowed in names. -/
theorem IsUnit.allows (h : IsUnit t) : ∀ c ∈ t, Allows c := by
  obtain ⟨high, low, hhigh, hlow, rfl⟩ | ⟨c, hc, rfl⟩ := h.escape_or_is_plain
  · simp [Allows, is_plain_of_is_hex_digit hhigh, is_plain_of_is_hex_digit hlow]
  · simpa using .inl hc

/-- Everything in a name may stand in one. -/
theorem allows_of_mem (h : isName t = true) : ∀ c ∈ t, Allows c := by
  intro c hc
  obtain ⟨-, ⟨-, hunits⟩ | ⟨-, hbare⟩⟩ := is_name_iff.1 h
  · obtain ⟨unit, hunit, hmem⟩ := hunits.exists_of_mem hc
    exact hunit.allows c hmem
  · exact (is_bare_iff.1 (hbare c hc)).imp_right .inr

/-- What is not allowed in names is in none. -/
theorem not_mem_of_is_name (h : isName t = true) (hc : ¬Allows c) : c ∉ t :=
  fun hmem => hc (allows_of_mem h c hmem)

end UriTemplate.Name
