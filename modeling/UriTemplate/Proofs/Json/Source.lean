import UriTemplate.Json
import UriTemplate.Proofs.Yaml.Flow
import UriTemplate.Proofs.Yaml.Scalar

/-!
# The texts of JSON values

A JSON text is one line of printable ASCII (`Json.is_printable_ascii_source`). The text of a value
that is neither a text nor a collection is a number or a word (`Json.starts_bare_source`).
-/

namespace UriTemplate

open Yaml Lexer

/-! ## Code units -/

/-- A number in the range of code points is that of a code point. -/
theorem CodePoint.val_of_nat {n : Nat} (h : n < 0x110000) : (ofNat n).val = n := by
  rw [ofNat, dif_pos h]

/-- A code unit has sixteen bits. -/
theorem CodePoint.val_lt_of_mem_units {c u : CodePoint} (h : u ∈ c.units) : u.val < 0x10000 := by
  have hlt := c.isLt
  unfold units at h
  split at h
  · next hplain =>
      obtain rfl : u = c := by simpa using h
      exact hplain
  · simp only [List.mem_cons, List.not_mem_nil, or_false] at h
    have hhigh : 0xD800 + (c.val - 0x10000) / 0x400 < 0x10000 := by omega
    have hlow : 0xDC00 + (c.val - 0x10000) % 0x400 < 0x10000 := by omega
    rcases h with hu | hu
    · rw [hu, val_of_nat (Nat.lt_trans hhigh (by omega))]
      exact hhigh
    · rw [hu, val_of_nat (Nat.lt_trans hlow (by omega))]
      exact hlow

/-- The code units of a text have sixteen bits. -/
theorem Text.val_lt_of_mem_units {t : Text} : ∀ u ∈ t.units, u.val < 0x10000 := by
  intro u hu
  obtain ⟨c, _, hmem⟩ := List.mem_flatMap.1 hu
  exact CodePoint.val_lt_of_mem_units hmem

/-- A text is its own code units exactly when none of its code points takes two. -/
theorem Text.units_eq_self_iff {t : Text} : t.units = t ↔ ∀ c ∈ t, c.val < 0x10000 := by
  constructor
  · intro h c hc
    rw [← h] at hc
    exact Text.val_lt_of_mem_units c hc
  · intro h
    induction t with
    | nil => rfl
    | cons c t ih =>
        obtain ⟨hc, ht⟩ := List.forall_mem_cons.1 h
        rw [units, List.flatMap_cons, CodePoint.units, if_pos hc]
        exact congrArg (c :: ·) (ih ht)

namespace Json

/-! ## Values without quotes or brackets -/

/-- `j.isPlain` says that `j` is written without quotes and brackets. -/
def isPlain : Json → Bool
  | null | bool _ | int _ | float _ _ => true
  | text _ | list _ | mapping _ => false

variable {j : Json}

/-- Numbers are written without quotes. -/
theorem is_bare_of_is_numeric {t : Text} (h : ∀ c ∈ t, Binary64.isNumeric c = true) :
    ∀ c ∈ t, IsBare c := fun c hc => .inl (h c hc)

/-- A number with a sign can start without quotes. -/
theorem starts_bare_with_sign {negative : Bool} {t : Text} (h : StartsWithDigit t) :
    StartsBare (withSign negative t) := by
  obtain ⟨c, rest, rfl, hc⟩ := h
  cases negative with
  | false => exact ⟨c, rest, rfl, .inl hc⟩
  | true => exact ⟨_, _, rfl, .inr (.inr ⟨rfl, c, rest, rfl, hc⟩)⟩

/-- Such a value is written as a number or a word. -/
theorem starts_bare_source (h : j.isPlain = true) :
    StartsBare j.source ∧ ∀ c ∈ j.source, IsBare c := by
  have hword : ∀ w ∈ (["null", "true", "false"] : List String), StartsBare (Text.ofString w) ∧
      ∀ c ∈ Text.ofString w, IsBare c := by
    intro w hw
    simp only [List.mem_cons, List.not_mem_nil, or_false] at hw
    rcases hw with rfl | rfl | rfl
    · exact ⟨⟨_, _, rfl, .inr (.inl rfl)⟩, by decide⟩
    · exact ⟨⟨_, _, rfl, .inr (.inl rfl)⟩, by decide⟩
    · exact ⟨⟨_, _, rfl, .inr (.inl rfl)⟩, by decide⟩
  cases j with
  | null => exact hword "null" (by simp)
  | bool b => cases b with
    | false => exact hword "false" (by simp)
    | true => exact hword "true" (by simp)
  | int n =>
      rw [source, of_int_eq]
      exact ⟨starts_bare_with_sign (starts_with_digit_of_nat _),
        is_bare_of_is_numeric (is_numeric_of_mem_with_sign (is_numeric_of_mem_of_nat _))⟩
  | float negative magnitude =>
      rw [source, text_finite]
      exact ⟨starts_bare_with_sign (starts_with_digit_magnitude_text _),
        is_bare_of_is_numeric (is_numeric_of_mem_with_sign (is_numeric_of_mem_magnitude_text _))⟩
  | text | list | mapping => exact absurd h (by simp [isPlain])

/-! ## One line of ASCII -/

/-- A text is written in printable ASCII characters. -/
theorem is_printable_ascii_in_json (t : Text) : t.inJson.IsPrintableAscii := by
  have hquote : (CodePoint.ofChar '"').IsPrintableAscii := by decide
  refine List.forall_mem_cons.2 ⟨hquote, List.forall_mem_append.2 ⟨?_, ?_⟩⟩
  · exact Cursor.is_printable_ascii_units t.units
  · exact List.forall_mem_singleton.2 hquote

/-- Separators are printable ASCII characters. -/
theorem is_printable_ascii_separator (first : Bool) : (separator first).IsPrintableAscii := by
  have hseparator : ∀ first, ∀ c ∈ separator first, c.IsPrintableAscii := by decide
  exact hseparator first

mutual

/-- A JSON text is printable ASCII. -/
theorem is_printable_ascii_source (j : Json) : j.source.IsPrintableAscii := by
  cases j with
  | null | bool | int | float =>
      exact fun c hc => is_printable_ascii_of_is_bare ((starts_bare_source rfl).2 c hc)
  | text t => exact is_printable_ascii_in_json t
  | list items =>
      have hopening : (CodePoint.ofChar '[').IsPrintableAscii := by decide
      have hclosing : (CodePoint.ofChar ']').IsPrintableAscii := by decide
      exact List.forall_mem_cons.2 ⟨hopening, List.forall_mem_append.2
        ⟨is_printable_ascii_source_items true items, List.forall_mem_singleton.2 hclosing⟩⟩
  | mapping entries =>
      have hopening : (CodePoint.ofChar '\x7b').IsPrintableAscii := by decide
      have hclosing : (CodePoint.ofChar '\x7d').IsPrintableAscii := by decide
      exact List.forall_mem_cons.2 ⟨hopening, List.forall_mem_append.2
        ⟨is_printable_ascii_source_entries true entries, List.forall_mem_singleton.2 hclosing⟩⟩
termination_by structural j

/-- Items are written in printable ASCII characters. -/
theorem is_printable_ascii_source_items (first : Bool) (items : List Json) :
    (sourceItems first items).IsPrintableAscii := by
  cases items with
  | nil => simp [sourceItems, Text.IsPrintableAscii]
  | cons item rest =>
      have hrest := is_printable_ascii_source_items false rest
      rw [sourceItems]
      exact List.forall_mem_append.2 ⟨List.forall_mem_append.2
        ⟨is_printable_ascii_separator first, is_printable_ascii_source item⟩, hrest⟩
termination_by structural items

/-- Entries are written in printable ASCII characters. -/
theorem is_printable_ascii_source_entries (first : Bool) (entries : List (Text × Json)) :
    (sourceEntries first entries).IsPrintableAscii := by
  cases entries with
  | nil => simp [sourceEntries, Text.IsPrintableAscii]
  | cons entry rest =>
      obtain ⟨key, item⟩ := entry
      have hcolon : Text.IsPrintableAscii (Text.ofString ": ") := by
        have hall : ∀ c ∈ Text.ofString ": ", c.IsPrintableAscii := by decide
        exact hall
      have hrest := is_printable_ascii_source_entries false rest
      have hitem := is_printable_ascii_source item
      rw [sourceEntries]
      exact List.forall_mem_append.2 ⟨List.forall_mem_append.2 ⟨List.forall_mem_append.2
        ⟨List.forall_mem_append.2
          ⟨is_printable_ascii_separator first, is_printable_ascii_in_json key⟩,
          hcolon⟩, hitem⟩, hrest⟩
termination_by structural entries

end

/-- A JSON text starts with a token. -/
theorem starts_token_source (j : Json) (rest : Text) : StartsToken (j.source ++ rest) := by
  have hstart : ∃ c t, j.source = c :: t ∧ c ≠ CodePoint.ofChar ' ' ∧
      c ≠ CodePoint.ofChar '#' := by
    by_cases hplain : j.isPlain = true
    · obtain ⟨⟨c, t, heq, _⟩, hbare⟩ := starts_bare_source hplain
      have hc := hbare c (by simp [heq])
      exact ⟨c, t, heq, ne_of_is_bare hc (by decide), ne_of_is_bare hc (by decide)⟩
    · cases j with
      | null | bool | int | float => exact absurd rfl hplain
      | text | list | mapping => exact ⟨_, _, rfl, by decide, by decide⟩
  obtain ⟨c, t, heq, hc⟩ := hstart
  intro d hd
  obtain rfl : c = d := by simpa [heq] using hd
  exact ⟨is_printable_ascii_source j c (by simp [heq]), hc⟩

end Json

end UriTemplate
