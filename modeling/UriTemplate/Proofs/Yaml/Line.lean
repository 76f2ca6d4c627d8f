import UriTemplate.Proofs.Decimal.FloatText
import UriTemplate.Proofs.Text.CodePoint
import UriTemplate.Yaml.Token.Plain

/-!
# Plain scalars on one line

A text of printable ASCII has no line breaks, so a cursor moves along its first line
(`Cursor.onLine`). Inside brackets a plain scalar there ends at the mark after it
(`Cursor.plain_scalar_on_line`).
-/

namespace UriTemplate

/-- `c.IsPrintableAscii` says that `c` is a printable character of ASCII. -/
def CodePoint.IsPrintableAscii (c : CodePoint) : Prop := 0x20 ≤ c.val ∧ c.val ≤ 0x7E

instance (c : CodePoint) : Decidable c.IsPrintableAscii :=
  inferInstanceAs (Decidable (0x20 ≤ c.val ∧ c.val ≤ 0x7E))

/-- `t.IsPrintableAscii` says that all code points of `t` are printable characters of ASCII. -/
def Text.IsPrintableAscii (t : Text) : Prop := ∀ c ∈ t, c.IsPrintableAscii

namespace CodePoint

variable {c : CodePoint}

/-- No printable ASCII character is a line break. -/
theorem is_break_of_is_printable_ascii (h : c.IsPrintableAscii) : c.isBreak = false := by
  obtain ⟨hlower, hupper⟩ := h
  have hfeed : c ≠ ofChar '\n' := by
    rintro rfl
    exact absurd hlower (by decide)
  have hreturn : c ≠ ofChar '\r' := by
    rintro rfl
    exact absurd hlower (by decide)
  simp [isBreak, hfeed, hreturn]
  omega

/-- None is a byte order mark. -/
theorem is_byte_order_mark_of_is_printable_ascii (h : c.IsPrintableAscii) :
    c.isByteOrderMark = false := by
  obtain ⟨hlower, hupper⟩ := h
  simp [isByteOrderMark]
  omega

/-- All of them are allowed in a document. -/
theorem is_allowed_of_is_printable_ascii (h : c.IsPrintableAscii) : c.isAllowed = true := by
  obtain ⟨hlower, hupper⟩ := h
  simp [isAllowed, hlower, hupper]

end CodePoint

namespace Yaml

/-! ## Cursors on the first line -/

namespace Cursor

variable {c : CodePoint} {t rest : Text} {i : Nat} {p : CodePoint → Bool}

/-- The cursor on the first line before `rest`, after `index` code points. -/
def onLine (rest : Text) (index : Nat) : Cursor := ⟨rest, index, 0, index⟩

/-- What is left on a line. -/
@[simp] theorem rest_on_line : (onLine rest i).rest = rest := rfl

/-- The next character of a line. -/
@[simp] theorem peek_on_line : (onLine rest i).peek = rest.head? := rfl

/-- A printable character takes one place on its line. -/
theorem next_on_line (h : c.IsPrintableAscii) :
    (onLine (c :: rest) i).next = onLine rest (i + 1) := by
  simp [next, onLine, CodePoint.is_break_of_is_printable_ascii h,
    CodePoint.is_byte_order_mark_of_is_printable_ascii h]

/-- A printable text takes as many places as it has characters. -/
theorem advance_on_line (h : t.IsPrintableAscii) :
    (onLine (t ++ rest) i).advance t.length = onLine rest (i + t.length) := by
  induction t generalizing i with
  | nil => rfl
  | cons c t ih =>
      obtain ⟨hc, ht⟩ := List.forall_mem_cons.1 h
      rw [List.cons_append, List.length_cons, advance, next_on_line hc, ih ht]
      congr 1
      omega

/-- Characters of a kind are read up to the first of another kind. -/
theorem span_on_line (h : t.IsPrintableAscii) (hp : ∀ c ∈ t, p c = true)
    (hrest : ∀ c ∈ rest.head?, p c = false) :
    (onLine (t ++ rest) i).span p = (t, onLine rest (i + t.length)) := by
  have hrun : (t ++ rest).takeWhile p = t := by
    rw [List.takeWhile_append_of_pos hp]
    cases rest with
    | nil => simp
    | cons c rest => rw [List.takeWhile_cons_of_neg (by simp [hrest c rfl]), List.append_nil]
  rw [span, rest_on_line, hrun, advance_on_line h]

/-- A line does not break before a printable character. -/
theorem line_break?_on_line (h : ∀ c ∈ rest.head?, c.IsPrintableAscii) :
    (onLine rest i).lineBreak? = none := by
  cases rest with
  | nil => rfl
  | cons c rest =>
      have hbreak := CodePoint.is_break_of_is_printable_ascii (h c rfl)
      have hkinds := hbreak
      simp only [CodePoint.isBreak, Bool.or_eq_false_iff, decide_eq_false_iff_not] at hkinds
      obtain ⟨⟨⟨⟨hfeed, hreturn⟩, hnext⟩, _⟩, _⟩ := hkinds
      simp [lineBreak?, onLine, hfeed, hreturn, hnext, hbreak]

/-- A run without the code points that `p` skips is no run at all. -/
theorem span_on_line_nil (h : ∀ c ∈ rest.head?, p c = false) :
    (onLine rest i).span p = ([], onLine rest i) :=
  span_on_line (t := []) (fun _ hc => absurd hc (by simp)) (by simp) h

end Cursor

/-! ## Plain scalars inside brackets -/

/-- `IsBare c` says that `c` may stand in a number or a word. -/
def IsBare (c : CodePoint) : Prop := Binary64.isNumeric c = true ∨ c.within 'a' 'z' = true

instance (c : CodePoint) : Decidable (IsBare c) :=
  inferInstanceAs (Decidable (Binary64.isNumeric c = true ∨ c.within 'a' 'z' = true))

/-- `EndsFlow rest` says that a comma or a closing bracket comes next. -/
def EndsFlow (rest : Text) : Prop :=
  ∃ c t, rest = c :: t ∧ c ∈ ([',', ']', '\x7d'] : List Char).map CodePoint.ofChar

section

variable {c : CodePoint} {t rest : Text} {i : Nat}

/-- Bare characters are printable. -/
theorem is_printable_ascii_of_is_bare (h : IsBare c) : c.IsPrintableAscii := by
  rcases h with hnumeric | hletter
  · rcases Binary64.is_numeric_iff.1 hnumeric with hdigit | rfl | rfl | rfl | rfl
    · have hbounds := CodePoint.is_digit_iff.1 hdigit
      exact ⟨by omega, by omega⟩
    all_goals decide
  · have hbounds := CodePoint.within_iff.1 hletter
    have hfirst : 'a'.toNat = 97 := rfl
    have hlast : 'z'.toNat = 122 := rfl
    exact ⟨by omega, by omega⟩

/-- What satisfies a condition is none of the characters that do not. -/
theorem is_one_of_eq_false {p : CodePoint → Bool} (hc : p c = true) {s : String}
    (hs : (Text.ofString s).all fun d => !p d) : c.isOneOf s = false := by
  rw [CodePoint.isOneOf, Bool.eq_false_iff, Ne, List.contains_iff_mem]
  intro hmem
  have hnot := List.all_eq_true.1 hs c hmem
  simp [hc] at hnot

/-- A bare character is none that has to be quoted. -/
theorem ne_of_is_bare (h : IsBare c) {d : Char} (hd : ¬IsBare (CodePoint.ofChar d)) :
    c ≠ CodePoint.ofChar d := by
  rintro rfl
  exact hd h

/-- A bare character does not end a word. -/
theorem ends_word_of_is_bare (h : IsBare c) : endsWord (some c) = false := by
  have hspace : c ≠ CodePoint.ofChar ' ' := ne_of_is_bare h (by decide)
  have htab : c ≠ CodePoint.ofChar '\t' := ne_of_is_bare h (by decide)
  simp [endsWord, hspace, htab,
    CodePoint.is_break_of_is_printable_ascii (is_printable_ascii_of_is_bare h)]

/-- A bare text goes on up to the mark after it. -/
theorem plain_run_append (ht : ∀ c ∈ t, IsBare c) (hrest : EndsFlow rest) :
    plainRun true (t ++ rest) = t := by
  induction t with
  | nil =>
      obtain ⟨c, rest, rfl, hc⟩ := hrest
      have hmark : c.isOneOf ",?[]\x7b\x7d" = true := by
        revert hc
        simp only [List.map_cons, List.map_nil, List.mem_cons, List.not_mem_nil, or_false]
        rintro (rfl | rfl | rfl) <;> rfl
      simp [plainRun, hmark]
  | cons c t ih =>
      obtain ⟨hc, ht⟩ := List.forall_mem_cons.1 ht
      have hcolon : c ≠ CodePoint.ofChar ':' := ne_of_is_bare hc (by decide)
      have hmark : c.isOneOf ",?[]\x7b\x7d" = false :=
        is_one_of_eq_false (p := fun d => decide (IsBare d)) (by simpa using hc) (by decide)
      simp [plainRun, ends_word_of_is_bare hc, hcolon, hmark, ih ht]

/-- What ends a scalar in brackets is printable and no space. -/
theorem EndsFlow.is_printable_ascii_head (h : EndsFlow rest) :
    ∀ c ∈ rest.head?, c.IsPrintableAscii ∧ c ≠ CodePoint.ofChar ' ' := by
  obtain ⟨c, rest, rfl, hc⟩ := h
  intro d hd
  obtain rfl : c = d := by simpa using hd
  have hall : ∀ c ∈ ([',', ']', '\x7d'] : List Char).map CodePoint.ofChar,
      c.IsPrintableAscii ∧ c ≠ CodePoint.ofChar ' ' := by decide
  exact hall c hc

/-- A bare text inside brackets is a plain scalar that ends at the mark after it. -/
theorem Cursor.plain_scalar_on_line (hne : t ≠ []) (ht : ∀ c ∈ t, IsBare c) (hrest : EndsFlow rest)
    (indent : Int) :
    (onLine (t ++ rest) i).plainScalar true indent = (t, false, onLine rest (i + t.length)) := by
  have hcomment : (onLine (t ++ rest) i).isAt '#' = false := by
    obtain ⟨c, more, rfl⟩ := List.exists_cons_of_ne_nil hne
    have hhash := ne_of_is_bare (d := '#') (ht c (by simp)) (by decide)
    simp [isAt, hhash]
  have hadvance : (onLine (t ++ rest) i).advance t.length = onLine rest (i + t.length) :=
    advance_on_line fun c hc => is_printable_ascii_of_is_bare (ht c hc)
  have hblanks : (onLine rest (i + t.length)).plainBlanks =
      ⟨some [], false, onLine rest (i + t.length)⟩ := by
    have hspan : (onLine rest (i + t.length)).span (fun p => p = CodePoint.ofChar ' ') =
        ([], onLine rest (i + t.length)) :=
      span_on_line_nil fun c hc => by simp [(hrest.is_printable_ascii_head c hc).2]
    have hbreak : (onLine rest (i + t.length)).lineBreak? = none :=
      line_break?_on_line fun c hc => (hrest.is_printable_ascii_head c hc).1
    simp only [plainBlanks, hspan, hbreak]
  have hwritten : t.isEmpty = false := by simpa using hne
  simp only [plainScalar, plainFrom, hcomment, rest_on_line, plain_run_append ht hrest, hadvance,
    hblanks, hwritten, Bool.false_eq_true, if_false]
  rfl

end

end Yaml

end UriTemplate
