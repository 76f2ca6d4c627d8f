import Mathlib.Data.List.TakeWhile
import UriTemplate.Component.Parse
import UriTemplate.Proofs.Outcome
import UriTemplate.Proofs.Text.CodePoint

/-!
# The scan of a template

The scan keeps a literal run and meets one of six things: the end, a code point that joins the
run, a closing brace, or an opening brace with what follows it up to the next brace. There is one
equation of `Component.parseFrom` for each, and `Component.scan_induction` follows the scan by
these cases. `Component.parse_from_append` says that the run is all that the scan remembers of the
text before it.
-/

namespace UriTemplate

namespace Text

/-- `BraceFree t` says that no code point of `t` is a brace. -/
def BraceFree (t : Text) : Prop := ∀ c ∈ t, c.isBrace = false

/-- `EndsInBackslash t` says that the last code point of `t` is a backslash. -/
def EndsInBackslash (t : Text) : Prop := t.getLast? = some (CodePoint.ofChar '\\')

instance (t : Text) : Decidable (EndsInBackslash t) :=
  inferInstanceAs (Decidable (t.getLast? = _))

/-- `braced content` is `content` in braces. -/
def braced (content : Text) : Text :=
  CodePoint.ofChar '{' :: content ++ [CodePoint.ofChar '}']

/-- What stands in braces starts with one and is closed by one. -/
theorem braced_append (content rest : Text) :
    braced content ++ rest = CodePoint.ofChar '{' :: content ++ CodePoint.ofChar '}' :: rest := by
  simp [braced]

/-- Braces add two to the length. -/
theorem length_braced_append (content rest : Text) :
    (braced content ++ rest).length = content.length + 2 + rest.length := by
  simp only [braced_append, List.length_append, List.length_cons]
  omega

/-- The empty text ends in no backslash. -/
theorem not_ends_in_backslash_nil : ¬EndsInBackslash [] := by simp [EndsInBackslash]

/-- A reversed run ends in a backslash if the run starts with one. -/
theorem ends_in_backslash_reverse {run : Text} :
    EndsInBackslash run.reverse ↔ run.head? = some (CodePoint.ofChar '\\') := by
  simp [EndsInBackslash]

/-- Whether a text ends in a backslash is decided by its part after any other code point. -/
theorem ends_in_backslash_append_cons {c : CodePoint} (hc : c ≠ CodePoint.ofChar '\\')
    (before after : Text) :
    EndsInBackslash (before ++ c :: after) ↔ EndsInBackslash after := by
  cases after with
  | nil => simp [EndsInBackslash, hc]
  | cons d rest => simp [EndsInBackslash, List.getLast?_cons]

/-- After an expression only what follows it counts. -/
theorem ends_in_backslash_append_braced (before content after : Text) :
    EndsInBackslash (before ++ (braced content ++ after)) ↔ EndsInBackslash after := by
  have hclosing : CodePoint.ofChar '}' ≠ CodePoint.ofChar '\\' := by decide
  have hend := ends_in_backslash_append_cons hclosing
    (before ++ CodePoint.ofChar '{' :: content) after
  rwa [List.append_assoc, ← braced_append] at hend

/-- Every text is free of braces, or falls into a part free of braces, a brace, and the rest. -/
theorem brace_free_or_split (t : Text) :
    BraceFree t ∨ ∃ content c rest, t = content ++ c :: rest ∧ BraceFree content ∧
      c.isBrace = true := by
  induction t with
  | nil => exact .inl (by simp [BraceFree])
  | cons c rest ih =>
      cases hc : c.isBrace with
      | true => exact .inr ⟨[], c, rest, rfl, by simp [BraceFree], hc⟩
      | false =>
          rcases ih with hfree | ⟨content, d, tail, rfl, hfree, hd⟩
          · exact .inl (by simpa [BraceFree, hc] using hfree)
          · exact .inr ⟨c :: content, d, tail, rfl, by simpa [BraceFree, hc] using hfree, hd⟩

end Text

open Text

/-- A text without braces is read to its end. -/
theorem until_brace_of_brace_free {t : Text} (hfree : BraceFree t) : untilBrace t = (t, []) := by
  have hall : ∀ c ∈ t, (!c.isBrace) = true := fun c hc => by simp [hfree c hc]
  simp only [untilBrace, Prod.mk.injEq]
  exact ⟨List.takeWhile_eq_self_iff.2 hall, List.dropWhile_eq_nil_iff.2 hall⟩

/-- Reading stops at the first brace. -/
theorem until_brace_append {content : Text} {c : CodePoint} (hfree : BraceFree content)
    (hc : c.isBrace = true) (rest : Text) :
    untilBrace (content ++ c :: rest) = (content, c :: rest) := by
  have hall : ∀ d ∈ content, (!d.isBrace) = true := fun d hd => by simp [hfree d hd]
  simp [untilBrace, List.takeWhile_append_of_pos hall, List.dropWhile_append_of_pos hall, hc]

namespace Component

/-- `Joins run c` says that the code point `c` belongs to the literal run that `run` holds in
reverse: it is no brace, or it is escaped. -/
def Joins (run : Text) (c : CodePoint) : Prop :=
  c.isBrace = false ∨ EndsInBackslash run.reverse

variable {limits : Limits} {position : Nat} {run content rest : Text} {c : CodePoint}

/-! ## One equation for each thing that the scan can meet -/

/-- At the end of a template the run becomes a literal. -/
theorem parse_from_nil : parseFrom limits position run [] = .ok (literals run) := by
  rw [parseFrom]

/-- A character that joins the run is read into it. -/
theorem parse_from_join (h : Joins run c) :
    parseFrom limits position run (c :: rest) =
      parseFrom limits (position + 1) (c :: run) rest := by
  rw [parseFrom]
  rcases h with hplain | hescaped
  · have hc : ¬(c = CodePoint.ofChar '{' ∨ c = CodePoint.ofChar '}') := by
      simp [← CodePoint.is_brace_iff, hplain]
    simp only [not_or] at hc
    simp [hplain, hc.1, hc.2]
  · have hhead := ends_in_backslash_reverse.1 hescaped
    cases hc : c.isBrace with
    | true => simp [hhead]
    | false =>
        have hc' : ¬(c = CodePoint.ofChar '{' ∨ c = CodePoint.ofChar '}') := by
          simp [← CodePoint.is_brace_iff, hc]
        simp only [not_or] at hc'
        simp [hc'.1, hc'.2]

/-- A closing brace outside an expression is unexpected. -/
theorem parse_from_closing (h : ¬EndsInBackslash run.reverse) :
    parseFrom limits position run (CodePoint.ofChar '}' :: rest) =
      .error (.unexpectedCharacter (CodePoint.ofChar '}') position) := by
  have hhead := mt ends_in_backslash_reverse.2 h
  have hne : CodePoint.ofChar '}' ≠ CodePoint.ofChar '{' := by decide
  rw [parseFrom]
  simp [hhead, hne]

/-- An opening brace without a closing one is an unclosed expression. -/
theorem parse_from_unclosed (h : ¬EndsInBackslash run.reverse) (hfree : BraceFree rest) :
    parseFrom limits position run (CodePoint.ofChar '{' :: rest) =
      .error (.malformed (.unclosed position)) := by
  have hhead := mt ends_in_backslash_reverse.2 h
  rw [parseFrom]
  simp only [hhead, decide_false, Bool.and_false, Bool.false_eq_true, if_false, if_true]
  split <;> simp_all [until_brace_of_brace_free hfree]

/-- An opening brace inside an expression is a nested one. -/
theorem parse_from_nested (h : ¬EndsInBackslash run.reverse) (hfree : BraceFree content) :
    parseFrom limits position run
        (CodePoint.ofChar '{' :: content ++ CodePoint.ofChar '{' :: rest) =
      .error (.malformed (.nestedBrace (position + 1 + content.length))) := by
  have hhead := mt ends_in_backslash_reverse.2 h
  have hcut := until_brace_append hfree CodePoint.is_brace_opening rest
  rw [List.cons_append, parseFrom]
  simp only [hhead, decide_false, Bool.and_false, Bool.false_eq_true, if_false, if_true]
  split <;> simp_all

/-- What stands in braces is parsed as an expression, and what follows it with an empty run. -/
theorem parse_from_expression (h : ¬EndsInBackslash run.reverse) (hfree : BraceFree content) :
    parseFrom limits position run (braced content ++ rest) = (do
      let e ← Expression.parse limits content
      let following ← parseFrom limits (position + content.length + 2) [] rest
      pure (literals run ++ expression e :: following)) := by
  have hhead := mt ends_in_backslash_reverse.2 h
  have hne : CodePoint.ofChar '}' ≠ CodePoint.ofChar '{' := by decide
  have hcut := until_brace_append hfree CodePoint.is_brace_closing rest
  rw [braced_append, List.cons_append, parseFrom]
  simp only [hhead, decide_false, Bool.and_false, Bool.false_eq_true, if_false, if_true]
  split <;> simp_all

/-! ## Induction along the scan -/

/-- What holds of the text at each of the six things that the scan can meet, given that it holds of
what the scan goes on with, holds of every text. -/
theorem scan_induction {motive : Text → Text → Prop}
    (done : ∀ run, motive run [])
    (join : ∀ run c rest, Joins run c → motive (c :: run) rest → motive run (c :: rest))
    (closing : ∀ run rest, ¬EndsInBackslash run.reverse →
      motive run (CodePoint.ofChar '}' :: rest))
    (unclosed : ∀ run rest, ¬EndsInBackslash run.reverse → BraceFree rest →
      motive run (CodePoint.ofChar '{' :: rest))
    (nested : ∀ run content rest, ¬EndsInBackslash run.reverse → BraceFree content →
      motive run (CodePoint.ofChar '{' :: content ++ CodePoint.ofChar '{' :: rest))
    (expression : ∀ run content rest, ¬EndsInBackslash run.reverse → BraceFree content →
      motive [] rest → motive run (braced content ++ rest))
    (run text : Text) : motive run text := by
  match text with
  | [] => exact done run
  | c :: rest =>
      by_cases hjoins : Joins run c
      · exact join run c rest hjoins
          (scan_induction done join closing unclosed nested expression (c :: run) rest)
      · -- What does not join the run is a brace that the run does not escape.
        simp only [Joins, not_or, Bool.not_eq_false, CodePoint.is_brace_iff] at hjoins
        obtain ⟨rfl | rfl, hbare⟩ := hjoins
        · rcases brace_free_or_split rest with hfree | ⟨content, d, tail, rfl, hfree, hd⟩
          · exact unclosed run rest hbare hfree
          · rcases CodePoint.is_brace_iff.1 hd with rfl | rfl
            · exact nested run content tail hbare hfree
            · have hrest := expression run content tail hbare hfree
                (scan_induction done join closing unclosed nested expression [] tail)
              rwa [braced_append, List.cons_append] at hrest
        · exact closing run rest hbare
termination_by text.length

/-! ## What the scan remembers -/

/-- At the end of a text that parses, the run is all that the scan remembers: there are components
`parsed` and a run `last` from which it goes on whatever follows. The run ends in a backslash
exactly when the text does. -/
theorem parse_from_append {text : Text} {components : List Component}
    (h : parseFrom limits position run text = .ok components) :
    ∃ parsed last, components = parsed ++ literals last ∧
      (EndsInBackslash last.reverse ↔ EndsInBackslash (run.reverse ++ text)) ∧
      ∀ more, parseFrom limits position run (text ++ more) =
        (parseFrom limits (position + text.length) last more).map (parsed ++ ·) := by
  induction run, text using scan_induction generalizing position components with
  | done run =>
      rw [parse_from_nil, Except.ok.injEq] at h
      refine ⟨[], run, by simp [h], by simp, fun more => ?_⟩
      cases hmore : parseFrom limits position run more <;> simp [hmore, Except.map]
  | join run c rest hjoins ih =>
      rw [parse_from_join hjoins] at h
      obtain ⟨parsed, last, hcomponents, hlast, happend⟩ := ih h
      refine ⟨parsed, last, hcomponents, by simpa using hlast, fun more => ?_⟩
      rw [List.cons_append, parse_from_join hjoins, happend, List.length_cons]
      congr 2
      omega
  | closing run rest hbare => simp [parse_from_closing hbare] at h
  | unclosed run rest hbare hfree => simp [parse_from_unclosed hbare hfree] at h
  | nested run content rest hbare hfree =>
      rw [parse_from_nested hbare hfree] at h
      exact absurd h (by simp)
  | expression run content rest hbare hfree ih =>
      rw [parse_from_expression hbare hfree, bind_eq_ok_iff] at h
      obtain ⟨e, he, h⟩ := h
      obtain ⟨following, hfollowing, h⟩ := bind_eq_ok_iff.1 h
      obtain ⟨parsed, last, hcomponents, hlast, happend⟩ := ih hfollowing
      -- The run before the expression is written off, the scan goes on from an empty one.
      refine ⟨literals run ++ .expression e :: parsed, last, ?_, ?_, fun more => ?_⟩
      · simpa [hcomponents] using h.symm
      · rw [hlast, ends_in_backslash_append_braced]
        simp
      · have hposition : position + (braced content ++ rest).length =
            position + content.length + 2 + rest.length := by
          rw [length_braced_append]
          omega
        rw [List.append_assoc, parse_from_expression hbare hfree, he, ok_bind, happend, hposition]
        cases parseFrom limits (position + content.length + 2 + rest.length) last more <;> simp

/-- Where what comes next does not join the run, the run stands for itself: the scan goes on as it
does without one. -/
theorem parse_from_flush {text : Text} (hnext : ∀ c ∈ text.head?, ¬Joins run c) :
    parseFrom limits position run text =
      (parseFrom limits position [] text).map (literals run ++ ·) := by
  have hempty : ¬EndsInBackslash (List.reverse []) := not_ends_in_backslash_nil
  induction run, text using scan_induction with
  | done run => simp [parse_from_nil, literals]
  | join run c rest hjoins => exact absurd hjoins (hnext c (by simp))
  | closing run rest hbare => rw [parse_from_closing hbare, parse_from_closing hempty, map_error]
  | unclosed run rest hbare hfree =>
      rw [parse_from_unclosed hbare hfree, parse_from_unclosed hempty hfree, map_error]
  | nested run content rest hbare hfree =>
      rw [parse_from_nested hbare hfree, parse_from_nested hempty hfree, map_error]
  | expression run content rest hbare hfree =>
      rw [parse_from_expression hbare hfree, parse_from_expression hempty hfree]
      cases Expression.parse limits content with
      | error e => rfl
      | ok e =>
          cases parseFrom limits (position + content.length + 2) [] rest <;> simp [literals]

end Component

end UriTemplate
