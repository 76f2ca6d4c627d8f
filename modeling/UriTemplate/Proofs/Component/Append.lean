import UriTemplate.Proofs.Component.Scan
import UriTemplate.Proofs.Expansion.Sequence

/-!
# Templates one after the other

Where no backslash meets a brace at the seam, a template followed by a text is read as the template
and then the text: `Component.joined` puts their components together, and a fault of the text is
only moved (`ParseError.shift`). The proof follows the scan twice: `Component.parse_from_onto` says
what a literal run in front of a text changes, and `Component.parse_from_joined` what a whole
template does. A fault that needs no more text to show is there whatever follows
(`Component.parse_from_error_append`).
-/

namespace UriTemplate

open Text Component

/-- `Text.StartsWithBrace t` says that the first code point of `t` is a brace. -/
def Text.StartsWithBrace (t : Text) : Prop := t.head?.any CodePoint.isBrace = true

instance (t : Text) : Decidable (StartsWithBrace t) :=
  inferInstanceAs (Decidable (t.head?.any CodePoint.isBrace = true))

namespace Component

/-- `c.onto second` is the component `c` in front of the components `second`. A literal in front of
a literal becomes one with it. -/
def onto : Component → List Component → List Component
  | literal t, literal u :: rest => literal (t ++ u) :: rest
  | c, second => c :: second

/-- `joined first second` is the components `first` followed by `second`, where a literal at the end
of `first` and a literal at the start of `second` become one. -/
def joined : List Component → List Component → List Component
  | [], second => second
  | [c], second => c.onto second
  | c :: d :: rest, second => c :: joined (d :: rest) second

/-! ## Joined components -/

/-- An expression at the front stays there. -/
theorem joined_expression_cons (x : Expression) (rest second : List Component) :
    joined (expression x :: rest) second = expression x :: joined rest second := by
  cases rest with
  | nil => rfl
  | cons d rest => rfl

/-- Only the end of the first components meets the second ones. -/
theorem joined_literals_append (run : Text) (x : Expression) (rest second : List Component) :
    joined (literals run ++ expression x :: rest) second =
      literals run ++ expression x :: joined rest second := by
  cases run with
  | nil => exact joined_expression_cons x rest second
  | cons c run =>
      show literal (c :: run).reverse :: joined (expression x :: rest) second = _
      rw [joined_expression_cons]
      rfl

/-- A run in front of components that start with a run is one run with it. -/
theorem literals_joined (last run : Text) (rest : List Component)
    (hrest : ∀ t, some (literal t) ≠ rest.head?) :
    joined (literals last) (literals run ++ rest) = literals (run ++ last) ++ rest := by
  cases last with
  | nil => simp [joined, literals]
  | cons d last =>
      cases run with
      | cons c run => simp [joined, literals, onto]
      | nil =>
          cases rest with
          | nil => rfl
          | cons c rest =>
              cases c with
              | literal t => exact absurd rfl (hrest t)
              | expression x => rfl

/-- A component in front of components is expanded in front of them. -/
theorem expand_all_onto (bindings : Bindings) (c : Component) (second : List Component) :
    expandAll bindings (c.onto second) = (do
      let before ← c.expand bindings
      let after ← expandAll bindings second
      pure (before ++ after)) := by
  cases c with
  | expression x => exact expand_all_cons (.expression x) second
  | literal t =>
      cases second with
      | nil => rfl
      | cons d rest =>
          cases d with
          | expression x => exact expand_all_cons (.literal t) (.expression x :: rest)
          | literal u =>
              -- The two literals are expanded as one, before the rest.
              show expandAll bindings (.literal (t ++ u) :: rest) = _
              rw [expand_all_cons, expand_all_cons]
              cases expandAll bindings rest <;> simp [Component.expand]

/-- The expansions of joined components are those of the first, then those of the second ones. -/
theorem expand_all_joined (bindings : Bindings) (first second : List Component) :
    expandAll bindings (joined first second) = (do
      let before ← expandAll bindings first
      let after ← expandAll bindings second
      pure (before ++ after)) := by
  induction first with
  | nil => cases h : expandAll bindings second <;> simp [joined, expand_all_nil, h]
  | cons c rest ih =>
      cases rest with
      | nil =>
          show expandAll bindings (c.onto second) = _
          rw [expand_all_onto, expand_all_cons, expand_all_nil]
          cases c.expand bindings <;> simp
      | cons d rest =>
          show expandAll bindings (c :: joined (d :: rest) second) = _
          rw [expand_all_cons, ih, expand_all_cons c]
          cases c.expand bindings with
          | error e => rfl
          | ok before =>
              cases expandAll bindings (d :: rest) with
              | error e => rfl
              | ok middle => cases expandAll bindings second <;> simp

end Component

/-! ## Faults without a position -/

/-- `e.Unplaced` says that the error `e` carries no position. -/
def ParseError.Unplaced (e : ParseError) : Prop := ∀ n, e.shift n = e

variable {limits : Limits} {position : Nat} {run last text content : Text} {e : ParseError}

/-- An error of a name has no place. -/
theorem unplaced_of_parse_name {t : Text} (h : parseName t = .error e) : e.Unplaced := by
  intro n
  unfold parseName at h
  split at h
  · exact absurd h (by simp)
  · cases h
    rfl

/-- An error of a length has no place. -/
theorem unplaced_of_parse_length {t : Text} (h : parseLength limits t = .error e) :
    e.Unplaced := by
  intro n
  unfold parseLength at h
  split at h
  · cases h
    rfl
  · split at h
    · cases h
      rfl
    · split at h
      · exact absurd h (by simp)
      · cases h
        rfl

/-- A fault of one reference carries no position. -/
theorem VariableSpec.unplaced_of_parse {entry : Text}
    (h : VariableSpec.parse limits entry = .error e) : e.Unplaced := by
  simp only [VariableSpec.parse] at h
  split at h
  · rcases bind_eq_error_iff.1 h with hname | ⟨_, _, h⟩
    · exact unplaced_of_parse_name hname
    · exact absurd h (by simp)
  · split at h
    · rcases bind_eq_error_iff.1 h with hname | ⟨_, _, h⟩
      · exact unplaced_of_parse_name hname
      · rcases bind_eq_error_iff.1 h with hlength | ⟨_, _, h⟩
        · exact unplaced_of_parse_length hlength
        · exact absurd h (by simp)
    · rcases bind_eq_error_iff.1 h with hname | ⟨_, _, h⟩
      · exact unplaced_of_parse_name hname
      · exact absurd h (by simp)

/-- An error of a variable list has no place. -/
theorem unplaced_of_parse_variables {variableList : Text}
    (h : parseVariables limits variableList = .error e) : e.Unplaced := by
  simp only [parseVariables] at h
  split at h
  · cases h
    exact fun n => rfl
  · split at h
    · cases h
      exact fun n => rfl
    · obtain ⟨entry, _, hentry⟩ := exists_mem_of_mapm_eq_error h
      exact VariableSpec.unplaced_of_parse hentry

/-- An error of an operator has no place. -/
theorem unplaced_of_parse_operator (h : parseOperator content = .error e) : e.Unplaced := by
  intro n
  unfold parseOperator at h
  split at h
  · cases h
    rfl
  · split at h
    · cases h
      rfl
    · split at h
      · exact absurd h (by simp)
      · split at h
        · cases h
          rfl
        · exact absurd h (by simp)

/-- A fault inside the braces of an expression carries no position. -/
theorem Expression.unplaced_of_parse (h : Expression.parse limits content = .error e) :
    e.Unplaced := by
  rcases bind_eq_error_iff.1 h with hoperator | ⟨_, _, h⟩
  · exact unplaced_of_parse_operator hoperator
  · rcases bind_eq_error_iff.1 h with hvariables | ⟨_, _, h⟩
    · exact unplaced_of_parse_variables hvariables
    · exact absurd h (by simp)

/-! ## The scan across the seam -/

namespace Component

/-- What joins a run joins it also after more text. -/
theorem Joins.onto {c : CodePoint} (h : Joins run c) : Joins (run ++ last) c := by
  refine h.imp_right fun hescaped => ?_
  rw [ends_in_backslash_reverse] at hescaped ⊢
  rw [List.head?_append, hescaped]
  rfl

/-- A brace that a run does not escape is not escaped after more text either, unless the run is
empty and the brace meets a backslash. -/
theorem not_ends_in_backslash_onto {c : CodePoint} {rest : Text} (hc : c.isBrace = true)
    (hseam : run = [] → ¬(EndsInBackslash last.reverse ∧ StartsWithBrace (c :: rest)))
    (hrun : ¬EndsInBackslash run.reverse) : ¬EndsInBackslash (run ++ last).reverse := by
  cases run with
  | nil => exact fun hlast => hseam rfl ⟨hlast, hc⟩
  | cons d run =>
      rw [ends_in_backslash_reverse] at hrun ⊢
      exact hrun

/-- Where no backslash meets a brace, a run in front of a text joins the literal that the text
starts with, and moves the positions of its faults. -/
theorem parse_from_onto (n position : Nat) (run last text : Text)
    (hseam : run = [] → ¬(EndsInBackslash last.reverse ∧ StartsWithBrace text)) :
    parseFrom limits (n + position) (run ++ last) text =
      ((parseFrom limits position run text).mapError (ParseError.shift n)).map
        (joined (literals last)) := by
  induction run, text using scan_induction generalizing position last with
  | done run =>
      have hjoined := literals_joined last run [] (by simp)
      rw [List.append_nil, List.append_nil] at hjoined
      rw [parse_from_nil, parse_from_nil, ← hjoined]
      rfl
  | join run c rest hjoins ih =>
      rw [parse_from_join hjoins, parse_from_join hjoins.onto, Nat.add_assoc]
      exact ih (position + 1) last fun h => absurd h (by simp)
  | closing run rest hrun =>
      have hbare := not_ends_in_backslash_onto CodePoint.is_brace_closing hseam hrun
      rw [parse_from_closing hrun, parse_from_closing hbare]
      rfl
  | unclosed run rest hrun hfree =>
      have hbare := not_ends_in_backslash_onto CodePoint.is_brace_opening hseam hrun
      rw [parse_from_unclosed hrun hfree, parse_from_unclosed hbare hfree]
      rfl
  | nested run content rest hrun hfree =>
      have hbare := not_ends_in_backslash_onto CodePoint.is_brace_opening hseam hrun
      have hposition : n + position + 1 + content.length = n + (position + 1 + content.length) := by
        omega
      rw [parse_from_nested hrun hfree, parse_from_nested hbare hfree, hposition]
      rfl
  | expression run content rest hrun hfree ih =>
      rw [braced_append] at hseam
      have hbare := not_ends_in_backslash_onto CodePoint.is_brace_opening hseam hrun
      have hposition : n + position + content.length + 2 = n + (position + content.length + 2) := by
        omega
      -- After the expression nothing is left of the run, so only the positions differ.
      have hrest := ih (position + content.length + 2) []
        fun _ h => not_ends_in_backslash_nil h.1
      rw [parse_from_expression hrun hfree, parse_from_expression hbare hfree, hposition]
      rw [List.nil_append] at hrest
      rw [hrest]
      cases hcontent : Expression.parse limits content with
      | error e =>
          rw [error_bind, error_bind]
          show _ = Except.error (e.shift n)
          rw [Expression.unplaced_of_parse hcontent n]
      | ok x =>
          cases parseFrom limits (position + content.length + 2) [] rest with
          | error e => rfl
          | ok following =>
              have hjoined := literals_joined last run (.expression x :: following) (by simp)
              show Except.ok _ = Except.ok (joined (literals last) _)
              rw [hjoined]
              rfl

/-- Where no backslash meets a brace, a template in front of a text adds its components, and moves
the positions of the faults of the text. -/
theorem parse_from_joined {first : List Component}
    (hfirst : parseFrom limits position run text = .ok first) (more : Text)
    (hseam : ¬(EndsInBackslash (run.reverse ++ text) ∧ StartsWithBrace more)) :
    parseFrom limits position run (text ++ more) =
      ((parseAll limits more).mapError (ParseError.shift (position + text.length))).map
        (joined first) := by
  -- The induction follows the reader through the first text; where that ends, the other begins.
  induction run, text using scan_induction generalizing position first with
  | done run =>
      rw [parse_from_nil, Except.ok.injEq] at hfirst
      subst hfirst
      rw [List.append_nil] at hseam
      exact parse_from_onto position 0 [] run more fun _ => hseam
  | join run c rest hjoins ih =>
      rw [parse_from_join hjoins] at hfirst
      have hposition : position + (c :: rest).length = position + 1 + rest.length := by
        simp only [List.length_cons]
        omega
      rw [List.cons_append, parse_from_join hjoins, hposition]
      exact ih hfirst (by simpa using hseam)
  | closing run rest hrun => exact absurd hfirst (by simp [parse_from_closing hrun])
  | unclosed run rest hrun hfree => exact absurd hfirst (by simp [parse_from_unclosed hrun hfree])
  | nested run content rest hrun hfree =>
      rw [parse_from_nested hrun hfree] at hfirst
      exact absurd hfirst (by simp)
  | expression run content rest hrun hfree ih =>
      rw [parse_from_expression hrun hfree, bind_eq_ok_iff] at hfirst
      obtain ⟨x, hx, hfirst⟩ := hfirst
      obtain ⟨following, hfollowing, hfirst⟩ := bind_eq_ok_iff.1 hfirst
      cases hfirst
      rw [ends_in_backslash_append_braced] at hseam
      have hposition : position + (braced content ++ rest).length =
          position + content.length + 2 + rest.length := by
        rw [length_braced_append]
        omega
      rw [List.append_assoc, parse_from_expression hrun hfree, hx, ok_bind, ih hfollowing hseam,
        hposition]
      cases parseAll limits more with
      | error e => rfl
      | ok second =>
          show Except.ok _ = Except.ok (joined (literals run ++ .expression x :: following) second)
          rw [joined_literals_append]

/-- A fault other than an expression that is never closed is there whatever follows. -/
theorem parse_from_error_append (h : parseFrom limits position run text = .error e)
    (hclosed : ∀ p, e ≠ .malformed (.unclosed p)) (more : Text) :
    parseFrom limits position run (text ++ more) = .error e := by
  -- The reader gets to its fault before it comes to what follows.
  induction run, text using scan_induction generalizing position with
  | done run => exact absurd h (by simp [parse_from_nil])
  | join run c rest hjoins ih =>
      rw [parse_from_join hjoins] at h
      rw [List.cons_append, parse_from_join hjoins]
      exact ih h
  | closing run rest hrun =>
      rw [parse_from_closing hrun] at h
      rw [List.cons_append, parse_from_closing hrun]
      exact h
  | unclosed run rest hrun hfree =>
      rw [parse_from_unclosed hrun hfree] at h
      cases h
      exact absurd rfl (hclosed position)
  | nested run content rest hrun hfree =>
      rw [parse_from_nested hrun hfree] at h
      rw [List.append_assoc]
      exact Eq.trans (parse_from_nested hrun hfree) h
  | expression run content rest hrun hfree ih =>
      rw [parse_from_expression hrun hfree] at h
      rw [List.append_assoc, parse_from_expression hrun hfree]
      rcases bind_eq_error_iff.1 h with hcontent | ⟨x, hx, h⟩
      · rw [hcontent, error_bind]
      · have hrest := (bind_eq_error_iff.1 h).resolve_right (by simp)
        rw [hx, ok_bind, ih hrest, error_bind]

end Component

/-! ## Templates and their expansions -/

/-- Two templates one after the other, with no backslash before a brace at the seam, are a template
with the components of both, and it expands to their two expansions; a text that is no template is
none after a template either, for the same fault further on. What follows a text that is no template
does not mend it, unless its last expression is never closed. -/
theorem Template.parse_append (limits : Limits) (t s : Text) :
    (∀ first, Template.parse limits t = .ok first → ¬(EndsInBackslash t ∧ StartsWithBrace s) →
        (∀ second, Template.parse limits s = .ok second →
          ∃ whole, Template.parse limits (t ++ s) = .ok whole ∧
            whole.components = joined first.components second.components ∧
            ∀ bindings, whole.expand bindings = (do
              let before ← first.expand bindings
              let after ← second.expand bindings
              pure (before ++ after))) ∧
        ∀ e, Template.parse limits s = .error e →
          Template.parse limits (t ++ s) = .error (e.shift t.length)) ∧
      ∀ e, Template.parse limits t = .error e → (∀ p, e ≠ .malformed (.unclosed p)) →
        Template.parse limits (t ++ s) = .error e := by
  refine ⟨fun first hfirst hseam => ?_, fun e he hclosed => ?_⟩
  · obtain ⟨components, hcomponents, hfirst⟩ := bind_eq_ok_iff.1 hfirst
    cases hfirst
    have hwhole := parse_from_joined hcomponents s (by simpa using hseam)
    rw [Nat.zero_add] at hwhole
    refine ⟨fun second hsecond => ?_, fun e he => ?_⟩
    · obtain ⟨others, hothers, hsecond⟩ := bind_eq_ok_iff.1 hsecond
      cases hsecond
      rw [hothers] at hwhole
      refine ⟨⟨t ++ s, joined components others⟩, ?_, rfl, fun bindings => ?_⟩
      · exact bind_eq_ok_iff.2 ⟨_, hwhole, rfl⟩
      · exact expand_all_joined bindings components others
    · have hothers := (bind_eq_error_iff.1 he).resolve_right (by simp)
      rw [hothers] at hwhole
      exact bind_eq_error_iff.2 (.inl hwhole)
  · have hcomponents := (bind_eq_error_iff.1 he).resolve_right (by simp)
    exact bind_eq_error_iff.2 (.inl (parse_from_error_append hcomponents hclosed s))

/-- A backslash at the seam stays in the literal that spans it, a fault after the seam is moved, and
one before it stays where it is. -/
theorem parse_append_seam :
    (∃ whole, Template.parse Limits.standard (Text.ofString "\x7bx\x7da\\" ++ "b\x7by\x7d") =
        .ok whole ∧
      whole.components = [.expression ⟨.simple, [⟨"x", none⟩]⟩, .literal "a\\b",
        .expression ⟨.simple, [⟨"y", none⟩]⟩] ∧
      whole.expand [("x", .text "1"), ("y", .text "2")] = .ok "1a\\b2") ∧
    Template.parse Limits.standard (Text.ofString "\x7bx\x7d" ++ "b\x7d") =
      .error (.unexpectedCharacter '}' 4) ∧
    Template.parse Limits.standard (Text.ofString "\x7bx\x7d\x7d" ++ "b") =
      .error (.unexpectedCharacter '}' 3) := by
  refine ⟨?_, ?_, ?_⟩
  · obtain ⟨whole, hwhole, hcomponents, hexpand⟩ :=
      ((Template.parse_append Limits.standard "\x7bx\x7da\\" "b\x7by\x7d").1
        ⟨"\x7bx\x7da\\", [.expression ⟨.simple, [⟨"x", none⟩]⟩, .literal "a\\"]⟩ (by decide +kernel)
        (by decide)).1
        ⟨"b\x7by\x7d", [.literal "b", .expression ⟨.simple, [⟨"y", none⟩]⟩]⟩ (by decide +kernel)
    exact ⟨whole, hwhole, hcomponents, (hexpand _).trans (by decide +kernel)⟩
  · exact ((Template.parse_append Limits.standard "\x7bx\x7d" "b\x7d").1
      ⟨"\x7bx\x7d", [.expression ⟨.simple, [⟨"x", none⟩]⟩]⟩ (by decide +kernel) (by decide)).2
      (.unexpectedCharacter '}' 1) (by decide +kernel)
  · exact (Template.parse_append Limits.standard "\x7bx\x7d\x7d" "b").2
      (.unexpectedCharacter '}' 3) (by decide +kernel) (by simp)

end UriTemplate
