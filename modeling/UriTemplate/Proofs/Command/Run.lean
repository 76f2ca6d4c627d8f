import UriTemplate.Bindings.Standard
import UriTemplate.Command.Run
import UriTemplate.Proofs.Component.Overlong

/-!
# Bad templates

How a text that is no template is reported. The parser, the check of a text and the three commands
report a fault of the template as such, and let no other error out unless the first fault of the
text is an overlong entry (`only_overlong_escapes`).
-/

namespace UriTemplate

open Component

variable {limits : Limits} {text time : Text} {p n : Nat} {e : ParseError}
  {d : Decimal.LimitError}

/-! ## The check of a text -/

/-- An overlong length goes through the check of a template. -/
theorem Template.is_valid_of_digit_limit (h : parse limits text = .error (.digitLimit d)) :
    isValid limits text = .error d := by
  simp only [isValid, h]

/-- A template that is refused with an error of templates is not valid. -/
theorem Template.is_valid_of_error (he : e.isTemplateError = true)
    (h : parse limits text = .error e) : isValid limits text = .ok false := by
  cases e with
  | digitLimit d => exact absurd he (by simp [ParseError.isTemplateError])
  | _ => simp only [isValid, h]

/-- A text that is nowhere overlong is valid exactly where it parses. -/
theorem Template.exists_is_valid (hnone : ∀ p n, ¬OverlongAt limits text p n) :
    ∃ valid, isValid limits text = .ok valid ∧ (valid = true ↔ ∃ t, parse limits text = .ok t) := by
  cases hparse : parse limits text with
  | ok t => exact ⟨true, by simp only [isValid, hparse], by simp⟩
  | error e =>
      have he := is_template_error_of_parse_all hnone (parse_eq_error_iff.1 hparse)
      exact ⟨false, is_valid_of_error he hparse, by simp⟩

namespace Command

variable {libs : Libraries} {read : ReadFile} {task : Task} {line : List Text}
  {request : Request} {g : Grammar}
  {word : Text}

/-! ## The commands -/

/-- `t.template` is the text of the template that the task is about. -/
def Task.template : Task → Text
  | .expand text _ _ => text
  | .names text => text
  | .validate text => text

/-- Every task starts with its template. -/
theorem Task.exists_use (libs : Libraries) (read : ReadFile) (task : Task) :
    ∃ use, task.report libs read = withTemplate task.template use := by
  cases task <;> exact ⟨_, rfl⟩

/-- A fault of the template ends a task. -/
theorem Task.report_of_error (he : e.isTemplateError = true)
    (h : Template.parse Limits.standard task.template = .error e) :
    task.report libs read = ⟨[], .error (.failure (.template e))⟩ := by
  obtain ⟨use, huse⟩ := task.exists_use libs read
  rw [huse, withTemplate, h]
  cases e with
  | digitLimit d => exact absurd he (by simp [ParseError.isTemplateError])
  | _ => rfl

/-- An overlong length of a template goes through every task on it. -/
theorem Task.report_of_digit_limit
    (h : Template.parse Limits.standard task.template = .error (.digitLimit d)) :
    task.report libs read = ⟨[], .error (.digitLimit d)⟩ := by
  obtain ⟨use, huse⟩ := task.exists_use libs read
  rw [huse, withTemplate, h]

/-- A fault of the template is reported with exit status 1. -/
theorem run_of_error (hline : Request.ofLine line = .ok request) (he : e.isTemplateError = true)
    (h : Template.parse Limits.standard request.task.template = .error e) :
    ∃ errors, run libs read time line = .ok
      ⟨1, "❌ ERROR: " ++ (Failure.template e).message ++ "\n", errors, some (.template e)⟩ := by
  simp only [run, hline, Request.report, Task.report_of_error he h, Report.after, Report.outcome]
  exact ⟨_, rfl⟩

/-- An overlong length of the template goes through a command line. -/
theorem run_of_digit_limit (hline : Request.ofLine line = .ok request)
    (h : Template.parse Limits.standard request.task.template = .error (.digitLimit d)) :
    run libs read time line = .error d := by
  simp only [run, hline, Request.report, Task.report_of_digit_limit h, Report.after,
    Report.outcome]

/-! ## A line that checks a text -/

/-- A word that starts with no minus sign is an operand. -/
theorem Grammar.words_cons {c : CodePoint} (hhead : word.head? = some c)
    (hc : c ≠ CodePoint.ofChar '-') (rest : List Text) :
    g.words (word :: rest) = (g.words rest).map (.operand word :: ·) := by
  obtain ⟨tail, rfl⟩ := List.head?_eq_some_iff.1 hhead
  have hword : g.word? (c :: tail) = .ok (.operand (c :: tail)) := by
    cases tail with
    | nil => rfl
    | cons _ _ => simp [word?, hc]
  have hseparator : c :: tail ≠ separatorText := fun h => hc (List.cons.inj h).1
  rw [words, if_neg hseparator, hword]
  cases g.words rest <;> rfl

/-- Operands that end a command line are all that it holds. -/
theorem Grammar.collect_operand {rest : List Word} {operands : List Text}
    (h : g.operands? (.operand text :: rest) = some (operands, [])) :
    g.collect true (.operand text :: rest) = .ok ⟨[], operands, []⟩ := by
  rw [collect.eq_def]
  simp only
  split
  · next hsome =>
      obtain ⟨rfl, rfl⟩ : _ ∧ _ := by simpa [h] using hsome
      simp [collect, Arguments.empty]
  · next hnone => simp [h] at hnone

/-- A text that starts with no minus sign can be checked from the command line. -/
theorem Request.of_line_validate {c : CodePoint} (hhead : text.head? = some c)
    (hc : c ≠ CodePoint.ofChar '-') :
    Request.ofLine ["validate", text] = .ok ⟨.normal, .validate text⟩ := by
  have hwords (g : Grammar) : g.words [text] = .ok [.operand text] :=
    Grammar.words_cons hhead hc []
  have hcommand : mainGrammar.collect true [.operand "validate", .operand text] =
      .ok ⟨[], ["validate", text], []⟩ := Grammar.collect_operand rfl
  have houter : mainGrammar.arguments ["validate", text] = .ok ⟨[], ["validate", text], []⟩ := by
    rw [Grammar.arguments, Grammar.words_cons (c := 'v') rfl (by decide), hwords]
    simp [Except.mapError, hcommand]
  have hsingle : (inspectGrammar "validate").collect true [.operand text] = .ok ⟨[], [text], []⟩ :=
    Grammar.collect_operand rfl
  have hinner : (inspectGrammar "validate").arguments [text] = .ok ⟨[], [text], []⟩ := by
    rw [Grammar.arguments, hwords]
    simp [Except.mapError, hsingle]
  have hlookup : commands.lookup (Text.ofString "validate") =
      some ⟨inspectGrammar "validate", fun a => .validate a.operand⟩ := rfl
  simp [Request.ofLine, houter, hlookup, hinner, Except.mapError, Arguments.operand]
  rfl

/-! ## All paths -/

/-- Parsing fails with a fault of the template, unless the first fault is an overlong entry. But for
such a text its check tells whether it parses, and each command reports that it does not parse with
exit status 1. An overlong entry makes all of them fail with an error of its own. -/
theorem only_overlong_escapes (limits : Limits) (text : Text) :
    ((∀ e, parseAll limits text = .error e →
        e.isTemplateError = true ∨ ∃ p n, OverlongAt limits text p n) ∧
      ∀ p n, OverlongAt limits text p n →
        parseAll limits text = .error (.digitLimit (.reading n))) ∧
    (((∀ p n, ¬OverlongAt limits text p n) →
        ∃ valid, Template.isValid limits text = .ok valid ∧
          (valid = true ↔ ∃ t, Template.parse limits text = .ok t)) ∧
      ∀ p n, OverlongAt limits text p n → Template.isValid limits text = .error (.reading n)) ∧
    ∀ libs read time line request, Request.ofLine line = .ok request →
      request.task.template = text →
      (∀ e, Template.parse Limits.standard text = .error e →
        (∀ p n, ¬OverlongAt Limits.standard text p n) →
          ∃ errors, run libs read time line = .ok
            ⟨1, "❌ ERROR: " ++ (Failure.template e).message ++ "\n", errors,
              some (.template e)⟩) ∧
      ∀ p n, OverlongAt Limits.standard text p n →
        run libs read time line = .error (.reading n) := by
  refine ⟨⟨fun e h => ?_, fun p n h => h.parse_all_eq⟩,
    ⟨Template.exists_is_valid, fun p n h => ?_⟩, fun libs read time line request hline htext => ?_⟩
  · by_cases hnone : ∀ p n, ¬OverlongAt limits text p n
    · exact .inl (is_template_error_of_parse_all hnone h)
    · exact .inr (by simpa using hnone)
  · exact Template.is_valid_of_digit_limit (Template.parse_eq_error_iff.2 h.parse_all_eq)
  · subst htext
    refine ⟨fun e h hnone => ?_, fun p n h => ?_⟩
    · exact run_of_error hline
        (is_template_error_of_parse_all hnone (Template.parse_eq_error_iff.1 h)) h
    · exact run_of_digit_limit hline (Template.parse_eq_error_iff.2 h.parse_all_eq)

/-- An opening brace alone is a fault that the check and the commands report. -/
theorem only_overlong_escapes_unclosed :
    Template.isValid Limits.standard "\x7b" = .ok false ∧
    Request.ofLine ["validate", "\x7b"] = .ok ⟨.normal, .validate "\x7b"⟩ ∧
    ∃ outcome, run .standard (fun _ => .error .missing) [] ["validate", "\x7b"] = .ok outcome ∧
      outcome.status = 1 ∧ outcome.failure? = some (.template (.malformed (.unclosed 0))) := by
  have hparse : Template.parse Limits.standard "\x7b" = .error (.malformed (.unclosed 0)) := by
    decide +kernel
  have hnone : ∀ p n, ¬OverlongAt Limits.standard "\x7b" p n := fun p n h => by
    have herror := Template.parse_eq_error_iff.2 h.parse_all_eq
    exact absurd (hparse.symm.trans herror) (by simp)
  have hline : Request.ofLine ["validate", "\x7b"] = .ok ⟨.normal, .validate "\x7b"⟩ :=
    Request.of_line_validate (c := '\x7b') rfl (by decide)
  obtain ⟨_, _, hreports⟩ := only_overlong_escapes Limits.standard "\x7b"
  obtain ⟨_, hrun⟩ :=
    (hreports .standard (fun _ => .error .missing) [] _ _ hline rfl).1 _ hparse hnone
  exact ⟨Template.is_valid_of_error rfl hparse, hline, _, hrun, rfl, rfl⟩

/-- A name and a prefix length of 4301 digits. -/
def overlongEntry : Text :=
  "x" ++ CodePoint.ofChar ':' :: List.replicate 4301 (CodePoint.ofChar '1')

/-- The entry is made of a letter, a colon and ones. -/
theorem mem_overlong_entry {c : CodePoint} (h : c ∈ overlongEntry) :
    c = CodePoint.ofChar 'x' ∨ c = CodePoint.ofChar ':' ∨ c = CodePoint.ofChar '1' := by
  rcases List.mem_cons.1 h with h | h
  · exact .inl h
  · exact .inr ((List.mem_cons.1 h).imp_right List.eq_of_mem_replicate)

/-- The entry asks for a length of 4301 digits. -/
theorem overlong_overlong_entry : Overlong overlongEntry 4301 := by
  have htrimmed : Text.Trimmed overlongEntry := by
    refine ⟨fun c hc => ?_, fun c hc => ?_⟩
    · rcases mem_overlong_entry (List.mem_of_head? hc) with rfl | rfl | rfl <;> rfl
    · rcases mem_overlong_entry (List.mem_of_getLast? hc) with rfl | rfl | rfl <;> rfl
  refine ⟨"x", List.replicate 4301 (CodePoint.ofChar '1'), by decide +kernel, fun c hc => ?_,
    List.length_replicate, by decide, htrimmed.trim_eq⟩
  rw [List.eq_of_mem_replicate hc]
  rfl

/-- In braces, the entry is the overlong one of a template. -/
theorem overlong_at_braced_overlong_entry (limits : Limits) :
    OverlongAt limits (Text.braced overlongEntry) 0 4301 := by
  have hcomma : CodePoint.ofChar ',' ∉ overlongEntry := fun h => by
    rcases mem_overlong_entry h with h | h | h <;> exact absurd h (by decide)
  have hsplit := Text.split_on_of_not_mem hcomma
  have hfree : Text.BraceFree overlongEntry := fun c hc => by
    rcases mem_overlong_entry hc with rfl | rfl | rfl <;> rfl
  have hoperator : parseOperator overlongEntry = .ok (.simple, overlongEntry) :=
    parse_operator_simple (by decide) (by decide)
  refine ⟨⟨_, parse_from_nil⟩, Text.not_ends_in_backslash_nil, overlongEntry, [], by simp, hfree,
    .simple, overlongEntry, [], overlongEntry, [], hoperator, hsplit, fun t ht => ?_, by simp,
    overlong_overlong_entry⟩
  rw [hsplit, List.mem_singleton] at ht
  obtain ⟨name, digits, _, _, _, _, htrim⟩ := overlong_overlong_entry
  rw [ht, htrim]
  simp

/-- The expression with a prefix length of 4301 digits is no template, and its error is none of the
template: the check of the text does not tell, and the command that checks it does not end. -/
theorem overlong_length_escapes :
    (∃ e, parseAll Limits.standard (Text.braced overlongEntry) = .error e ∧
      e.isTemplateError = false) ∧
    (∀ valid, Template.isValid Limits.standard (Text.braced overlongEntry) ≠ .ok valid) ∧
    ∀ libs read time outcome,
      run libs read time ["validate", Text.braced overlongEntry] ≠ .ok outcome := by
  have hat := overlong_at_braced_overlong_entry Limits.standard
  have hparse := Template.parse_eq_error_iff.2 hat.parse_all_eq
  have hline : Request.ofLine ["validate", Text.braced overlongEntry] =
      .ok ⟨.normal, .validate (Text.braced overlongEntry)⟩ :=
    Request.of_line_validate (c := '\x7b') rfl (by decide)
  refine ⟨⟨_, hat.parse_all_eq, rfl⟩, fun valid h => ?_, fun libs read time outcome h => ?_⟩
  · exact absurd ((Template.is_valid_of_digit_limit hparse).symm.trans h) (by simp)
  · exact absurd ((run_of_digit_limit hline hparse).symm.trans h) (by simp)

end Command

end UriTemplate
