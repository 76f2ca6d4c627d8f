import UriTemplate.Proofs.Component.Content
import UriTemplate.Proofs.Component.Fault
import UriTemplate.Template

/-!
# Lengths of too many digits

A text that does not parse is at fault as a template, with one exception: `OverlongAt` says that the
first fault of the text is a prefix length of more digits than may be read, in a reference that is
otherwise sound. This is the only way to an error that is none of the template
(`parse_all_eq_digit_limit_iff`).
-/

namespace UriTemplate

open Text Component

/-- `Overlong entry n` says that the entry is a name, a colon and `n` digits, which are more than
may be read. -/
def Overlong (entry : Text) (n : Nat) : Prop :=
  ∃ name digits, Name.isName name = true ∧ (∀ c ∈ digits, c.isDigit = true) ∧
    digits.length = n ∧ Decimal.digitLimit < n ∧
    entry.trim = name ++ CodePoint.ofChar ':' :: digits

/-- `OverlongIn limits content n` says that no entry of an expression is empty and that the first
one at fault is overlong. -/
def OverlongIn (limits : Limits) (content : Text) (n : Nat) : Prop :=
  ∃ op list before entry after, parseOperator content = .ok (op, list) ∧
    splitOn ',' list = before ++ entry :: after ∧ (∀ t ∈ splitOn ',' list, t.trim ≠ []) ∧
    (∀ t ∈ before, ∃ s, VariableSpec.parse limits t = .ok s) ∧ Overlong entry n

/-- `OverlongAt limits text p n` says that the template before the position `p` of the text goes on
with an expression that is at fault in an overlong entry. -/
structure OverlongAt (limits : Limits) (text : Text) (p n : Nat) : Prop where
  parses : ∃ components, parseAll limits (text.take p) = .ok components
  bare : ¬EndsInBackslash (text.take p)
  overlong : ∃ content rest, text.drop p = braced content ++ rest ∧ BraceFree content ∧
    OverlongIn limits content n

variable {limits : Limits} {t entry list content text : Text} {e : ParseError}
  {d : Decimal.LimitError} {p n : Nat}

/-! ## One reference -/

/-- A name fails only with an error of templates. -/
theorem is_template_error_of_parse_name (h : parseName t = .error e) :
    e.isTemplateError = true := by
  unfold parseName at h
  split at h
  · exact absurd h (by simp)
  · cases h
    rfl

/-- A length meets the limit of digits exactly if it is more digits than that. -/
theorem parse_length_eq_digit_limit_iff : parseLength limits t = .error (.digitLimit d) ↔
    (∀ c ∈ t, c.isDigit = true) ∧ Decimal.digitLimit < t.length ∧ d = .reading t.length := by
  unfold parseLength
  split
  · next hdigits =>
      refine iff_of_false (by simp) ?_
      rintro ⟨hall, hlimit, _⟩
      have hne : t ≠ [] := by
        rintro rfl
        exact absurd hlimit (by simp)
      simp [hne, List.all_eq_true.2 hall] at hdigits
  · next hdigits =>
      have hall : ∀ c ∈ t, c.isDigit = true := by
        simp only [Bool.or_eq_true, Bool.not_eq_true', not_or, Bool.not_eq_false,
          List.all_eq_true] at hdigits
        exact hdigits.2
      by_cases hlimit : Decimal.digitLimit < t.length
      · have hread : Decimal.ofDigits? t = .error (.reading t.length) := by
          rw [Decimal.ofDigits?, if_pos hlimit]
        simp only [hread, hlimit, true_and, Except.error.injEq, ParseError.digitLimit.injEq]
        exact ⟨fun hd => ⟨hall, hd.symm⟩, fun hd => hd.2.symm⟩
      · by_cases haccepts : limits.accepts (Decimal.value t) = true <;>
          simp [Decimal.ofDigits?, hlimit, haccepts]

/-- Reading a reference fails with an error that is none of the template exactly where it is
overlong. -/
theorem VariableSpec.parse_eq_digit_limit_iff : parse limits entry = .error (.digitLimit d) ↔
    ∃ n, Overlong entry n ∧ d = .reading n := by
  have hname : ∀ name, parseName name ≠ .error (.digitLimit d) := fun name h =>
    absurd (is_template_error_of_parse_name h) (by simp [ParseError.isTemplateError])
  constructor
  · intro h
    simp only [parse] at h
    split at h
    · rcases bind_eq_error_iff.1 h with h | ⟨_, _, h⟩
      · exact absurd h (hname _)
      · exact absurd h (by simp)
    · split at h
      · next before after hsplit =>
          rcases bind_eq_error_iff.1 h with h | ⟨name, hbefore, h⟩
          · exact absurd h (hname _)
          · obtain ⟨hisName, rfl⟩ := parse_name_eq_ok_iff.1 hbefore
            have hlength := (bind_eq_error_iff.1 h).resolve_right (by simp)
            obtain ⟨hall, hlimit, hd⟩ := parse_length_eq_digit_limit_iff.1 hlength
            exact ⟨_, ⟨before, after, hisName, hall, rfl, hlimit, split_last_eq_some hsplit⟩, hd⟩
      · rcases bind_eq_error_iff.1 h with h | ⟨_, _, h⟩
        · exact absurd h (hname _)
        · exact absurd h (by simp)
  · rintro ⟨_, ⟨name, digits, hisName, hall, rfl, hlimit, hentry⟩, rfl⟩
    have hne : digits ≠ [] := by
      rintro rfl
      exact absurd hlimit (by simp)
    rw [parse_of_length hisName hne hall hentry,
      parse_length_eq_digit_limit_iff.2 ⟨hall, hlimit, rfl⟩]
    rfl

/-! ## An expression -/

/-- An operator fails only with an error of templates. -/
theorem is_template_error_of_parse_operator (h : parseOperator content = .error e) :
    e.isTemplateError = true := by
  unfold parseOperator at h
  split at h
  · cases h
    rfl
  · split at h
    · cases h
      rfl
    · split at h
      · exact absurd h (by simp)
      · split at h
        · cases h
          rfl
        · exact absurd h (by simp)

/-- Reading a list of entries fails with an error that is none of the template exactly where the
first entry at fault is overlong. -/
theorem parse_variables_eq_digit_limit_iff :
    parseVariables limits list = .error (.digitLimit d) ↔
      (∀ t ∈ splitOn ',' list, t.trim ≠ []) ∧
        ∃ before entry after, splitOn ',' list = before ++ entry :: after ∧
          (∀ t ∈ before, ∃ s, VariableSpec.parse limits t = .ok s) ∧
          ∃ n, Overlong entry n ∧ d = .reading n := by
  by_cases hblank : ∀ t ∈ splitOn ',' list, t.trim ≠ []
  · rw [and_iff_right hblank, parse_variables_of_forall hblank]
    simp only [mapm_eq_error_iff, VariableSpec.parse_eq_digit_limit_iff, Reaches]
  · refine iff_of_false (fun h => ?_) fun h => hblank h.1
    obtain ⟨t, ht, htrim⟩ : ∃ t ∈ splitOn ',' list, t.trim = [] := by simpa using hblank
    obtain ⟨m, hm⟩ := parse_variables_of_blank ht htrim
    exact absurd (hm.symm.trans h) (by simp)

/-- Reading an expression fails with an error that is none of the template exactly where its first
entry at fault is overlong. -/
theorem Expression.parse_eq_digit_limit_iff :
    Expression.parse limits content = .error (.digitLimit d) ↔
      ∃ n, OverlongIn limits content n ∧ d = .reading n := by
  constructor
  · intro h
    rcases bind_eq_error_iff.1 h with h | ⟨⟨op, list⟩, hoperator, h⟩
    · exact absurd (is_template_error_of_parse_operator h) (by simp [ParseError.isTemplateError])
    · have hlist := (bind_eq_error_iff.1 h).resolve_right (by simp)
      obtain ⟨hblank, before, entry, after, hsplit, hbefore, n, hentry, hd⟩ :=
        parse_variables_eq_digit_limit_iff.1 hlist
      exact ⟨n, ⟨op, list, before, entry, after, hoperator, hsplit, hblank, hbefore, hentry⟩, hd⟩
  · rintro ⟨n, ⟨op, list, before, entry, after, hoperator, hsplit, hblank, hbefore, hentry⟩, hd⟩
    have hlist : parseVariables limits list = .error (.digitLimit d) :=
      parse_variables_eq_digit_limit_iff.2
        ⟨hblank, before, entry, after, hsplit, hbefore, n, hentry, hd⟩
    simp only [Expression.parse, hoperator, ok_bind, hlist, error_bind]

/-! ## A template -/

/-- The fault of a template is the limit of digits exactly at an overlong expression. -/
theorem fault_at_digit_limit_iff : FaultAt limits text p (.digitLimit d) ↔
    ∃ n, OverlongAt limits text p n ∧ d = .reading n := by
  constructor
  · rintro ⟨hparses, hbare, hfault⟩
    generalize hrest : text.drop p = rest at hfault
    cases hfault with
    | content content rest _ hfree hcontent =>
        obtain ⟨n, hn, hd⟩ := Expression.parse_eq_digit_limit_iff.1 hcontent
        exact ⟨n, ⟨hparses, hbare, content, rest, hrest, hfree, hn⟩, hd⟩
  · rintro ⟨n, ⟨hparses, hbare, content, rest, hrest, hfree, hn⟩, hd⟩
    have hcontent := Expression.parse_eq_digit_limit_iff.2 ⟨n, hn, hd⟩
    exact ⟨hparses, hbare, hrest ▸ .content content rest _ hfree hcontent⟩

/-- A text fails to parse with an error that is none of the template exactly where its first fault
is an overlong entry. -/
theorem parse_all_eq_digit_limit_iff : parseAll limits text = .error (.digitLimit d) ↔
    ∃ p n, OverlongAt limits text p n ∧ d = .reading n := by
  constructor
  · intro h
    obtain ⟨p, hfault⟩ := exists_fault_at h
    exact ⟨p, fault_at_digit_limit_iff.1 hfault⟩
  · rintro ⟨p, hp⟩
    exact (fault_at_digit_limit_iff.2 hp).parse_all_eq

/-- A template fails as its components do. -/
theorem Template.parse_eq_error_iff : Template.parse limits text = .error e ↔
    parseAll limits text = .error e := by
  simp [Template.parse, bind_eq_error_iff]

/-- An overlong expression is the error of its template. -/
theorem OverlongAt.parse_all_eq (h : OverlongAt limits text p n) :
    parseAll limits text = .error (.digitLimit (.reading n)) :=
  parse_all_eq_digit_limit_iff.2 ⟨p, n, h, rfl⟩

/-- An error of a text that is nowhere overlong is one of the template. -/
theorem is_template_error_of_parse_all (hnone : ∀ p n, ¬OverlongAt limits text p n)
    (h : parseAll limits text = .error e) : e.isTemplateError = true := by
  cases e with
  | digitLimit d =>
      obtain ⟨p, n, hat, _⟩ := parse_all_eq_digit_limit_iff.1 h
      exact absurd hat (hnone p n)
  | _ => rfl

end UriTemplate
