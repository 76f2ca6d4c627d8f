import UriTemplate.Proofs.Component.Scan

/-!
# Where a template is at fault

`FaultAt limits text p e` says that the part of `text` before its position `p` is a template and
that the brace at `p` makes the error `e`, without reference to the scan. A text that does not
parse is at fault at exactly one position, and its error is the one that belongs to the position.
-/

namespace UriTemplate

open Text Component

/-- `Fault limits p rest e` says that `rest`, which starts with a brace that is not escaped, makes
the error `e` when it stands at the position `p` of a template. -/
inductive Fault (limits : Limits) (p : Nat) : Text → ParseError → Prop where
  | closing (rest) : Fault limits p (CodePoint.ofChar '}' :: rest)
      (.unexpectedCharacter (CodePoint.ofChar '}') p)
  | nested (content rest) : BraceFree content →
      Fault limits p (CodePoint.ofChar '{' :: content ++ CodePoint.ofChar '{' :: rest)
        (.malformed (.nestedBrace (p + 1 + content.length)))
  | unclosed (rest) : BraceFree rest →
      Fault limits p (CodePoint.ofChar '{' :: rest) (.malformed (.unclosed p))
  | content (content rest e) : BraceFree content → Expression.parse limits content = .error e →
      Fault limits p (braced content ++ rest) e

/-- `FaultAt limits text p e` says that `text` is at fault at its position `p`: what stands before
`p` is a template and does not escape the brace at `p`, which makes the error `e`. -/
structure FaultAt (limits : Limits) (text : Text) (p : Nat) (e : ParseError) : Prop where
  parses : ∃ components, parseAll limits (text.take p) = .ok components
  bare : ¬EndsInBackslash (text.take p)
  fault : Fault limits p (text.drop p) e

variable {limits : Limits} {p q : Nat} {text run rest : Text} {e d : ParseError}

/-- The scan stops at a fault. -/
theorem Fault.parse_from_eq (h : Fault limits p rest e) (hbare : ¬EndsInBackslash run.reverse) :
    parseFrom limits p run rest = .error e := by
  cases h with
  | closing => exact parse_from_closing hbare
  | nested content rest hfree => exact parse_from_nested hbare hfree
  | unclosed rest hfree => exact parse_from_unclosed hbare hfree
  | content content rest e hfree he => rw [parse_from_expression hbare hfree, he, error_bind]

/-- Where the scan fails, it has read a template up to a fault. -/
theorem Component.exists_fault (h : parseFrom limits p run text = .error e) :
    ∃ before rest, text = before ++ rest ∧
      (∃ components, parseFrom limits p run before = .ok components) ∧
      ¬EndsInBackslash (run.reverse ++ before) ∧ Fault limits (p + before.length) rest e := by
  induction run, text using scan_induction generalizing p with
  | done run => simp [parse_from_nil] at h
  | join run c rest hjoins ih =>
      rw [parse_from_join hjoins] at h
      obtain ⟨before, rest, rfl, ⟨components, hbefore⟩, hbare, hfault⟩ := ih h
      refine ⟨c :: before, rest, rfl, ⟨components, ?_⟩, by simpa using hbare, ?_⟩
      · rw [parse_from_join hjoins, hbefore]
      · have hposition : p + (c :: before).length = p + 1 + before.length := by
          simp only [List.length_cons]
          omega
        rwa [hposition]
  | closing run rest hbare =>
      rw [parse_from_closing hbare, Except.error.injEq] at h
      subst h
      exact ⟨[], _, rfl, ⟨_, parse_from_nil⟩, by simpa using hbare, .closing rest⟩
  | unclosed run rest hbare hfree =>
      rw [parse_from_unclosed hbare hfree, Except.error.injEq] at h
      subst h
      exact ⟨[], _, rfl, ⟨_, parse_from_nil⟩, by simpa using hbare, .unclosed rest hfree⟩
  | nested run content rest hbare hfree =>
      rw [parse_from_nested hbare hfree, Except.error.injEq] at h
      subst h
      exact ⟨[], _, rfl, ⟨_, parse_from_nil⟩, by simpa using hbare, .nested content rest hfree⟩
  | expression run content rest hbare hfree ih =>
      rw [parse_from_expression hbare hfree, bind_eq_error_iff] at h
      rcases h with herror | ⟨x, hx, h⟩
      · exact ⟨[], _, rfl, ⟨_, parse_from_nil⟩, by simpa using hbare,
          .content content rest e hfree herror⟩
      · -- The expression is read, so the fault lies after it.
        have hrest := (bind_eq_error_iff.1 h).resolve_right (by simp)
        obtain ⟨before, rest, rfl, ⟨components, hbefore⟩, hend, hfault⟩ := ih hrest
        refine ⟨braced content ++ before, rest, by simp,
          ⟨literals run ++ .expression x :: components, ?_⟩, ?_, ?_⟩
        · rw [parse_from_expression hbare hfree, hx, ok_bind, hbefore, ok_bind, pure_eq_ok]
        · rw [ends_in_backslash_append_braced]
          simpa using hend
        · have hposition : p + (braced content ++ before).length =
              p + content.length + 2 + before.length := by
            rw [length_braced_append]
            omega
          rwa [hposition]

/-- At a fault there is something left to read. -/
theorem Fault.ne_nil (h : Fault limits p rest e) : rest ≠ [] := by
  cases h <;> simp [braced]

/-- A position at fault is one of the text. -/
theorem FaultAt.lt_length (h : FaultAt limits text p e) : p < text.length := by
  have hpos := List.length_pos_of_ne_nil h.fault.ne_nil
  rw [List.length_drop] at hpos
  omega

/-- A text at fault does not parse, and the fault makes the error. -/
theorem FaultAt.parse_all_eq (h : FaultAt limits text p e) : parseAll limits text = .error e := by
  obtain ⟨components, hparses⟩ := h.parses
  obtain ⟨parsed, last, _, hlast, happend⟩ := parse_from_append hparses
  have hbare : ¬EndsInBackslash last.reverse := by simpa [hlast] using h.bare
  have hposition : 0 + (text.take p).length = p := by
    have hlt := h.lt_length
    rw [List.length_take]
    omega
  have hwhole := happend (text.drop p)
  rw [List.take_append_drop, hposition, h.fault.parse_from_eq hbare, map_error] at hwhole
  exact hwhole

/-! ## There is one position at fault -/

/-- Cut after its opening brace, an expression is unclosed, or goes on as it did. -/
theorem take_opened (content rest : Text) (c : CodePoint) (n : Nat) :
    (CodePoint.ofChar '{' :: content ++ c :: rest).take (n + 1) =
        CodePoint.ofChar '{' :: content.take n ∨
      ∃ m, (CodePoint.ofChar '{' :: content ++ c :: rest).take (n + 1) =
        CodePoint.ofChar '{' :: content ++ c :: rest.take m := by
  by_cases hn : n ≤ content.length
  · left
    rw [List.cons_append, List.take_succ_cons, List.take_append_of_le_length hn]
  · right
    obtain ⟨m, rfl⟩ : ∃ m, n = content.length + (m + 1) := ⟨n - content.length - 1, by omega⟩
    refine ⟨m, ?_⟩
    rw [List.cons_append, List.take_succ_cons, List.take_length_add_append, List.take_succ_cons,
      List.cons_append]

/-- The front of a text without braces has none. -/
theorem Text.BraceFree.take {t : Text} (h : BraceFree t) (n : Nat) : BraceFree (t.take n) :=
  fun c hc => h c (List.mem_of_mem_take hc)

/-- A fault remains one where the text is cut after its brace. -/
theorem Fault.take (h : Fault limits p rest e) (n : Nat) :
    ∃ d, Fault limits p (rest.take (n + 1)) d := by
  cases h with
  | closing rest => exact ⟨_, .closing (rest.take n)⟩
  | unclosed rest hfree => exact ⟨_, .unclosed (rest.take n) (hfree.take n)⟩
  | nested content rest hfree =>
      rcases take_opened content rest (CodePoint.ofChar '{') n with hcut | ⟨m, hcut⟩
      · rw [hcut]
        exact ⟨_, .unclosed _ (hfree.take n)⟩
      · rw [hcut]
        exact ⟨_, .nested content (rest.take m) hfree⟩
  | content content rest e hfree he =>
      rcases take_opened content rest (CodePoint.ofChar '}') n with hcut | ⟨m, hcut⟩
      · rw [braced_append, hcut]
        exact ⟨_, .unclosed _ (hfree.take n)⟩
      · rw [braced_append, hcut, ← braced_append]
        exact ⟨e, .content content (rest.take m) e hfree he⟩

/-- A text at fault at one position is not a template up to any position after it. -/
theorem FaultAt.not_lt (h : FaultAt limits text p e) (hq : FaultAt limits text q d) : ¬p < q := by
  intro hlt
  obtain ⟨components, hparses⟩ := hq.parses
  obtain ⟨n, rfl⟩ : ∃ n, q = p + (n + 1) := ⟨q - p - 1, by omega⟩
  obtain ⟨d', hfault⟩ := h.fault.take n
  have htake : (text.take (p + (n + 1))).take p = text.take p := by
    rw [List.take_take, Nat.min_eq_left (by omega)]
  have hdrop : (text.take (p + (n + 1))).drop p = (text.drop p).take (n + 1) := by
    rw [List.drop_take]
    congr 1
    omega
  -- The text up to the later position contains the brace at `p`, and is at fault there.
  have hcut : FaultAt limits (text.take (p + (n + 1))) p d' :=
    ⟨htake ▸ h.parses, htake ▸ h.bare, hdrop ▸ hfault⟩
  rw [hcut.parse_all_eq] at hparses
  exact absurd hparses (by simp)

/-- A text is at fault at one position at most. -/
theorem FaultAt.unique (h : FaultAt limits text p e) (hq : FaultAt limits text q d) :
    p = q := by
  have hpq := h.not_lt hq
  have hqp := hq.not_lt h
  omega

/-- A text that does not parse is at fault somewhere. -/
theorem Component.exists_fault_at (h : parseAll limits text = .error e) :
    ∃ p, FaultAt limits text p e := by
  obtain ⟨before, rest, rfl, hparses, hbare, hfault⟩ := exists_fault h
  rw [Nat.zero_add] at hfault
  exact ⟨before.length, by simpa [parseAll] using hparses, by simpa using hbare,
    by simpa using hfault⟩

/-- A text that does not parse is at fault at exactly one position, and the fault there makes the
error. Conversely a text at fault does not parse. -/
theorem parse_all_error_iff_fault (limits : Limits) (text : Text) (e : ParseError) :
    (parseAll limits text = .error e → ∃! p, FaultAt limits text p e) ∧
      ∀ p, FaultAt limits text p e → parseAll limits text = .error e := by
  refine ⟨fun h => ?_, fun p h => h.parse_all_eq⟩
  obtain ⟨p, hat⟩ := exists_fault_at h
  exact ⟨p, hat, fun q hq => hq.unique hat⟩

/-- The first fault wins: the brace that closes nothing comes before the name that is none. -/
example : parseAll Limits.standard "\x7bx\x7d\x7d\x7b-\x7d" =
    .error (.unexpectedCharacter '}' 3) := by
  decide +kernel

end UriTemplate
