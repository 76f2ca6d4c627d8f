import UriTemplate.Proofs.Component.Scan

/-!
# The grammar of templates

A template is a sequence of pieces, each a literal run or an expression in braces. `IsCut` says
which sequences of pieces cut a text, without reference to the scan, and `IsCut.unique` that a text
has at most one cut. `Component.exists_cut` and `IsCut.parse_from_eq` relate the cut to the scan:
the texts that parse are those that have a cut, and each piece gives one component.
-/

namespace UriTemplate

open Text Component

/-- `Text.Escaped t` says that every brace in `t` is directly preceded in `t` by a backslash. -/
def Text.Escaped (t : Text) : Prop :=
  ∀ before c after, t = before ++ c :: after → c.isBrace = true → EndsInBackslash before

/-- A piece of a template: a literal run, or an expression given by the text between its braces. -/
inductive Piece where
  | run (text : Text)
  | expression (content : Text)

namespace Piece

/-- `p.text` is the text that the piece `p` covers. -/
def text : Piece → Text
  | run t => t
  | expression content => braced content

/-- `p.Valid limits` says that the piece `p` may stand in a template: a run is not empty and has
its braces escaped, an expression holds no brace and can be read. -/
def Valid (limits : Limits) : Piece → Prop
  | run t => t ≠ [] ∧ Escaped t
  | expression content => BraceFree content ∧ ∃ e, Expression.parse limits content = .ok e

/-- `p.MayPrecede q` says that `q` may directly follow `p`: no run follows a run, and no expression
follows a run that ends in a backslash. -/
def MayPrecede : Piece → Piece → Prop
  | run _, run _ => False
  | run t, expression _ => ¬EndsInBackslash t
  | expression _, _ => True

/-- `p.Reads limits c` says that the piece `p` stands for the component `c`. -/
inductive Reads (limits : Limits) : Piece → Component → Prop where
  | run (t) : Reads limits (.run t) (.literal t)
  | expression (content e) : Expression.parse limits content = .ok e →
      Reads limits (.expression content) (.expression e)

end Piece

/-- `IsCut limits text pieces` says that the pieces cut the template `text`. -/
structure IsCut (limits : Limits) (text : Text) (pieces : List Piece) : Prop where
  whole : pieces.flatMap Piece.text = text
  valid : ∀ p ∈ pieces, p.Valid limits
  adjacent : pieces.IsChain Piece.MayPrecede

variable {limits : Limits} {text run content : Text} {pieces : List Piece}

/-! ## Escaped runs -/

/-- In an empty run nothing has to be escaped. -/
theorem Text.escaped_nil : Escaped (List.reverse []) := by simp [Escaped]

/-- What follows the start of an escaped run joins it. -/
theorem Text.Escaped.joins {before after : Text} {c : CodePoint}
    (h : Escaped (before ++ c :: after)) : Joins before.reverse c := by
  cases hc : c.isBrace with
  | false => exact .inl hc
  | true => exact .inr (by simpa using h before c after rfl hc)

/-- An escaped run stays one when a code point joins it. -/
theorem Text.Escaped.cons_reverse {c : CodePoint} (h : Escaped run.reverse) (hc : Joins run c) :
    Escaped (c :: run).reverse := by
  intro before d after hsplit hd
  rw [List.reverse_cons] at hsplit
  -- The brace is the code point that joins, or it lies in the run as it was.
  rcases List.eq_nil_or_concat after with rfl | ⟨inner, last, rfl⟩
  · obtain ⟨rfl, hlast⟩ := List.append_inj' hsplit rfl
    obtain rfl : c = d := by simpa using hlast
    exact hc.resolve_left (by simp [hd])
  · rw [List.concat_eq_append, ← List.cons_append, ← List.append_assoc] at hsplit
    exact h before d inner (List.append_inj' hsplit rfl).1 hd

/-- The scan takes up an escaped run as a whole. -/
theorem Component.parse_from_run {position : Nat} {t : Text} (h : Escaped (run.reverse ++ t))
    (more : Text) :
    parseFrom limits position run (t ++ more) =
      parseFrom limits (position + t.length) (t.reverse ++ run) more := by
  induction t generalizing position run with
  | nil => rfl
  | cons c rest ih =>
      have hjoins : Joins run c := by simpa using h.joins
      have hrest : Escaped ((c :: run).reverse ++ rest) := by simpa using h
      have hposition : position + 1 + rest.length = position + (c :: rest).length := by
        simp only [List.length_cons]
        omega
      rw [List.cons_append, parse_from_join hjoins, ih hrest, hposition]
      simp

/-! ## Building and taking apart a cut -/

/-- The empty template has the empty cut. -/
theorem is_cut_nil : IsCut limits [] [] := ⟨rfl, by simp, .nil⟩

/-- A cut stays one without its first piece. -/
theorem IsCut.tail {p : Piece} (h : IsCut limits text (p :: pieces)) :
    IsCut limits (pieces.flatMap Piece.text) pieces :=
  ⟨rfl, fun q hq => h.valid q (by simp [hq]), h.adjacent.of_cons⟩

/-- An expression may stand in front of any cut. -/
theorem IsCut.cons_expression (h : IsCut limits text pieces)
    (hcontent : (Piece.expression content).Valid limits) :
    IsCut limits (braced content ++ text) (.expression content :: pieces) := by
  refine ⟨by simp [Piece.text, h.whole], by simpa [hcontent] using h.valid, ?_⟩
  cases pieces with
  | nil => exact .singleton _
  | cons p rest => exact .cons_cons trivial h.adjacent

/-- The run that `run` holds in reverse may stand in front of an expression that it does not
escape. -/
theorem IsCut.cons_runs (h : IsCut limits text (.expression content :: pieces))
    (hrun : Escaped run.reverse) (hbare : ¬EndsInBackslash run.reverse) (hne : run ≠ []) :
    IsCut limits (run.reverse ++ text) (.run run.reverse :: .expression content :: pieces) := by
  refine ⟨by simp [Piece.text, ← h.whole], ?_, .cons_cons hbare h.adjacent⟩
  have hvalid : (Piece.run run.reverse).Valid limits := ⟨by simpa using hne, hrun⟩
  simpa [hvalid] using h.valid

/-- What follows a run of a cut does not join it. -/
theorem IsCut.not_joins {t : Text} (h : IsCut limits text (.run t :: pieces)) :
    ∀ c ∈ (pieces.flatMap Piece.text).head?, ¬Joins t.reverse c := by
  cases pieces with
  | nil => simp
  | cons p rest =>
      cases p with
      | run u => exact h.adjacent.rel.elim
      | expression content =>
          have hbare : ¬EndsInBackslash t := h.adjacent.rel
          simpa [Piece.text, braced, Joins] using hbare

/-! ## The scan and the cut -/

/-- Where the scan succeeds, the run and the text after it have a cut, and its pieces stand for the
components in order. -/
theorem Component.exists_cut_of_parse_from {position : Nat} {components : List Component}
    (hrun : Escaped run.reverse) (h : parseFrom limits position run text = .ok components) :
    ∃ pieces, IsCut limits (run.reverse ++ text) pieces ∧
      List.Forall₂ (Piece.Reads limits) pieces components := by
  induction run, text using scan_induction generalizing position components with
  | done run =>
      rw [parse_from_nil, Except.ok.injEq] at h
      subst h
      by_cases hne : run = []
      · subst hne
        exact ⟨[], is_cut_nil, .nil⟩
      · have hvalid : (Piece.run run.reverse).Valid limits := ⟨by simpa using hne, hrun⟩
        have hcut : IsCut limits run.reverse [.run run.reverse] :=
          ⟨by simp [Piece.text], by simpa using hvalid, .singleton _⟩
        refine ⟨[.run run.reverse], by simpa using hcut, ?_⟩
        simpa [literals, hne] using Piece.Reads.run run.reverse
  | join run c rest hjoins ih =>
      rw [parse_from_join hjoins] at h
      simpa using ih (hrun.cons_reverse hjoins) h
  | closing run rest hbare => simp [parse_from_closing hbare] at h
  | unclosed run rest hbare hfree => simp [parse_from_unclosed hbare hfree] at h
  | nested run content rest hbare hfree =>
      rw [parse_from_nested hbare hfree] at h
      exact absurd h (by simp)
  | expression run content rest hbare hfree ih =>
      rw [parse_from_expression hbare hfree, bind_eq_ok_iff] at h
      obtain ⟨e, he, h⟩ := h
      obtain ⟨following, hfollowing, h⟩ := bind_eq_ok_iff.1 h
      rw [pure_eq_ok, Except.ok.injEq] at h
      subst h
      obtain ⟨pieces, hcut, hreads⟩ := ih escaped_nil hfollowing
      -- The run is a piece of its own unless it is empty.
      have hexpression := hcut.cons_expression ⟨hfree, e, he⟩
      have hread : List.Forall₂ (Piece.Reads limits) (.expression content :: pieces)
          (.expression e :: following) := .cons (.expression content e he) hreads
      by_cases hne : run = []
      · subst hne
        exact ⟨_, hexpression, hread⟩
      · refine ⟨_, hexpression.cons_runs hrun hbare hne, ?_⟩
        simpa [literals, hne] using List.Forall₂.cons (.run run.reverse) hread

/-- A text that parses has a cut, and its pieces stand for the components in order. -/
theorem Component.exists_cut {components : List Component}
    (h : parseAll limits text = .ok components) :
    ∃ pieces, IsCut limits text pieces ∧
      List.Forall₂ (Piece.Reads limits) pieces components :=
  exists_cut_of_parse_from escaped_nil h

/-- A text that has a cut parses, and its components are those for which the pieces stand. -/
theorem IsCut.parse_from_eq {components : List Component} (h : IsCut limits text pieces)
    (hreads : List.Forall₂ (Piece.Reads limits) pieces components) (position : Nat) :
    parseFrom limits position [] text = .ok components := by
  have hempty : ¬EndsInBackslash (List.reverse []) := not_ends_in_backslash_nil
  induction hreads generalizing text position with
  | nil =>
      rw [← h.whole]
      exact parse_from_nil
  | @cons p c pieces components hread _ ih =>
      rw [← h.whole, List.flatMap_cons]
      cases hread with
      | run t =>
          obtain ⟨hne, hescaped⟩ := h.valid (.run t) (by simp)
          have hrest := ih h.tail (position + t.length)
          rw [Piece.text, parse_from_run (by simpa using hescaped), List.append_nil,
            parse_from_flush h.not_joins, hrest]
          simp [literals, hne]
      | expression content e he =>
          obtain ⟨hfree, _⟩ := h.valid (.expression content) (by simp)
          rw [Piece.text, parse_from_expression hempty hfree, he, ok_bind, ih h.tail]
          simp [literals]

/-- The pieces of a cut stand for some components. -/
theorem IsCut.exists_reads (h : IsCut limits text pieces) :
    ∃ components, List.Forall₂ (Piece.Reads limits) pieces components := by
  induction pieces generalizing text with
  | nil => exact ⟨[], .nil⟩
  | cons p rest ih =>
      obtain ⟨components, hreads⟩ := ih h.tail
      have hvalid := h.valid p (by simp)
      cases p with
      | run t => exact ⟨.literal t :: components, .cons (.run t) hreads⟩
      | expression content =>
          obtain ⟨_, e, he⟩ := hvalid
          exact ⟨.expression e :: components, .cons (.expression content e he) hreads⟩

/-! ## A text has at most one cut -/

/-- No piece is empty. -/
theorem IsCut.ne_nil {p : Piece} (h : IsCut limits text (p :: pieces)) : text ≠ [] := by
  have hp := h.valid p (by simp)
  rw [← h.whole]
  cases p with
  | run t =>
      have hne : t ≠ [] := hp.1
      simp [Piece.text, hne]
  | expression content => simp [Piece.text, braced]

/-- Of two runs that start the same text the first is not the shorter one. -/
theorem IsCut.run_not_shorter {t more after : Text} (h : IsCut limits text (.run t :: pieces))
    (hescaped : Escaped (t ++ more)) (hrest : pieces.flatMap Piece.text = more ++ after) :
    more = [] := by
  cases more with
  | nil => rfl
  | cons c rest => exact absurd hescaped.joins (h.not_joins c (by simp [hrest]))

/-- No text starts both with a run and with an expression. -/
theorem IsCut.run_or_expression {t : Text} {others : List Piece}
    (h : IsCut limits text (.run t :: pieces)) :
    ¬IsCut limits text (.expression content :: others) := by
  intro hother
  obtain ⟨hne, hescaped⟩ := h.valid (.run t) (by simp)
  have hwhole := h.whole.trans hother.whole.symm
  cases t with
  | nil => exact hne rfl
  | cons c rest =>
      have hc : c = CodePoint.ofChar '{' := by
        simp only [List.flatMap_cons, Piece.text, braced, List.cons_append, List.cons.injEq]
          at hwhole
        exact hwhole.1
      subst hc
      have hjoins : Joins (List.reverse []) (CodePoint.ofChar '{') := hescaped.joins
      exact not_ends_in_backslash_nil (hjoins.resolve_left (by simp))

/-- Expressions that start the same text have the same content. -/
theorem braced_append_inj {other more more' : Text} (hfree : BraceFree content)
    (hother : BraceFree other) (h : braced content ++ more = braced other ++ more') :
    content = other := by
  have hrest : content ++ CodePoint.ofChar '}' :: more =
      other ++ CodePoint.ofChar '}' :: more' := by
    simpa [braced_append] using h
  have huntil := until_brace_append hfree CodePoint.is_brace_closing more
  rw [hrest, until_brace_append hother CodePoint.is_brace_closing] at huntil
  exact (Prod.mk.inj huntil).1.symm

/-- Two cuts of the same text have the same first piece. -/
theorem IsCut.head_unique {p q : Piece} {others : List Piece}
    (h : IsCut limits text (p :: pieces)) (hother : IsCut limits text (q :: others)) : p = q := by
  have hwhole := h.whole.trans hother.whole.symm
  have hp := h.valid p (by simp)
  have hq := hother.valid q (by simp)
  cases p with
  | run t =>
      cases q with
      | run u =>
          -- One run continues the other. Neither leaves out what would join it.
          rcases List.append_eq_append_iff.1 hwhole with ⟨more, rfl, hrest⟩ | ⟨more, rfl, hrest⟩
          · rw [h.run_not_shorter hq.2 hrest, List.append_nil]
            rfl
          · rw [hother.run_not_shorter hp.2 hrest, List.append_nil]
            rfl
      | expression content => exact absurd hother h.run_or_expression
  | expression content =>
      cases q with
      | run u => exact absurd h hother.run_or_expression
      | expression other => rw [braced_append_inj hp.1 hq.1 hwhole]

/-- A text has at most one cut. -/
theorem IsCut.unique {others : List Piece} (h : IsCut limits text pieces)
    (hother : IsCut limits text others) : pieces = others := by
  induction pieces generalizing text others with
  | nil =>
      cases others with
      | nil => rfl
      | cons q others => exact absurd h.whole.symm hother.ne_nil
  | cons p pieces ih =>
      cases others with
      | nil => exact absurd hother.whole.symm h.ne_nil
      | cons q others =>
          obtain rfl := h.head_unique hother
          have hrest : pieces.flatMap Piece.text = others.flatMap Piece.text := by
            simpa using h.whole.trans hother.whole.symm
          rw [ih h.tail (hrest ▸ hother.tail)]

/-- The templates are the texts that have a cut. A text has at most one, its pieces stand for the
components in order, and one after the other they are the text. -/
theorem parse_all_accepts_cuts (limits : Limits) (text : Text) :
    ((∃ components, parseAll limits text = .ok components) ↔
        ∃ pieces, IsCut limits text pieces) ∧
      (∀ pieces others, IsCut limits text pieces → IsCut limits text others →
        pieces = others) ∧
      ∀ components pieces, parseAll limits text = .ok components → IsCut limits text pieces →
        List.Forall₂ (Piece.Reads limits) pieces components ∧
          pieces.flatMap Piece.text = text := by
  refine ⟨⟨?_, ?_⟩, fun _ _ => IsCut.unique, ?_⟩
  · rintro ⟨components, h⟩
    obtain ⟨pieces, hcut, _⟩ := exists_cut h
    exact ⟨pieces, hcut⟩
  · rintro ⟨pieces, hcut⟩
    obtain ⟨components, hreads⟩ := hcut.exists_reads
    exact ⟨components, hcut.parse_from_eq hreads 0⟩
  · intro components pieces h hcut
    obtain ⟨others, hother, hreads⟩ := exists_cut h
    obtain rfl := hcut.unique hother
    exact ⟨hreads, hcut.whole⟩

/-- A backslash escapes also after another one, and an escaped brace leaves the next one bare. -/
example : parseAll Limits.standard "\\\\\x7b\x7bx*\x7d" =
    .ok [.literal "\\\\\x7b", .expression ⟨.simple, [⟨"x", some .explode⟩]⟩] := by
  decide +kernel

end UriTemplate
