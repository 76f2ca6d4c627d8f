import Mathlib.Data.List.Chain
import UriTemplate.Proofs.Component.Content
import UriTemplate.Proofs.Component.Cut

/-!
# Writing and reading back components

The component lists that templates give are the well-formed ones (`Component.WellFormedAll`). Such a
list is read back from its text, whose pieces are the literals and the contents of the expressions.
`Component.parse_all_inverse_source_all` says both. Of the names the ones that can stand alone in
braces are those without a full stop in front and without blanks at their ends
(`Component.parse_all_braced_name_iff`).
-/

namespace UriTemplate

open Text

namespace Component

/-- `c.Valid limits` says that the component `c` may stand in a template: a literal is not empty
and has its braces escaped, an expression is well formed. -/
def Valid (limits : Limits) : Component → Prop
  | literal t => t ≠ [] ∧ Escaped t
  | expression e => e.WellFormed limits

/-- `c.MayPrecede d` says that `d` may directly follow `c`: no literal follows a literal, and no
expression follows a literal that ends in a backslash. -/
def MayPrecede : Component → Component → Prop
  | literal _, literal _ => False
  | literal t, expression _ => ¬EndsInBackslash t
  | expression _, _ => True

/-- `WellFormedAll limits cs` says that each of the components `cs` may stand in a template, and
that each may follow the one before it. -/
structure WellFormedAll (limits : Limits) (cs : List Component) : Prop where
  valid : ∀ c ∈ cs, c.Valid limits
  adjacent : cs.IsChain MayPrecede

/-- `c.piece` is the piece of a template that writes the component `c`. -/
def piece : Component → Piece
  | literal t => .run t
  | expression e => .expression e.content

variable {limits : Limits} {c d : Component} {cs : List Component}

/-! ## From components to pieces -/

/-- The text of a piece is how the component is written. -/
theorem text_piece (c : Component) : c.piece.text = c.source := by
  cases c <;> rfl

/-- Components may follow one another exactly if their pieces may. -/
theorem may_precede_piece : c.piece.MayPrecede d.piece ↔ c.MayPrecede d := by
  cases c <;> cases d <;> rfl

/-- A well-formed component is read from its piece. -/
theorem Valid.reads (h : c.Valid limits) : Piece.Reads limits c.piece c := by
  cases c with
  | literal t => exact .run t
  | expression e => exact .expression _ e (Expression.WellFormed.parse_content h)

/-- The piece of a well-formed component is one of a cut. -/
theorem Valid.piece (h : c.Valid limits) : c.piece.Valid limits := by
  cases c with
  | literal t => exact h
  | expression e =>
      exact ⟨Expression.WellFormed.brace_free_content h, e, Expression.WellFormed.parse_content h⟩

/-- The pieces of well-formed components cut their text. -/
theorem WellFormedAll.is_cut (h : WellFormedAll limits cs) :
    IsCut limits (sourceAll cs) (cs.map piece) where
  whole := by simp [sourceAll, List.flatMap_map, text_piece]
  valid := fun p hp => by
    obtain ⟨c, hc, rfl⟩ := List.mem_map.1 hp
    exact (h.valid c hc).piece
  adjacent := by
    rw [List.isChain_map]
    exact h.adjacent.imp fun _ _ => may_precede_piece.2

/-- Well-formed components are read back from their text. -/
theorem WellFormedAll.parse_all_source_all (h : WellFormedAll limits cs) :
    parseAll limits (sourceAll cs) = .ok cs := by
  have hreads : List.Forall₂ (Piece.Reads limits) (cs.map piece) cs := by
    rw [List.forall₂_map_left_iff, List.forall₂_same]
    exact fun c hc => (h.valid c hc).reads
  exact h.is_cut.parse_from_eq hreads 0

/-! ## From pieces to components -/

/-- What is read from a piece of a cut is well-formed. -/
theorem valid_of_reads {p : Piece} (h : p.Valid limits) (hreads : p.Reads limits c) :
    c.Valid limits := by
  cases hreads with
  | run t => exact h
  | expression content e he => exact Expression.well_formed_of_parse he

/-- What is read from pieces that may follow one another may do so as well. -/
theorem may_precede_of_reads {p q : Piece} (hp : p.Reads limits c) (hq : q.Reads limits d)
    (h : p.MayPrecede q) : c.MayPrecede d := by
  cases hp <;> cases hq <;> exact h

/-- What may stand side by side in a template may do so among its components. -/
theorem is_chain_of_reads {pieces : List Piece}
    (hreads : List.Forall₂ (Piece.Reads limits) pieces cs)
    (h : pieces.IsChain Piece.MayPrecede) : cs.IsChain MayPrecede := by
  induction hreads with
  | nil => exact .nil
  | cons hread hrest ih =>
      cases hrest with
      | nil => exact .singleton _
      | cons hnext _ => exact .cons_cons (may_precede_of_reads hread hnext h.rel) (ih h.of_cons)

/-- What is read is well formed. -/
theorem well_formed_all_of_parse_all {text : Text} (h : parseAll limits text = .ok cs) :
    WellFormedAll limits cs := by
  obtain ⟨pieces, hcut, hreads⟩ := exists_cut h
  have hboth := (List.forall₂_and_left pieces cs).2 ⟨hcut.valid, hreads⟩
  exact ⟨forall_mem_right hboth fun _ _ hread => valid_of_reads hread.1 hread.2,
    is_chain_of_reads hreads hcut.adjacent⟩

/-- Reading and writing are inverse between templates, up to the way they are written, and
well-formed component lists: what a template gives is well formed, and every well-formed list is
what its own text gives. -/
theorem parse_all_inverse_source_all (limits : Limits) :
    (∀ text cs, parseAll limits text = .ok cs → WellFormedAll limits cs) ∧
      ∀ cs, WellFormedAll limits cs → parseAll limits (sourceAll cs) = .ok cs :=
  ⟨fun _ _ => well_formed_all_of_parse_all, fun _ => WellFormedAll.parse_all_source_all⟩

/-- A gap keeps a full stop at the start of a name from selecting the operator of labels. -/
example : sourceAll [.expression ⟨.simple, [⟨".x", none⟩]⟩] = "\x7b .x\x7d" := rfl

/-! ## A name in braces -/

/-- What stands alone in braces is read as the one expression of its template. -/
theorem parse_all_braced {content : Text} (hfree : BraceFree content) :
    parseAll limits (braced content) =
      (Expression.parse limits content).map fun e => [expression e] := by
  have hempty : ¬EndsInBackslash (List.reverse []) := not_ends_in_backslash_nil
  rw [parseAll, ← List.append_nil (braced content), parse_from_expression hempty hfree]
  cases Expression.parse limits content with
  | error e => rfl
  | ok e =>
      rw [ok_bind, parse_from_nil]
      rfl

/-- The operator of labels is selected by a full stop in front of the entries. -/
theorem operator_of_parse_label {list : Text} {e : Expression}
    (h : Expression.parse limits (CodePoint.ofChar '.' :: list) = .ok e) : e.operator = .label := by
  have hoperator : parseOperator (CodePoint.ofChar '.' :: list) = .ok (.label, list) := rfl
  rw [Expression.parse, hoperator, ok_bind] at h
  obtain ⟨specs, _, h⟩ := bind_eq_ok_iff.1 h
  cases h
  rfl

/-- A name in braces refers to its variable, unless it starts with a full stop, which selects the
operator of labels, or has a blank at one of its ends, which is trimmed off. -/
theorem parse_all_braced_name_iff {name : Text} (hname : Name.isName name = true) :
    parseAll limits (braced name) = .ok [.expression ⟨.simple, [⟨name, none⟩]⟩] ↔
      name.head? ≠ some (CodePoint.ofChar '.') ∧ Trimmed name := by
  have hallows := Name.allows_of_mem hname
  have hfree : BraceFree name := fun c hc => by
    cases hbrace : c.isBrace with
    | false => rfl
    | true =>
        rcases CodePoint.is_brace_iff.1 hbrace with rfl | rfl
        · exact absurd (hallows _ hc) (by decide)
        · exact absurd (hallows _ hc) (by decide)
  constructor
  · intro h
    have hexpression : (Expression.mk .simple [⟨name, none⟩]).WellFormed limits :=
      (well_formed_all_of_parse_all h).valid (expression _) (by simp)
    have hspec := hexpression.specs ⟨name, none⟩ (by simp)
    refine ⟨fun hstop => ?_, hspec.head, hspec.last rfl⟩
    obtain ⟨rest, rfl⟩ := List.head?_eq_some_iff.1 hstop
    rw [parse_all_braced hfree, map_eq_ok_iff] at h
    obtain ⟨e, he, heq⟩ := h
    cases heq
    exact absurd (operator_of_parse_label he) (by simp)
  · rintro ⟨hstop, htrimmed⟩
    have hspec : (VariableSpec.mk name none).WellFormed limits :=
      ⟨hname, htrimmed.head, fun _ => htrimmed.last, by simp⟩
    have hwellFormed : (Expression.mk .simple [⟨name, none⟩]).WellFormed limits :=
      ⟨by simp, by simpa using hspec⟩
    -- Without a full stop in front no gap is needed, so that the content is the name.
    have hcontent : (Expression.mk .simple [⟨name, none⟩]).content = name := by
      have hlabel : (Expression.mk .simple [⟨name, none⟩]).looksLikeLabel = false := by
        simp [Expression.looksLikeLabel, hstop]
      rw [Expression.content_of_not_looks_like_label hlabel]
      rfl
    have hparse := hwellFormed.parse_content
    rw [hcontent] at hparse
    rw [parse_all_braced hfree, hparse, map_ok]

/-- A name with a wide letter and a dot inside refers to its variable. -/
theorem parse_all_braced_name_wide :
    Name.isName "caf\u00e9.1" = true ∧
      parseAll Limits.standard (braced "caf\u00e9.1") =
        .ok [.expression ⟨.simple, [⟨"caf\u00e9.1", none⟩]⟩] := by
  have hname : Name.isName "caf\u00e9.1" = true := by decide +kernel
  exact ⟨hname, (parse_all_braced_name_iff hname).2 ⟨by decide, by decide, by decide⟩⟩

/-- Some names cannot stand alone in braces: what follows a full stop is the variable of a label,
and a blank at the end of a name is trimmed off. -/
theorem parse_all_braced_misread_names :
    (Name.isName ".x" = true ∧
      parseAll Limits.standard (braced ".x") = .ok [.expression ⟨.label, [⟨"x", none⟩]⟩]) ∧
    (Name.isName "x\u00a0" = true ∧
      parseAll Limits.standard (braced "x\u00a0") = .ok [.expression ⟨.simple, [⟨"x", none⟩]⟩]) ∧
    ¬∀ name, Name.isName name = true →
      parseAll Limits.standard (braced name) = .ok [.expression ⟨.simple, [⟨name, none⟩]⟩] := by
  have hlabel : parseAll Limits.standard (braced ".x") =
      .ok [.expression ⟨.label, [⟨"x", none⟩]⟩] := by decide +kernel
  have hname : Name.isName ".x" = true := by decide +kernel
  refine ⟨⟨hname, hlabel⟩, ⟨by decide +kernel, by decide +kernel⟩, fun h => ?_⟩
  have hsimple := h ".x" hname
  rw [hlabel] at hsimple
  exact absurd hsimple (by decide)

end Component

end UriTemplate
