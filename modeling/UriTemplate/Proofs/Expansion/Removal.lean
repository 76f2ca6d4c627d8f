import UriTemplate.Proofs.Component.Cut
import UriTemplate.Proofs.Expansion.Sequence
import UriTemplate.Proofs.Value.Entries

/-!
# Removed bindings

Where bindings are removed, an expansion loses text and gains none: what is left of it is a
subsequence. With no name bound at all, what is left is the text of the template without its
expressions. `Template.expand_without` says both.
-/

namespace UriTemplate

/-! ## Fewer bindings -/

namespace Bindings

/-- `bindings.without removed` is the bindings without the names that are `removed`. -/
def without (bindings : Bindings) (removed : Text → Bool) : Bindings :=
  bindings.filter fun e => !removed e.1

/-- A removed name is unbound, and all others are as they were. -/
theorem get?_without (bindings : Bindings) (removed : Text → Bool) (name : Text) :
    (bindings.without removed).get? name = if removed name then none else bindings.get? name := by
  cases hname : removed name with
  | false => exact Entries.lookup_filter (p := fun n => !removed n) (by simp [hname]) bindings
  | true =>
      refine List.lookup_eq_none_iff.2 fun e he => ?_
      have hkept : removed e.1 = false := by simpa using (List.mem_filter.1 he).2
      have hne : name ≠ e.1 := by
        rintro rfl
        exact absurd (hkept.symm.trans hname) (by simp)
      simpa using hne

end Bindings

variable {fewer bindings : Bindings} {limits : Limits}

namespace VariableSpec

variable {s : VariableSpec}

/-- An unbound variable is undefined. -/
theorem value?_of_unbound (h : bindings.get? s.name = none) : s.value? bindings = .ok none := by
  rw [value?, h]

/-- Without its binding a variable is undefined; the other variables keep their values. -/
theorem value?_without (s : VariableSpec) (bindings : Bindings) (removed : Text → Bool) :
    s.value? (bindings.without removed) = .ok none ∨
      s.value? (bindings.without removed) = s.value? bindings := by
  have hget := bindings.get?_without removed s.name
  cases hname : removed s.name with
  | true => exact .inl (value?_of_unbound (by simpa [hname] using hget))
  | false => exact .inr (value?_eq_of_get? (by simpa [hname] using hget))

end VariableSpec

/-! ## Fewer values -/

/-- An expansion of some of the fragments is what is left of the expansion of all of them when code
points are deleted. -/
theorem Operator.join_sublist (op : Operator) {ts us : List Text} (h : ts.Sublist us) :
    (op.join ts).Sublist (op.join us) := by
  by_cases hne : ts = []
  · simp [join, hne]
  · have hne' : us ≠ [] := fun hnil => hne (List.sublist_nil.1 (hnil ▸ h))
    simp only [join, List.isEmpty_iff, if_neg hne, if_neg hne']
    exact (List.Sublist.refl _).append (Text.join_sublist h op.separator)

/-- An expression with fewer values is expanded to a part of the text. -/
theorem Expression.exists_sublist {e : Expression} {t : Text}
    (hless : ∀ s ∈ e.specs, s.value? fewer = .ok none ∨ s.value? fewer = s.value? bindings)
    (h : e.expand bindings = .ok t) : ∃ u, e.expand fewer = .ok u ∧ u.Sublist t := by
  obtain ⟨hvalues, rfl⟩ := expand_eq_ok_iff.1 h
  refine ⟨_, expand_eq_ok_iff.2 ⟨fun s hs => ?_, rfl⟩, e.operator.join_sublist ?_⟩
  · rcases hless s hs with hnone | hsame
    · exact ⟨none, hnone⟩
    · exact hsame ▸ hvalues s hs
  · -- The fragments that are left are those of some of the variables, in the same order.
    rw [List.filterMap_eq_flatMap_toList, List.filterMap_eq_flatMap_toList]
    refine List.Sublist.flatMap_right _ fun s hs => ?_
    rcases hless s hs with hnone | hsame
    · simp [VariableSpec.value, hnone, Except.toOption]
    · rw [VariableSpec.value, VariableSpec.value, hsame]

/-- Where each variable has the value that it had or none, an expansion only loses text. -/
theorem Component.exists_sublist {components : List Component} {t : Text}
    (hless : ∀ s ∈ components.flatMap Component.specs,
      s.value? fewer = .ok none ∨ s.value? fewer = s.value? bindings)
    (h : expandAll bindings components = .ok t) :
    ∃ u, expandAll fewer components = .ok u ∧ u.Sublist t := by
  induction components generalizing t with
  | nil => exact ⟨t, h, .refl t⟩
  | cons c rest ih =>
      rw [List.flatMap_cons, List.forall_mem_append] at hless
      obtain ⟨first, following, hfirst, hfollowing, rfl⟩ := expand_all_cons_eq_ok_iff.1 h
      have hleft : ∃ u, c.expand fewer = .ok u ∧ u.Sublist first := by
        cases c with
        | literal t => exact ⟨first, hfirst, .refl first⟩
        | expression e => exact Expression.exists_sublist hless.1 hfirst
      obtain ⟨u, hu, hsub⟩ := hleft
      obtain ⟨v, hv, hsub'⟩ := ih hless.2 hfollowing
      exact ⟨u ++ v, expand_all_cons_eq_ok_iff.2 ⟨u, v, hu, hv, rfl⟩, hsub.append hsub'⟩

/-! ## No values -/

/-- `p.isRun` says that the piece `p` is a literal run. -/
def Piece.isRun : Piece → Bool
  | run _ => true
  | expression _ => false

/-- An expression expands to nothing where none of its variables has a value. -/
theorem Expression.expand_of_undefined {e : Expression}
    (h : ∀ s ∈ e.specs, s.value? bindings = .ok none) : e.expand bindings = .ok [] := by
  refine expand_eq_ok_iff.2 ⟨fun s hs => ⟨none, h s hs⟩, ?_⟩
  have hnil : (e.specs.filterMap fun s =>
      (s.value bindings).bind (s.fragment? e.operator)) = [] := by
    refine List.filterMap_eq_nil_iff.2 fun s hs => ?_
    simp [VariableSpec.value, h s hs, Except.toOption]
  rw [hnil]
  rfl

/-- Where no variable has a value, the literal runs of a template are what is left of it. -/
theorem Component.expand_all_of_undefined {pieces : List Piece} {components : List Component}
    (hreads : List.Forall₂ (Piece.Reads limits) pieces components)
    (h : ∀ s ∈ components.flatMap Component.specs, s.value? bindings = .ok none) :
    expandAll bindings components = .ok ((pieces.filter Piece.isRun).flatMap Piece.text) := by
  induction hreads with
  | nil => rfl
  | @cons p c pieces components hread _ ih =>
      rw [List.flatMap_cons, List.forall_mem_append] at h
      cases hread with
      | run t => exact expand_all_cons_eq_ok_iff.2 ⟨t, _, rfl, ih h.2, rfl⟩
      | expression content e =>
          exact expand_all_cons_eq_ok_iff.2
            ⟨[], _, Expression.expand_of_undefined h.1, ih h.2, rfl⟩

namespace Template

/-- Without some of the bindings a template still expands, to a subsequence of what it expanded to,
and an expression without a removed name expands to the same. Where none of its names is bound, a
template expands to its text with the pieces that are expressions left out. -/
theorem expand_without {text : Text} {template : Template}
    (hparse : parse limits text = .ok template) (bindings : Bindings) (removed : Text → Bool) :
    (∀ t, template.expand bindings = .ok t →
        ∃ u, template.expand (bindings.without removed) = .ok u ∧ u.Sublist t ∧
          u.length ≤ t.length) ∧
      (∀ e, .expression e ∈ template.components → (∀ s ∈ e.specs, removed s.name = false) →
        e.expand (bindings.without removed) = e.expand bindings) ∧
      ((∀ name ∈ template.names, bindings.get? name = none) →
        ∃ pieces, IsCut limits text pieces ∧
          template.expand bindings = .ok ((pieces.filter Piece.isRun).flatMap Piece.text)) := by
  refine ⟨fun t h => ?_, fun e _ hkept => ?_, fun hnone => ?_⟩
  · obtain ⟨u, hu, hsub⟩ :=
      Component.exists_sublist (fun s _ => s.value?_without bindings removed) h
    exact ⟨u, hu, hsub, hsub.length_le⟩
  · refine Component.expand_congr (c := .expression e) fun s hs => ?_
    refine VariableSpec.value?_eq_of_get? ?_
    rw [Bindings.get?_without, hkept s hs]
    rfl
  · obtain ⟨components, hcomponents, htemplate⟩ := bind_eq_ok_iff.1 hparse
    cases htemplate
    obtain ⟨pieces, hcut, hreads⟩ := Component.exists_cut hcomponents
    refine ⟨pieces, hcut, Component.expand_all_of_undefined hreads fun s hs => ?_⟩
    exact VariableSpec.value?_of_unbound (hnone s.name (List.mem_map.2 ⟨s, hs, rfl⟩))

/-- After an escaped brace, a query loses one of its two variables, or both with its sign. -/
theorem expand_without_escaped_brace :
    ∃ template, parse Limits.standard "\\\x7b\x7b?x,y\x7d" = .ok template ∧
      template.expand [("x", .int 1), ("y", .text "")] = .ok "\\\x7b?x=1&y=" ∧
      (∃ u, template.expand
          (Bindings.without [("x", .int 1), ("y", .text "")] (· == Text.ofString "x")) = .ok u ∧
        u.Sublist "\\\x7b?x=1&y=") ∧
      ∃ pieces, IsCut Limits.standard "\\\x7b\x7b?x,y\x7d" pieces ∧
        template.expand [] = .ok ((pieces.filter Piece.isRun).flatMap Piece.text) := by
  have hparse : parse Limits.standard "\\\x7b\x7b?x,y\x7d" = .ok ⟨"\\\x7b\x7b?x,y\x7d",
      [.literal "\\\x7b", .expression ⟨.query, [⟨"x", none⟩, ⟨"y", none⟩]⟩]⟩ := by
    decide +kernel
  have hexpand : expand ⟨"\\\x7b\x7b?x,y\x7d",
      [.literal "\\\x7b", .expression ⟨.query, [⟨"x", none⟩, ⟨"y", none⟩]⟩]⟩
        [("x", .int 1), ("y", .text "")] = .ok "\\\x7b?x=1&y=" := by
    decide +kernel
  obtain ⟨hless, _⟩ := expand_without hparse [("x", .int 1), ("y", .text "")]
    (· == Text.ofString "x")
  obtain ⟨_, _, hnone⟩ := expand_without hparse [] (fun _ => false)
  obtain ⟨u, hu, hsub, _⟩ := hless _ hexpand
  exact ⟨_, hparse, hexpand, ⟨u, hu, hsub⟩, hnone fun _ _ => rfl⟩

end Template

end UriTemplate
