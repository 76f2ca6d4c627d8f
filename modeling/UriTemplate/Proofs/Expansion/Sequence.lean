import UriTemplate.Template
import UriTemplate.Proofs.Expansion.Segment

/-!
# Expansions one after the other

Components are expanded one after the other (`Component.expand_all_cons`). All that counts of the
bindings is what the references to variables expand as: where each of them has a value, and only
there, a template has an expansion (`Template.exists_expand`, `Template.exists_value?_of_expand`),
and where they have the same values under two bindings, it is the same (`Template.expand_congr`).
-/

namespace UriTemplate

variable {bindings others : Bindings} {specs : List VariableSpec} {components : List Component}

namespace Component

/-- No components are expanded to no texts. -/
theorem expand_all_nil : expandAll bindings [] = .ok [] := rfl

/-- Components are expanded one after the other. -/
theorem expand_all_cons (c : Component) (rest : List Component) :
    expandAll bindings (c :: rest) = (do
      let first ← c.expand bindings
      let following ← expandAll bindings rest
      pure (first ++ following)) := by
  unfold expandAll
  rw [List.mapM_cons]
  cases c.expand bindings with
  | error e => rfl
  | ok first =>
      cases rest.mapM (·.expand bindings) with
      | error e => rfl
      | ok following => rfl

end Component

/-! ## Where every reference has a value -/

/-- The fragments exist where all values do. -/
theorem exists_fragments (op : Operator)
    (h : ∀ s ∈ specs, ∃ value?, s.value? bindings = .ok value?) :
    ∃ ts, fragments op bindings specs = .ok ts :=
  ⟨_, fragments_eq fun s hs => VariableSpec.value?_eq_ok_value (h s hs)⟩

/-- A component can be expanded where all its values exist. -/
theorem Component.exists_expand {c : Component}
    (h : ∀ s ∈ c.specs, ∃ value?, s.value? bindings = .ok value?) :
    ∃ t, c.expand bindings = .ok t := by
  cases c with
  | literal t => exact ⟨t, rfl⟩
  | expression e =>
      obtain ⟨ts, hts⟩ := exists_fragments e.operator h
      exact ⟨_, bind_eq_ok_iff.2 ⟨ts, hts, rfl⟩⟩

/-- Components can be expanded where all their values exist. -/
theorem Component.exists_expand_all
    (h : ∀ s ∈ components.flatMap Component.specs, ∃ value?, s.value? bindings = .ok value?) :
    ∃ t, expandAll bindings components = .ok t := by
  induction components with
  | nil => exact ⟨[], expand_all_nil⟩
  | cons c rest ih =>
      rw [List.flatMap_cons, List.forall_mem_append] at h
      obtain ⟨t, ht⟩ := exists_expand h.1
      obtain ⟨u, hu⟩ := ih h.2
      exact ⟨t ++ u, by rw [expand_all_cons, ht, ok_bind, hu, ok_bind, pure_eq_ok]⟩

/-- A template has an expansion where each of its references has a value or is undefined. -/
theorem Template.exists_expand {template : Template}
    (h : ∀ s ∈ template.specs, ∃ value?, s.value? bindings = .ok value?) :
    ∃ t, template.expand bindings = .ok t :=
  Component.exists_expand_all h

/-! ## What an expansion says of the references -/

/-- Where the fragments exist, all values do. -/
theorem exists_value?_of_fragments {op : Operator} {ts : List Text}
    (h : fragments op bindings specs = .ok ts) :
    ∀ s ∈ specs, ∃ value?, s.value? bindings = .ok value? := by
  induction specs generalizing ts with
  | nil => simp
  | cons s rest ih =>
      obtain ⟨value?, hvalue, h⟩ := bind_eq_ok_iff.1 h
      obtain ⟨following, hfollowing, _⟩ := bind_eq_ok_iff.1 h
      exact List.forall_mem_cons.2 ⟨⟨value?, hvalue⟩, ih hfollowing⟩

/-- An expression expands exactly where each of its references has a value, and then to the join of
the fragments of these values. -/
theorem Expression.expand_eq_ok_iff {e : Expression} {t : Text} :
    e.expand bindings = .ok t ↔
      (∀ s ∈ e.specs, ∃ value?, s.value? bindings = .ok value?) ∧
        e.operator.join (e.specs.filterMap fun s =>
          (s.value bindings).bind (s.fragment? e.operator)) = t := by
  have hfragments (h : ∀ s ∈ e.specs, ∃ value?, s.value? bindings = .ok value?) :
      e.expand bindings = .ok (e.operator.join (e.specs.filterMap fun s =>
        (s.value bindings).bind (s.fragment? e.operator))) := by
    rw [Expression.expand, fragments_eq fun s hs => VariableSpec.value?_eq_ok_value (h s hs),
      ok_bind, pure_eq_ok]
  constructor
  · intro h
    obtain ⟨ts, hts, _⟩ := bind_eq_ok_iff.1 h
    have hvalues := exists_value?_of_fragments hts
    exact ⟨hvalues, Except.ok.inj ((hfragments hvalues).symm.trans h)⟩
  · rintro ⟨hvalues, rfl⟩
    exact hfragments hvalues

/-- Components expand one after the other exactly where each of them expands. -/
theorem Component.expand_all_cons_eq_ok_iff {c : Component} {t : Text} :
    expandAll bindings (c :: components) = .ok t ↔
      ∃ first following, c.expand bindings = .ok first ∧
        expandAll bindings components = .ok following ∧ first ++ following = t := by
  rw [expand_all_cons, bind_eq_ok_iff]
  constructor
  · rintro ⟨first, hfirst, h⟩
    obtain ⟨following, hfollowing, h⟩ := bind_eq_ok_iff.1 h
    exact ⟨first, following, hfirst, hfollowing, Except.ok.inj h⟩
  · rintro ⟨first, following, hfirst, hfollowing, rfl⟩
    exact ⟨first, hfirst, bind_eq_ok_iff.2 ⟨following, hfollowing, rfl⟩⟩

/-- Where components can be expanded, all their values exist. -/
theorem Component.exists_value?_of_expand_all {t : Text}
    (h : expandAll bindings components = .ok t) :
    ∀ s ∈ components.flatMap Component.specs, ∃ value?, s.value? bindings = .ok value? := by
  induction components generalizing t with
  | nil => simp
  | cons c rest ih =>
      obtain ⟨first, following, hfirst, hfollowing, _⟩ := expand_all_cons_eq_ok_iff.1 h
      rw [List.flatMap_cons, List.forall_mem_append]
      refine ⟨?_, ih hfollowing⟩
      cases c with
      | literal t => simp [Component.specs]
      | expression e => exact (Expression.expand_eq_ok_iff.1 hfirst).1

/-- A template has an expansion only where each of its references has a value or is undefined. -/
theorem Template.exists_value?_of_expand {template : Template} {t : Text}
    (h : template.expand bindings = .ok t) :
    ∀ s ∈ template.specs, ∃ value?, s.value? bindings = .ok value? :=
  Component.exists_value?_of_expand_all h

/-! ## Where every reference has the same value -/

/-- The value of a variable depends only on what its name is bound to. -/
theorem VariableSpec.value?_eq_of_get? {s : VariableSpec}
    (h : bindings.get? s.name = others.get? s.name) : s.value? bindings = s.value? others := by
  rw [value?, value?, h]

/-- Fragments depend only on the values of their variables. -/
theorem fragments_congr (op : Operator)
    (h : ∀ s ∈ specs, s.value? bindings = s.value? others) :
    fragments op bindings specs = fragments op others specs := by
  induction specs with
  | nil => rfl
  | cons s rest ih =>
      rw [fragments, fragments, h s (by simp), ih fun t ht => h t (by simp [ht])]

/-- The expansion of a component depends only on the values of its variables. -/
theorem Component.expand_congr {c : Component}
    (h : ∀ s ∈ c.specs, s.value? bindings = s.value? others) :
    c.expand bindings = c.expand others := by
  cases c with
  | literal t => rfl
  | expression e =>
      have hfragments := fragments_congr e.operator h
      show e.expand bindings = e.expand others
      unfold Expression.expand
      exact congrArg (· >>= fun ts => pure (e.operator.join ts)) hfragments

/-- The expansion of components depends only on the values of their variables. -/
theorem Component.expand_all_congr
    (h : ∀ s ∈ components.flatMap Component.specs, s.value? bindings = s.value? others) :
    expandAll bindings components = expandAll others components := by
  induction components with
  | nil => rfl
  | cons c rest ih =>
      rw [List.flatMap_cons, List.forall_mem_append] at h
      rw [expand_all_cons, expand_all_cons, expand_congr h.1, ih h.2]

/-- A template has the same expansion where each of its references has the same value. -/
theorem Template.expand_congr {template : Template}
    (h : ∀ s ∈ template.specs, s.value? bindings = s.value? others) :
    template.expand bindings = template.expand others :=
  Component.expand_all_congr h

end UriTemplate
