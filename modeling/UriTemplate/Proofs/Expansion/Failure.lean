import UriTemplate.Proofs.Expansion.Sequence
import UriTemplate.Proofs.Value.Coercion

/-!
# When an expansion fails

Coercion fails where it comes upon an integer with more digits than may be written
(`Value.MeetsOverlong`), in a container only if no member before it is without a text. Nothing else
makes an expansion fail: `Template.only_overlong_integers_fail` says so of every template under all
bindings.
-/

namespace UriTemplate

namespace Value

variable {v : Value} {items : List Value} {entries : List (Value × Value)}
  {e : Decimal.LimitError}

/-! ## Scalars -/

/-- `v.IsOverlong` says that `v` is an integer with more digits than may be written. -/
def IsOverlong (v : Value) : Prop := ∃ n, v = .int n ∧ Decimal.exceedsLimit n = true

/-- `v.HasText` says that `v` is a scalar that can be written. -/
def HasText (v : Value) : Prop := Schema.scalar.accepts v = true ∧ ¬v.IsOverlong

/-- Only an integer is overlong. -/
theorem not_is_overlong (h : ∀ n, v ≠ .int n) : ¬v.IsOverlong := by
  rintro ⟨n, hn, _⟩
  exact h n hn

/-- A value on its own is an integer that cannot be written, has a text, or is no scalar. -/
theorem scalar?_cases (v : Value) :
    v.IsOverlong ∧ v.scalar? = .error .writing ∨
      v.HasText ∧ (∃ t, v.scalar? = .ok (some t)) ∨
      ¬v.IsOverlong ∧ ¬v.HasText ∧ v.scalar? = .ok none := by
  cases v with
  | int n =>
      cases hn : Decimal.exceedsLimit n with
      | true =>
          refine .inl ⟨⟨n, rfl, hn⟩, ?_⟩
          rw [scalar?, Decimal.ofInt?, if_pos hn, map_error]
      | false =>
          refine .inr (.inl ⟨⟨rfl, ?_⟩, Decimal.ofInt n, ?_⟩)
          · rintro ⟨m, hm, hexceeds⟩
            cases hm
            exact absurd (hn.symm.trans hexceeds) (by simp)
          · rw [scalar?, of_int?_eq_ok_iff.2 ⟨hn, rfl⟩, map_ok]
  | bool | float | text =>
      exact .inr (.inl ⟨⟨rfl, not_is_overlong (by simp)⟩, _, rfl⟩)
  | null | bytes | date | dateTime | list | tuple | set | mapping | pairs | object =>
      refine .inr (.inr ⟨not_is_overlong (by simp), fun h => ?_, rfl⟩)
      exact absurd h.1 Bool.false_ne_true

/-! ## Containers -/

/-- Texts of items are asked for in order, until one of the items has none. -/
theorem scalars?_eq_error_iff :
    scalars? items = .error e ↔ e = .writing ∧ Reaches HasText IsOverlong items := by
  induction items with
  | nil => simp [scalars?, not_reaches_nil]
  | cons v rest ih =>
      rw [scalars?, reaches_cons]
      rcases v.scalar?_cases with ⟨hv, hscalar⟩ | ⟨hv, t, hscalar⟩ | ⟨hv, htext, hscalar⟩
      · simp [hscalar, hv, eq_comm]
      · rw [hscalar, ok_bind]
        simp [bind_eq_error_iff, ih, hv, hv.2]
      · simp [hscalar, hv, htext]

/-- The text of a value is asked for whether or not its key has one. -/
theorem scalar_pairs?_eq_error_iff :
    scalarPairs? entries = .error e ↔
      e = .writing ∧ Reaches (fun e => e.1.HasText ∧ e.2.HasText)
        (fun e => e.1.IsOverlong ∨ e.2.IsOverlong) entries := by
  induction entries with
  | nil => simp [scalarPairs?, not_reaches_nil]
  | cons entry rest ih =>
      obtain ⟨k, v⟩ := entry
      rw [scalarPairs?, reaches_cons]
      rcases k.scalar?_cases with ⟨hk, hkey⟩ | ⟨hk, key, hkey⟩ | ⟨hk, hkeyText, hkey⟩
      · simp [hkey, hk, eq_comm]
      -- Only where both have a text is the rest looked at.
      · rcases v.scalar?_cases with ⟨hv, hvalue⟩ | ⟨hv, t, hvalue⟩ | ⟨hv, htext, hvalue⟩
        · simp [hkey, hvalue, hv, eq_comm]
        · rw [hkey, ok_bind, hvalue, ok_bind]
          simp [bind_eq_error_iff, ih, hk, hk.2, hv, hv.2]
        · simp [hkey, hvalue, hk.2, hv, htext]
      · rcases v.scalar?_cases with ⟨hv, hvalue⟩ | ⟨hv, t, hvalue⟩ | ⟨hv, htext, hvalue⟩
        · simp [hkey, hvalue, hv, eq_comm]
        · simp [hkey, hvalue, hk, hkeyText, hv.2]
        · simp [hkey, hvalue, hk, hkeyText, hv]

/-! ## Coercion -/

/-- `v.MeetsOverlong` says that `v` is an integer that cannot be written, or a container with one in
it where everything before it has a text. -/
def MeetsOverlong : Value → Prop
  | list items | tuple items => Reaches HasText IsOverlong items
  | mapping entries | pairs entries =>
      Reaches (fun e => e.1.HasText ∧ e.2.HasText) (fun e => e.1.IsOverlong ∨ e.2.IsOverlong)
        entries
  | v => v.IsOverlong

/-- Coercion fails only at an integer that cannot be written. -/
theorem coerce_eq_error_iff : v.coerce = .error e ↔ e = .writing ∧ v.MeetsOverlong := by
  have hscalar : (do return (← v.scalar?).map VariableValue.string) = Except.error e ↔
      e = .writing ∧ v.IsOverlong := by
    rcases v.scalar?_cases with ⟨hv, hscalar⟩ | ⟨hv, t, hscalar⟩ | ⟨hv, _, hscalar⟩
    · simp [hscalar, hv, eq_comm]
    · simp [hscalar, hv.2]
    · simp [hscalar, hv]
  cases v with
  | list items | tuple items =>
      rw [coerce, bind_eq_error_iff, scalars?_eq_error_iff]
      simp [MeetsOverlong]
  | mapping entries | pairs entries =>
      rw [coerce, bind_eq_error_iff, scalar_pairs?_eq_error_iff]
      simp [MeetsOverlong]
  | _ => exact hscalar

end Value

/-! ## Templates -/

variable {bindings : Bindings} {e : Decimal.LimitError}

/-- `s.MeetsOverlong bindings` says that the variable of `s` is bound to a value whose coercion
comes upon an integer that cannot be written. -/
def VariableSpec.MeetsOverlong (s : VariableSpec) (bindings : Bindings) : Prop :=
  ∃ v, bindings.get? s.name = some v ∧ v.MeetsOverlong

/-- A variable has no value exactly if it meets an overlong integer. -/
theorem VariableSpec.value?_eq_error_iff {s : VariableSpec} :
    s.value? bindings = .error e ↔ e = .writing ∧ s.MeetsOverlong bindings := by
  unfold value? MeetsOverlong
  cases bindings.get? s.name with
  | none => simp
  | some v => simp [Value.coerce_eq_error_iff]

/-- It has one, or is undefined, in all other cases. -/
theorem VariableSpec.exists_value?_iff {s : VariableSpec} :
    (∃ value?, s.value? bindings = .ok value?) ↔ ¬s.MeetsOverlong bindings := by
  cases h : s.value? bindings with
  | ok value? =>
      refine iff_of_true ⟨value?, rfl⟩ fun hmeets => ?_
      exact absurd (h.symm.trans (value?_eq_error_iff.2 ⟨rfl, hmeets⟩)) (by simp)
  | error e => exact iff_of_false (by simp) (not_not.2 (value?_eq_error_iff.1 h).2)

/-- The references of an expression are looked up in order, and the first failure ends them. -/
theorem exists_value?_eq_error_of_fragments {op : Operator} {specs : List VariableSpec}
    (h : fragments op bindings specs = .error e) :
    ∃ s ∈ specs, s.value? bindings = .error e := by
  induction specs with
  | nil => exact absurd h (by simp [fragments])
  | cons s rest ih =>
      rw [fragments, bind_eq_error_iff] at h
      rcases h with hs | ⟨value?, _, h⟩
      · exact ⟨s, by simp, hs⟩
      · rcases bind_eq_error_iff.1 h with hrest | ⟨following, _, h⟩
        · obtain ⟨t, ht, hvalue⟩ := ih hrest
          exact ⟨t, by simp [ht], hvalue⟩
        · split at h <;> exact absurd h (by simp)

/-- An expansion fails because of a variable. -/
theorem Component.exists_value?_eq_error {components : List Component}
    (h : expandAll bindings components = .error e) :
    ∃ s ∈ components.flatMap Component.specs, s.value? bindings = .error e := by
  induction components with
  | nil => exact absurd h (by simp [expand_all_nil])
  | cons c rest ih =>
      rw [expand_all_cons, bind_eq_error_iff] at h
      rcases h with hc | ⟨first, _, h⟩
      · cases c with
        | literal t => exact absurd hc (by simp [expand])
        | expression x =>
            have hfragments := (bind_eq_error_iff.1 hc).resolve_right (by simp)
            obtain ⟨s, hs, hvalue⟩ := exists_value?_eq_error_of_fragments hfragments
            exact ⟨s, by simp [specs, hs], hvalue⟩
      · obtain ⟨s, hs, hvalue⟩ := ih ((bind_eq_error_iff.1 h).resolve_right (by simp))
        exact ⟨s, by simp [hs], hvalue⟩

namespace Template

/-- A template has an expansion under all bindings, unless one of its names is bound to a value
whose coercion comes upon an integer that cannot be written. Then, and only then, the expansion
fails, and this integer is the reason. -/
theorem only_overlong_integers_fail (template : Template) (bindings : Bindings) :
    ((∃ t, template.expand bindings = .ok t) ↔
        ∀ s ∈ template.specs, ¬s.MeetsOverlong bindings) ∧
      ∀ e, template.expand bindings = .error e ↔
        e = .writing ∧ ∃ s ∈ template.specs, s.MeetsOverlong bindings := by
  have hok : (∃ t, template.expand bindings = .ok t) ↔
      ∀ s ∈ template.specs, ¬s.MeetsOverlong bindings := by
    constructor
    · rintro ⟨t, ht⟩ s hs
      exact VariableSpec.exists_value?_iff.1 (exists_value?_of_expand ht s hs)
    · intro h
      exact exists_expand fun s hs => VariableSpec.exists_value?_iff.2 (h s hs)
  refine ⟨hok, fun e => ⟨fun h => ?_, ?_⟩⟩
  · obtain ⟨s, hs, hvalue⟩ := Component.exists_value?_eq_error h
    obtain ⟨rfl, hmeets⟩ := VariableSpec.value?_eq_error_iff.1 hvalue
    exact ⟨rfl, s, hs, hmeets⟩
  · rintro ⟨rfl, s, hs, hmeets⟩
    cases h : template.expand bindings with
    | ok t => exact absurd hmeets (hok.1 ⟨t, h⟩ s hs)
    | error e =>
        obtain ⟨t, _, hvalue⟩ := Component.exists_value?_eq_error h
        rw [(VariableSpec.value?_eq_error_iff.1 hvalue).1]

/-- An integer of 4301 digits makes the expansion of a template fail. -/
theorem expand_fails_at_overlong_integer :
    ∃ template, parse Limits.standard "\x7bx\x7d" = .ok template ∧
      ∀ t, template.expand [("x", .int (.ofNat (Nat.pow 10 4300)))] ≠ .ok t := by
  have hparse : parse Limits.standard "\x7bx\x7d" =
      .ok ⟨"\x7bx\x7d", [.expression ⟨.simple, [⟨"x", none⟩]⟩]⟩ := by decide +kernel
  have hexceeds : Decimal.exceedsLimit (.ofNat (Nat.pow 10 4300)) = true := by decide +kernel
  refine ⟨_, hparse, fun t h => ?_⟩
  have hvalue := exists_value?_of_expand h ⟨"x", none⟩ (by simp [specs, Component.specs])
  exact VariableSpec.exists_value?_iff.1 hvalue ⟨_, rfl, _, rfl, hexceeds⟩

end Template

end UriTemplate
