import UriTemplate.Bindings.Schema
import UriTemplate.Coercion
import UriTemplate.Proofs.Value.Writable

/-!
# Coercion

A writable value is coerced without a failure (`Value.exists_coerce`). What it becomes is something
exactly when the value is of a supported shape (`Value.is_some_of_coerce`), and then it is coerced
to itself (`Value.coerce_value`).
-/

namespace UriTemplate

namespace Value

variable {v : Value} {items : List Value} {entries : List (Value × Value)}

/-! ## A writable value is coerced -/

/-- A writable value is read as a scalar or as none. -/
theorem exists_scalar? (h : v.Writable) : ∃ t?, v.scalar? = .ok t? := by
  cases v with
  | int n =>
      have hn : Decimal.exceedsLimit n = false := h n (by simp [integers])
      have htext := of_int?_eq_ok_iff.2 ⟨hn, rfl⟩
      exact ⟨some (Decimal.ofInt n), by rw [scalar?, htext, map_ok]⟩
  | _ => exact ⟨_, rfl⟩

/-- Writable items are read as scalars or not. -/
theorem exists_scalars? (h : ∀ v ∈ items, v.Writable) : ∃ ts?, scalars? items = .ok ts? := by
  induction items with
  | nil => exact ⟨_, rfl⟩
  | cons v rest ih =>
      obtain ⟨t?, ht⟩ := exists_scalar? (h v (by simp))
      obtain ⟨ts?, hts⟩ := ih fun w hw => h w (by simp [hw])
      rw [scalars?, ht, ok_bind]
      cases t? with
      | none => exact ⟨_, rfl⟩
      | some t => exact ⟨_, bind_eq_ok_iff.2 ⟨_, hts, rfl⟩⟩

/-- Writable entries are read as pairs of scalars or not. -/
theorem exists_scalar_pairs? (h : ∀ e ∈ entries, e.1.Writable ∧ e.2.Writable) :
    ∃ ts?, scalarPairs? entries = .ok ts? := by
  induction entries with
  | nil => exact ⟨_, rfl⟩
  | cons e rest ih =>
      obtain ⟨k, v⟩ := e
      obtain ⟨hk, hv⟩ := h (k, v) (by simp)
      obtain ⟨key?, hkey⟩ := exists_scalar? hk
      obtain ⟨value?, hvalue⟩ := exists_scalar? hv
      obtain ⟨ts?, hts⟩ := ih fun f hf => h f (by simp [hf])
      rw [scalarPairs?, hkey, ok_bind, hvalue, ok_bind]
      cases key? with
      | none => exact ⟨_, rfl⟩
      | some key =>
          cases value? with
          | none => exact ⟨_, rfl⟩
          | some value => exact ⟨_, bind_eq_ok_iff.2 ⟨_, hts, rfl⟩⟩

/-- A writable value is coerced without a failure. -/
theorem exists_coerce (h : v.Writable) : ∃ w?, v.coerce = .ok w? := by
  have hscalar : ∃ w?, (do return (← v.scalar?).map VariableValue.string) = Except.ok w? := by
    obtain ⟨t?, ht⟩ := exists_scalar? h
    exact ⟨_, bind_eq_ok_iff.2 ⟨t?, ht, rfl⟩⟩
  cases v with
  | list items | tuple items =>
      obtain ⟨ts?, hts⟩ := exists_scalars? (writable_all_iff.1 h)
      exact ⟨_, bind_eq_ok_iff.2 ⟨ts?, hts, rfl⟩⟩
  | mapping entries | pairs entries =>
      obtain ⟨ts?, hts⟩ := exists_scalar_pairs? (writable_entries_iff.1 h)
      exact ⟨_, bind_eq_ok_iff.2 ⟨ts?, hts, rfl⟩⟩
  | _ => exact hscalar

/-! ## Supported shapes -/

/-- `v.isSupported` says that `v` is a scalar, a list or tuple of scalars, or a mapping or
associative array of scalars, keys included. -/
def isSupported : Value → Bool
  | list items | tuple items => items.all Schema.scalar.accepts
  | mapping entries | pairs entries =>
      entries.all fun e => Schema.scalar.accepts e.1 && Schema.scalar.accepts e.2
  | v => Schema.scalar.accepts v

/-- The values that have a text are the scalars. -/
theorem is_some_of_scalar? {t? : Option Text} (h : v.scalar? = .ok t?) :
    t?.isSome = Schema.scalar.accepts v := by
  cases v with
  | int n =>
      rw [scalar?] at h
      obtain ⟨t, _, rfl⟩ := map_eq_ok_iff.1 h
      rfl
  | _ =>
      cases h
      rfl

/-- Items are read exactly if all of them are scalars. -/
theorem is_some_of_scalars? {ts? : Option (List Text)} (h : scalars? items = .ok ts?) :
    ts?.isSome = items.all Schema.scalar.accepts := by
  induction items generalizing ts? with
  | nil =>
      cases h
      rfl
  | cons v rest ih =>
      obtain ⟨t?, ht, h⟩ := bind_eq_ok_iff.1 h
      have hv := is_some_of_scalar? ht
      rw [List.all_cons, ← hv]
      cases t? with
      | none =>
          cases h
          rfl
      | some t =>
          obtain ⟨more?, hmore, h⟩ := bind_eq_ok_iff.1 h
          cases h
          rw [Option.isSome_map, ih hmore]
          rfl

/-- Entries are read exactly if all keys and values are scalars. -/
theorem is_some_of_scalar_pairs? {ts? : Option (List (Text × Text))}
    (h : scalarPairs? entries = .ok ts?) :
    ts?.isSome = entries.all fun e => Schema.scalar.accepts e.1 && Schema.scalar.accepts e.2 := by
  induction entries generalizing ts? with
  | nil =>
      cases h
      rfl
  | cons e rest ih =>
      obtain ⟨k, v⟩ := e
      obtain ⟨key?, hkey, h⟩ := bind_eq_ok_iff.1 h
      obtain ⟨value?, hvalue, h⟩ := bind_eq_ok_iff.1 h
      rw [List.all_cons, ← is_some_of_scalar? hkey, ← is_some_of_scalar? hvalue]
      cases key? with
      | none =>
          cases h
          rfl
      | some key =>
          cases value? with
          | none =>
              cases h
              rfl
          | some value =>
              obtain ⟨more?, hmore, h⟩ := bind_eq_ok_iff.1 h
              cases h
              rw [Option.isSome_map, ih hmore]
              rfl

/-- The values that are coerced to something are those of a supported shape. -/
theorem is_some_of_coerce {w? : Option VariableValue} (h : v.coerce = .ok w?) :
    w?.isSome = v.isSupported := by
  have hscalar : (do return (← v.scalar?).map VariableValue.string) = Except.ok w? →
      w?.isSome = Schema.scalar.accepts v := by
    intro h
    obtain ⟨t?, ht, h⟩ := bind_eq_ok_iff.1 h
    cases h
    rw [Option.isSome_map, is_some_of_scalar? ht]
  cases v with
  | list items | tuple items =>
      obtain ⟨ts?, hts, h⟩ := bind_eq_ok_iff.1 h
      cases h
      rw [Option.isSome_map, is_some_of_scalars? hts]
      rfl
  | mapping entries | pairs entries =>
      obtain ⟨ts?, hts, h⟩ := bind_eq_ok_iff.1 h
      cases h
      rw [Option.isSome_map, is_some_of_scalar_pairs? hts]
      rfl
  | _ => exact hscalar h

/-! ## Coercion leaves its results as they are -/

/-- Texts are read as they stand. -/
theorem scalars?_map_text (ts : List Text) : scalars? (ts.map .text) = .ok (some ts) := by
  induction ts with
  | nil => rfl
  | cons t rest ih =>
      rw [List.map_cons, scalars?, scalar?, ok_bind, ih]
      rfl

/-- Pairs of texts are read as they stand. -/
theorem scalar_pairs?_map_text (entries : List (Text × Text)) :
    scalarPairs? (entries.map fun (k, v) => (.text k, .text v)) = .ok (some entries) := by
  induction entries with
  | nil => rfl
  | cons e rest ih =>
      obtain ⟨k, v⟩ := e
      rw [List.map_cons, scalarPairs?, scalar?, scalar?, ok_bind, ok_bind, ih]
      rfl

/-- What a value is coerced to is coerced to itself. -/
theorem coerce_value (w : VariableValue) : w.value.coerce = .ok (some w) := by
  cases w with
  | string t => rfl
  | list items =>
      rw [VariableValue.value, coerce, scalars?_map_text]
      rfl
  | pairs entries =>
      rw [VariableValue.value, coerce, scalar_pairs?_map_text]
      rfl

end Value

end UriTemplate
