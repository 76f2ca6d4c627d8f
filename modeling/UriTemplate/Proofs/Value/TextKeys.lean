import UriTemplate.Proofs.Outcome
import UriTemplate.Value.Display

/-!
# Mappings with texts as keys

`Value.withTextKeys` replaces every key of every mapping inside a value by the text of the key, and
nothing else: it goes through items and entries one by one.
-/

namespace UriTemplate

namespace Value

mutual

/-- `v.withTextKeys` is the value `v` with the texts of keys in the place of the keys. -/
def withTextKeys : Value → Except Decimal.LimitError Value
  | list items => (withTextKeysAll items).map list
  | tuple items => (withTextKeysAll items).map tuple
  | mapping entries => do
      let renamed ← renamedEntries entries
      pure (mapping (renamed.map fun (t, w) => (text t, w)))
  | v => .ok v

/-- `withTextKeysAll items` is the items with the texts of keys in the place of the keys. -/
def withTextKeysAll : List Value → Except Decimal.LimitError (List Value)
  | [] => .ok []
  | v :: rest => do
      let w ← withTextKeys v
      let more ← withTextKeysAll rest
      pure (w :: more)

/-- `renamedEntries entries` is the texts of the keys of the entries, and the values with the texts
of keys in the place of the keys. -/
def renamedEntries : List (Value × Value) → Except Decimal.LimitError (List (Text × Value))
  | [] => .ok []
  | (k, v) :: rest => do
      let t ← k.keyText
      let w ← withTextKeys v
      let more ← renamedEntries rest
      pure ((t, w) :: more)

end

variable {items results : List Value} {entries : List (Value × Value)}
  {pairs : List (Text × Value)}

/-- The items of a list get the texts of keys one by one. -/
theorem with_text_keys_all_of_forall₂
    (h : List.Forall₂ (fun v w => withTextKeys v = .ok w) items results) :
    withTextKeysAll items = .ok results := by
  induction h with
  | nil => rfl
  | cons hhead _ ih => rw [withTextKeysAll, hhead, ok_bind, ih, ok_bind, pure_eq_ok]

/-- Entries get the texts of their keys, and their values those of theirs, one by one. -/
theorem renamed_entries_of_forall₂
    (h : List.Forall₂ (fun e f => e.1.keyText = .ok f.1 ∧ withTextKeys e.2 = .ok f.2) entries
      pairs) : renamedEntries entries = .ok pairs := by
  induction h with
  | nil => rfl
  | @cons e f _ _ hhead _ ih =>
      obtain ⟨k, v⟩ := e
      rw [renamedEntries, hhead.1, ok_bind, hhead.2, ok_bind, ih, ok_bind, pure_eq_ok]

/-- A list has the texts of keys in its items. -/
theorem with_text_keys_list
    (h : List.Forall₂ (fun v w => withTextKeys v = .ok w) items results) :
    (list items).withTextKeys = .ok (list results) := by
  rw [withTextKeys, with_text_keys_all_of_forall₂ h]
  rfl

/-- A tuple has the texts of keys in its items. -/
theorem with_text_keys_tuple
    (h : List.Forall₂ (fun v w => withTextKeys v = .ok w) items results) :
    (tuple items).withTextKeys = .ok (tuple results) := by
  rw [withTextKeys, with_text_keys_all_of_forall₂ h]
  rfl

/-- A mapping has the texts of its keys, and those of the keys in its values. -/
theorem with_text_keys_mapping
    (h : List.Forall₂ (fun e f => e.1.keyText = .ok f.1 ∧ withTextKeys e.2 = .ok f.2) entries
      pairs) :
    (mapping entries).withTextKeys = .ok (mapping (pairs.map fun (t, w) => (text t, w))) := by
  rw [withTextKeys, renamed_entries_of_forall₂ h]
  rfl

end Value

end UriTemplate
