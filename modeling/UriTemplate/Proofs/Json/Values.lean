import UriTemplate.Proofs.Json.Nodes
import UriTemplate.Proofs.Value.Entries
import UriTemplate.Proofs.Value.Writable

/-!
# The values of JSON texts

`j.loaded` is the value that the JSON text of `j` stands for as a document: that of `j`, but a
floating-point number that is written without a point is a text there, and a code point of two code
units is these. What holds of all values follows by induction over them (`Json.induct`).
-/

namespace UriTemplate.Json

open Yaml

/-! ## Induction -/

/-- `j.isCollection` says that `j` is a list or a mapping. -/
def isCollection : Json → Bool
  | list _ | mapping _ => true
  | null | bool _ | int _ | float _ _ | text _ => false

/-- What holds of scalars, and of a collection if it does of all that is in it, holds of every
value. -/
theorem induct {p : Json → Prop} (scalar : ∀ j, j.isCollection = false → p j)
    (list : ∀ items, (∀ j ∈ items, p j) → p (list items))
    (mapping : ∀ entries, (∀ e ∈ entries, p e.2) → p (mapping entries)) (j : Json) : p j := by
  cases j with
  | null | bool | int | float | text => exact scalar _ rfl
  | list items => exact list items fun j _ => induct scalar list mapping j
  | mapping entries => exact mapping entries fun e _ => induct scalar list mapping e.2
termination_by sizeOf j
decreasing_by
  · have := List.sizeOf_lt_of_mem ‹_›
    simp only [Json.list.sizeOf_spec]
    omega
  · have := List.sizeOf_lt_of_mem ‹_›
    obtain ⟨key, value⟩ := e
    simp only [Prod.mk.sizeOf_spec, Json.mapping.sizeOf_spec] at *
    omega

/-! ## Values -/

mutual

/-- `j.loaded` is the value that the JSON text of `j` is read as. -/
def loaded : Json → Value
  | null => .null
  | bool b => .bool b
  | int n => .int n
  | float negative magnitude =>
      if HasPoint magnitude then .float (.finite negative magnitude)
      else .text (source (float negative magnitude))
  | text t => .text t.units
  | list items => .list (loadedItems items)
  | mapping entries =>
      .mapping ((Entries.ofList (· == ·) (loadedEntries entries)).map fun e => (.text e.1, e.2))

/-- `loadedItems items` is the values that the items of a list are read as. -/
def loadedItems : List Json → List Value
  | [] => []
  | item :: rest => loaded item :: loadedItems rest

/-- `loadedEntries entries` is the keys and values that the entries of a mapping are read as. -/
def loadedEntries : List (Text × Json) → List (Text × Value)
  | [] => []
  | (key, item) :: rest => (key.units, loaded item) :: loadedEntries rest

end

/-- Items are loaded one by one. -/
theorem loaded_items_eq_map (items : List Json) : loadedItems items = items.map loaded := by
  induction items with
  | nil => rfl
  | cons item rest ih => rw [loadedItems, ih, List.map_cons]

/-- Entries are loaded one by one, with the code units of their keys. -/
theorem loaded_entries_eq_map (entries : List (Text × Json)) :
    loadedEntries entries = entries.map fun (key, item) => (key.units, item.loaded) := by
  induction entries with
  | nil => rfl
  | cons entry rest ih => rw [loadedEntries, ih, List.map_cons]

/-- Items have their values one by one. -/
theorem values_eq_map (items : List Json) : values items = items.map value := by
  induction items with
  | nil => rfl
  | cons item rest ih => rw [values, ih, List.map_cons]

/-- Entries have their values one by one. -/
theorem value_entries_eq_map (entries : List (Text × Json)) :
    valueEntries entries = entries.map fun (key, item) => (.text key, item.value) := by
  induction entries with
  | nil => rfl
  | cons entry rest ih => rw [valueEntries, ih, List.map_cons]

/-! ## Integers -/

/-- A list can be written if all its items can. -/
theorem writable_list_iff {items : List Json} :
    (list items).value.Writable ↔ ∀ j ∈ items, j.value.Writable := by
  refine Value.writable_all_iff.trans ?_
  rw [values_eq_map, List.forall_mem_map]

/-- A mapping can be written if all its values can. -/
theorem writable_mapping_iff {entries : List (Text × Json)} :
    (mapping entries).value.Writable ↔ ∀ e ∈ entries, e.2.value.Writable := by
  refine Value.writable_entries_iff.trans ?_
  rw [value_entries_eq_map, List.forall_mem_map]
  have htext : ∀ key : Text, (Value.text key).Writable := fun key n hn =>
    absurd hn (by simp [Value.integers])
  exact forall₂_congr fun e _ => and_iff_right (htext e.1)

/-- No integer is read that was not written. -/
theorem writable_loaded (j : Json) (h : j.value.Writable) : j.loaded.Writable := by
  induction j using induct with
  | scalar j hj =>
      cases j with
      | null | bool | int | text => exact h
      | float negative magnitude =>
          rw [loaded]
          split
          · exact h
          · exact fun n hn => absurd hn (by simp [Value.integers])
      | list | mapping => exact absurd hj (by simp [isCollection])
  | list items ih =>
      rw [loaded, loaded_items_eq_map]
      exact Value.writable_all_iff.2 (List.forall_mem_map.2 fun j hj =>
        ih j hj (writable_list_iff.1 h j hj))
  | mapping entries ih =>
      rw [loaded, loaded_entries_eq_map]
      refine Value.writable_entries_iff.2 (List.forall_mem_map.2 fun e he => ?_)
      have hvalue := (Entries.forall_of_list (fun _ => True) Value.Writable
        (List.forall_mem_map.2 fun e he =>
          ⟨trivial, ih e he (writable_mapping_iff.1 h e he)⟩) e he).2
      exact ⟨fun n hn => absurd hn (by simp [Value.integers]), hvalue⟩

end UriTemplate.Json
