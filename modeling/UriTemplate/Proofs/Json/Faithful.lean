import UriTemplate.Proofs.Json.Values

/-!
# Values that are read as they were written

The value that a JSON text is read as is the one that was written exactly if all its floating-point
numbers have a point and none of its texts and keys has a code point of two code units
(`Json.loaded_eq_value_iff`). Otherwise no other JSON text is read as it either.
-/

namespace UriTemplate.Json

open Yaml

/-! ## Faithful values -/

/-- `isBasic t` says that every code point of `t` is one code unit. -/
def isBasic (t : Text) : Bool := t.all fun c => c.val < 0x10000

/-- `j.isExact` says that `j` itself is read as it was written: a floating-point number with a
point, and a text or the keys of a mapping with code points of one code unit each. -/
def isExact : Json → Bool
  | float _ magnitude => HasPoint magnitude
  | text t => isBasic t
  | mapping entries => entries.all fun e => isBasic e.1
  | _ => true

/-- `j.isFaithful` says that of every value in `j`. -/
def isFaithful (j : Json) : Bool := j.all isExact

/-- `j.hasDistinctKeys` says that `j`, if it is a mapping, repeats no key. -/
def hasDistinctKeys : Json → Bool
  | mapping entries => (entries.map Prod.fst).Nodup
  | _ => true

/-- `j.isDistinct` says that no mapping in `j` repeats a key. -/
def isDistinct (j : Json) : Bool := j.all hasDistinctKeys

/-- A mapping is faithful if its first entry and the others are. -/
theorem is_faithful_cons (key : Text) (item : Json) (rest : List (Text × Json)) :
    (mapping ((key, item) :: rest)).isFaithful =
      (isBasic key && (item.isFaithful && (mapping rest).isFaithful)) :=
  all_mapping_cons (fun _ => rfl) key item rest

/-- A text is basic exactly if it is its own code units. -/
theorem is_basic_iff {t : Text} : isBasic t = true ↔ t.units = t := by
  rw [Text.units_eq_self_iff]
  simp [isBasic]

mutual

/-- A faithful value whose mappings repeat no key is back. -/
theorem loaded_of_is_faithful (j : Json) (hdistinct : j.isDistinct = true)
    (h : j.isFaithful = true) : j.loaded = j.value := by
  cases j with
  | null | bool | int => rfl
  | float negative magnitude => exact if_pos (of_decide_eq_true h)
  | text t => exact congrArg Value.text (is_basic_iff.1 h)
  | list items => exact congrArg Value.list (loaded_items_of_is_faithful items hdistinct h)
  | mapping entries =>
      obtain ⟨hkeys, hentries⟩ := Bool.and_eq_true_iff.1 hdistinct
      have hloaded := loaded_entries_of_is_faithful entries hentries h
      have hnodup : ((entries.map fun (key, item) => (key, item.value)).map Prod.fst).Nodup := by
        rw [List.map_map]
        exact of_decide_eq_true hkeys
      rw [loaded, hloaded, Entries.of_list_of_nodup hnodup, value, value_entries_eq_map,
        List.map_map]
      rfl
termination_by structural j

/-- Exact items are loaded as their values. -/
theorem loaded_items_of_is_faithful (items : List Json)
    (hdistinct : allItems hasDistinctKeys items = true) (h : allItems isExact items = true) :
    loadedItems items = values items := by
  cases items with
  | nil => rfl
  | cons item rest =>
      obtain ⟨hitem, hrest⟩ := Bool.and_eq_true_iff.1 h
      obtain ⟨hdistinct, hdistinctRest⟩ := Bool.and_eq_true_iff.1 hdistinct
      rw [loadedItems, loaded_of_is_faithful item hdistinct hitem,
        loaded_items_of_is_faithful rest hdistinctRest hrest, values]
termination_by structural items

/-- Exact entries are loaded as theirs. -/
theorem loaded_entries_of_is_faithful (entries : List (Text × Json))
    (hdistinct : allEntries hasDistinctKeys entries = true)
    (h : (mapping entries).isFaithful = true) :
    loadedEntries entries = entries.map fun (key, item) => (key, item.value) := by
  cases entries with
  | nil => rfl
  | cons entry rest =>
      obtain ⟨key, item⟩ := entry
      rw [is_faithful_cons] at h
      obtain ⟨hkey, h⟩ := Bool.and_eq_true_iff.1 h
      obtain ⟨hitem, hrest⟩ := Bool.and_eq_true_iff.1 h
      obtain ⟨hdistinct, hdistinctRest⟩ := Bool.and_eq_true_iff.1 hdistinct
      rw [loadedEntries, loaded_of_is_faithful item hdistinct hitem, is_basic_iff.1 hkey,
        loaded_entries_of_is_faithful rest hdistinctRest hrest, List.map_cons]
termination_by structural entries

end

/-! ## What is read is faithful -/

/-- Code units are basic. -/
theorem is_basic_units (t : Text) : isBasic t.units = true := by
  simpa [isBasic] using fun u => Text.val_lt_of_mem_units u

/-- A JSON text is ASCII, whatever it stands for. -/
theorem is_basic_source (j : Json) : isBasic j.source = true := by
  refine List.all_eq_true.2 fun c hc => decide_eq_true ?_
  exact Nat.lt_of_le_of_lt (is_printable_ascii_source j c hc).2 (by decide)

/-- A finite number that is loaded is written with a point. -/
theorem has_point_of_loaded {j : Json} {negative : Bool} {magnitude : Magnitude}
    (h : j.loaded = .float (.finite negative magnitude)) : HasPoint magnitude := by
  cases j with
  | float _ m =>
      rw [loaded] at h
      split at h
      · next hpoint =>
          cases h
          exact hpoint
      · exact absurd h (by simp)
  | null | bool | int | text | list | mapping => exact absurd h (by simp [loaded])

/-- A text that is loaded is basic. -/
theorem is_basic_of_loaded {j : Json} {t : Text} (h : j.loaded = .text t) : isBasic t = true := by
  cases j with
  | float =>
      rw [loaded] at h
      split at h
      · exact absurd h (by simp)
      · cases h
        exact is_basic_source _
  | text u =>
      cases h
      exact is_basic_units u
  | null | bool | int | list | mapping => exact absurd h (by simp [loaded])

/-- The items of a list that is read are values that are read. -/
theorem exists_of_loaded_list {j : Json} {vs : List Value} (h : j.loaded = .list vs) :
    ∀ v ∈ vs, ∃ item : Json, v = item.loaded := by
  cases j with
  | list items =>
      cases h
      intro v hv
      rw [loaded_items_eq_map] at hv
      obtain ⟨item, _, rfl⟩ := List.mem_map.1 hv
      exact ⟨item, rfl⟩
  | float =>
      rw [loaded] at h
      split at h <;> exact absurd h (by simp)
  | null | bool | int | text | mapping => exact absurd h (by simp [loaded])

/-- An entry that is loaded has a basic key and a loaded item. -/
theorem exists_of_mem_loaded_entries {entries : List (Text × Json)} {e : Text × Value}
    (h : e ∈ loadedEntries entries) : isBasic e.1 = true ∧ ∃ item : Json, e.2 = item.loaded := by
  rw [loaded_entries_eq_map] at h
  obtain ⟨entry, _, rfl⟩ := List.mem_map.1 h
  exact ⟨is_basic_units entry.1, entry.2, rfl⟩

/-- The values of a mapping that is read are values that are read, and its keys are code units. -/
theorem exists_of_loaded_mapping {j : Json} {es : List (Value × Value)}
    (h : j.loaded = .mapping es) :
    ∀ e ∈ es, ∃ (key : Text) (item : Json), isBasic key = true ∧ e = (.text key, item.loaded) := by
  cases j with
  | mapping entries =>
      cases h
      intro e he
      obtain ⟨⟨key, v⟩, hmem, rfl⟩ := List.mem_map.1 he
      obtain ⟨hkey, item, rfl⟩ := Entries.forall_of_list (isBasic · = true)
        (fun v => ∃ item : Json, v = item.loaded)
        (fun e he => exists_of_mem_loaded_entries he) _ hmem
      exact ⟨key, item, hkey, rfl⟩
  | float =>
      rw [loaded] at h
      split at h <;> exact absurd h (by simp)
  | null | bool | int | text | list => exact absurd h (by simp [loaded])

mutual

/-- Whatever a JSON text is read as is itself written faithfully. -/
theorem is_faithful_of_value_eq_loaded (j other : Json) (h : other.loaded = j.value) :
    j.isFaithful = true := by
  cases j with
  | null | bool | int => rfl
  | float negative magnitude => exact decide_eq_true (has_point_of_loaded h)
  | text t => exact is_basic_of_loaded h
  | list items => exact is_faithful_items_of_forall items (exists_of_loaded_list h)
  | mapping entries => exact is_faithful_entries_of_forall entries (exists_of_loaded_mapping h)
termination_by structural j

/-- Items whose values are loaded from some text are exact. -/
theorem is_faithful_items_of_forall (items : List Json)
    (h : ∀ v ∈ values items, ∃ other : Json, v = other.loaded) :
    allItems isExact items = true := by
  cases items with
  | nil => rfl
  | cons item rest =>
      obtain ⟨⟨other, hother⟩, hrest⟩ := List.forall_mem_cons.1 h
      have hitem := is_faithful_of_value_eq_loaded item other hother.symm
      exact Bool.and_eq_true_iff.2 ⟨hitem, is_faithful_items_of_forall rest hrest⟩
termination_by structural items

/-- Entries with basic keys whose values are loaded from some text are exact. -/
theorem is_faithful_entries_of_forall (entries : List (Text × Json))
    (h : ∀ e ∈ valueEntries entries, ∃ (key : Text) (other : Json), isBasic key = true ∧
      e = (.text key, other.loaded)) : (mapping entries).isFaithful = true := by
  cases entries with
  | nil => rfl
  | cons entry rest =>
      obtain ⟨key, item⟩ := entry
      obtain ⟨⟨k, other, hkey, heq⟩, hrest⟩ := List.forall_mem_cons.1 h
      obtain ⟨htext, hother⟩ := Prod.mk.inj heq
      cases htext
      have hitem := is_faithful_of_value_eq_loaded item other hother.symm
      rw [is_faithful_cons]
      exact Bool.and_eq_true_iff.2 ⟨hkey, Bool.and_eq_true_iff.2
        ⟨hitem, is_faithful_entries_of_forall rest hrest⟩⟩
termination_by structural entries

end

/-- A value whose mappings repeat no key is back exactly if it is written faithfully. -/
theorem loaded_eq_value_iff {j : Json} (hdistinct : j.isDistinct = true) :
    j.loaded = j.value ↔ j.isFaithful = true :=
  ⟨is_faithful_of_value_eq_loaded j j, loaded_of_is_faithful j hdistinct⟩

end UriTemplate.Json
