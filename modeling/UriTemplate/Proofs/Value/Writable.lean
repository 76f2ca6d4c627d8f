import UriTemplate.Value.Display
import UriTemplate.Proofs.Outcome

/-!
# Values that can be written

`Value.Writable v` says that no integer inside `v` has more digits than may be written. A value that
has a text is writable (`Value.writable_of_display`), and a writable value has one
(`Value.exists_display`).
-/

namespace UriTemplate

namespace Value

mutual

/-- `integers v` is the integers inside the value `v`. -/
def integers : Value → List Int
  | int n => [n]
  | list items | tuple items | set items => integersOfAll items
  | mapping entries | pairs entries => integersOfEntries entries
  | _ => []

/-- `integersOfAll items` is the integers inside the items of a container. -/
def integersOfAll : List Value → List Int
  | [] => []
  | v :: rest => integers v ++ integersOfAll rest

/-- `integersOfEntries entries` is the integers inside the keys and values of a container. -/
def integersOfEntries : List (Value × Value) → List Int
  | [] => []
  | (k, v) :: rest => integers k ++ integers v ++ integersOfEntries rest

end

/-- `v.Writable` says that no integer inside `v` has more than `Decimal.digitLimit` digits. -/
def Writable (v : Value) : Prop := ∀ n ∈ v.integers, Decimal.exceedsLimit n = false

instance (v : Value) : Decidable v.Writable :=
  inferInstanceAs (Decidable (∀ n ∈ v.integers, Decimal.exceedsLimit n = false))

variable {v : Value} {n : Int} {items : List Value} {entries : List (Value × Value)}

/-! ## Integers inside containers -/

/-- The integers of items are those inside one of them. -/
theorem mem_integers_of_all : n ∈ integersOfAll items ↔ ∃ v ∈ items, n ∈ v.integers := by
  induction items with
  | nil => simp [integersOfAll]
  | cons v rest ih => simp [integersOfAll, ih]

/-- The integers of entries are those inside a key or a value. -/
theorem mem_integers_of_entries :
    n ∈ integersOfEntries entries ↔ ∃ e ∈ entries, n ∈ e.1.integers ∨ n ∈ e.2.integers := by
  induction entries with
  | nil => simp [integersOfEntries]
  | cons e rest ih => simp [integersOfEntries, ih, or_assoc]

/-- The integers inside items can be written exactly when each item can. -/
theorem writable_all_iff :
    (∀ n ∈ integersOfAll items, Decimal.exceedsLimit n = false) ↔ ∀ v ∈ items, v.Writable := by
  constructor
  · intro h v hv n hn
    exact h n (mem_integers_of_all.2 ⟨v, hv, hn⟩)
  · intro h n hn
    obtain ⟨v, hv, hn⟩ := mem_integers_of_all.1 hn
    exact h v hv n hn

/-- The integers inside entries can be written exactly when each key and value can. -/
theorem writable_entries_iff :
    (∀ n ∈ integersOfEntries entries, Decimal.exceedsLimit n = false) ↔
      ∀ e ∈ entries, e.1.Writable ∧ e.2.Writable := by
  constructor
  · intro h e he
    refine ⟨fun n hn => ?_, fun n hn => ?_⟩
    · exact h n (mem_integers_of_entries.2 ⟨e, he, .inl hn⟩)
    · exact h n (mem_integers_of_entries.2 ⟨e, he, .inr hn⟩)
  · intro h n hn
    obtain ⟨e, he, hkey | hvalue⟩ := mem_integers_of_entries.1 hn
    · exact (h e he).1 n hkey
    · exact (h e he).2 n hvalue

/-! ## A value that has a text is writable -/

/-- An integer is written exactly if it does not exceed the limit of digits. -/
theorem of_int?_eq_ok_iff {t : Text} :
    Decimal.ofInt? n = .ok t ↔ Decimal.exceedsLimit n = false ∧ Decimal.ofInt n = t := by
  unfold Decimal.ofInt?
  split
  · rename_i h
    rw [h]
    simp
  · rename_i h
    rw [Bool.not_eq_true] at h
    rw [h]
    simp

mutual

/-- A value that has a text is writable. -/
theorem writable_of_display {v : Value} {t : Text} (h : v.display = .ok t) : v.Writable := by
  cases v with
  | int n =>
      rw [display, of_int?_eq_ok_iff] at h
      intro m hm
      rw [integers, List.mem_singleton] at hm
      rw [hm]
      exact h.1
  | list items | tuple items | set items =>
      rw [display] at h
      obtain ⟨ts, hts, _⟩ := bind_eq_ok_iff.1 h
      exact writable_all_iff.2 (writable_of_display_all hts)
  | mapping entries =>
      rw [display] at h
      obtain ⟨ts, hts, _⟩ := bind_eq_ok_iff.1 h
      exact writable_entries_iff.2 (writable_of_display_entries hts)
  | pairs entries =>
      rw [display] at h
      obtain ⟨ts, hts, _⟩ := bind_eq_ok_iff.1 h
      exact writable_entries_iff.2 (writable_of_display_pairs hts)
  | null | bool | float | text | bytes | date | dateTime | object =>
      intro m hm
      exact absurd hm (by simp [integers])
termination_by structural v

/-- Items that are displayed are writable. -/
theorem writable_of_display_all {items : List Value} {ts : List Text}
    (h : displayAll items = .ok ts) : ∀ v ∈ items, v.Writable := by
  cases items with
  | nil => simp
  | cons v rest =>
      rw [displayAll] at h
      obtain ⟨t, ht, h⟩ := bind_eq_ok_iff.1 h
      obtain ⟨more, hmore, _⟩ := bind_eq_ok_iff.1 h
      exact List.forall_mem_cons.2 ⟨writable_of_display ht, writable_of_display_all hmore⟩
termination_by structural items

/-- Entries that are displayed are writable. -/
theorem writable_of_display_entries {entries : List (Value × Value)} {ts : List Text}
    (h : displayEntries entries = .ok ts) : ∀ e ∈ entries, e.1.Writable ∧ e.2.Writable := by
  cases entries with
  | nil => simp
  | cons e rest =>
      obtain ⟨k, v⟩ := e
      rw [displayEntries] at h
      obtain ⟨key, hkey, h⟩ := bind_eq_ok_iff.1 h
      obtain ⟨t, ht, h⟩ := bind_eq_ok_iff.1 h
      obtain ⟨more, hmore, _⟩ := bind_eq_ok_iff.1 h
      exact List.forall_mem_cons.2
        ⟨⟨writable_of_display hkey, writable_of_display ht⟩, writable_of_display_entries hmore⟩
termination_by structural entries

/-- Pairs that are displayed are writable. -/
theorem writable_of_display_pairs {entries : List (Value × Value)} {ts : List Text}
    (h : displayPairs entries = .ok ts) : ∀ e ∈ entries, e.1.Writable ∧ e.2.Writable := by
  cases entries with
  | nil => simp
  | cons e rest =>
      obtain ⟨k, v⟩ := e
      rw [displayPairs] at h
      obtain ⟨key, hkey, h⟩ := bind_eq_ok_iff.1 h
      obtain ⟨t, ht, h⟩ := bind_eq_ok_iff.1 h
      obtain ⟨more, hmore, _⟩ := bind_eq_ok_iff.1 h
      exact List.forall_mem_cons.2
        ⟨⟨writable_of_display hkey, writable_of_display ht⟩, writable_of_display_pairs hmore⟩
termination_by structural entries

end

/-! ## A writable value has a text -/

mutual

/-- A writable value has a text. -/
theorem exists_display {v : Value} (h : v.Writable) : ∃ t, v.display = .ok t := by
  cases v with
  | int n =>
      have hn : Decimal.exceedsLimit n = false := h n (by simp [integers])
      exact ⟨_, of_int?_eq_ok_iff.2 ⟨hn, rfl⟩⟩
  | list items | tuple items | set items =>
      obtain ⟨ts, hts⟩ := exists_display_all (writable_all_iff.1 h)
      exact ⟨_, bind_eq_ok_iff.2 ⟨ts, hts, rfl⟩⟩
  | mapping entries =>
      obtain ⟨ts, hts⟩ := exists_display_entries (writable_entries_iff.1 h)
      exact ⟨_, bind_eq_ok_iff.2 ⟨ts, hts, rfl⟩⟩
  | pairs entries =>
      obtain ⟨ts, hts⟩ := exists_display_pairs (writable_entries_iff.1 h)
      exact ⟨_, bind_eq_ok_iff.2 ⟨ts, hts, rfl⟩⟩
  | null | bool | float | text | bytes | date | dateTime | object => exact ⟨_, rfl⟩
termination_by structural v

/-- Writable items are displayed. -/
theorem exists_display_all {items : List Value} (h : ∀ v ∈ items, v.Writable) :
    ∃ ts, displayAll items = .ok ts := by
  cases items with
  | nil => exact ⟨_, rfl⟩
  | cons v rest =>
      obtain ⟨hv, hrest⟩ := List.forall_mem_cons.1 h
      obtain ⟨t, ht⟩ := exists_display hv
      obtain ⟨ts, hts⟩ := exists_display_all hrest
      rw [displayAll, ht, ok_bind, hts]
      exact ⟨_, rfl⟩
termination_by structural items

/-- Writable entries are displayed. -/
theorem exists_display_entries {entries : List (Value × Value)}
    (h : ∀ e ∈ entries, e.1.Writable ∧ e.2.Writable) :
    ∃ ts, displayEntries entries = .ok ts := by
  cases entries with
  | nil => exact ⟨_, rfl⟩
  | cons e rest =>
      obtain ⟨k, v⟩ := e
      obtain ⟨⟨hk, hv⟩, hrest⟩ := List.forall_mem_cons.1 h
      obtain ⟨key, hkey⟩ := exists_display hk
      obtain ⟨t, ht⟩ := exists_display hv
      obtain ⟨ts, hts⟩ := exists_display_entries hrest
      rw [displayEntries, hkey, ok_bind, ht, ok_bind, hts]
      exact ⟨_, rfl⟩
termination_by structural entries

/-- Writable pairs are displayed. -/
theorem exists_display_pairs {entries : List (Value × Value)}
    (h : ∀ e ∈ entries, e.1.Writable ∧ e.2.Writable) :
    ∃ ts, displayPairs entries = .ok ts := by
  cases entries with
  | nil => exact ⟨_, rfl⟩
  | cons e rest =>
      obtain ⟨k, v⟩ := e
      obtain ⟨⟨hk, hv⟩, hrest⟩ := List.forall_mem_cons.1 h
      obtain ⟨key, hkey⟩ := exists_display hk
      obtain ⟨t, ht⟩ := exists_display hv
      obtain ⟨ts, hts⟩ := exists_display_pairs hrest
      rw [displayPairs, hkey, ok_bind, ht, ok_bind, hts]
      exact ⟨_, rfl⟩
termination_by structural entries

end

end Value

end UriTemplate
