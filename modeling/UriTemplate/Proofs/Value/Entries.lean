import Mathlib.Data.List.Forall2
import Mathlib.Data.List.Induction
import Mathlib.Data.List.Nodup
import UriTemplate.Proofs.Outcome
import UriTemplate.Value

/-!
# Looking up entries

`Entries.insert` changes what is found at one key (`Entries.lookup_insert`) and keeps keys distinct
(`Entries.nodup_insert`), so that of several entries for a name the last is found
(`Entries.lookup_of_list`) where the first stood (`Entries.map_fst_of_list`), and of two bindings
put together those of the second win (`Bindings.get?_update`). What is found under distinct names
does not depend on their order (`Bindings.get?_of_perm`). Inserted keys and values are kept as they
are: what holds of the keys and values of the entries holds of those of `Entries.ofList`, which are
the entries themselves where no key is repeated (`Entries.of_list_of_nodup`). Entries under other
names for their keys stay so if two names are the same where the keys are
(`Entries.forall₂_of_list`).
-/

namespace UriTemplate

namespace Entries

variable {α β : Type}

/-- Values that are mapped are looked up mapped. -/
theorem lookup_map_value {γ : Type} [BEq α] (f : β → γ) (name : α) (entries : List (α × β)) :
    (entries.map fun e => (e.1, f e.2)).lookup name = (entries.lookup name).map f := by
  induction entries with
  | nil => rfl
  | cons entry rest ih =>
      rw [List.map_cons, List.lookup_cons, List.lookup_cons, ih]
      cases name == entry.1 <;> rfl

/-- In lists put together a key is found in the first list that has it. -/
theorem lookup_flatten [BEq α] (name : α) (lists : List (List (α × β))) :
    lists.flatten.lookup name = lists.findSome? (·.lookup name) := by
  induction lists with
  | nil => rfl
  | cons entries rest ih =>
      rw [List.flatten_cons, List.lookup_append, ih, List.findSome?_cons]
      cases entries.lookup name <;> rfl

section

variable [BEq α] [LawfulBEq α]

/-- Insertion changes what is found at one key only. -/
theorem lookup_insert (name key : α) (value : β) (entries : List (α × β)) :
    (insert (· == ·) key value entries).lookup name =
      if name == key then some value else entries.lookup name := by
  induction entries with
  | nil =>
      show List.lookup name [(key, value)] = _
      cases hname : name == key <;> simp [List.lookup_cons, hname]
  | cons entry rest ih =>
      obtain ⟨k, v⟩ := entry
      cases hkey : k == key with
      | true =>
          obtain rfl := eq_of_beq hkey
          cases hname : name == k <;> simp [insert, List.lookup_cons, hname]
      | false =>
          cases hname : name == k with
          | true =>
              obtain rfl := eq_of_beq hname
              simp [insert, hkey]
          | false => simp [insert, List.lookup_cons, hkey, hname, ih]

/-- Among inserted entries the last value of a key is found. -/
theorem lookup_update (name : α) (entries more : List (α × β)) :
    (update (· == ·) entries more).lookup name =
      (more.reverse.lookup name).or (entries.lookup name) := by
  induction more generalizing entries with
  | nil => rfl
  | cons entry rest ih =>
      obtain ⟨k, v⟩ := entry
      show (update (· == ·) (insert (· == ·) k v entries) rest).lookup name = _
      rw [ih, lookup_insert, List.reverse_cons, List.lookup_append, List.lookup_cons]
      cases name == k <;> cases rest.reverse.lookup name <;> rfl

/-- Of several entries with a key the last one is found. -/
theorem lookup_of_list (name : α) (entries : List (α × β)) :
    (ofList (· == ·) entries).lookup name = entries.reverse.lookup name :=
  (lookup_update name [] entries).trans Option.or_none

/-- What is found at a key does not depend on entries with other keys. -/
theorem lookup_filter {p : α → Bool} {name : α} (h : p name = true) (entries : List (α × β)) :
    (entries.filter fun e => p e.1).lookup name = entries.lookup name := by
  induction entries with
  | nil => rfl
  | cons entry rest ih =>
      obtain ⟨k, v⟩ := entry
      cases hkey : p k with
      | true =>
          have hfilter : ((k, v) :: rest).filter (fun e => p e.1) =
              (k, v) :: rest.filter fun e => p e.1 := List.filter_cons_of_pos hkey
          rw [hfilter, List.lookup_cons, List.lookup_cons, ih]
      | false =>
          have hfilter : ((k, v) :: rest).filter (fun e => p e.1) =
              rest.filter fun e => p e.1 := List.filter_cons_of_neg (by simp [hkey])
          have hname : (name == k) = false := by
            refine beq_false_of_ne fun heq => ?_
            rw [heq, hkey] at h
            exact Bool.false_ne_true h
          rw [hfilter, List.lookup_cons, hname, ih]

end

/-! ## Distinct keys -/

section

variable [BEq α] [LawfulBEq α]

/-- A new key is inserted at the end. -/
theorem insert_of_not_mem {key : α} {entries : List (α × β)} (value : β)
    (h : key ∉ entries.map Prod.fst) :
    insert (· == ·) key value entries = entries ++ [(key, value)] := by
  induction entries with
  | nil => rfl
  | cons entry rest ih =>
      obtain ⟨k, v⟩ := entry
      rw [List.map_cons, List.mem_cons, not_or] at h
      have hkey : (k == key) = false := beq_false_of_ne (Ne.symm h.1)
      rw [insert, hkey, ih h.2]
      rfl

/-- At a key that it has an entry is inserted in place. -/
theorem map_fst_insert_of_mem {key : α} {entries : List (α × β)} (value : β)
    (h : key ∈ entries.map Prod.fst) :
    (insert (· == ·) key value entries).map Prod.fst = entries.map Prod.fst := by
  induction entries with
  | nil => simp at h
  | cons entry rest ih =>
      obtain ⟨k, v⟩ := entry
      cases hkey : k == key with
      | true => simp [insert, hkey]
      | false =>
          have hne : key ≠ k := fun heq => by simp [heq] at hkey
          have hrest : key ∈ rest.map Prod.fst := (List.mem_cons.1 h).resolve_left hne
          simp [insert, hkey, ih hrest]

/-- The keys are in the order in which they first occur. -/
theorem map_fst_of_list (entries : List (α × β)) :
    (ofList (· == ·) entries).map Prod.fst = (entries.map Prod.fst).eraseDups := by
  induction entries using List.reverseRecOn with
  | nil => rfl
  | append_singleton entries entry ih =>
      obtain ⟨key, value⟩ := entry
      have hlast : ofList (· == ·) (entries ++ [(key, value)]) =
          insert (· == ·) key value (ofList (· == ·) entries) := List.foldl_append
      have hmem : key ∈ (ofList (· == ·) entries).map Prod.fst ↔ key ∈ entries.map Prod.fst := by
        rw [ih, List.mem_eraseDups]
      rw [hlast, List.map_append, List.eraseDups_append, ← ih]
      by_cases hkey : key ∈ entries.map Prod.fst
      · simp [map_fst_insert_of_mem value (hmem.2 hkey), List.removeAll, hkey]
      · simp [insert_of_not_mem value (mt hmem.1 hkey), List.removeAll, hkey, List.eraseDups_cons]

/-- Insertion keeps keys distinct. -/
theorem nodup_insert {entries : List (α × β)} (key : α) (value : β)
    (h : (entries.map Prod.fst).Nodup) :
    ((insert (· == ·) key value entries).map Prod.fst).Nodup := by
  by_cases hkey : key ∈ entries.map Prod.fst
  · rwa [map_fst_insert_of_mem value hkey]
  · rw [insert_of_not_mem value hkey, List.map_append, List.nodup_append]
    refine ⟨h, by simp, fun k hk l hl => ?_⟩
    rintro rfl
    simp only [List.map_cons, List.map_nil, List.mem_singleton] at hl
    exact hkey (hl ▸ hk)

/-- After an update no key comes twice. -/
theorem nodup_update {entries more : List (α × β)} (h : (entries.map Prod.fst).Nodup) :
    ((update (· == ·) entries more).map Prod.fst).Nodup := by
  induction more generalizing entries with
  | nil => exact h
  | cons entry rest ih => exact ih (nodup_insert entry.1 entry.2 h)

/-- New keys are added at the end. -/
theorem update_of_nodup {entries more : List (α × β)}
    (h : ((entries ++ more).map Prod.fst).Nodup) :
    update (· == ·) entries more = entries ++ more := by
  induction more generalizing entries with
  | nil => exact (List.append_nil entries).symm
  | cons entry rest ih =>
      obtain ⟨k, v⟩ := entry
      have hkey : k ∉ entries.map Prod.fst := by
        intro hmem
        rw [List.map_append, List.nodup_append] at h
        exact h.2.2 k hmem k (by simp) rfl
      have happend : entries ++ (k, v) :: rest = (entries ++ [(k, v)]) ++ rest := by simp
      rw [happend] at h ⊢
      show update (· == ·) (insert (· == ·) k v entries) rest = _
      rw [insert_of_not_mem v hkey, ih h]

/-- Entries with distinct keys stay as they are. -/
theorem of_list_of_nodup {entries : List (α × β)} (h : (entries.map Prod.fst).Nodup) :
    ofList (· == ·) entries = entries :=
  update_of_nodup h

end

/-! ## What is inserted is kept as it is -/

variable {same : α → α → Bool} {P : α → Prop} {Q : β → Prop}

/-- What holds of keys and values holds after an insertion. -/
theorem forall_insert {key : α} {value : β} {entries : List (α × β)} (hkey : P key)
    (hvalue : Q value) (h : ∀ e ∈ entries, P e.1 ∧ Q e.2) :
    ∀ e ∈ insert same key value entries, P e.1 ∧ Q e.2 := by
  induction entries with
  | nil => simpa [insert] using ⟨hkey, hvalue⟩
  | cons entry rest ih =>
      obtain ⟨k, v⟩ := entry
      have hhead := h (k, v) (by simp)
      have hrest : ∀ e ∈ rest, P e.1 ∧ Q e.2 := fun e he => h e (by simp [he])
      unfold insert
      split
      · exact List.forall_mem_cons.2 ⟨⟨hhead.1, hvalue⟩, hrest⟩
      · exact List.forall_mem_cons.2 ⟨hhead, ih hrest⟩

/-- What holds of keys holds after an insertion. -/
theorem forall_keys_insert {key : α} {value : β} {entries : List (α × β)} (hkey : P key)
    (h : ∀ e ∈ entries, P e.1) : ∀ e ∈ insert same key value entries, P e.1 := fun e he =>
  (forall_insert (Q := fun _ => True) hkey trivial (fun e he => ⟨h e he, trivial⟩) e he).1

/-- What holds of values holds after an insertion. -/
theorem forall_values_insert {key : α} {value : β} {entries : List (α × β)} (hvalue : Q value)
    (h : ∀ e ∈ entries, Q e.2) : ∀ e ∈ insert same key value entries, Q e.2 := fun e he =>
  (forall_insert (P := fun _ => True) trivial hvalue (fun e he => ⟨trivial, h e he⟩) e he).2

/-- What holds of keys and values holds after an update. -/
theorem forall_update {entries more : List (α × β)} (h : ∀ e ∈ entries, P e.1 ∧ Q e.2)
    (hmore : ∀ e ∈ more, P e.1 ∧ Q e.2) :
    ∀ e ∈ update same entries more, P e.1 ∧ Q e.2 := by
  induction more generalizing entries with
  | nil => exact h
  | cons entry rest ih =>
      have hhead := hmore entry (by simp)
      exact ih (forall_insert hhead.1 hhead.2 h) fun e he => hmore e (by simp [he])

/-- What holds of keys and values holds of what is put together. -/
theorem forall_of_list (P : α → Prop) (Q : β → Prop) {entries : List (α × β)}
    (h : ∀ e ∈ entries, P e.1 ∧ Q e.2) : ∀ e ∈ ofList same entries, P e.1 ∧ Q e.2 :=
  forall_update (by simp) h

section

variable {γ δ : Type} {other : γ → γ → Bool} {K : α → γ → Prop} {R : β → δ → Prop}

/-- Entries that correspond still do when corresponding ones are inserted, if the keys are the same
on both sides alike. -/
theorem forall₂_insert (hsame : ∀ a b c d, K a c → K b d → same a b = other c d) {key : α}
    {value : β} {name : γ} {result : δ} (hkey : K key name) (hvalue : R value result)
    {entries : List (α × β)} {results : List (γ × δ)}
    (h : List.Forall₂ (fun e f => K e.1 f.1 ∧ R e.2 f.2) entries results) :
    List.Forall₂ (fun e f => K e.1 f.1 ∧ R e.2 f.2) (insert same key value entries)
      (insert other name result results) := by
  induction h with
  | nil => exact .cons ⟨hkey, hvalue⟩ .nil
  | @cons e f entries results hhead hrest ih =>
      rw [insert, insert, hsame _ _ _ _ hhead.1 hkey]
      split
      · exact .cons ⟨hhead.1, hvalue⟩ hrest
      · exact .cons hhead ih

/-- Related entries are put together to related ones, if their keys are the same alike. -/
theorem forall₂_of_list (hsame : ∀ a b c d, K a c → K b d → same a b = other c d)
    {entries : List (α × β)} {results : List (γ × δ)}
    (h : List.Forall₂ (fun e f => K e.1 f.1 ∧ R e.2 f.2) entries results) :
    List.Forall₂ (fun e f => K e.1 f.1 ∧ R e.2 f.2) (ofList same entries)
      (ofList other results) := by
  have hinserted : ∀ (before : List (α × β)) (found : List (γ × δ)),
      List.Forall₂ (fun e f => K e.1 f.1 ∧ R e.2 f.2) before found →
      List.Forall₂ (fun e f => K e.1 f.1 ∧ R e.2 f.2) (update same before entries)
        (update other found results) := by
    induction h with
    | nil => exact fun _ _ hbefore => hbefore
    | cons hhead _ ih =>
        exact fun _ _ hbefore => ih _ _ (forall₂_insert hsame hhead.1 hhead.2 hbefore)
  exact hinserted [] [] .nil

end

/-- Entries with the same keys are put together to the same ones, if the values of those that are
left are the same. The values of the others, whose keys come again, do not count. -/
theorem map_of_list_congr {γ : Type} [BEq α] {f : β → γ} {p : β → Prop}
    {entries : List (α × β)} {results : List (α × γ)}
    (h : List.Forall₂ (fun e r => e.1 = r.1 ∧ (p e.2 → f e.2 = r.2)) entries results)
    (hp : ∀ e ∈ ofList (· == ·) entries, p e.2) :
    (ofList (· == ·) entries).map (fun e => (e.1, f e.2)) = ofList (· == ·) results := by
  have hput : List.Forall₂ (fun e r => e.1 = r.1 ∧ (p e.2 → f e.2 = r.2))
      (ofList (· == ·) entries) (ofList (· == ·) results) :=
    forall₂_of_list (K := Eq) (R := fun b c => p b → f b = c)
      (by rintro a b _ _ rfl rfl; rfl) h
  rw [← List.forall₂_eq_eq_eq, List.forall₂_map_left_iff]
  refine forall₂_imp_of_mem hput ?_
  rintro e he r _ ⟨hkey, hvalue⟩
  exact Prod.ext hkey (hvalue (hp e he))

end Entries

namespace Bindings

variable {bindings more : Bindings} {name : Text} {v : Value}

/-- What is put together has distinct names. -/
theorem distinct_of_list (entries : List (Text × Value)) : (ofList entries).Distinct :=
  Entries.nodup_update List.nodup_nil

/-- Of the values that entries give a name the last one is bound. -/
theorem get?_of_list (entries : List (Text × Value)) (name : Text) :
    (ofList entries).get? name = entries.reverse.lookup name :=
  Entries.lookup_of_list name entries

/-- What is found under a name is bound to it. -/
theorem mem_of_get? (h : bindings.get? name = some v) : (name, v) ∈ bindings := by
  obtain ⟨before, after, rfl, _⟩ := List.lookup_eq_some_iff.1 h
  simp

/-- A name is bound to a value exactly if they are an entry. -/
theorem get?_eq_some_iff (hdistinct : bindings.Distinct) :
    bindings.get? name = some v ↔ (name, v) ∈ bindings := by
  refine ⟨mem_of_get?, fun h => ?_⟩
  obtain ⟨before, after, rfl⟩ := List.append_of_mem h
  refine List.lookup_eq_some_iff.2 ⟨before, after, rfl, fun e he => ?_⟩
  -- A second entry under the name would make the names not distinct.
  unfold Distinct at hdistinct
  rw [List.map_append, List.map_cons, List.nodup_append] at hdistinct
  have hne := hdistinct.2.2 e.1 (List.mem_map.2 ⟨e, he, rfl⟩) name (by simp)
  simpa using hne.symm

/-- What is found under distinct names does not depend on their order. -/
theorem get?_of_perm (hdistinct : bindings.Distinct) (h : bindings.Perm more) (name : Text) :
    bindings.get? name = more.get? name := by
  have hmore : more.Distinct := (h.map Prod.fst).nodup_iff.1 hdistinct
  refine Option.ext fun v => ?_
  rw [get?_eq_some_iff hdistinct, get?_eq_some_iff hmore]
  exact h.mem_iff

/-- An update goes before what was bound. -/
theorem get?_update (bindings : Bindings) (hmore : more.Distinct) (name : Text) :
    (bindings.update more).get? name = (more.get? name).or (bindings.get? name) := by
  have hreverse := get?_of_perm hmore more.reverse_perm.symm name
  rw [hreverse]
  exact Entries.lookup_update name bindings more

end Bindings

end UriTemplate
