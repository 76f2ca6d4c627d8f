import UriTemplate.Proofs.Outcome
import UriTemplate.Yaml.Flatten
import UriTemplate.Yaml.Loader

/-!
# Merge keys of a graph

`MergesInto` says what the merge keys among some entries bring in, and `Merged` which entries a
mapping then has. Merge keys are resolved in place, one mapping after the other, and the special key
becomes a text where it is met as a key. So `Later` says what the graph of a document may have
become in the meantime. What is done with one entry or one node is said once, by
`merge_keys_cons_ok` and `bring_each_cons_ok`.
-/

namespace UriTemplate.Yaml

namespace Graph

mutual

/-- `MergesInto g entries merged own` says that the merge keys among the entries bring in the
entries `merged`, and that the other entries are `own`. -/
inductive MergesInto (g : Graph) :
    List (Nat × Nat) → List (Nat × Nat) → List (Nat × Nat) → Prop where
  | nil : MergesInto g [] [] []
  | own {key value rest merged own} : (g key).tag ≠ .merge → MergesInto g rest merged own →
      MergesInto g ((key, value) :: rest) merged ((key, value) :: own)
  | merge {key value nodes brought rest merged own} : (g key).tag = .merge →
      g.sources? value = some nodes → BringsEach g nodes brought →
      MergesInto g rest merged own →
      MergesInto g ((key, value) :: rest) (brought ++ merged) own

/-- `BringsEach g nodes brought` says that the nodes are mappings with the entries `brought`, those
of the last mapping first. -/
inductive BringsEach (g : Graph) : List Nat → List (Nat × Nat) → Prop where
  | nil : BringsEach g [] []
  | cons {node tag entries merged own rest later} : g node = .mapping tag entries →
      MergesInto g entries merged own → BringsEach g rest later →
      BringsEach g (node :: rest) (later ++ (merged ++ own))

end

/-- `g.Merged i entries` says that the node `i` is a mapping that has these entries when its merge
keys are resolved. -/
def Merged (g : Graph) (i : Nat) (entries : List (Nat × Nat)) : Prop :=
  ∃ tag written merged own, g i = .mapping tag written ∧ MergesInto g written merged own ∧
    entries = merged ++ own

mutual

/-- Merge keys bring in the same whenever they are resolved. -/
theorem MergesInto.unique {g : Graph} {entries merged own merged' own' : List (Nat × Nat)}
    (h : MergesInto g entries merged own) (h' : MergesInto g entries merged' own') :
    merged = merged' ∧ own = own' := by
  match h, h' with
  | .nil, .nil => exact ⟨rfl, rfl⟩
  | .own _ hrest, .own _ hrest' =>
      obtain ⟨rfl, rfl⟩ := hrest.unique hrest'
      exact ⟨rfl, rfl⟩
  | .merge _ hnodes hbrings hrest, .merge _ hnodes' hbrings' hrest' =>
      obtain rfl := Option.some.inj (hnodes.symm.trans hnodes')
      obtain rfl := hbrings.unique hbrings'
      obtain ⟨rfl, rfl⟩ := hrest.unique hrest'
      exact ⟨rfl, rfl⟩
  | .own hkey _, .merge hmerge _ _ _ => exact absurd hmerge hkey
  | .merge hmerge _ _ _, .own hkey _ => exact absurd hmerge hkey

/-- Mappings bring in the same whenever they are merged. -/
theorem BringsEach.unique {g : Graph} {nodes : List Nat} {brought brought' : List (Nat × Nat)}
    (h : BringsEach g nodes brought) (h' : BringsEach g nodes brought') : brought = brought' := by
  match h, h' with
  | .nil, .nil => rfl
  | .cons hnode hinto hrest, .cons hnode' hinto' hrest' =>
      obtain ⟨rfl, rfl⟩ := Cell.mapping.inj (hnode.symm.trans hnode')
      obtain ⟨rfl, rfl⟩ := hinto.unique hinto'
      obtain rfl := hrest.unique hrest'
      rfl

end

/-- A mapping has the same entries whenever its merge keys are resolved. -/
theorem Merged.unique {g : Graph} {i : Nat} {es es' : List (Nat × Nat)} (h : g.Merged i es)
    (h' : g.Merged i es') : es = es' := by
  obtain ⟨tag, written, merged, own, hcell, hinto, rfl⟩ := h
  obtain ⟨tag', written', merged', own', hcell', hinto', rfl⟩ := h'
  obtain ⟨rfl, rfl⟩ := Cell.mapping.inj (hcell.symm.trans hcell')
  obtain ⟨rfl, rfl⟩ := hinto.unique hinto'
  rfl

mutual

/-- No merge key is left where merge keys are resolved. -/
theorem MergesInto.merge_free {g : Graph} {entries merged own : List (Nat × Nat)}
    (h : MergesInto g entries merged own) : ∀ e ∈ merged ++ own, (g e.1).tag ≠ .merge := by
  match h with
  | .nil => simp
  | .own hkey hrest =>
      intro e he
      rcases List.mem_append.1 he with hmerged | hown
      · exact hrest.merge_free e (List.mem_append_left _ hmerged)
      · rcases List.mem_cons.1 hown with rfl | hown
        · exact hkey
        · exact hrest.merge_free e (List.mem_append_right _ hown)
  | .merge _ _ hbrings hrest =>
      intro e he
      rw [List.append_assoc] at he
      rcases List.mem_append.1 he with hbrought | hothers
      · exact hbrings.merge_free e hbrought
      · exact hrest.merge_free e hothers

/-- Mappings bring in no merge key. -/
theorem BringsEach.merge_free {g : Graph} {nodes : List Nat} {brought : List (Nat × Nat)}
    (h : BringsEach g nodes brought) : ∀ e ∈ brought, (g e.1).tag ≠ .merge := by
  match h with
  | .nil => simp
  | .cons _ hinto hrest =>
      intro e he
      rcases List.mem_append.1 he with hlater | hthis
      · exact hrest.merge_free e hlater
      · exact hinto.merge_free e hthis

end

/-- A mapping whose merge keys are resolved has none left. -/
theorem Merged.merge_free {g : Graph} {i : Nat} {es : List (Nat × Nat)} (h : g.Merged i es) :
    ∀ e ∈ es, (g e.1).tag ≠ .merge := by
  obtain ⟨_, _, _, _, _, hinto, rfl⟩ := h
  exact hinto.merge_free

/-- Entries without a merge key bring in nothing and stay as they are. -/
theorem merges_into_of_merge_free {g : Graph} {entries : List (Nat × Nat)}
    (h : ∀ e ∈ entries, (g e.1).tag ≠ .merge) : MergesInto g entries [] entries := by
  induction entries with
  | nil => exact .nil
  | cons e rest ih =>
      obtain ⟨he, hrest⟩ := List.forall_mem_cons.1 h
      exact .own he (ih hrest)

/-- A mapping without merge keys keeps its entries. -/
theorem Merged.of_merge_free {g : Graph} {i : Nat} {tag : Tag} {entries : List (Nat × Nat)}
    (hcell : g i = .mapping tag entries) (h : ∀ e ∈ entries, (g e.1).tag ≠ .merge) :
    g.Merged i entries :=
  ⟨tag, entries, [], entries, hcell, merges_into_of_merge_free h, rfl⟩

end Graph

/-! ## What a graph may become -/

namespace Graph

/-- `g.own entries` is the entries whose keys are no merge keys. -/
def own (g : Graph) (entries : List (Nat × Nat)) : List (Nat × Nat) :=
  entries.filter fun e => (g e.1).tag ≠ .merge

/-- `g.merging entries` is the entries whose keys are merge keys. -/
def merging (g : Graph) (entries : List (Nat × Nat)) : List (Nat × Nat) :=
  entries.filter fun e => (g e.1).tag = .merge

/-- `g.Brings n i` says that a merge key of the node `n` brings in the entries of the node `i`. -/
def Brings (g : Graph) (n i : Nat) : Prop :=
  ∃ e ∈ g.merging (g n).entries, ∃ nodes, g.sources? e.2 = some nodes ∧ i ∈ nodes

/-- `g.Rewritten n` says that the entries of the node `n` are looked through for merge keys: a
mapping or a set is made of it, or it is merged into another. -/
def Rewritten (g : Graph) (n : Nat) : Prop :=
  (g n).tag = .map ∨ (g n).tag = .set ∨ ∃ m, g.Brings m n

/-- A mapping or a set is rewritten. -/
theorem rewritten_of_tag {g : Graph} {n : Nat} {tag : Tag} {entries : List (Nat × Nat)}
    (hcell : g n = .mapping tag entries) (htag : tag = .map ∨ tag = .set) : g.Rewritten n := by
  unfold Rewritten
  rw [hcell]
  exact htag.imp_right .inl

/-- `g.Met k` says that the node `k` is met as a key when merge keys are resolved. -/
def Met (g : Graph) (k : Nat) : Prop := ∃ n, g.Rewritten n ∧ ∃ e ∈ (g n).entries, e.1 = k

end Graph

/-- `tag.Becomes tag'` says that a node with the tag `tag` may have the tag `tag'` later. -/
def Tag.Becomes (tag tag' : Tag) : Prop := tag' = tag ∨ tag' = tag.asKey

namespace Graph

/-- `g.Becomes i c` says that the node `i` may be `c` later: its merge keys may have been resolved,
and it may count as a key. -/
inductive Becomes (g : Graph) (i : Nat) : Cell → Prop where
  | scalar {tag tag' content} : g i = .scalar tag content → tag.Becomes tag' →
      Becomes g i (.scalar tag' content)
  | sequence {tag tag' items} : g i = .sequence tag items → tag.Becomes tag' →
      Becomes g i (.sequence tag' items)
  | written {tag tag' entries} : g i = .mapping tag entries → tag.Becomes tag' →
      Becomes g i (.mapping tag' entries)
  | resolved {tag tag' entries es} : g i = .mapping tag entries → tag.Becomes tag' →
      g.Merged i es → Becomes g i (.mapping tag' es)

/-- `g.Later g'` says that each node of `g'` is what it may have become. What counts as a key has
been met as one. -/
structure Later (g g' : Graph) : Prop where
  becomes : ∀ i, g.Becomes i (g' i)
  met : ∀ i, (g' i).tag ≠ (g i).tag → g.Met i

end Graph

namespace Tag

variable {tag tag' : Tag}

/-- A key that is not special keeps its tag. -/
theorem as_key_of_ne (h : tag ≠ .value) : tag.asKey = tag := if_neg h

/-- What has been met as a key is not special. -/
theorem as_key_ne_value (tag : Tag) : tag.asKey ≠ .value := by
  unfold asKey
  split
  · decide
  · assumption

/-- A tag may stay. -/
theorem Becomes.refl (tag : Tag) : tag.Becomes tag := .inl rfl

/-- Only the tag of the special key changes. -/
theorem Becomes.eq_of_ne (h : tag.Becomes tag') (hne : tag ≠ .value) : tag' = tag := by
  rcases h with rfl | rfl
  · rfl
  · exact as_key_of_ne hne

/-- A tag becomes no other than that of a text. -/
theorem Becomes.eq_of_ne_str (h : tag.Becomes tag') (hne : tag' ≠ .str) : tag' = tag := by
  rcases h with rfl | rfl
  · rfl
  · unfold asKey at hne ⊢
    split
    · exact absurd (if_pos ‹_›) hne
    · rfl

/-- Collections are made of the same nodes all the time. -/
theorem Becomes.is_collection_eq (h : tag.Becomes tag') : tag'.isCollection = tag.isCollection := by
  by_cases hvalue : tag = .value
  · rw [hvalue] at h ⊢
    rcases h with rfl | rfl <;> rfl
  · rw [h.eq_of_ne hvalue]

/-- There is one tag that a node may have when it is not the special key. -/
theorem Becomes.unique {first second : Tag} (h : tag.Becomes first) (h' : tag.Becomes second)
    (hfirst : first ≠ .value) (hsecond : second ≠ .value) : first = second := by
  rcases h with rfl | rfl
  · exact (h'.eq_of_ne hfirst).symm
  · rcases h' with rfl | rfl
    · exact as_key_of_ne hsecond
    · rfl

/-- What a tag has become may be met as a key. -/
theorem Becomes.as_key (h : tag.Becomes tag') : tag.Becomes tag'.asKey := by
  rcases h with rfl | rfl
  · exact .inr rfl
  · exact .inr (as_key_of_ne (as_key_ne_value tag))

end Tag

namespace Graph

variable {g g' : Graph} {i : Nat} {c : Cell}

/-! ### Changed graphs -/

/-- A node has the cell that it is given. -/
@[simp] theorem set_self (g : Graph) (n : Nat) (c : Cell) : g.set n c n = c := if_pos rfl

/-- All other nodes keep their cells. -/
theorem set_of_ne (g : Graph) {n i : Nat} (c : Cell) (h : i ≠ n) : g.set n c i = g i := if_neg h

/-- A mapping has the entries that it is given. -/
@[simp] theorem set_entries_self (g : Graph) (n : Nat) (entries : List (Nat × Nat)) :
    g.setEntries n entries n = .mapping (g n).tag entries := set_self g n _

/-- All other nodes keep theirs. -/
theorem set_entries_of_ne (g : Graph) {n i : Nat} (entries : List (Nat × Nat)) (h : i ≠ n) :
    g.setEntries n entries i = g i := set_of_ne g _ h

/-- New entries do not change a tag. -/
@[simp] theorem tag_set_entries (g : Graph) (n : Nat) (entries : List (Nat × Nat)) (i : Nat) :
    (g.setEntries n entries i).tag = (g i).tag := by
  by_cases h : i = n
  · rw [h, set_entries_self]
    rfl
  · rw [set_entries_of_ne g entries h]

/-- A key counts as what it was or as a text. -/
theorem set_key_eq (g : Graph) (key i : Nat) :
    g.setKey key i = if i = key then (g i).asKey else g i := by
  unfold setKey
  split
  · by_cases h : i = key
    · rw [h, set_self, if_pos rfl]
    · rw [set_of_ne g _ h, if_neg h]
  · next htag =>
      split
      · next h =>
          subst h
          rw [Cell.asKey, Tag.asKey, if_neg htag]
          cases g i <;> rfl
      · rfl

/-- Counting as a key does not change entries. -/
@[simp] theorem entries_set_key (g : Graph) (key i : Nat) :
    (g.setKey key i).entries = (g i).entries := by
  rw [set_key_eq]
  split
  · cases g i <;> rfl
  · rfl

/-- Counting as a key does not change what a merge key brings in. -/
@[simp] theorem sources?_set_key (g : Graph) (key value : Nat) :
    (g.setKey key).sources? value = g.sources? value := by
  have hcell : (g.setKey key).cell value = if value = key then (g value).asKey else g value :=
    set_key_eq g key value
  by_cases h : value = key
  · rw [sources?, sources?, hcell, if_pos h]
    cases g value <;> rfl
  · rw [sources?, sources?, hcell, if_neg h]

/-- Only the tag of the key may change. -/
theorem tag_set_key (g : Graph) (key i : Nat) :
    (g.setKey key i).tag = if i = key then (g i).tag.asKey else (g i).tag := by
  rw [set_key_eq]
  split
  · cases g i <;> rfl
  · rfl

/-! ### Runs of the resolution -/

/-- A node that brings in something is a mapping, and it is resolved before the next. -/
theorem bring_each_cons_ok {resolve : Graph → Nat → Except Error Graph} {node : Nat}
    {nodes : List Nat} {result : Graph × List (Nat × Nat)}
    (hbring : bringEach resolve g (node :: nodes) = .ok result) :
    ∃ tag entries next last later, g node = .mapping tag entries ∧ resolve g node = .ok next ∧
      bringEach resolve next nodes = .ok (last, later) ∧
      result = (last, later ++ (next node).entries) := by
  rw [bringEach] at hbring
  split at hbring
  · next tag entries hcell =>
      obtain ⟨next, hnext, hbring⟩ := bind_eq_ok_iff.1 hbring
      obtain ⟨⟨last, later⟩, hlast, hbring⟩ := bind_eq_ok_iff.1 hbring
      cases hbring
      exact ⟨tag, entries, next, last, later, hcell, hnext, hlast, rfl⟩
  · exact absurd hbring (by simp)

/-- An entry that is not at a merge key is kept. One that is at a merge key is taken away before the
nodes at it are resolved, and the entries after it come next unless the mapping has been resolved on
the way. -/
theorem merge_keys_cons_ok {resolve : Graph → Nat → Except Error Graph} {n key value : Nat}
    {kept merged rest : List (Nat × Nat)} {h : Graph}
    (hmerge : mergeKeys resolve n kept merged g ((key, value) :: rest) = .ok h) :
    (g key).tag ≠ .merge ∧
        mergeKeys resolve n (kept ++ [(key, value)]) merged (g.setKey key) rest = .ok h ∨
      (g key).tag = .merge ∧ ∃ nodes next brought,
        (g.setEntries n (kept ++ rest)).sources? value = some nodes ∧
        bringEach resolve (g.setEntries n (kept ++ rest)) nodes = .ok (next, brought) ∧
        ((next n).entries = kept ++ rest ∧
            mergeKeys resolve n kept (merged ++ brought) next rest = .ok h ∨
          (next n).entries ≠ kept ++ rest ∧
            h = next.setEntries n (merged ++ brought ++ (next n).entries)) := by
  rw [mergeKeys] at hmerge
  split at hmerge
  · next hkey =>
      simp only at hmerge
      split at hmerge
      · exact absurd hmerge (by simp)
      · next nodes hnodes =>
          obtain ⟨⟨next, brought⟩, hbring, hmerge⟩ := bind_eq_ok_iff.1 hmerge
          refine .inr ⟨hkey, nodes, next, brought, hnodes, hbring, ?_⟩
          simp only at hmerge
          split at hmerge
          · next hleft => exact .inl ⟨hleft, hmerge⟩
          · next hleft =>
              cases hmerge
              exact .inr ⟨hleft, rfl⟩
  · next hkey => exact .inl ⟨hkey, hmerge⟩

/-! ### Later graphs -/

/-- A graph is what it may have become. -/
theorem Later.refl (g : Graph) : g.Later g := by
  refine ⟨fun i => ?_, fun _ h => absurd rfl h⟩
  cases hcell : g i with
  | scalar tag content => exact .scalar hcell (.refl tag)
  | sequence tag items => exact .sequence hcell (.refl tag)
  | mapping tag entries => exact .written hcell (.refl tag)

/-- The tag of a cell becomes that of the cell which it becomes. -/
theorem Becomes.tag (h : g.Becomes i c) : (g i).tag.Becomes c.tag := by
  cases h with
  | scalar hcell htag | sequence hcell htag | written hcell htag | resolved hcell htag _ =>
      rw [hcell]
      exact htag

/-- What a cell has become may be met as a key. -/
theorem Becomes.as_key (h : g.Becomes i c) : g.Becomes i c.asKey := by
  cases h with
  | scalar hcell htag => exact .scalar hcell htag.as_key
  | sequence hcell htag => exact .sequence hcell htag.as_key
  | written hcell htag => exact .written hcell htag.as_key
  | resolved hcell htag hmerged => exact .resolved hcell htag.as_key hmerged

/-- A merge key stays one, and nothing becomes one. -/
theorem Later.tag_eq_merge_iff (h : g.Later g') : (g' i).tag = .merge ↔ (g i).tag = .merge := by
  constructor
  · intro hmerge
    rw [← (h.becomes i).tag.eq_of_ne_str (by rw [hmerge]; decide), hmerge]
  · intro hmerge
    rw [(h.becomes i).tag.eq_of_ne (by rw [hmerge]; decide), hmerge]

/-- A sequence that is no text was one before, with the same tag and the same items. -/
theorem Later.sequence {tag : Tag} {items : List Nat} (h : g.Later g')
    (hcell : g' i = .sequence tag items) (htag : tag ≠ .str) : g i = .sequence tag items := by
  have hi := h.becomes i
  rw [hcell] at hi
  cases hi with
  | sequence hwritten hbecomes =>
      rw [hbecomes.eq_of_ne_str htag]
      exact hwritten

/-- A mapping that is no text was one before, with the same tag. -/
theorem Later.mapping {tag : Tag} {entries : List (Nat × Nat)} (h : g.Later g')
    (hcell : g' i = .mapping tag entries) (htag : tag ≠ .str) :
    ∃ written, g i = .mapping tag written ∧ (entries = written ∨ g.Merged i entries) := by
  have hi := h.becomes i
  rw [hcell] at hi
  cases hi with
  | written hwritten hbecomes =>
      rw [hbecomes.eq_of_ne_str htag]
      exact ⟨_, hwritten, .inl rfl⟩
  | resolved hwritten hbecomes hmerged =>
      rw [hbecomes.eq_of_ne_str htag]
      exact ⟨_, hwritten, .inr hmerged⟩

end Graph

end UriTemplate.Yaml
