import Mathlib.Data.Finset.Card
import UriTemplate.Proofs.Yaml.Laws

/-!
# Graphs without recursion

`g.Below n i` says that the node `i` is inside the node `n` at some depth. In a graph where no node
is below itself, nodes have ranks (`Document.exists_ranks`). `Graph.flatten` then resolves merge
keys by merging (`Graph.flatten_sound`), which it always can if its depth suffices
(`Graph.exists_flatten`): the nodes that are being resolved have the one that is resolved next below
them, so what is merged into each other never meets a node of which only some merge keys are left.
-/

namespace UriTemplate.Yaml

open Relation

namespace Graph

variable {g : Graph} {n i : Nat}

/-! ## Nodes below others -/

/-- `g.Below n i` says that the node `i` is inside the node `n` at some depth. -/
abbrev Below (g : Graph) : Nat → Nat → Prop := TransGen g.Inside

/-- The keys and values of a mapping are below it. -/
theorem below_of_mem {tag : Tag} {entries : List (Nat × Nat)} {e : Nat × Nat}
    (hcell : g n = .mapping tag entries) (he : e ∈ entries) :
    g.Below n e.1 ∧ g.Below n e.2 := by
  have hmembers : ∀ i ∈ [e.1, e.2], g.Inside n i := fun i hi => by
    rw [Inside, hcell]
    exact List.mem_flatMap.2 ⟨e, he, hi⟩
  exact ⟨.single (hmembers e.1 (by simp)), .single (hmembers e.2 (by simp))⟩

/-- The nodes whose entries a merge key brings in are at its value or below. -/
theorem below_of_sources? {nodes : List Nat} (hn : g.Below n i)
    (hnodes : g.sources? i = some nodes) : ∀ j ∈ nodes, g.Below n j := by
  intro j hj
  cases hcell : g i with
  | scalar => exact absurd hnodes (by simp [sources?, hcell])
  | mapping =>
      obtain rfl : [i] = nodes := by simpa [sources?, hcell] using hnodes
      obtain rfl := List.mem_singleton.1 hj
      exact hn
  | sequence _ items =>
      obtain rfl : items = nodes := by simpa [sources?, hcell] using hnodes
      refine hn.tail ?_
      rw [Inside, hcell]
      exact hj

mutual

/-- What holds of the entries of all mappings that are merged into each other holds of what merge
keys bring in. -/
theorem MergesInto.forall_mem {p : Nat × Nat → Prop}
    (hp : ∀ e, p e → (g e.1).tag = .merge → ∀ nodes, g.sources? e.2 = some nodes →
      ∀ j ∈ nodes, ∀ f ∈ (g j).entries, p f) {entries merged own : List (Nat × Nat)}
    (h : MergesInto g entries merged own) (hentries : ∀ e ∈ entries, p e) :
    ∀ e ∈ merged ++ own, p e := by
  match h with
  | .nil => simp
  | .own _ hrest =>
      obtain ⟨hhead, htail⟩ := List.forall_mem_cons.1 hentries
      intro e he
      rcases List.mem_append.1 he with hmerged | hown
      · exact hrest.forall_mem hp htail e (List.mem_append_left _ hmerged)
      · rcases List.mem_cons.1 hown with rfl | hown
        · exact hhead
        · exact hrest.forall_mem hp htail e (List.mem_append_right _ hown)
  | .merge hkey hnodes hbrings hrest =>
      obtain ⟨hhead, htail⟩ := List.forall_mem_cons.1 hentries
      intro e he
      rw [List.append_assoc] at he
      rcases List.mem_append.1 he with hbrought | hothers
      · exact hbrings.forall_mem hp (hp _ hhead hkey _ hnodes) e hbrought
      · exact hrest.forall_mem hp htail e hothers

/-- What holds of the entries of all mappings that are merged into each other holds of what mappings
bring in. -/
theorem BringsEach.forall_mem {p : Nat × Nat → Prop}
    (hp : ∀ e, p e → (g e.1).tag = .merge → ∀ nodes, g.sources? e.2 = some nodes →
      ∀ j ∈ nodes, ∀ f ∈ (g j).entries, p f) {nodes : List Nat} {brought : List (Nat × Nat)}
    (h : BringsEach g nodes brought) (hnodes : ∀ j ∈ nodes, ∀ f ∈ (g j).entries, p f) :
    ∀ e ∈ brought, p e := by
  match h with
  | .nil => simp
  | .cons hnode hinto hrest =>
      obtain ⟨hhead, htail⟩ := List.forall_mem_cons.1 hnodes
      rw [hnode] at hhead
      intro e he
      rcases List.mem_append.1 he with hlater | hthis
      · exact hrest.forall_mem hp htail e hlater
      · exact hinto.forall_mem hp hhead e hthis

end

/-- The keys and values of a mapping are below it. -/
theorem below_of_mem_entries {e : Nat × Nat} (he : e ∈ (g n).entries) :
    g.Below n e.1 ∧ g.Below n e.2 := by
  cases hcell : g n with
  | mapping tag entries =>
      rw [hcell] at he
      exact below_of_mem hcell he
  | scalar | sequence =>
      rw [hcell] at he
      exact absurd he List.not_mem_nil

/-- The entries of a mapping whose merge keys are resolved are below it. -/
theorem Merged.all_below {es : List (Nat × Nat)} (h : g.Merged n es) :
    ∀ e ∈ es, g.Below n e.1 ∧ g.Below n e.2 := by
  obtain ⟨_, _, _, _, hcell, hinto, rfl⟩ := h
  refine hinto.forall_mem (fun e he _ nodes hnodes j hj f hf => ?_)
    fun e he => below_of_mem hcell he
  have hnj := below_of_sources? he.2 hnodes j hj
  exact (below_of_mem_entries hf).imp hnj.trans hnj.trans

/-- `EntryOf g n e` says what is known of an entry `e` of the mapping `n`, be it its own or brought
in: it is below the mapping, its key is met, and what it brings in is rewritten. -/
structure EntryOf (g : Graph) (n : Nat) (e : Nat × Nat) : Prop where
  below : g.Below n e.1 ∧ g.Below n e.2
  met : g.Met e.1
  rewritten : (g e.1).tag = .merge → ∀ nodes, g.sources? e.2 = some nodes → ∀ j ∈ nodes,
    g.Rewritten j

/-- What is known of the entries of a mapping that is rewritten. -/
theorem Rewritten.entry_of (hn : g.Rewritten n) {e : Nat × Nat} (he : e ∈ (g n).entries) :
    EntryOf g n e where
  below := below_of_mem_entries he
  met := ⟨n, hn, e, he, rfl⟩
  rewritten hmerge nodes hnodes j hj :=
    .inr (.inr ⟨n, e, List.mem_filter.2 ⟨he, by simpa using hmerge⟩, nodes, hnodes, hj⟩)

/-- What is known of the entries of a mapping whose merge keys are resolved. -/
theorem Merged.entry_of {es : List (Nat × Nat)} (h : g.Merged n es) (hn : g.Rewritten n) :
    ∀ e ∈ es, EntryOf g n e := by
  obtain ⟨_, _, _, _, hcell, hinto, rfl⟩ := h
  refine hinto.forall_mem (fun e he hmerge nodes hnodes j hj f hf => ?_) fun e he =>
    hn.entry_of (by rwa [hcell])
  have hnj := below_of_sources? he.below.2 hnodes j hj
  have hf' := (he.rewritten hmerge nodes hnodes j hj).entry_of hf
  exact ⟨hf'.below.imp hnj.trans hnj.trans, hf'.met, hf'.rewritten⟩

end Graph

/-- `d.Ranks rank` says that the nodes below a node of the document are nodes of it with smaller
ranks, none of which is greater than the size. -/
structure Document.Ranks (d : Document) (rank : Nat → Nat) : Prop where
  le : ∀ n, rank n ≤ d.size
  lt : ∀ n i, n < d.size → d.graph.Below n i → i < d.size ∧ rank i < rank n

/-- The nodes of a document without recursion have ranks. -/
theorem Document.exists_ranks {d : Document} (hnumbered : d.Numbered)
    (hacyclic : d.graph.Acyclic) : ∃ rank : Nat → Nat, d.Ranks rank := by
  classical
  let below n := (Finset.range d.size).filter fun i => d.graph.Below n i
  have hlt : ∀ n i, n < d.size → d.graph.Below n i → i < d.size := by
    intro n i hn hbelow
    induction hbelow with
    | single hinside => exact hnumbered.members n hn _ hinside
    | tail _ hinside ih => exact hnumbered.members _ ih _ hinside
  refine ⟨fun n => (below n).card, fun n => ?_, fun n i hn hbelow => ⟨hlt n i hn hbelow, ?_⟩⟩
  · exact (Finset.card_filter_le _ _).trans_eq (Finset.card_range _)
  · -- The lower node is not among those below it.
    refine Finset.card_lt_card (Finset.ssubset_iff_of_subset (fun j hj => ?_) |>.2 ⟨i, ?_, ?_⟩)
    · obtain ⟨hj, hbelow'⟩ := Finset.mem_filter.1 hj
      exact Finset.mem_filter.2 ⟨hj, hbelow.trans hbelow'⟩
    · exact Finset.mem_filter.2 ⟨Finset.mem_range.2 (hlt n i hn hbelow), hbelow⟩
    · exact fun hi => hacyclic i (Finset.mem_filter.1 hi).2

/-- `d.Open rank depth around n` says that the node `n` of the document is below all nodes `around`,
and that `depth` is enough for the nodes from it on downwards. -/
structure Document.Open (d : Document) (rank : Nat → Nat) (depth : Nat) (around : List Nat)
    (n : Nat) : Prop where
  lt : n < d.size
  rank_lt : rank n < depth
  above : ∀ a ∈ around, d.graph.Below a n

namespace Document.Open

variable {d : Document} {rank : Nat → Nat} {depth n i : Nat} {around : List Nat}

/-- The depth suffices for every node where there is none around it. -/
theorem of_lt (hranks : d.Ranks rank) (hn : n < d.size) : d.Open rank (d.size + 1) [] n :=
  ⟨hn, Nat.lt_succ_of_le (hranks.le n), by simp⟩

/-- Some depth is left. -/
theorem exists_depth (h : d.Open rank depth around n) : ∃ k, depth = k + 1 :=
  Nat.exists_eq_succ_of_ne_zero (Nat.ne_zero_of_lt h.rank_lt)

/-- No node is around itself. -/
theorem not_mem (h : d.Open rank depth around n) (hranks : d.Ranks rank) : n ∉ around :=
  fun hmem => Nat.lt_irrefl _ (hranks.lt n n h.lt (h.above n hmem)).2

/-- The nodes below are open as well. -/
theorem below (h : d.Open rank (depth + 1) around n) (hranks : d.Ranks rank)
    (hbelow : d.graph.Below n i) : d.Open rank depth (n :: around) i := by
  obtain ⟨hlt, hless⟩ := hranks.lt n i h.lt hbelow
  refine ⟨hlt, Nat.lt_of_lt_of_le hless (Nat.le_of_lt_succ h.rank_lt), fun a ha => ?_⟩
  rcases List.mem_cons.1 ha with rfl | ha
  · exact hbelow
  · exact (h.above a ha).trans hbelow

end Document.Open

namespace Graph

variable {d g h : Graph} {n i : Nat} {around : List Nat}
  {entries merged own kept rest es brought : List (Nat × Nat)}
  {nodes : List Nat} {tag : Tag} {resolve : Graph → Nat → Except Error Graph}

/-! ## Merge keys are resolved by merging -/

/-- `d.LaterOff around g` says that each node of `g` that is not in `around` is what it may have
become. -/
structure LaterOff (d : Graph) (around : List Nat) (g : Graph) : Prop where
  off : ∀ i, i ∉ around → d.Becomes i (g i)
  tag : ∀ i, (d i).tag.Becomes (g i).tag
  met : ∀ i, (g i).tag ≠ (d i).tag → d.Met i

/-- Where no node is being resolved, all may have become what they are. -/
theorem Later.off (h : d.Later g) : LaterOff d [] g :=
  ⟨fun i _ => h.becomes i, fun i => (h.becomes i).tag, h.met⟩

namespace LaterOff

/-- Outside `around`, a graph brings in what it did. -/
theorem sources? (h : LaterOff d around g) (hi : i ∉ around) : g.sources? i = d.sources? i := by
  have hvalue := h.off i hi
  unfold Graph.sources?
  generalize g i = c at hvalue
  cases hvalue with
  | scalar hcell _ | sequence hcell _ | written hcell _ | resolved hcell _ _ => rw [hcell]

/-- A merge key stays one, and nothing becomes one. -/
theorem tag_eq_merge_iff (h : LaterOff d around g) (i : Nat) :
    (g i).tag = .merge ↔ (d i).tag = .merge := by
  constructor
  · intro hmerge
    rw [← (h.tag i).eq_of_ne_str (by rw [hmerge]; decide), hmerge]
  · intro hmerge
    rw [(h.tag i).eq_of_ne (by rw [hmerge]; decide), hmerge]

/-- One more node may be left open. -/
theorem cons (h : LaterOff d around g) (n : Nat) : LaterOff d (n :: around) g :=
  ⟨fun i hi => h.off i (mt (List.mem_cons_of_mem n) hi), h.tag, h.met⟩

/-- The mapping that is resolved may have any entries for the time being. -/
theorem set_entries (h : LaterOff d (n :: around) g) (entries : List (Nat × Nat)) :
    LaterOff d (n :: around) (g.setEntries n entries) where
  off i hi := by
    have hin : i ≠ n := fun hin => hi (by simp [hin])
    rw [set_entries_of_ne g entries hin]
    exact h.off i hi
  tag i := by
    rw [tag_set_entries]
    exact h.tag i
  met i hi := h.met i (by rwa [tag_set_entries] at hi)

/-- A node that is met as a key may count as one. -/
theorem set_key (h : LaterOff d around g) {key : Nat} (hkey : d.Met key) :
    LaterOff d around (g.setKey key) where
  off i hi := by
    rw [set_key_eq]
    split
    · exact (h.off i hi).as_key
    · exact h.off i hi
  tag i := by
    rw [tag_set_key]
    split
    · exact (h.tag i).as_key
    · exact h.tag i
  met i hi := by
    by_cases hik : i = key
    · rwa [hik]
    · exact h.met i (by rwa [tag_set_key, if_neg hik] at hi)

/-- When a mapping is resolved, it is no longer in `around`. -/
theorem resolved (h : LaterOff d (n :: around) g) (hn : d.Merged n es)
    (hcell : g n = .mapping tag es) : LaterOff d around g where
  off i hi := by
    by_cases hin : i = n
    · subst hin
      obtain ⟨_, _, _, _, hwritten, _⟩ := id hn
      have htag := h.tag i
      rw [hcell, hwritten] at htag
      rw [hcell]
      exact .resolved hwritten htag hn
    · exact h.off i (by simp [hin, hi])
  tag := h.tag
  met := h.met

end LaterOff

/-- `Flattened around g h` says what changes while nodes inside those of `around` are resolved: the
entries of these stay, and nothing becomes the special key. -/
structure Flattened (around : List Nat) (g h : Graph) : Prop where
  entries : ∀ a ∈ around, (h a).entries = (g a).entries
  tag : ∀ i, (h i).tag = .value → (g i).tag = .value

namespace Flattened

/-- Nothing has to change. -/
theorem refl (around : List Nat) (g : Graph) : Flattened around g g :=
  ⟨fun _ _ => rfl, fun _ h => h⟩

/-- Changes may come one after the other. -/
theorem trans {last : Graph} (hgh : Flattened around g h) (hhl : Flattened around h last) :
    Flattened around g last :=
  ⟨fun a ha => (hhl.entries a ha).trans (hgh.entries a ha), fun i hi => hgh.tag i (hhl.tag i hi)⟩

/-- A node may count as a key. -/
theorem set_key (around : List Nat) (g : Graph) (key : Nat) :
    Flattened around g (g.setKey key) := by
  refine ⟨fun a _ => entries_set_key g key a, fun i hi => ?_⟩
  rw [tag_set_key] at hi
  split at hi
  · exact absurd hi (Tag.as_key_ne_value _)
  · exact hi

/-- Entries of a node may change if the node is not in `around`. -/
theorem set_entries (hn : n ∉ around) (g : Graph) (entries : List (Nat × Nat)) :
    Flattened around g (g.setEntries n entries) := by
  refine ⟨fun a ha => ?_, fun i hi => by rwa [tag_set_entries] at hi⟩
  have han : a ≠ n := fun han => hn (by rwa [← han])
  rw [set_entries_of_ne g entries han]

end Flattened

/-- `KeysDiffer g entries` says that no key of the entries is the special key. -/
def KeysDiffer (g : Graph) (entries : List (Nat × Nat)) : Prop :=
  ∀ e ∈ entries, (g e.1).tag ≠ .value

/-- Keys that are not special stay so while merge keys are resolved. -/
theorem KeysDiffer.flattened (hentries : KeysDiffer g entries) (h' : Flattened around g h) :
    KeysDiffer h entries := fun e he hvalue => hentries e he (h'.tag _ hvalue)

/-- Entries without the special key have none one after the other. -/
theorem KeysDiffer.append (hentries : KeysDiffer g entries) (hrest : KeysDiffer g rest) :
    KeysDiffer g (entries ++ rest) :=
  List.forall_mem_append.2 ⟨hentries, hrest⟩

/-- What is below a node is below all that the node is below. -/
theorem below_around (hbelow : ∀ a ∈ around, d.Below a n) (hi : d.Below n i) :
    ∀ a ∈ n :: around, d.Below a i := by
  intro a ha
  rcases List.mem_cons.1 ha with rfl | ha
  · exact hi
  · exact (hbelow a ha).trans hi

/-- Without recursion a node is none of those it is below. -/
theorem Acyclic.not_mem (hacyclic : d.Acyclic) (hbelow : ∀ a ∈ around, d.Below a n) :
    n ∉ around := fun hmem => hacyclic n (hbelow n hmem)

/-- `d.SoundOn resolve` says that `resolve` resolves the merge keys of a mapping by merging, while
the nodes `around`, which it is below, are being resolved. -/
def SoundOn (d : Graph) (resolve : Graph → Nat → Except Error Graph) : Prop :=
  ∀ around g n tag entries h, d.Rewritten n → (∀ a ∈ around, d.Below a n) → LaterOff d around g →
    g n = .mapping tag entries → resolve g n = .ok h →
      LaterOff d around h ∧ Flattened around g h ∧ d.Merged n (h n).entries ∧
        KeysDiffer h (h n).entries

/-- Mappings are merged by a function that resolves each. -/
theorem SoundOn.bring_each (hresolve : d.SoundOn resolve) (hnodes : ∀ j ∈ nodes, d.Rewritten j)
    (hbelow : ∀ j ∈ nodes, ∀ a ∈ around, d.Below a j) (hlater : LaterOff d around g)
    (hbring : Graph.bringEach resolve g nodes = .ok (h, brought)) :
    LaterOff d around h ∧ Flattened around g h ∧ BringsEach d nodes brought ∧
      KeysDiffer h brought := by
  induction nodes generalizing g brought with
  | nil =>
      cases hbring
      exact ⟨hlater, .refl _ _, .nil, by simp [KeysDiffer]⟩
  | cons node nodes ih =>
      obtain ⟨hrewritten, hnodes⟩ := List.forall_mem_cons.1 hnodes
      obtain ⟨hnode, hbelow⟩ := List.forall_mem_cons.1 hbelow
      obtain ⟨tag, entries, next, _, later, hcell, hnext, hrest, hresult⟩ :=
        bring_each_cons_ok hbring
      cases hresult
      obtain ⟨hlater', hfirst, ⟨_, _, _, _, hwritten, hinto, heq⟩, hkeys⟩ :=
        hresolve around g node tag entries next hrewritten hnode hlater hcell hnext
      obtain ⟨hlast, hmore, hbrings, hkeys'⟩ := ih hnodes hbelow hlater' hrest
      refine ⟨hlast, hfirst.trans hmore, ?_, hkeys'.append (hkeys.flattened hmore)⟩
      rw [heq]
      exact .cons hwritten hinto hbrings

/-- What one merge key of a mapping brings in is merged, while the mapping has only the entries that
are left, and keeps these. -/
theorem SoundOn.bring_into (hresolve : d.SoundOn resolve) (hacyclic : d.Acyclic)
    (hbelow : ∀ a ∈ around, d.Below a n) (hlater : LaterOff d (n :: around) g)
    (hnodes : ∀ j ∈ nodes, d.Below n j) (hrewritten : ∀ j ∈ nodes, d.Rewritten j)
    (hbring : Graph.bringEach resolve (g.setEntries n entries) nodes = .ok (h, brought)) :
    LaterOff d (n :: around) h ∧ Flattened around g h ∧ (h n).entries = entries ∧
      BringsEach d nodes brought ∧ KeysDiffer h brought := by
  have hn := hacyclic.not_mem hbelow
  obtain ⟨hlast, hflattened, hbrings, hkeys⟩ := hresolve.bring_each hrewritten
    (fun j hj => below_around hbelow (hnodes j hj)) (hlater.set_entries entries) hbring
  have hothers : Flattened around (g.setEntries n entries) h :=
    ⟨fun a ha => hflattened.entries a (List.mem_cons_of_mem _ ha), hflattened.tag⟩
  refine ⟨hlast, (Flattened.set_entries hn g entries).trans hothers, ?_, hbrings, hkeys⟩
  rw [hflattened.entries n List.mem_cons_self, set_entries_self]
  rfl

/-- What `mergeKeys` makes of a mapping: it gets the entries that are merged into it before its own.
The induction is on the entries `rest` that are left; the mapping itself counts as one of those
around. -/
theorem SoundOn.merge_keys (hresolve : d.SoundOn resolve) (hacyclic : d.Acyclic)
    (hbelow : ∀ a ∈ around, d.Below a n) (hlater : LaterOff d (n :: around) g)
    (hentries : (g n).entries = kept ++ rest) (hrest : ∀ e ∈ rest, EntryOf d n e)
    (hmerged : KeysDiffer g merged) (hkept : KeysDiffer g kept)
    (hmerge : Graph.mergeKeys resolve n kept merged g rest = .ok h) :
    ∃ more own tag, MergesInto d rest more own ∧
      h n = .mapping tag (merged ++ more ++ (kept ++ own)) ∧ LaterOff d (n :: around) h ∧
      Flattened around g h ∧ KeysDiffer h (h n).entries := by
  have hn := hacyclic.not_mem hbelow
  induction rest generalizing kept merged g with
  | nil =>
      cases hmerge
      have hlast : Flattened around g (g.setEntries n (merged ++ kept)) := .set_entries hn g _
      refine ⟨[], [], (g n).tag, .nil, by simp, hlater.set_entries _, hlast, ?_⟩
      rw [set_entries_self]
      exact (hmerged.append hkept).flattened hlast
  | cons entry rest ih =>
      obtain ⟨key, value⟩ := entry
      obtain ⟨hentry, hrest⟩ := List.forall_mem_cons.1 hrest
      have hvalue := hentry.below.2
      rcases merge_keys_cons_ok hmerge with
        ⟨hkey, hmerge⟩ | ⟨hkey, nodes, next, brought, hnodes, hbring, hends⟩
      · have hfirst := Flattened.set_key around g key
        have hadded : KeysDiffer (g.setKey key) [(key, value)] := by
          intro e he
          obtain rfl := List.mem_singleton.1 he
          rw [tag_set_key, if_pos rfl]
          exact Tag.as_key_ne_value _
        obtain ⟨more, own, tag, hinto, hcell, hlast, hmore, hkeys⟩ :=
          ih (hlater.set_key hentry.met) (by simpa using hentries) hrest
            (hmerged.flattened hfirst) ((hkept.flattened hfirst).append hadded) hmerge
        refine ⟨more, (key, value) :: own, tag, ?_, by rw [hcell]; simp, hlast,
          hfirst.trans hmore, hkeys⟩
        exact .own (fun hmergeKey => hkey ((hlater.tag_eq_merge_iff key).2 hmergeKey)) hinto
      · have hkey' := (hlater.tag_eq_merge_iff key).1 hkey
        -- What is merged is below the mapping, so it is none of those that are being resolved.
        have hoff := hacyclic.not_mem (below_around hbelow hvalue)
        rw [(hlater.set_entries (kept ++ rest)).sources? hoff] at hnodes
        obtain ⟨hlater', hfirst, hleft, hbrings, hbrought⟩ := hresolve.bring_into hacyclic
          hbelow hlater (below_of_sources? hvalue hnodes)
          (hentry.rewritten hkey' nodes hnodes) hbring
        obtain ⟨-, hmerge⟩ := hends.resolve_right fun hne => hne.1 hleft
        obtain ⟨more, own, tag, hinto, hcell, hlast, hmore, hkeys⟩ :=
          ih hlater' hleft hrest ((hmerged.flattened hfirst).append hbrought)
            (hkept.flattened hfirst) hmerge
        exact ⟨brought ++ more, own, tag, .merge hkey' hnodes hbrings hinto,
          by rw [hcell]; simp, hlast, hfirst.trans hmore, hkeys⟩

/-- The entries of a mapping that may have been resolved before are below it, and merging gives what
it gives for the mapping as it was. -/
theorem LaterOff.merges_into (hlater : LaterOff d around g) (hn : n ∉ around)
    (hrewritten : d.Rewritten n) (hcell : g n = .mapping tag entries) :
    (∀ e ∈ entries, EntryOf d n e) ∧
      (∀ merged own, MergesInto d entries merged own → d.Merged n (merged ++ own)) ∧
      ∀ es, d.Merged n es → ∃ merged own, MergesInto d entries merged own := by
  have hbecomes := hlater.off n hn
  rw [hcell] at hbecomes
  cases hbecomes with
  | written hwritten _ =>
      refine ⟨fun e he => hrewritten.entry_of (by rwa [hwritten]), fun merged own hinto =>
        ⟨_, _, _, _, hwritten, hinto, rfl⟩, fun es hmerged => ?_⟩
      obtain ⟨_, _, merged, own, hwritten', hinto, _⟩ := hmerged
      obtain ⟨rfl, rfl⟩ := Cell.mapping.inj (hwritten.symm.trans hwritten')
      exact ⟨merged, own, hinto⟩
  | resolved hwritten _ hmerged =>
      have hfree := merges_into_of_merge_free hmerged.merge_free
      refine ⟨hmerged.entry_of hrewritten, fun merged own hinto => ?_, fun _ _ => ⟨_, _, hfree⟩⟩
      obtain ⟨rfl, rfl⟩ := hinto.unique hfree
      exact hmerged

/-- In a graph without recursion merge keys are resolved by merging. -/
theorem sound_on_flatten (hacyclic : d.Acyclic) (depth : Nat) : d.SoundOn (flatten depth) := by
  induction depth with
  | zero => exact fun _ _ _ _ _ _ _ _ _ _ hflatten => absurd hflatten (by simp [flatten])
  | succ depth ih =>
      intro around g n tag entries h hrewritten hbelow hlater hcell hflatten
      have hn := hacyclic.not_mem hbelow
      obtain ⟨hentries, hmerged, -⟩ := hlater.merges_into hn hrewritten hcell
      have hmerge : mergeKeys (flatten depth) n [] [] g entries = .ok h := by
        rwa [flatten, hcell] at hflatten
      obtain ⟨more, own, tag', hinto, hcell', hlast, hflattened, hkeys⟩ :=
        SoundOn.merge_keys ih hacyclic hbelow (hlater.cons n) (by rw [hcell]; rfl) hentries
          (by simp [KeysDiffer]) (by simp [KeysDiffer]) hmerge
      have hn' : d.Merged n (more ++ own) := hmerged more own hinto
      refine ⟨hlast.resolved hn' hcell', hflattened, ?_, hkeys⟩
      rw [hcell']
      exact hn'

/-- In a graph without recursion `flatten` resolves merge keys by merging. -/
theorem flatten_sound (hacyclic : d.Acyclic) {depth : Nat} (hlater : d.Later g)
    (hn : d.Rewritten n) (hcell : g n = .mapping tag entries)
    (hflatten : g.flatten depth n = .ok h) :
    d.Later h ∧ d.Merged n (h n).entries ∧ KeysDiffer h (h n).entries ∧
      ∀ i, (h i).tag = .value → (g i).tag = .value := by
  obtain ⟨hlater', hflattened, hmerged, hkeys⟩ :=
    sound_on_flatten hacyclic depth [] g n tag entries h
    hn (by simp) hlater.off hcell hflatten
  exact ⟨⟨fun i => hlater'.off i List.not_mem_nil, hlater'.met⟩, hmerged, hkeys, hflattened.tag⟩

/-! ## Merge keys that can be resolved -/

/-- `d.CompleteOn resolve nodes` says that `resolve` resolves the merge keys of the nodes, if there
is something that they bring in. -/
def CompleteOn (d : Graph) (resolve : Graph → Nat → Except Error Graph) (p : Nat → Prop) : Prop :=
  ∀ around g n es, p n → d.Rewritten n → (∀ a ∈ around, d.Below a n) → LaterOff d around g →
    d.Merged n es →
    ∃ h, resolve g n = .ok h

/-- A node outside `around` that is a mapping has been one all the time. -/
theorem LaterOff.exists_mapping (hlater : LaterOff d around g) (hn : n ∉ around)
    (hcell : d n = .mapping tag entries) : ∃ tag' entries', g n = .mapping tag' entries' := by
  have hbecomes := hlater.off n hn
  generalize g n = c at hbecomes
  cases hbecomes with
  | scalar hother _ | sequence hother _ => exact absurd (hcell.symm.trans hother) (by simp)
  | written | resolved => exact ⟨_, _, rfl⟩

/-- Mappings that can be merged are. -/
theorem CompleteOn.bring_each {p : Nat → Prop} (hcomplete : d.CompleteOn resolve p)
    (hsound : d.SoundOn resolve) (hacyclic : d.Acyclic) (hnodes : ∀ j ∈ nodes, p j ∧ d.Rewritten j)
    (hbelow : ∀ j ∈ nodes, ∀ a ∈ around, d.Below a j) (hlater : LaterOff d around g)
    (hbrings : BringsEach d nodes brought) :
    ∃ result, Graph.bringEach resolve g nodes = .ok result := by
  induction nodes generalizing g brought with
  | nil => exact ⟨_, rfl⟩
  | cons node nodes ih =>
      obtain ⟨hnode, hnodes⟩ := List.forall_mem_cons.1 hnodes
      obtain ⟨hnodeBelow, hbelow⟩ := List.forall_mem_cons.1 hbelow
      cases hbrings with
      | cons hwritten hinto hrest =>
          obtain ⟨tag, entries, hcell⟩ :=
            hlater.exists_mapping (hacyclic.not_mem hnodeBelow) hwritten
          obtain ⟨next, hnext⟩ := hcomplete around g node _ hnode.1 hnode.2 hnodeBelow hlater
            ⟨_, _, _, _, hwritten, hinto, rfl⟩
          obtain ⟨hlater', -⟩ :=
            hsound around g node tag entries next hnode.2 hnodeBelow hlater hcell hnext
          obtain ⟨result, hresult⟩ := ih hnodes hbelow hlater' hrest
          refine ⟨(result.1, result.2 ++ (next node).entries), ?_⟩
          simp only [Graph.bringEach, hcell]
          rw [hnext, ok_bind, hresult, ok_bind]
          rfl

/-- Merge keys that bring in something are resolved. -/
theorem CompleteOn.merge_keys {p : Nat → Prop} (hcomplete : d.CompleteOn resolve p)
    (hsound : d.SoundOn resolve) (hacyclic : d.Acyclic) (hp : ∀ i, d.Below n i → p i)
    (hbelow : ∀ a ∈ around, d.Below a n) (hlater : LaterOff d (n :: around) g)
    (hentries : (g n).entries = kept ++ rest)
    (hrest : ∀ e ∈ rest, EntryOf d n e) {more : List (Nat × Nat)}
    (hinto : MergesInto d rest more own) :
    ∃ h, Graph.mergeKeys resolve n kept merged g rest = .ok h := by
  induction rest generalizing kept merged g more own with
  | nil => exact ⟨_, rfl⟩
  | cons entry rest ih =>
      obtain ⟨key, value⟩ := entry
      obtain ⟨hentry, hrest⟩ := List.forall_mem_cons.1 hrest
      have hvalue := hentry.below.2
      rw [Graph.mergeKeys]
      cases hinto with
      | own hkey hinto =>
          rw [if_neg fun hmerge => hkey ((hlater.tag_eq_merge_iff key).1 hmerge)]
          exact ih (hlater.set_key hentry.met) (by simpa using hentries) hrest hinto
      | @merge _ _ nodes _ _ _ _ hkey hnodes hbrings hinto =>
          have hshort := hlater.set_entries (kept ++ rest)
          -- As before, what is merged is none of those that are being resolved.
          have hoff := hacyclic.not_mem (below_around hbelow hvalue)
          have hsources := (hshort.sources? hoff).trans hnodes
          have hnodesBelow : ∀ j ∈ nodes, d.Below n j := below_of_sources? hvalue hnodes
          have hrewritten := hentry.rewritten hkey nodes hnodes
          obtain ⟨⟨next, brought⟩, hbring⟩ := hcomplete.bring_each hsound hacyclic
            (fun j hj => ⟨hp j (hnodesBelow j hj), hrewritten j hj⟩)
            (fun j hj => below_around hbelow (hnodesBelow j hj)) hshort hbrings
          obtain ⟨hlater', -, hleft, -⟩ :=
            hsound.bring_into hacyclic hbelow hlater hnodesBelow hrewritten hbring
          rw [if_pos ((hlater.tag_eq_merge_iff key).2 hkey)]
          simp only [hsources]
          rw [hbring, ok_bind, if_pos hleft]
          exact ih hlater' hleft hrest hinto

/-- Merge keys of a node of small rank are resolved if they bring in something. -/
theorem complete_on_flatten (hacyclic : d.Acyclic) {rank : Nat → Nat} {p : Nat → Prop}
    (hrank : ∀ n i, p n → d.Below n i → p i ∧ rank i < rank n) (depth : Nat) :
    d.CompleteOn (flatten depth) fun n => p n ∧ rank n < depth := by
  -- The induction is on the depth: what is merged has a smaller rank, so it does not run out.
  induction depth with
  | zero => exact fun _ _ _ _ hn => absurd hn.2 (Nat.not_lt_zero _)
  | succ depth ih =>
      intro around g n es ⟨hp, hdepth⟩ hrewritten hbelow hlater hmerged
      have hn := hacyclic.not_mem hbelow
      obtain ⟨_, _, _, _, hwritten, _⟩ := id hmerged
      obtain ⟨tag, entries, hcell⟩ := hlater.exists_mapping hn hwritten
      obtain ⟨hentries, -, hinto⟩ := hlater.merges_into hn hrewritten hcell
      obtain ⟨more, own, hinto⟩ := hinto es hmerged
      rw [flatten, hcell]
      refine CompleteOn.merge_keys ih (sound_on_flatten hacyclic depth) hacyclic (fun i hi => ?_)
        hbelow (hlater.cons n) (by rw [hcell]; rfl) hentries hinto
      obtain ⟨hpi, hlt⟩ := hrank n i hp hi
      exact ⟨hpi, Nat.lt_of_lt_of_le hlt (Nat.le_of_lt_succ hdepth)⟩

end Graph

/-- In a document without recursion merge keys are resolved that bring in something. -/
theorem Document.exists_flatten {d : Document} (hnumbered : d.Numbered)
    (hacyclic : d.graph.Acyclic) {g : Graph} (hlater : d.graph.Later g) {n : Nat} (hn : n < d.size)
    (hrewritten : d.graph.Rewritten n) {es : List (Nat × Nat)} (hmerged : d.graph.Merged n es) :
    ∃ h, g.flatten (d.size + 1) n = .ok h := by
  obtain ⟨rank, hranks⟩ := exists_ranks hnumbered hacyclic
  exact Graph.complete_on_flatten (p := (· < d.size)) hacyclic hranks.lt (d.size + 1) [] g n es
    ⟨hn, Nat.lt_succ_of_le (hranks.le n)⟩ hrewritten (by simp) hlater.off hmerged

end UriTemplate.Yaml
