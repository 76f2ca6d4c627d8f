import UriTemplate.Proofs.Yaml.Resolved

/-!
# Resolving merge keys in place

`Graph.flatten` resolves merge keys of a graph and leaves none in its node
(`Graph.resolves_flatten`). On the way it changes only what merge keys of the node bring in, and it
takes a merge key away before it resolves what is at it. So a node that is being resolved has ends
without merge keys only, which stay.
-/

namespace UriTemplate.Yaml

/-- Counting as a key makes no merge key. -/
@[simp] theorem Tag.as_key_eq_merge_iff {tag : Tag} : tag.asKey = .merge ↔ tag = .merge := by
  unfold asKey
  split
  · next h => simp [h]
  · rfl

namespace Graph

open Relation

variable {g h next last : Graph} {n i : Nat} {entries merged kept rest : List (Nat × Nat)}
  {nodes : List Nat} {resolve : Graph → Nat → Except Error Graph}

/-! ## Steps -/

/-- A mapping may get entries with fewer merge keys. -/
theorem Narrows.set_entries (hn : g.sources? n = some [n])
    (hsubset : g.merging entries ⊆ g.merging (g n).entries) :
    Narrows g (g.setEntries n entries) := by
  refine ⟨fun i => by rw [tag_set_entries], fun i => ?_, fun i => ?_⟩
  · by_cases hi : i = n
    · subst hi
      rw [hn, sources?, set_entries_self]
    · rw [sources?, sources?, set_entries_of_ne g entries hi]
  · have hmerging : ∀ es, (g.setEntries n entries).merging es = g.merging es := fun es =>
      List.filter_congr fun e _ => by rw [tag_set_entries]
    rw [hmerging]
    by_cases hi : i = n
    · subst hi
      rw [set_entries_self]
      exact hsubset
    · rw [set_entries_of_ne g entries hi]
      exact List.Subset.refl _

/-- A node may count as a key. -/
theorem Narrows.set_key (g : Graph) (key : Nat) : Narrows g (g.setKey key) := by
  have htag : ∀ i, (g.setKey key i).tag = .merge ↔ (g i).tag = .merge := by
    intro i
    rw [tag_set_key]
    split
    · exact Tag.as_key_eq_merge_iff
    · rfl
  have hmerging : ∀ es, (g.setKey key).merging es = g.merging es := fun es =>
    List.filter_congr fun e _ => by simp [htag e.1]
  refine ⟨htag, fun i => sources?_set_key g key i, fun i => ?_⟩
  rw [hmerging, entries_set_key]
  exact List.Subset.refl _

/-- A mapping may lose an entry. -/
theorem Narrows.without {entry : Nat × Nat} (hn : g.sources? n = some [n])
    (hentries : (g n).entries = kept ++ entry :: rest) :
    Narrows g (g.setEntries n (kept ++ rest)) := by
  refine .set_entries hn ?_
  rw [hentries, merging_append, merging_append]
  exact List.append_subset.2 ⟨List.subset_append_left _ _,
    List.subset_append_of_subset_right _ ((List.sublist_cons_self _ _).filter _).subset⟩

/-- Entries without merge keys have none with one more entry that is not at a merge key. -/
theorem merging_kept {key value : Nat} (hkept : g.merging kept = []) (hkey : (g key).tag ≠ .merge) :
    (g.setKey key).merging (kept ++ [(key, value)]) = [] := by
  rw [(Narrows.set_key g key).merging, merging_append, hkept]
  simp [merging, hkey]

/-- An entry at a merge key is none of the mapping's own. -/
theorem own_cons_merge {key value : Nat} (hkey : (g key).tag = .merge) :
    g.own (kept ++ (key, value) :: rest) = g.own (kept ++ rest) := by
  simp [own, hkey]

/-- `ResolvesBut g h n` says that merge keys of the graph `g` are resolved in the graph `h`, and
that only what the mapping `n` brings in has changed. What has become of the mapping is left
open. -/
structure ResolvesBut (g h : Graph) (n : Nat) : Prop extends Narrows g h where
  others : ∀ i, i ≠ n → ResolvesAt g h i
  changed : ∀ i, i ≠ n → (h i).entries = (g i).entries ∨ TransGen g.Brings n i

namespace ResolvesBut

/-- The mapping may get entries with fewer merge keys. -/
theorem set_entries (hn : g.sources? n = some [n])
    (hsubset : g.merging entries ⊆ g.merging (g n).entries) :
    ResolvesBut g (g.setEntries n entries) n := by
  have hsame : ∀ i, i ≠ n → (g.setEntries n entries i).entries = (g i).entries := by
    intro i hi
    rw [set_entries_of_ne g entries hi]
  exact ⟨.set_entries hn hsubset, fun i hi => .inl (hsame i hi), fun i hi => .inl (hsame i hi)⟩

/-- A node may count as a key. -/
theorem set_key (g : Graph) (key n : Nat) : ResolvesBut g (g.setKey key) n :=
  ⟨.set_key g key, fun i _ => .inl (entries_set_key g key i),
    fun i _ => .inl (entries_set_key g key i)⟩

/-- Merge keys may be resolved in two steps, if the mapping keeps its own entries in the second. -/
theorem trans (hgn : ResolvesBut g next n) (hnl : ResolvesBut next last n)
    (hkeeps : Keeps next last n) : ResolvesBut g last n := by
  refine ⟨hgn.toNarrows.trans hnl.toNarrows, fun i hi => ?_, fun i hi => ?_⟩
  · refine (hgn.others i hi).trans hgn.toNarrows hnl.toNarrows (hnl.others i hi) (fun j => ?_)
      fun hmerging hnone j hj => ?_
    · by_cases hjn : j = n
      · exact hjn ▸ hkeeps
      · exact (hnl.others j hjn).keeps
    · by_cases hjn : j = n
      · -- The mapping brings in what has been resolved in the first step.
        subst hjn
        have heq := (hgn.changed i hi).resolve_right hj
        rw [heq, hgn.merging] at hnone
        exact absurd hnone hmerging
      · exact (hnl.others j hjn).entries_eq
  · rcases hnl.changed i hi with hsame | hbrings
    · rw [hsame]
      exact hgn.changed i hi
    · exact .inr (hgn.trans_gen hbrings)

/-- A mapping without merge keys may get entries without merge keys in front. -/
theorem set_front (hgn : ResolvesBut g next n) (hn : g.sources? n = some [n])
    (hfront : next.merging merged = []) (hnone : next.merging (next n).entries = []) :
    ResolvesBut g (next.setEntries n (merged ++ (next n).entries)) n ∧
      (next.setEntries n (merged ++ (next n).entries)).merging
        (merged ++ (next n).entries) = [] := by
  have hall : next.merging (merged ++ (next n).entries) = [] := by
    rw [merging_append, hfront, hnone]
    rfl
  have hlast : ResolvesBut next (next.setEntries n (merged ++ (next n).entries)) n :=
    set_entries ((hgn.sources n).trans hn) (hall ▸ List.nil_subset _)
  refine ⟨hgn.trans hlast (.inr ?_), by rw [hlast.merging, hall]⟩
  rw [set_entries_self, own_eq_self hnone]
  exact List.suffix_append _ _

end ResolvesBut

/-! ## Any graph -/

/-- `ResolvesEach resolve` says that `resolve` resolves the merge keys of a node, and otherwise
changes only what they bring in. -/
def ResolvesEach (resolve : Graph → Nat → Except Error Graph) : Prop :=
  ∀ g n h, resolve g n = .ok h → Resolves g h ∧ h.merging (h n).entries = [] ∧
    ∀ i, (h i).entries = (g i).entries ∨ ReflTransGen g.Brings n i

/-- Nodes bring in the entries that they have in the end, those of the last first. -/
theorem ResolvesEach.bring_each (hresolve : ResolvesEach resolve)
    (hbring : bringEach resolve g nodes = .ok (last, merged)) :
    Resolves g last ∧ (∀ i ∈ nodes, last.merging (last i).entries = []) ∧
      merged = (nodes.map fun i => (last i).entries).reverse.flatten ∧
      ∀ i, (last i).entries = (g i).entries ∨ ∃ j ∈ nodes, ReflTransGen g.Brings j i := by
  induction nodes generalizing g merged with
  | nil =>
      cases hbring
      exact ⟨.refl _, by simp, rfl, fun _ => .inl rfl⟩
  | cons node nodes ih =>
      obtain ⟨_, _, next, _, later, _, hnext, hrest, hresult⟩ := bring_each_cons_ok hbring
      cases hresult
      obtain ⟨hfirst, hnode, hchanged⟩ := hresolve g node next hnext
      obtain ⟨hmore, hnodes, rfl, hchanged'⟩ := ih hrest
      refine ⟨hfirst.trans hmore,
        List.forall_mem_cons.2 ⟨hmore.merging_eq_nil hnode, hnodes⟩, ?_, fun i => ?_⟩
      · rw [List.map_cons, List.reverse_cons, List.flatten_append,
          (hmore.entries node).entries_eq hnode]
        simp
      · rcases hchanged' i with heq | ⟨j, hj, hbrings⟩
        · rw [heq]
          exact (hchanged i).imp id fun hbrings => ⟨node, List.mem_cons_self, hbrings⟩
        · exact .inr ⟨j, List.mem_cons_of_mem _ hj,
            ReflTransGen.mono (fun _ _ => hfirst.brings) _ _ hbrings⟩

/-- What nodes without merge keys bring in has none. -/
theorem merging_brought (h : ∀ i ∈ nodes, g.merging (g i).entries = []) :
    g.merging (nodes.map fun i => (g i).entries).reverse.flatten = [] := by
  refine merging_flatten fun es hes => ?_
  obtain ⟨i, hi, rfl⟩ := List.mem_map.1 (List.mem_reverse.1 hes)
  exact h i hi

/-- What one merge key of a mapping does, which is taken away first: the others are resolved, and
the mapping keeps the entries that are left unless it is resolved on the way. -/
theorem ResolvesEach.bring_into (hresolve : ResolvesEach resolve) (hn : g.sources? n = some [n])
    {key value : Nat} (hentries : (g n).entries = kept ++ (key, value) :: rest)
    (hkey : (g key).tag = .merge) (hnodes : g.sources? value = some nodes)
    (hbring : Graph.bringEach resolve (g.setEntries n (kept ++ rest)) nodes = .ok (next, merged)) :
    ResolvesBut g next n ∧ (∀ i ∈ nodes, next.merging (next i).entries = []) ∧
      merged = (nodes.map fun i => (next i).entries).reverse.flatten ∧
      ((next n).entries = kept ++ rest ∨ next.merging (next n).entries = [] ∧
        g.own (kept ++ rest) <:+ (next n).entries) := by
  have hshort := Narrows.without hn hentries
  obtain ⟨hnext, hfree, hmerged, hchanged⟩ := hresolve.bring_each hbring
  have hbrings : ∀ j ∈ nodes, g.Brings n j := fun j hj =>
    ⟨(key, value), by simp [hentries, merging, hkey], nodes, hnodes, hj⟩
  refine ⟨⟨hshort.trans hnext.toNarrows, fun i hi => ?_, fun i hi => ?_⟩, hfree, hmerged, ?_⟩
  · refine ResolvesAt.trans hshort (.inl ?_) hnext.toNarrows (hnext.entries i)
      (fun j => (hnext.entries j).keeps) fun _ _ j _ => (hnext.entries j).entries_eq
    rw [set_entries_of_ne g _ hi]
  · rcases hchanged i with heq | ⟨j, hj, hreach⟩
    · exact .inl (by rw [heq, set_entries_of_ne g _ hi])
    · exact .inr (TransGen.head' (hbrings j hj)
        (ReflTransGen.mono (fun _ _ => hshort.brings) _ _ hreach))
  · have hat := hnext.entries n
    unfold ResolvesAt at hat
    rw [set_entries_self] at hat
    refine hat.imp id fun ⟨_, hnone, hresolved⟩ => ⟨hnone, ?_⟩
    obtain ⟨before, hbefore⟩ := hresolved.own_last
    rw [set_entries_self, hshort.own] at hbefore
    exact ⟨before, hbefore.symm⟩

/-- What `mergeKeys` makes of a mapping `n` with the entries `kept` and `rest`: all others are
resolved, and it gets what its merge keys bring in and its own entries. -/
theorem ResolvesEach.merge_keys (hresolve : ResolvesEach resolve)
    (hmerge : Graph.mergeKeys resolve n kept merged g rest = .ok h) (hn : g.sources? n = some [n])
    (hentries : (g n).entries = kept ++ rest) (hkept : g.merging kept = [])
    (hmerged : g.merging merged = []) :
    ResolvesBut g h n ∧ h.merging (h n).entries = [] ∧
      ∃ more, (h n).entries = merged ++ more ++ g.own (kept ++ rest) ∧
        (g.merging rest = [] → more = []) := by
  induction rest generalizing kept merged g with
  | nil =>
      cases hmerge
      have hfree : g.merging (merged ++ kept) = [] := by
        rw [merging_append, hmerged, hkept]
        rfl
      have hlast : ResolvesBut g (g.setEntries n (merged ++ kept)) n :=
        .set_entries hn (by simp [hfree])
      refine ⟨hlast, ?_, [], ?_, fun _ => rfl⟩
      · rw [set_entries_self, hlast.merging]
        exact hfree
      · rw [set_entries_self, List.append_nil, List.append_nil, own_eq_self hkept]
        rfl
  | cons entry rest ih =>
      obtain ⟨key, value⟩ := entry
      rcases merge_keys_cons_ok hmerge with
        ⟨hkey, hmerge⟩ | ⟨hkey, nodes, next, brought, hnodes, hbring, hmerge⟩
      · have hgn := ResolvesBut.set_key g key n
        have hentries' : (g.setKey key n).entries = (kept ++ [(key, value)]) ++ rest := by
          simpa using hentries
        obtain ⟨hnl, hnone, more, hmore, hnil⟩ := ih hmerge
          ((hgn.sources n).trans hn) hentries' (merging_kept hkept hkey) (by rwa [hgn.merging])
        have hkeeps : (g.setKey key).own (g.setKey key n).entries <:+ (h n).entries := by
          rw [hmore, hentries']
          exact List.suffix_append _ _
        refine ⟨hgn.trans hnl (.inr hkeeps), hnone, more, ?_, fun hmerging => hnil ?_⟩
        · rw [hmore, hgn.own, List.append_assoc kept, List.singleton_append]
        · rw [hgn.merging]
          simpa [merging, hkey] using hmerging
      · have hown : g.own (kept ++ (key, value) :: rest) = g.own (kept ++ rest) :=
          own_cons_merge hkey
        have hsome : g.merging ((key, value) :: rest) ≠ [] := by simp [merging, hkey]
        rw [(Narrows.without hn hentries).sources] at hnodes
        obtain ⟨hgn, hfree, hbrought, hleft⟩ := hresolve.bring_into hn hentries hkey hnodes hbring
        have hmore : next.merging (merged ++ brought) = [] := by
          rw [merging_append, hgn.merging, hmerged, hbrought, merging_brought hfree]
          rfl
        rcases hmerge with ⟨heq, hmerge⟩ | ⟨hne, rfl⟩
        · obtain ⟨hnl, hnone, more, hlast, -⟩ :=
            ih hmerge ((hgn.sources n).trans hn) heq (by rwa [hgn.merging]) hmore
          have hkeeps : next.own (next n).entries <:+ (h n).entries := by
            rw [hlast, heq]
            exact List.suffix_append _ _
          refine ⟨hgn.trans hnl (.inr hkeeps), hnone, brought ++ more, ?_,
            fun hnil => absurd hnil hsome⟩
          rw [hlast, hown, hgn.own, List.append_assoc merged]
        · -- The mapping has been resolved on the way.
          obtain ⟨hnone, before, hbefore⟩ := hleft.resolve_left hne
          obtain ⟨hlast, hall⟩ := hgn.set_front hn hmore hnone
          refine ⟨hlast, by rwa [set_entries_self], brought ++ before, ?_,
            fun hnil => absurd hnil hsome⟩
          rw [set_entries_self, ← hbefore, hown]
          simp only [Cell.entries, List.append_assoc]

/-- What the nodes at the only merge key of a mapping bring in. -/
theorem ResolvesEach.merge_keys_of_only (hresolve : ResolvesEach resolve) {key value : Nat}
    (hmerge : Graph.mergeKeys resolve n kept [] g rest = .ok h) (hn : g.sources? n = some [n])
    (hentries : (g n).entries = kept ++ rest) (hkept : g.merging kept = [])
    (honly : g.merging rest = [(key, value)]) (hsources : g.sources? value = some nodes) :
    ∃ each, (h n).entries = each.reverse.flatten ++ g.own (kept ++ rest) ∧
      List.Forall₂ (fun i es => es <:+ (h i).entries ∧
        (¬TransGen g.Brings i n → es = (h i).entries)) nodes each := by
  induction rest generalizing kept g with
  | nil => exact absurd honly (by simp [merging])
  | cons entry rest ih =>
      obtain ⟨k, v⟩ := entry
      rcases merge_keys_cons_ok hmerge with
        ⟨hkey, hmerge⟩ | ⟨hkey, nodes', next, brought, hnodes, hbring, hends⟩
      · have hgn := Narrows.set_key g k
        obtain ⟨each, hlast, heach⟩ := ih hmerge ((hgn.sources n).trans hn)
          (by simpa using hentries) (merging_kept hkept hkey)
          (by rw [hgn.merging]; simpa [merging, hkey] using honly)
          ((hgn.sources value).trans hsources)
        rw [hgn.own, List.append_assoc, List.singleton_append] at hlast
        exact ⟨each, hlast, heach.imp fun i es hes =>
          ⟨hes.1, fun hnot => hes.2 fun hbrings => hnot (hgn.trans_gen hbrings)⟩⟩
      · obtain ⟨hentry, hnone⟩ : (k, v) = (key, value) ∧ g.merging rest = [] := by
          simpa [merging, hkey] using honly
        cases hentry
        have hfree : g.merging (kept ++ rest) = [] := by
          rw [merging_append, hkept, hnone]
          rfl
        have hown : g.own (kept ++ (key, value) :: rest) = kept ++ rest := by
          rw [own_cons_merge hkey, own_eq_self hfree]
        have hshort := Narrows.without hn hentries
        rw [hshort.sources, hsources] at hnodes
        cases hnodes
        obtain ⟨hgn, hnodes, hbrought, -⟩ := hresolve.bring_into hn hentries hkey hsources hbring
        -- The entries that are left have no merge key, and stay.
        have hleft : (next n).entries = kept ++ rest := by
          have hat := ((hresolve.bring_each hbring).1.entries n).entries_eq
          rw [set_entries_self, hshort.merging] at hat
          exact hat hfree
        have hmore : next.merging brought = [] := by
          rw [hbrought]
          exact merging_brought hnodes
        obtain ⟨-, hrest⟩ := hends.resolve_right fun hne => hne.1 hleft
        obtain ⟨hnl, -, more, hlast, hnil⟩ := hresolve.merge_keys hrest
          ((hgn.sources n).trans hn) hleft (by rwa [hgn.merging]) hmore
        rw [hnil (by rwa [hgn.merging]), List.append_nil, hgn.own, own_eq_self hfree] at hlast
        refine ⟨nodes.map fun i => (next i).entries, by rw [hlast, hown, hbrought]; rfl, ?_⟩
        rw [List.forall₂_map_right_iff]
        refine List.forall₂_same.2 fun i hi => ?_
        by_cases hin : i = n
        · subst hin
          refine ⟨by rw [hleft, hlast]; exact List.suffix_append _ _, fun hnot => ?_⟩
          refine absurd (TransGen.single ⟨(key, value), ?_, nodes, hsources, hi⟩) hnot
          simp [hentries, merging, hkey]
        · have heq := (hnl.others i hin).entries_eq (hnodes i hi)
          exact ⟨heq ▸ List.suffix_rfl, fun _ => heq.symm⟩

/-- Resolving the merge keys of a node resolves merge keys and leaves none in the node. -/
theorem resolves_flatten (depth : Nat) : ResolvesEach (flatten depth) := by
  induction depth with
  | zero => exact fun _ _ _ hflatten => absurd hflatten (by simp [flatten])
  | succ depth ih =>
      intro g n h hflatten
      rw [flatten] at hflatten
      split at hflatten
      · next tag entries hcell =>
          have hn : g.sources? n = some [n] := by rw [sources?, hcell]
          have hentries : (g n).entries = [] ++ entries := by rw [hcell]; rfl
          obtain ⟨hresolves, hnone, more, hmore, hnil⟩ :=
            ResolvesEach.merge_keys ih hflatten hn hentries rfl rfl
          -- The mapping is what `ResolvesBut` leaves open.
          refine ⟨⟨hresolves.toNarrows, fun i => ?_⟩, hnone, fun i => ?_⟩
          · by_cases hi : i = n
            · subst hi
              by_cases hmerging : g.merging entries = []
              · refine .inl ?_
                rw [hmore, hnil hmerging, hentries, List.nil_append, List.nil_append,
                  List.nil_append, own_eq_self hmerging]
              · refine .inr ⟨by rwa [hentries], hnone, ⟨more, by rw [hmore, hentries]; rfl⟩, ?_⟩
                rw [hentries]
                exact fun key value nodes honly hsources =>
                  ResolvesEach.merge_keys_of_only ih hflatten hn hentries rfl honly hsources
            · exact hresolves.others i hi
          · by_cases hi : i = n
            · exact .inr (hi ▸ .refl)
            · exact (hresolves.changed i hi).imp id TransGen.to_reflTransGen
      · next hcell =>
          cases hflatten
          exact ⟨.refl g, by rw [hcell]; rfl, fun _ => .inl rfl⟩
      · next hcell =>
          cases hflatten
          exact ⟨.refl g, by rw [hcell]; rfl, fun _ => .inl rfl⟩
      · exact absurd hflatten (by simp)
      · exact absurd hflatten (by simp)

end Graph

end UriTemplate.Yaml
