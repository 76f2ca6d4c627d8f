import UriTemplate.Proofs.Yaml.Acyclic
import UriTemplate.Proofs.Yaml.Making

/-!
# The objects of a document

`lib.Gives d objects n o` says which object `o` the node `n` of a document is to give, if what is
made of the nodes inside it is in `objects`: merge keys are resolved, keys are compared as values,
and special keys count as texts where they are keys (`Document.asKeys`). The objects of a document
are a `Plan` if all of them are as they are to be. What has been made of scalars on the way can be
told from the document as it was composed (`Library.ReadsScalars.ok_iff`), and so can what keys are
the same: `Library.yields_hashed` is the rule for the entries of a mapping or a set.
-/

namespace UriTemplate.Yaml

open Classical in
/-- `d.asKeys` is the document `d` in which special keys that are met as keys count as texts. -/
noncomputable def Document.asKeys (d : Document) : Document :=
  { d with graph := ⟨fun i => if d.graph.Met i then (d.graph i).asKey else d.graph i⟩ }

/-- `lib.Steady d` says that a mapping that is read as a scalar has the same value whatever has
become of the graph of the document, unless it is itself a special key. -/
def Library.Steady (lib : Library) (d : Document) : Prop :=
  ∀ n tag entries, d.graph n = .mapping tag entries → tag.isCollection = false →
    ∀ g h, d.graph.Later g → d.graph.Later h → (g n).tag ≠ .value → (h n).tag ≠ .value →
      lib.scalar { d with graph := g } n = lib.scalar { d with graph := h } n ∧
        lib.sharesNan { d with graph := g } n = lib.sharesNan { d with graph := h } n

/-- `g.IsEntry item p` says that the node `item` is a mapping of one entry `p`, or comes to be one
when its merge keys are resolved. -/
def Graph.IsEntry (g : Graph) (item : Nat) (p : Nat × Nat) : Prop :=
  ∃ tag written, g item = .mapping tag written ∧ (written = [p] ∨ g.Merged item [p])

namespace Library

variable (lib : Library) (d : Document)

/-- `lib.Hashes d objects n tag found` says that the node `n` is a mapping with the tag, and that
`found` is its entries, when merge keys are resolved and keys are compared as values. -/
def Hashes (objects : Objects) (n : Nat) (tag : Tag) (found : List ((Nat × Value) × Nat)) : Prop :=
  ∃ written es keyed, d.graph n = .mapping tag written ∧ d.graph.Merged n es ∧
    (∀ e ∈ es, (objects e.2).isSome = true) ∧ objects.Keyed es keyed ∧
      found = Entries.ofList (lib.sameKey d.asKeys) keyed

/-- `lib.Gives d objects n o` says that the node `n` of the document gives the object `o`. -/
def Gives (objects : Objects) (n : Nat) : Object → Prop
  | .scalar v => (d.graph n).tag.isCollection = false ∧ lib.scalar d.asKeys n = .ok v
  | .list items => d.graph n = .sequence .seq items
  | .pairs pairs => ∃ tag items, d.graph n = .sequence tag items ∧ (tag = .omap ∨ tag = .pairs) ∧
      List.Forall₂ d.graph.IsEntry items pairs
  | .set members => ∃ found, lib.Hashes d objects n .set found ∧
      members = lib.arrange (found.map (·.1.2))
  | .mapping entries => ∃ found, lib.Hashes d objects n .map found ∧
      entries = found.map fun f => (f.1.2, f.2)

/-- `lib.Plan d l` says that what is loaded of the document is what its nodes give, and that no
scalar is made of a special key. -/
structure Plan (l : Loaded) : Prop where
  gives : ∀ n o, l.objects n = some o → lib.Gives d l.objects n o
  closed : l.objects.Closed
  lt : ∀ n o, l.objects n = some o → n < d.size
  root : (l.objects d.root).isSome = true
  later : d.graph.Later l.document.graph
  document_eq : l.document = { d with graph := l.document.graph }
  differ : ∀ n v, l.objects n = some (.scalar v) → (l.document.graph n).tag ≠ .value

end Library

open Relation

variable {lib : Library} {d : Document} {g h : Graph} {objects more : Objects} {n i : Nat}
  {o : Object} {v : Value} {read : Tag → Text → Option Value} {isNan : Tag → Text → Bool}

/-! ## What does not change -/

/-- Nodes below a node of a document are nodes of it. -/
theorem Document.Numbered.lt_of_below (hnumbered : d.Numbered) (hn : n < d.size)
    (hbelow : d.graph.Below n i) : i < d.size := by
  induction hbelow with
  | single hinside => exact hnumbered.members n hn _ hinside
  | tail _ hinside ih => exact hnumbered.members _ ih _ hinside

/-- What is met as a key counts as one. -/
theorem Document.as_keys_of_met (h : d.graph.Met i) : d.asKeys.graph i = (d.graph i).asKey :=
  if_pos h

/-- What is not met as a key stays as it is. -/
theorem Document.as_keys_of_not_met (h : ¬d.graph.Met i) : d.asKeys.graph i = d.graph i := if_neg h

/-- Counting as keys is what may become of special keys. -/
theorem Document.later_as_keys (d : Document) : d.graph.Later d.asKeys.graph := by
  refine ⟨fun i => ?_, fun i hi => ?_⟩
  · have hi := (Graph.Later.refl d.graph).becomes i
    by_cases hmet : d.graph.Met i
    · rw [as_keys_of_met hmet]
      exact hi.as_key
    · rwa [as_keys_of_not_met hmet]
  · by_contra hnot
    exact hi (congrArg Cell.tag (as_keys_of_not_met hnot))

/-- A key that has become no special one in some graph is none where special keys count as texts. -/
theorem Graph.Later.tag_as_keys_ne (hg : d.graph.Later g) (hn : (g n).tag ≠ .value) :
    (d.asKeys.graph n).tag ≠ .value := by
  by_cases hmet : d.graph.Met n
  · have htag : (d.graph n).asKey.tag = (d.graph n).tag.asKey := by
      cases d.graph n <;> rfl
    rw [Document.as_keys_of_met hmet, htag]
    exact Tag.as_key_ne_value _
  · have htag : (g n).tag = (d.graph n).tag := by
      by_contra hne
      exact hmet (hg.met n hne)
    rwa [Document.as_keys_of_not_met hmet, ← htag]

/-- A collection of items has been one all the time. -/
theorem Graph.Later.sequence_of_tag {tag tag' : Tag} {items : List Nat} (hg : g.Later h)
    (htag : (h n).tag = tag) (hcell : h n = .sequence tag' items) (hne : tag ≠ .str) :
    g n = .sequence tag items := by
  rw [hcell] at htag
  obtain rfl : tag' = tag := htag
  exact hg.sequence hcell hne

/-- A collection of entries has been one all the time. -/
theorem Graph.Later.mapping_of_tag {tag tag' : Tag} {entries : List (Nat × Nat)} (hg : g.Later h)
    (htag : (h n).tag = tag) (hcell : h n = .mapping tag' entries) (hne : tag ≠ .str) :
    ∃ written, g n = .mapping tag written := by
  rw [hcell] at htag
  obtain rfl : tag' = tag := htag
  obtain ⟨written, hwritten, _⟩ := hg.mapping hcell hne
  exact ⟨written, hwritten⟩

/-- What was a mapping is one all the time. -/
theorem Graph.Later.exists_mapping {tag : Tag} {entries : List (Nat × Nat)} (hg : g.Later h)
    (hcell : g n = .mapping tag entries) : ∃ tag' entries', h n = .mapping tag' entries' := by
  have hn := hg.becomes n
  generalize h n = c at hn
  cases hn with
  | scalar hother _ | sequence hother _ => exact absurd (hcell.symm.trans hother) (by simp)
  | written | resolved => exact ⟨_, _, rfl⟩

/-- A scalar that is no special key stays as it is. -/
theorem Graph.Later.eq_scalar (hg : g.Later h) {tag : Tag} {content : Text}
    (hcell : g n = .scalar tag content) (htag : tag ≠ .value) : h n = .scalar tag content := by
  have hn := hg.becomes n
  generalize h n = c at hn
  cases hn with
  | scalar hcell' hbecomes =>
      obtain ⟨rfl, rfl⟩ := Cell.scalar.inj (hcell.symm.trans hcell')
      rw [hbecomes.eq_of_ne htag]
  | sequence hcell' _ | written hcell' _ | resolved hcell' _ _ =>
      exact absurd (hcell.symm.trans hcell') (by simp)

/-- A sequence that is no special key stays as it is. -/
theorem Graph.Later.eq_sequence {g h : Graph} (hg : g.Later h) {tag : Tag} {items : List Nat}
    (hcell : g n = .sequence tag items) (htag : tag ≠ .value) : h n = .sequence tag items := by
  have hn := hg.becomes n
  generalize h n = c at hn
  cases hn with
  | sequence hcell' hbecomes =>
      obtain ⟨rfl, rfl⟩ := Cell.sequence.inj (hcell.symm.trans hcell')
      rw [hbecomes.eq_of_ne htag]
  | scalar hcell' _ | written hcell' _ | resolved hcell' _ _ =>
      exact absurd (hcell.symm.trans hcell') (by simp)

/-- A mapping that is no special key keeps its tag. -/
theorem Graph.Later.exists_eq_mapping {g h : Graph} (hg : g.Later h) {tag : Tag}
    {entries : List (Nat × Nat)} (hcell : g n = .mapping tag entries) (htag : tag ≠ .value) :
    ∃ entries', h n = .mapping tag entries' := by
  obtain ⟨tag', entries', hcell'⟩ := hg.exists_mapping hcell
  have hbecomes := (hg.becomes n).tag
  rw [hcell, hcell'] at hbecomes
  rw [hcell', show tag' = tag from hbecomes.eq_of_ne htag]
  exact ⟨entries', rfl⟩

/-- A mapping of one entry is an entry. -/
theorem Graph.Later.is_entry {tag : Tag} {p : Nat × Nat} (hg : g.Later h)
    (hcell : h n = .mapping tag [p]) : g.IsEntry n p := by
  have hn := hg.becomes n
  rw [hcell] at hn
  cases hn with
  | written hwritten _ => exact ⟨_, _, hwritten, .inl rfl⟩
  | resolved hwritten _ hmerged => exact ⟨_, _, hwritten, .inr hmerged⟩

/-- An entry that stays as it is written is one all the time. -/
theorem Graph.Later.exists_entry {p : Nat × Nat} (hg : g.Later h) (hmerged : g.Merged n [p])
    (hwritten : (g n).entries = [p]) : ∃ tag, h n = .mapping tag [p] := by
  obtain ⟨tag, written, _, _, hcell, _⟩ := id hmerged
  rw [hcell] at hwritten
  obtain rfl : written = [p] := hwritten
  have hn := hg.becomes n
  generalize h n = c at hn
  cases hn with
  | scalar hcell' _ | sequence hcell' _ => exact absurd (hcell.symm.trans hcell') (by simp)
  | written hcell' _ =>
      obtain ⟨rfl, rfl⟩ := Cell.mapping.inj (hcell.symm.trans hcell')
      exact ⟨_, rfl⟩
  | resolved hcell' _ hmerged' => exact ⟨_, by rw [hmerged'.unique hmerged]⟩

/-- The key and the value of an entry are below it. -/
theorem Graph.IsEntry.below {p : Nat × Nat} (hentry : g.IsEntry n p) :
    g.Below n p.1 ∧ g.Below n p.2 := by
  obtain ⟨tag, written, hcell, rfl | hmerged⟩ := hentry
  · exact below_of_mem hcell List.mem_cons_self
  · exact hmerged.all_below p List.mem_cons_self

/-- An item is below its sequence. -/
theorem Graph.below_of_item {tag : Tag} {items : List Nat} (hcell : g n = .sequence tag items)
    (hi : i ∈ items) : g.Below n i := by
  refine .single ?_
  rw [Inside, hcell]
  exact hi

/-- A scalar is the same in all graphs that there may be, where it is not a special key. -/
theorem Graph.Later.scalar {tag : Tag} {content : Text} (hg : d.graph.Later g)
    (hcell : d.graph n = .scalar tag content) (htag : (g n).tag ≠ .value) :
    g n = .scalar tag.asKey content := by
  have hn := hg.becomes n
  generalize hc : g n = c at hn htag
  cases hn with
  | scalar hwritten hbecomes =>
      obtain ⟨rfl, rfl⟩ := Cell.scalar.inj (hcell.symm.trans hwritten)
      rw [hbecomes.unique (.inr rfl) htag (Tag.as_key_ne_value _)]
  | sequence hwritten _ | written hwritten _ | resolved hwritten _ _ =>
      exact absurd (hcell.symm.trans hwritten) (by simp)

/-- What is read of a scalar on the way is what is read of it where special keys count as texts, and
so is which numbers are the same. -/
theorem Library.ReadsScalars.ok_iff (hreads : lib.ReadsScalars read isNan) (hsteady : lib.Steady d)
    (hg : d.graph.Later g) (htag : (d.graph n).tag.isCollection = false)
    (hvalue : (g n).tag ≠ .value) :
    (lib.scalar { d with graph := g } n = .ok v ↔ lib.scalar d.asKeys n = .ok v) ∧
      (lib.scalar d.asKeys n = .ok v →
        lib.sharesNan { d with graph := g } n = lib.sharesNan d.asKeys n) := by
  cases hcell : d.graph n with
  | scalar tag content =>
      have hscalar := hg.scalar hcell hvalue
      have hasKeys := (d.later_as_keys).scalar hcell (hg.tag_as_keys_ne hvalue)
      rw [← to_option_eq_some_iff, ← to_option_eq_some_iff, hreads.scalar _ n _ content hscalar,
        hreads.scalar d.asKeys n _ content hasKeys, hreads.sharesNan _ n _ content hscalar,
        hreads.sharesNan d.asKeys n _ content hasKeys]
      exact ⟨Iff.rfl, fun _ => rfl⟩
  | sequence tag items =>
      have hno : ∀ g' : Graph, d.graph.Later g' → lib.scalar { d with graph := g' } n ≠ .ok v := by
        intro g' hg'
        have hn := hg'.becomes n
        generalize hc : g' n = c at hn
        cases hn with
        | sequence => exact hreads.sequence _ n _ _ v hc
        | scalar hwritten _ | written hwritten _ | resolved hwritten _ _ =>
            exact absurd (hcell.symm.trans hwritten) (by simp)
      have hasKeys := hno _ d.later_as_keys
      exact ⟨iff_of_false (hno g hg) hasKeys, fun hok => absurd hok hasKeys⟩
  | mapping tag entries =>
      rw [hcell] at htag
      obtain ⟨hscalar, hnan⟩ := hsteady n tag entries hcell htag g d.asKeys.graph hg d.later_as_keys
        hvalue (hg.tag_as_keys_ne hvalue)
      rw [hscalar, hnan]
      exact ⟨Iff.rfl, fun _ => rfl⟩

/-! ## Objects that grow -/

/-- Keys stay keyed while scalars stay. -/
theorem Objects.Keyed.mono {entries : List (Nat × Nat)} {keyed : List ((Nat × Value) × Nat)}
    (hkeyed : objects.Keyed entries keyed)
    (hscalar : ∀ i v, objects i = some (.scalar v) → more i = some (.scalar v)) :
    more.Keyed entries keyed :=
  hkeyed.imp fun _ _ ⟨hkey, hrest⟩ => ⟨hscalar _ _ hkey, hrest⟩

/-- What is inside a mapping or a set has been made. -/
theorem Library.Hashes.is_some {tag : Tag}
    {found : List ((Nat × Value) × Nat)}
    (h : lib.Hashes d objects n tag found) : ∀ f ∈ found, (objects f.2).isSome = true := by
  obtain ⟨_, es, keyed, _, _, hvalues, hkeyed, rfl⟩ := h
  have hall : ∀ k ∈ keyed, True ∧ (objects k.2).isSome = true :=
    forall_mem_right ((List.forall₂_and_left _ _).2 ⟨hvalues, hkeyed⟩) fun e k hek =>
      ⟨trivial, by rw [hek.2.2.2]; exact hek.1⟩
  exact fun f hf =>
    (Entries.forall_of_list (fun _ => True) (fun i => (objects i).isSome = true) hall f hf).2

/-- What a node gives stays while more is made. -/
theorem Library.Gives.mono (hgives : lib.Gives d objects n o)
    (hscalar : ∀ i v, objects i = some (.scalar v) → more i = some (.scalar v))
    (hmade : ∀ i, (objects i).isSome = true → (more i).isSome = true) :
    lib.Gives d more n o := by
  have hhashes : ∀ tag found, lib.Hashes d objects n tag found → lib.Hashes d more n tag found :=
    fun tag found ⟨written, es, keyed, hcell, hmerged, hvalues, hkeyed, hfound⟩ =>
      ⟨written, es, keyed, hcell, hmerged, fun e he => hmade _ (hvalues e he),
        hkeyed.mono hscalar, hfound⟩
  cases o with
  | scalar | list | pairs => exact hgives
  | set | mapping =>
      obtain ⟨found, hfound, heq⟩ := hgives
      exact ⟨found, hhashes _ found hfound, heq⟩

/-- `Grows s t` says that what is made in the state `s` is there in the state `t`, where scalars
stay and nothing becomes a special key. -/
structure Grows (s t : State) : Prop where
  isSome : ∀ i, (s.objects i).isSome = true → (t.objects i).isSome = true
  scalar : ∀ i v, s.objects i = some (.scalar v) → t.objects i = some (.scalar v)
  special : ∀ i, (t.document.graph i).tag = .value → (s.document.graph i).tag = .value

namespace Grows

variable {s t u : State}

/-- A state may stay as it is. -/
theorem refl (s : State) : Grows s s := ⟨fun _ h => h, fun _ _ h => h, fun _ h => h⟩

/-- States may grow one after the other. -/
theorem trans (hst : Grows s t) (htu : Grows t u) : Grows s u :=
  ⟨fun i h => htu.isSome i (hst.isSome i h), fun i v h => htu.scalar i v (hst.scalar i v h),
    fun i h => hst.special i (htu.special i h)⟩

/-- States grow. -/
theorem growth : Growth Grows := ⟨refl, trans, Grows.isSome⟩

/-- Something may be made of a node of which no scalar has been made. -/
theorem put (hn : ∀ v, s.objects n ≠ some (.scalar v)) (o : Object) :
    Grows s { s with objects := s.objects.set n o } where
  isSome i hi := by
    by_cases h : i = n <;> simp [Objects.set, h, hi]
  scalar i v hv := by
    have hi : i ≠ n := fun h => hn v (h ▸ hv)
    simp [Objects.set, hi, hv]
  special _ h := h

/-- Merge keys may be resolved. -/
theorem flatten (g : Graph) (h : ∀ i, (g i).tag = .value → (s.document.graph i).tag = .value) :
    Grows s { s with document := { s.document with graph := g } } :=
  ⟨fun _ h => h, fun _ _ h => h, h⟩

end Grows

/-! ## The entries of mappings and sets -/

/-- `d.Follows I` says that in the states of the invariant `I` the document is what `d` may have
become; merge keys may be resolved. -/
structure Document.Follows (d : Document) (I : State → Prop) : Prop where
  later : ∀ {s}, I s → d.graph.Later s.document.graph ∧
    s.document = { d with graph := s.document.graph }
  flatten : ∀ {s} g, I s → d.graph.Later g →
    (∀ i, (g i).tag = .value → (s.document.graph i).tag = .value) →
      I { s with document := { s.document with graph := g } }

/-- `lib.Tracks d I` says that in the states of the invariant `I` the document is what it may have
become, and the scalars are what its nodes give. -/
structure Library.Tracks (lib : Library) (d : Document) (I : State → Prop) : Prop
    extends d.Follows I where
  scalar : ∀ {s}, I s → ∀ i v, s.objects i = some (.scalar v) → lib.Gives d s.objects i (.scalar v)

namespace Library

variable {I : State → Prop} {E : Prop} {s : State} {es written : List (Nat × Nat)} {tag : Tag}

/-- Where no key is special, keys are compared as they are where special keys count as texts. -/
theorem same_key_eq (hreads : lib.ReadsScalars read isNan) (hsteady : lib.Steady d)
    (hg : d.graph.Later g) {a b : Nat × Value} (ha : (g a.1).tag ≠ .value)
    (hb : (g b.1).tag ≠ .value) (hagives : lib.Gives d objects a.1 (.scalar a.2))
    (hbgives : lib.Gives d objects b.1 (.scalar b.2)) :
    lib.sameKey { d with graph := g } a b = lib.sameKey d.asKeys a b := by
  unfold Methods.sameKey
  rw [(hreads.ok_iff hsteady hg hagives.1 ha).2 hagives.2,
    (hreads.ok_iff hsteady hg hbgives.1 hb).2 hbgives.2]

/-- The merge keys of a mapping or a set are resolved by merging, and no key is special then. -/
theorem yields_flatten (hI : d.Follows I) (hmerging : lib.FlattensByMerging)
    (hnumbered : d.Numbered) (hacyclic : d.graph.Acyclic) {G : State → State → Prop}
    (hflat : ∀ {s} g, (∀ i, (g i).tag = .value → (s.document.graph i).tag = .value) →
      G s { s with document := { s.document with graph := g } })
    (hcell : d.graph n = .mapping tag written) (htag : tag = .map ∨ tag = .set) (hs : I s)
    (hfails : (∀ g, lib.flatten s.document n ≠ .ok g) → E) :
    Yields (lib.flattenAt n) s E fun _ t => I t ∧ G s t ∧
      d.graph.Merged n (t.document.graph n).entries ∧
        ∀ e ∈ (t.document.graph n).entries, (t.document.graph e.1).tag ≠ .value := by
  obtain ⟨hlater, hdocument⟩ := hI.later hs
  obtain ⟨tag', entries, hcell'⟩ := hlater.exists_mapping hcell
  rw [yields_flatten_at]
  split
  · next g hflatten =>
      have hflatten' : lib.flatten { d with graph := s.document.graph } n = .ok g := by
        rwa [← hdocument]
      obtain ⟨hlater', hmerged, hkeys, hspecial⟩ := hmerging.sound d _ n _ _ g hnumbered hacyclic
        hlater (Graph.rewritten_of_tag hcell htag) hcell' hflatten'
      exact ⟨hI.flatten g hs hlater' hspecial, hflat g hspecial, hmerged, hkeys⟩
  · next e hflatten => exact hfails fun g hg => absurd (hflatten.symm.trans hg) (by simp)

/-- The rule for the entries of a mapping or a set: its merge keys are resolved, and its keys are
compared as values. Making keys and values keeps the invariant while no key is special, and a key is
a scalar unless the work may fail. -/
theorem yields_hashed (hI : lib.Tracks d I) (hreads : lib.ReadsScalars read isNan)
    (hsteady : lib.Steady d) (hmerging : lib.FlattensByMerging) (hnumbered : d.Numbered)
    (hacyclic : d.graph.Acyclic) {G : State → State → Prop} (hG : Growth G)
    (hgrows : ∀ {s t}, G s t → Grows s t)
    (hflat : ∀ {s} g, (∀ i, (g i).tag = .value → (s.document.graph i).tag = .value) →
      G s { s with document := { s.document with graph := g } })
    {loader : Services} (hloader : loader.flatten = lib.flattenAt)
    (hcell : d.graph n = .mapping tag written) (htag : tag = .map ∨ tag = .set) (hs : I s)
    (hfails : (∀ g, lib.flatten s.document n ≠ .ok g) → E)
    (hentries : ∀ es, d.graph.Merged n es → ∀ i, (∃ e ∈ es, i = e.1 ∨ i = e.2) →
      Makes (fun s => I s ∧ ∀ e ∈ es, (s.document.graph e.1).tag ≠ .value) G E
        (loader.construct false) i)
    (hkey : ∀ es, d.graph.Merged n es → ∀ s, I s → ∀ e ∈ es, (s.objects e.1).isSome = true →
      (∃ v, s.objects e.1 = some (.scalar v)) ∨ E) :
    Yields (lib.hashed loader n) s E fun found t => I t ∧ G s t ∧
      lib.Hashes d t.objects n tag found := by
  obtain ⟨tag', entries, hcell'⟩ := (hI.later hs).1.exists_mapping hcell
  rw [Methods.hashed, yields_bind, yields_cell, hcell']
  simp only [yields_bind, hloader]
  refine (yields_flatten hI.toFollows hmerging hnumbered hacyclic hflat hcell htag hs
    hfails).mono ?_
  rintro _ t ⟨ht, hst, hmerged, hkeys⟩
  rw [yields_cell]
  -- The keys that are compared are those that are left when merge keys have been resolved.
  let es := (t.document.graph n).entries
  have hscalar : ∀ u, (I u ∧ ∀ e ∈ es, (u.document.graph e.1).tag ≠ .value) → ∀ i ∈ es.map Prod.fst,
      (u.objects i).isSome = true → (∃ v, u.objects i = some (.scalar v)) ∨ E := by
    intro u hu i hi hmade
    obtain ⟨e, he, rfl⟩ := List.mem_map.1 hi
    exact hkey _ hmerged u hu.1 e he hmade
  -- None of them is special any more, so what has been resolved makes no difference.
  have hsame : ∀ u, (I u ∧ ∀ e ∈ es, (u.document.graph e.1).tag ≠ .value) → ∀ a b : Nat × Value,
      a.1 ∈ es.map Prod.fst → b.1 ∈ es.map Prod.fst → u.objects a.1 = some (.scalar a.2) →
        u.objects b.1 = some (.scalar b.2) →
          lib.sameKey u.document a b = lib.sameKey d.asKeys a b := by
    intro u hu a b ha hb hascalar hbscalar
    obtain ⟨e, he, hae⟩ := List.mem_map.1 ha
    obtain ⟨f, hf, hbf⟩ := List.mem_map.1 hb
    obtain ⟨hlater, hdocument⟩ := hI.later hu.1
    rw [hdocument]
    exact same_key_eq hreads hsteady hlater (hae ▸ hu.2 e he) (hbf ▸ hu.2 f hf)
      (hI.scalar hu.1 _ _ hascalar) (hI.scalar hu.1 _ _ hbscalar)
  refine (hG.hashed_from (fun hst => (hgrows hst).scalar) hscalar hsame
    (fun e he => ⟨List.mem_map_of_mem he, hentries _ hmerged e.1 ⟨e, he, .inl rfl⟩,
      hentries _ hmerged e.2 ⟨e, he, .inr rfl⟩⟩) ⟨ht, hkeys⟩ (by simp)).mono ?_
  rintro found u ⟨hu, htu, hvalues, keyed, hkeyed, hfound⟩
  exact ⟨hu.1, hG.trans hst htu, written, _, keyed, hcell, hmerged, hvalues, hkeyed, hfound⟩

end Library

end UriTemplate.Yaml
