import UriTemplate.Proofs.Yaml.Source

/-!
# The same document with texts as keys

The constructor with texts as keys makes everything inside a mapping at once, where the loader
itself puts collections off. What it makes of a document that has been loaded (`Library.Source`) is
the same object by object, with the texts of keys in the place of the keys
(`Library.Source.load_document`). It may fail only if the document is not `Settled`.
-/

namespace UriTemplate

namespace Yaml

variable {lib : Library} {d : Document} {l : Loaded} {s t : State} {filled? : Option Nat} {n : Nat}
  {o p : Object} {objects : Objects} {around : List Nat} {read : Tag → Text → Option Value}
  {isNan : Tag → Text → Bool} {rank : Nat → Nat}

/-! ## Collections -/

/-- `Serving d l around filled? n make` says that `make` makes what is inside the node `n`. It may
fail only where the document is not settled. -/
structure Serving (d : Document) (l : Loaded) (around : List Nat) (filled? : Option Nat) (n : Nat)
    (make : Bool → Nat → Loading Unit) : Prop where
  makes : ∀ deep i, l.Has i → d.graph.Below n i →
    Makes (fun s => l.Follows d filled? s ∧ ((s.document.graph i).tag = .value → ¬d.Settled))
      (Advances d around) (¬d.Settled) (make deep) i
  fails : ∀ deep i s (Q : Unit → State → Prop), (d.graph i).tag = .merge → l.Follows d filled? s →
    ¬d.Settled → Yields (make deep i) s (¬d.Settled) Q

/-- A special key has been one all the time. -/
theorem Graph.Later.tag_eq_value {g h : Graph} (hg : g.Later h) {i : Nat}
    (hvalue : (h i).tag = .value) : (g i).tag = .value := by
  rw [← hvalue]
  exact ((hg.becomes i).tag.eq_of_ne_str (by rw [hvalue]; decide)).symm

/-- The text of a scalar as a key. -/
theorem Stage.key_text_of_scalar {s : Stage} {v : Value} (h : s.objects n = some (.scalar v)) :
    s.keyText n = v.keyText := by
  rw [Stage.keyText, h]

namespace Serving

variable {make : Bool → Nat → Loading Unit} (hserving : Serving d l around filled? n make)
include hserving

/-- What stands where there may be no special key is made. -/
theorem of_ne (deep : Bool) {i : Nat} (hhas : l.Has i) (hbelow : d.graph.Below n i)
    (hvalue : d.Settled → (d.graph i).tag ≠ .value) :
    Makes (l.Follows d filled?) (Advances d around) (¬d.Settled) (make deep) i :=
  (hserving.makes deep i hhas hbelow).of
    (fun _ hs => ⟨hs, fun htag hsettled => hvalue hsettled (hs.later.tag_eq_value htag)⟩)
    fun _ _ _ ht _ => ht.1

/-- The keys and values of a mapping or a set are made when its merge keys are resolved. -/
theorem entries (deep : Bool) {es : List (Nat × Nat)}
    (htag : (d.graph n).tag = .map ∨ (d.graph n).tag = .set) (hmerged : d.graph.Merged n es)
    {i : Nat} (hi : ∃ e ∈ es, i = e.1 ∨ i = e.2) (hhas : l.Has i) :
    Makes (fun s => l.Follows d filled? s ∧ ∀ e ∈ es, (s.document.graph e.1).tag ≠ .value)
      (Advances d around) (¬d.Settled) (make deep) i := by
  obtain ⟨e, he, hi⟩ := hi
  have hbelow : d.graph.Below n i := by
    obtain ⟨hkey, hvalue⟩ := hmerged.all_below e he
    rcases hi with rfl | rfl
    · exact hkey
    · exact hvalue
  refine (hserving.makes deep i hhas hbelow).of
    (fun s hs => ⟨hs.1, fun hvalue hsettled => ?_⟩)
    fun s t hs ht hst => ⟨ht.1, fun f hf hvalue => hs.2 f hf (hst.special _ hvalue)⟩
  rcases hi with rfl | rfl
  · exact hs.2 e he hvalue
  · -- A special key that is a value is a key of the same mapping as well.
    obtain ⟨f, hf, heq⟩ :=
      hsettled.entries n es htag hmerged e he (hs.1.later.tag_eq_value hvalue)
    exact hs.2 f hf (heq ▸ hvalue)

/-- The key of an entry is made, and then its value can be. -/
theorem entry {item key value : Nat} {tag : Tag} {p : Nat × Nat} (hp : l.Has p.1 ∧ l.Has p.2)
    (hbelow : d.graph.Below n item) (hmerged : d.graph.Merged item [p])
    (hwritten : d.Settled → (d.graph item).entries = [p])
    (hvalues : d.Settled → (d.graph p.1).tag ≠ .value ∧ (d.graph p.2).tag ≠ .value)
    (ht : l.Follows d filled? t) (hfills : Fills around filled? n t)
    (hentry : t.document.graph item = .mapping tag [(key, value)]) :
    Yields (make false key) t (¬d.Settled) fun _ u =>
      (l.Follows d filled? u ∧ Fills around filled? n u) ∧ Advances d around t u ∧
        (u.objects key).isSome = true ∧
        Makes (fun s => l.Follows d filled? s ∧ Fills around filled? n s) (Advances d around)
          (¬d.Settled) (make false) value ∧ d.graph.Merged item [(key, value)] := by
  have hisEntry := ht.later.is_entry hentry
  -- While the key is a merge key, those of the item have not been resolved, and making it fails.
  by_cases hmerge : (d.graph key).tag = .merge
  · refine hserving.fails false key t _ hmerge ht fun hsettled => ?_
    obtain ⟨_, written, hitemCell, rfl | hmerged'⟩ := hisEntry
    · have heq := hwritten hsettled
      rw [hitemCell] at heq
      obtain rfl : (key, value) = p := List.head_eq_of_cons_eq heq
      exact hmerged.merge_free _ List.mem_cons_self hmerge
    · exact hmerged'.merge_free _ List.mem_cons_self hmerge
  · have hpair := (hisEntry.merged hmerge).unique hmerged
    obtain rfl : (key, value) = p := by simpa using hpair
    obtain ⟨hkeyBelow, hvalueBelow⟩ := hmerged.all_below _ List.mem_cons_self
    have hmakes : ∀ i, l.Has i → d.graph.Below n i → (d.Settled → (d.graph i).tag ≠ .value) →
        Makes (fun s => l.Follows d filled? s ∧ Fills around filled? n s) (Advances d around)
          (¬d.Settled) (make false) i := fun i hhas hi hvalue =>
      (hserving.of_ne false hhas hi hvalue).and fun s t hst hfills => hfills.mono hst.unmade
    refine (hmakes key hp.1 (hbelow.trans hkeyBelow) (fun h => (hvalues h).1) t
      ⟨ht, hfills⟩).mono ?_
    rintro _ u ⟨hu, htu, hmade⟩
    exact ⟨hu, htu, hmade, hmakes value hp.2 (hbelow.trans hvalueBelow) (fun h => (hvalues h).2),
      hmerged⟩

end Serving

namespace Library.Source

section

variable (hsource : lib.Source d l read isNan rank)
include hsource

/-- The merge keys of a mapping or a set of which something has been loaded can be resolved. -/
theorem exists_flatten {tag : Tag} {written es : List (Nat × Nat)}
    (hcell : d.graph n = .mapping tag written) (htag : tag = .map ∨ tag = .set) (hhas : l.Has n)
    (hmerged : d.graph.Merged n es) (hs : l.Follows d filled? s) :
    ∃ g, lib.flatten s.document n = .ok g := by
  obtain ⟨o, ho⟩ := Option.isSome_iff_exists.1 hhas
  rw [hs.document_eq]
  exact hsource.merging.complete d s.document.graph n es hsource.numbered hsource.acyclic hs.later
    (hsource.lt n o ho) (Graph.rewritten_of_tag hcell htag) hmerged

/-- Keys of a mapping have the same text if and only if they are the same where special keys count
as texts. -/
theorem key_text_eq_iff {entries : List (Value × Nat)} {es : List (Nat × Nat)}
    (hn : l.objects n = some (.mapping entries)) (hmerged : d.graph.Merged n es) {a b : Nat × Value}
    (ha : ∃ e ∈ es, e.1 = a.1) (hb : ∃ e ∈ es, e.1 = b.1)
    (hav : l.objects a.1 = some (.scalar a.2)) (hbv : l.objects b.1 = some (.scalar b.2)) :
    a.2.keyText = b.2.keyText ↔ lib.sameKey d.asKeys a b = true := by
  obtain ⟨e, he, hea⟩ := ha
  obtain ⟨f, hf, hfb⟩ := hb
  have htells := (hsource.keys n entries es hn hmerged e he a.2 (hea ▸ hav)).2 f hf b.2 (hfb ▸ hbv)
  rw [htells, hsource.document_eq, hea, hfb]
  rw [Library.same_key_eq hsource.reads hsource.steady hsource.later (hsource.differ _ _ hav)
    (hsource.differ _ _ hbv) (hsource.gives _ _ hav) (hsource.gives _ _ hbv)]

/-- A mapping that is put together by the texts of its keys is the one that has been loaded, with
the texts of keys. -/
theorem renames_of_list {entries : List (Value × Nat)} {es : List (Nat × Nat)}
    {keyed : List ((Nat × Value) × Nat)} {shown : List (Text × Nat)}
    (hn : l.objects n = some (.mapping entries)) (hmerged : d.graph.Merged n es)
    (hentries : entries =
      (Entries.ofList (lib.sameKey d.asKeys) keyed).map fun f => (f.1.2, f.2))
    (hkeyed : l.objects.Keyed es keyed)
    (hshown : List.Forall₂ (fun e f => ∀ v, l.objects e.1 = some (.scalar v) →
      v.keyText = .ok f.1 ∧ f.2 = e.2) es shown) :
    (Object.mapping entries).Renames (.mapping
      (Entries.ofList Value.same (shown.map fun f => (.text f.1, f.2)))) := by
  have hpairs : List.Forall₂ (fun (k : (Nat × Value) × Nat) (f : Text × Nat) =>
      ((∃ e ∈ es, e.1 = k.1.1) ∧ l.objects k.1.1 = some (.scalar k.1.2) ∧
        k.1.2.keyText = .ok f.1) ∧ k.2 = f.2) keyed shown := by
    refine (forall₂_of_common hkeyed hshown).imp ?_
    rintro k f ⟨e, he, ⟨hv, hnode, hvalue⟩, htext⟩
    obtain ⟨htext, hvalue'⟩ := htext _ hv
    exact ⟨⟨⟨e, he, hnode.symm⟩, hnode ▸ hv, htext⟩, hvalue.trans hvalue'.symm⟩
  have hsame : ∀ (a b : Nat × Value) (t u : Text),
      ((∃ e ∈ es, e.1 = a.1) ∧ l.objects a.1 = some (.scalar a.2) ∧ a.2.keyText = .ok t) →
      ((∃ e ∈ es, e.1 = b.1) ∧ l.objects b.1 = some (.scalar b.2) ∧ b.2.keyText = .ok u) →
      lib.sameKey d.asKeys a b = (t == u) := by
    rintro a b t u ⟨ha, hav, ht⟩ ⟨hb, hbv, hu⟩
    rw [Bool.eq_iff_iff, ← hsource.key_text_eq_iff hn hmerged ha hb hav hbv, ht, hu, beq_iff_eq,
      Except.ok.injEq]
  refine ⟨_, congrArg _ (Entries.of_list_map_text shown), ?_⟩
  rw [hentries, List.forall₂_map_left_iff]
  refine (Entries.forall₂_of_list (K := fun (a : Nat × Value) (t : Text) =>
    (∃ e ∈ es, e.1 = a.1) ∧ l.objects a.1 = some (.scalar a.2) ∧ a.2.keyText = .ok t) (R := Eq)
      hsame hpairs).imp ?_
  rintro k f ⟨⟨_, _, htext⟩, hvalue⟩
  exact ⟨htext, hvalue.symm⟩

end

variable (hsource : lib.Source d l read isNan rank) {make : Bool → Nat → Loading Unit}
  (hserving : Serving d l around filled? n make)
include hsource hserving

/-- The members of a set are those that have been loaded. -/
theorem hashed {found : List ((Nat × Value) × Nat)} (hhas : l.Has n)
    (hfound : lib.Hashes d l.objects n .set found) (hs : l.Follows d filled? s) :
    Yields (lib.hashed ⟨lib.flattenAt, make⟩ n) s (¬d.Settled) fun hashed t =>
      l.Follows d filled? t ∧ Advances d around s t ∧ hashed = found := by
  obtain ⟨written, es, keyed, hcell, hmerged, hvalues, hkeyed, _⟩ := id hfound
  have hkeys : ∀ e ∈ es, ∃ v, l.objects e.1 = some (.scalar v) :=
    forall_mem_left hkeyed fun e k hek => ⟨k.1.2, hek.1⟩
  refine (Library.yields_hashed (Drawn.tracks hsource.judges filled?) hsource.reads hsource.steady
    hsource.merging hsource.numbered hsource.acyclic (Advances.growth d around)
    (fun hst => hst.toGrows) (fun g h => Advances.flatten d around g h) rfl hcell (.inr rfl) hs
    (fun hnone => ?_) (fun es' hmerged' i hi => ?_) fun es' hmerged' t ht e he hmade => ?_).mono ?_
  · obtain ⟨g, hg⟩ := hsource.exists_flatten hcell (.inr rfl) hhas hmerged hs
    exact absurd hg (hnone g)
  · obtain rfl := hmerged.unique hmerged'
    refine hserving.entries false (by rw [hcell]; exact .inr rfl) hmerged hi ?_
    obtain ⟨e, he, rfl | rfl⟩ := hi
    · obtain ⟨v, hv⟩ := hkeys e he
      simp [Loaded.Has, hv]
    · exact hvalues e he
  · obtain rfl := hmerged.unique hmerged'
    obtain ⟨v, hv⟩ := hkeys e he
    exact .inl ⟨v, hsource.exists_scalar ht hv hmade⟩
  · rintro hashed t ⟨ht, hst, hhashed⟩
    exact ⟨ht, hst, hhashed.unique hfound fun i v hv => scalar_eq ht hv⟩

/-- The mapping is the one that has been loaded, with the texts of keys. -/
theorem mapping {entries : List (Value × Nat)} (hn : l.objects n = some (.mapping entries))
    (hs : l.Follows d filled? s) :
    Yields (Constructor.textKeys.mapping ⟨lib.flattenAt, make⟩ n) s (¬d.Settled) fun o t =>
      l.Follows d filled? t ∧ Advances d around s t ∧ (Object.mapping entries).Renames o ∧
        ∀ i ∈ o.members, (t.objects i).isSome = true := by
  obtain ⟨found, ⟨written, es, keyed, hcell, hmerged, hvalues, hkeyed, rfl⟩, hentries⟩ :=
    hsource.gives n _ hn
  have hkeys : ∀ e ∈ es, ∃ v, l.objects e.1 = some (.scalar v) :=
    forall_mem_left hkeyed fun e k hek => ⟨k.1.2, hek.1⟩
  have hmakes : ∀ i, (∃ e ∈ es, i = e.1 ∨ i = e.2) → l.Has i →
      Makes (fun s => l.Follows d filled? s ∧ ∀ e ∈ es, (s.document.graph e.1).tag ≠ .value)
        (Advances d around) (¬d.Settled) (make true) i := fun i hi hhas =>
    hserving.entries true (by rw [hcell]; exact .inl rfl) hmerged hi hhas
  rw [Constructor.mapping]
  simp only [yields_bind, yields_get, yields_modify, yields_pure]
  show Yields (Constructor.textKeys.entries _ n) s _ _
  simp only [Constructor.textKeys, yields_bind, yields_cell]
  refine (Library.yields_flatten (Drawn.tracks hsource.judges filled?).toFollows hsource.merging
    hsource.numbered hsource.acyclic (fun g h => Advances.flatten d around g h) hcell (.inl rfl) hs
    fun hnone => ?_).mono ?_
  · obtain ⟨g, hg⟩ :=
      hsource.exists_flatten hcell (.inl rfl) (by simp [Loaded.Has, hn]) hmerged hs
    exact absurd hg (hnone g)
  rintro _ t ⟨ht, hst, hmerged', hdiffer⟩
  rw [← hmerged.unique hmerged'] at hdiffer ⊢
  refine ((Advances.growth d around).text_keyed
    (I := fun s => l.Follows d filled? s ∧ ∀ e ∈ es, (s.document.graph e.1).tag ≠ .value)
    (fun u hu e he hmade => ?_) (fun u v hu huv e he hmade => ?_) (fun e he => ?_) ⟨ht, hdiffer⟩
    (by simp)).mono ?_
  · obtain ⟨v, hv⟩ := hkeys e he
    rw [Stage.key_text_of_scalar (hsource.exists_scalar hu.1 hv hmade)]
    exact .inl (hsource.keys n entries es hn hmerged e he v hv).1
  · obtain ⟨w, hw⟩ := hkeys e he
    have hscalar := hsource.exists_scalar hu.1 hw hmade
    rw [Stage.key_text_of_scalar hscalar, Stage.key_text_of_scalar (huv.scalar _ _ hscalar)]
  · obtain ⟨v, hv⟩ := hkeys e he
    exact ⟨hmakes e.1 ⟨e, he, .inl rfl⟩ (by simp [Loaded.Has, hv]),
      hmakes e.2 ⟨e, he, .inr rfl⟩ (hvalues e he)⟩
  · rintro result u ⟨hu, htu, hmembers, hmade, shown, hshown, hresult⟩
    refine ⟨hu.1.with_calls _, { hst.trans htu with }, ?_, fun i hi => ?_⟩
    · rw [hresult]
      refine hsource.renames_of_list hn hmerged hentries hkeyed
        (((List.forall₂_and_left _ _).2 ⟨hmade, hshown⟩).imp ?_)
      rintro e f ⟨hmade, htext, hvalue⟩ v hv
      rw [Stage.key_text_of_scalar (hsource.exists_scalar hu.1 hv hmade)] at htext
      exact ⟨htext, hvalue⟩
    · obtain ⟨e, he, rfl⟩ := List.mem_map.1 hi
      exact hmembers e he

/-- The pairs of a list of entries are those that have been loaded. -/
theorem pairs {tag : Tag} {items : List Nat} {pairs : List (Nat × Nat)}
    (hn : l.objects n = some (.pairs pairs)) (hcell : d.graph n = .sequence tag items)
    (htag : tag = .omap ∨ tag = .pairs) (hall : List.Forall₂ d.graph.IsEntry items pairs)
    (hs : l.Follows d filled? s) (hfills : Fills around filled? n s) :
    Yields (lib.pairsFrom (make false) n [] items) s (¬d.Settled) fun found t =>
      l.Follows d filled? t ∧ Advances d around s t ∧ found = pairs ∧
        ∀ p ∈ found, (t.objects p.1).isSome = true ∧ (t.objects p.2).isSome = true := by
  have hinside : ∀ p ∈ pairs, l.Has p.1 ∧ l.Has p.2 := fun p hp =>
    ⟨hsource.closed n _ hn p.1 (List.mem_flatMap.2 ⟨p, hp, by simp⟩),
      hsource.closed n _ hn p.2 (List.mem_flatMap.2 ⟨p, hp, by simp⟩)⟩
  have hall' : List.Forall₂ (fun p item => d.graph.Merged item [p]) pairs items := by
    refine ((List.forall₂_and_left _ _).2 ⟨hinside, hall.flip⟩).imp ?_
    rintro p item ⟨hp, hentry⟩
    obtain ⟨o, ho⟩ := Option.isSome_iff_exists.1 hp.1
    exact Graph.IsEntry.merged hentry (hsource.tag_ne_merge ho)
  refine ((Advances.growth d around).pairs_from
    (I := fun s => l.Follows d filled? s ∧ Fills around filled? n s)
    (R := fun item p => d.graph.Merged item [p])
    (fun item hitem t ht => ?_) (fun t ht found hfound => ?_) ⟨hs, hfills⟩ (by simp)).mono ?_
  · obtain ⟨ht, htfills⟩ := ht
    obtain ⟨p, hp, hmerged⟩ := exists_mem_left hall' item hitem
    -- In a settled document the entry is written as it is.
    have hwritten : d.Settled → (d.graph item).entries = [p] := fun hsettled =>
      hmerged.entries_eq (hsettled.pairs n tag items hcell htag item hitem).1
    have hvalues : d.Settled → (d.graph p.1).tag ≠ .value ∧ (d.graph p.2).tag ≠ .value :=
      fun hsettled => (hsettled.pairs n tag items hcell htag item hitem).2 p
        (by rw [hwritten hsettled]; exact List.mem_cons_self)
    refine ⟨fun tag' key value hentry => ?_, fun hother hsettled => ?_⟩
    · exact hserving.entry (hinside p hp) (Graph.below_of_item hcell hitem) hmerged hwritten hvalues
        ht htfills hentry
    · obtain ⟨tag', hentry⟩ := ht.later.exists_entry hmerged (hwritten hsettled)
      exact hother tag' p hentry
  · -- Only a collection that is being filled shows the pairs so far.
    obtain ⟨ht, htfills⟩ := ht
    simp only [showPairs, yields_bind, yields_is_made, yields_ite, yields_put, yields_pure]
    refine ⟨fun hmade => ?_, fun _ => ⟨⟨ht, htfills⟩, .refl _ _ _⟩⟩
    rcases htfills with rfl | ⟨_, hnone⟩
    · exact ⟨⟨ht.put_pairs hsource.judges hfound, .inl rfl⟩, .put ht.ne_scalar (fun _ => hmade) _⟩
    · exact absurd hmade (by simp [hnone])
  · rintro found t ⟨ht, hst, hmade, more, heq, hmore⟩
    refine ⟨ht.1, hst, ?_, hmade⟩
    obtain rfl : found = more := heq
    rw [← List.forall₂_eq_eq_eq]
    refine (forall₂_of_common hmore hall'.flip).imp ?_
    rintro p q ⟨item, _, hp, hq⟩
    exact List.head_eq_of_cons_eq (hp.unique hq)

/-- What a collection holds is what has been loaded, with the texts of keys. -/
theorem content (hp : l.objects n = some p) (hno : ∀ v, p ≠ .scalar v)
    (hs : l.Follows d filled? s) (hfills : Fills around filled? n s) :
    Yields (lib.content .textKeys ⟨lib.flattenAt, make⟩ n) s (¬d.Settled) fun o t =>
      l.Follows d filled? t ∧ Advances d around s t ∧ l.Renamed t.objects n o ∧
        (∀ v, o ≠ .scalar v) ∧ ∀ i ∈ o.members, (t.objects i).isSome = true := by
  have hgives := hsource.gives n p hp
  -- Only a mapping has keys that become texts.
  have hrenamed : ∀ t : State, (∀ entries, p ≠ .mapping entries) → l.Renamed t.objects n p := by
    intro t hmapping
    refine ⟨p, hp, ?_⟩
    cases p with
    | mapping entries => exact absurd rfl (hmapping entries)
    | scalar | list | pairs | set => rfl
  rw [Methods.content, yields_bind, yields_cell]
  cases p with
  | scalar v => exact absurd rfl (hno v)
  | list items =>
      rw [hs.later.eq_sequence hgives (by decide)]
      simp only [Cell.tag, yields_bind, yields_pure]
      refine ((Advances.growth d around).items (fun i hi => ?_) hs).mono ?_
      · exact hserving.of_ne false (hsource.closed n _ hp i hi) (Graph.below_of_item hgives hi)
          fun hsettled => hsettled.items n items hgives i hi
      · rintro _ t ⟨ht, hst, hmade⟩
        exact ⟨ht, hst, hrenamed t (by simp), by simp, hmade⟩
  | pairs found =>
      obtain ⟨tag, items, hcell, htag, hall⟩ := hgives
      have hpairs : Yields
          (Object.pairs <$> lib.pairsFrom (make false) n [] items) s (¬d.Settled) fun o t =>
            l.Follows d filled? t ∧ Advances d around s t ∧ l.Renamed t.objects n o ∧
              (∀ v, o ≠ .scalar v) ∧ ∀ i ∈ o.members, (t.objects i).isSome = true := by
        rw [yields_map]
        refine (hsource.pairs hserving hp hcell htag hall hs hfills).mono ?_
        rintro found t ⟨ht, hst, heq, hmade⟩
        subst heq
        exact ⟨ht, hst, hrenamed t (by simp), by simp,
          Object.forall_mem_pairs.2 hmade⟩
      rcases htag with rfl | rfl
      · rw [hs.later.eq_sequence hcell (by decide)]
        exact hpairs
      · rw [hs.later.eq_sequence hcell (by decide)]
        exact hpairs
  | set members =>
      obtain ⟨found, hfound, rfl⟩ := hgives
      obtain ⟨written, _, _, hcell, _⟩ := id hfound
      obtain ⟨entries, hcell'⟩ := hs.later.exists_eq_mapping hcell (by decide)
      rw [hcell']
      simp only [Cell.tag, yields_bind, yields_pure]
      refine (hsource.hashed hserving (by simp [Loaded.Has, hp]) hfound hs).mono ?_
      rintro hashed t ⟨ht, hst, heq⟩
      subst heq
      exact ⟨ht, hst, hrenamed t (by simp), by simp, by simp [Object.members]⟩
  | mapping entries =>
      obtain ⟨found, ⟨written, _, _, hcell, _⟩, _⟩ := hgives
      obtain ⟨entries', hcell'⟩ := hs.later.exists_eq_mapping hcell (by decide)
      rw [hcell']
      refine (hsource.mapping hserving hp hs).mono ?_
      rintro o t ⟨ht, hst, hrenames, hmembers⟩
      obtain ⟨named, rfl, hnamed⟩ := hrenames
      exact ⟨ht, hst, ⟨_, hp, named, rfl, hnamed⟩, by simp, hmembers⟩

end Library.Source

/-! ## A load -/

namespace Library.Source

variable (hsource : lib.Source d l read isNan rank)
include hsource

/-- A scalar that is made is the one that has been loaded. -/
theorem exists_scalar_of_tag (hs : l.Follows d filled? s) (hp : l.objects n = some p)
    (htag : (s.document.graph n).tag.isCollection = false) :
    ∃ v, p = .scalar v ∧ ((s.document.graph n).tag ≠ .value → lib.scalar s.document n = .ok v) ∧
      ∀ w, lib.scalar s.document n = .ok w → w = v ∧ (s.document.graph n).tag ≠ .value := by
  have hwritten : (d.graph n).tag.isCollection = false := by
    rwa [← (hs.later.becomes n).tag.is_collection_eq]
  have hgives := hsource.gives n p hp
  obtain ⟨v, rfl⟩ := hgives.exists_scalar hwritten
  refine ⟨v, rfl, fun hvalue => ?_, fun w hw => ?_⟩
  · rw [hs.document_eq]
    exact (hsource.reads.ok_iff hsource.steady hs.later hwritten hvalue).1.2 hgives.2
  · obtain ⟨hvalue, hgives'⟩ := hs.gives_scalar hsource.toKnown htag hw
    exact ⟨Except.ok.inj (hgives'.2.symm.trans hgives.2), hvalue⟩

/-- Making an object of a merge key fails. -/
theorem construct_fails (depth : Nat) (around : List Nat) (deep : Bool) {i : Nat}
    (hmerge : (d.graph i).tag = .merge) (hs : l.Follows d filled? s) (hE : ¬d.Settled)
    (Q : Unit → State → Prop) :
    Yields (lib.construct .textKeys depth around deep i) s (¬d.Settled) Q := by
  cases depth with
  | zero => exact yields_refuse.2 hE
  | succ depth =>
      have htag : (s.document.graph i).tag = .merge := hs.later.tag_eq_merge_iff.2 hmerge
      rw [Methods.construct]
      simp only [yields_bind, yields_is_made, yields_ite, yields_pure, yields_refuse, yields_cell,
        yields_get, yields_lift, yields_put, yields_put_off]
      refine ⟨fun hmade => ?_, fun _ =>
        ⟨fun _ => hE, fun _ => ⟨fun _ => ?_, fun hcollection => ?_⟩⟩⟩
      · obtain ⟨o, ho⟩ := Option.isSome_iff_exists.1 hmade
        obtain ⟨p, hp⟩ := Option.isSome_iff_exists.1 (hs.known i o ho)
        exact absurd hmerge (hsource.tag_ne_merge hp)
      · split
        · next v hv => exact absurd hv (hsource.reads.special _ i v (.inl htag))
        · exact hE
      · exact absurd (by rw [htag]; rfl) hcollection

/-- Making an object of a node makes what has been loaded of it, with the texts of keys. -/
theorem construct (depth : Nat) (around : List Nat) (deep : Bool) (filled? : Option Nat) {i : Nat}
    (hhas : l.Has i) (hopen : d.Open rank depth around i) :
    Makes (fun s => l.Follows d filled? s ∧ ((s.document.graph i).tag = .value → ¬d.Settled))
      (Advances d around) (¬d.Settled) (lib.construct .textKeys depth around deep) i := by
  -- The induction is on the depth, which is more than the rank of the node.
  induction depth generalizing around deep filled? i with
  | zero => exact absurd hopen.rank_lt (Nat.not_lt_zero _)
  | succ depth ih =>
      rintro s ⟨hs, hvalue⟩
      obtain ⟨p, hp⟩ := Option.isSome_iff_exists.1 hhas
      have hnot := hopen.not_mem hsource.ranks
      rw [Methods.construct]
      simp only [yields_bind, yields_is_made, yields_ite, yields_pure, yields_refuse, yields_cell,
        yields_get, yields_lift, yields_put, yields_put_off]
      refine ⟨fun hmade => ⟨⟨hs, hvalue⟩, .refl _ _ _, hmade⟩, fun hmade =>
        ⟨fun hmem => absurd (by simpa using hmem) hnot, fun _ => ?_⟩⟩
      have hnone : s.objects i = none := by simpa using hmade
      have hold : ∀ v, s.objects i ≠ some (.scalar v) := fun v hv => by simp [hnone] at hv
      have hself : ∀ (t : State) (o : Object), ((t.objects.set i o) i).isSome = true := by
        simp [Objects.set]
      refine ⟨fun htag => ?_, fun htag => ?_⟩
      · obtain ⟨v, rfl, hok, hunique⟩ := hsource.exists_scalar_of_tag hs hp (by simpa using htag)
        split
        · next w hw =>
            obtain ⟨rfl, hne⟩ := hunique w hw
            exact ⟨⟨hs.put_scalar hsource.judges hhas hnone hne ⟨_, hp, rfl⟩, hvalue⟩,
              .put hold (fun h => absurd h hnot) _, hself _ _⟩
        · next e he =>
            intro hsettled
            have hne : (s.document.graph i).tag ≠ .value := fun h => hvalue h hsettled
            exact absurd (he.symm.trans (hok hne)) (by simp)
      · have hcollection : (d.graph i).tag.isCollection = true := by
          rw [← (hs.later.becomes i).tag.is_collection_eq]
          simpa using htag
        have hno : ∀ v, p ≠ .scalar v := by
          rintro v rfl
          exact absurd hcollection (by rw [(hsource.gives i _ hp).1]; decide)
        refine ⟨fun _ => ?_, fun _ => ?_⟩
        · -- What is inside is below the node, so its rank is smaller.
          have hserving : Serving d l (i :: around) filled? i fun more =>
              lib.construct .textKeys depth (i :: around) (deep || more) := by
            exact ⟨fun more j hj hbelow =>
              ih (i :: around) (deep || more) filled? hj (hopen.below hsource.ranks hbelow),
              fun more j t Q hmerge ht hE => hsource.construct_fails depth _ _ hmerge ht hE Q⟩
          refine (hsource.content hserving hp hno hs (.inr ⟨List.mem_cons_self, hnone⟩)).mono ?_
          rintro o t ⟨ht, hst, hright, hnoScalar, hmembers⟩
          -- Nothing is made of a node that is around, so the node itself has no object yet.
          have hstill := hst.unmade i List.mem_cons_self hnone
          have holdt : ∀ v, t.objects i ≠ some (.scalar v) := fun v hv => by simp [hstill] at hv
          refine ⟨⟨ht.put hsource.judges hhas hmembers holdt (fun _ _ => Iff.rfl)
            (fun v hv => absurd hv (hnoScalar v)) (fun _ => hcollection) fun _ => hright,
            fun h => hvalue (hst.special i h)⟩,
            hst.of_cons.trans (.put holdt (fun h => absurd h hnot) _), hself _ _⟩
        · exact ⟨⟨hs.put_off hsource.judges hhas hnone hcollection _, hvalue⟩,
            .put_off hopen.lt hnone hnot _, hself _ _⟩

/-- Collections are filled with what has been loaded of them, with the texts of keys. There are no
more of them than nodes. -/
theorem fill_pending (rounds : Nat) (hs : l.Follows d none s) (hleft : s.left d ≤ rounds) :
    Yields (lib.fillPending .textKeys (d.size + 1) rounds) s (¬d.Settled) fun _ t =>
      l.Follows d none t ∧ t.pending = [] ∧ Grows s t := by
  -- Each round takes one of those that are left, and none comes back.
  induction rounds generalizing s with
  | zero =>
      have hpending : s.pending = [] := by
        rw [← List.length_eq_zero_iff]
        unfold State.left at hleft
        omega
      rw [Methods.fillPending, yields_bind, yields_get, hpending]
      exact ⟨hs, hpending, .refl _⟩
  | succ rounds ih =>
      rw [Methods.fillPending, yields_bind, yields_get]
      split
      · next hpending => exact ⟨hs, hpending, .refl _⟩
      · next n rest hpending =>
          simp only [yields_bind, yields_modify, yields_put]
          obtain ⟨hcollection, _, hmade, _⟩ := hs.waiting n (.inr (by simp [hpending]))
          obtain ⟨p, hp⟩ := Option.isSome_iff_exists.1 (hs.known n _ hmade)
          have hno : ∀ v, p ≠ .scalar v := by
            rintro v rfl
            exact absurd hcollection (by rw [(hsource.gives n _ hp).1]; decide)
          have hserving : Serving d l [] (some n) n (lib.construct .textKeys (d.size + 1) []) :=
            ⟨fun deep i hi _ => hsource.construct _ [] deep (some n) hi
              (.of_lt hsource.ranks (hsource.lt_of_has hi)),
              fun deep i t Q hmerge ht hE => hsource.construct_fails _ [] deep hmerge ht hE Q⟩
          refine (hsource.content hserving hp hno (hs.pop hpending) (.inl rfl)).mono ?_
          rintro o t ⟨ht, hst, hright, hnoScalar, hmembers⟩
          have hput : Advances d [] t { t with objects := t.objects.set n o } :=
            .put ht.ne_scalar (by simp) o
          have hfilled := ht.fill hsource.judges hmembers hnoScalar hright
          refine (ih hfilled ?_).mono ?_
          · have hless : State.left { s with pending := rest } d + 1 = s.left d := by
              simp only [State.left, hpending, List.length_cons]
              omega
            have := hst.left_le
            have := hput.left_le
            omega
          · rintro _ u ⟨hu, hnone, htu⟩
            have hrest : Grows s t := ⟨hst.isSome, hst.scalar, hst.special⟩
            exact ⟨hu, hnone, (hrest.trans hput.toGrows).trans htu⟩

/-- What is made of the document with texts as keys is what has been loaded, object by object, with
the texts of keys. In a settled document it can be made. -/
theorem load_document :
    (d.Settled → ∃ l', lib.loadDocument .textKeys d = .ok l') ∧
      ∀ l', lib.loadDocument .textKeys d = .ok l' → l'.document.root = d.root ∧
        l'.document.size = d.size ∧ (l'.objects d.root).isSome = true ∧ l'.objects.Closed ∧
          ∀ i o, l'.objects i = some o → l.Renamed l'.objects i o := by
  have hleft : d.start.left d ≤ d.size + 1 := by
    refine Nat.le_trans (Nat.add_le_add_right (Finset.card_filter_le _ _) _) ?_
    simp [Document.start]
  have hstart : l.Follows d none d.start := .start d _ _
  have hroot : Makes (fun s => l.Follows d none s ∧
      ((s.document.graph d.root).tag = .value → ¬d.Settled)) (Advances d []) (¬d.Settled)
        (lib.construct .textKeys (d.size + 1) [] false) d.root :=
    hsource.construct (d.size + 1) [] false none hsource.root
      (.of_lt hsource.ranks hsource.numbered.root)
  have hyields : Yields (lib.construct .textKeys (d.size + 1) [] false d.root) d.start (¬d.Settled)
      fun _ t => Yields (lib.fillPending .textKeys (d.size + 1) (d.size + 1)) t (¬d.Settled)
        fun _ u => l.Follows d none u ∧ u.pending = [] ∧ (u.objects d.root).isSome = true := by
    refine (hroot d.start ⟨hstart, fun hvalue hsettled => hsettled.root hvalue⟩).mono ?_
    rintro _ t ⟨ht, hst, hmade⟩
    refine (hsource.fill_pending _ ht.1 (Nat.le_trans hst.left_le hleft)).mono ?_
    rintro _ u ⟨hu, hpending, htu⟩
    exact ⟨hu, hpending, htu.isSome _ hmade⟩
  obtain ⟨hload, hexists⟩ := Methods.load_document_of_yields hyields
  refine ⟨fun hsettled => ?_, fun l' hl' => ?_⟩
  · obtain ⟨t, -, ht⟩ := hexists (not_not_intro hsettled)
    exact ⟨_, ht⟩
  · obtain ⟨t, ⟨ht, hpending, hmade⟩, rfl⟩ := hload l' hl'
    -- Nothing waits in the end, so every object is right.
    have hdocument := ht.document_eq
    refine ⟨by rw [hdocument], by rw [hdocument], hmade, ht.closed, fun i o ho => ?_⟩
    exact ht.right i o ho (by simp [Waits, hpending])

end Library.Source

end Yaml

end UriTemplate
