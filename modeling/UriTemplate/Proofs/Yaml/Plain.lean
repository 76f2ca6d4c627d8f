import UriTemplate.Proofs.Yaml.Drawn

/-!
# What is loaded with plain keys

The constructor of the loader itself fills collections one after the other, and each is there before
it is filled. In a document without recursion, what it loads is a `Plan`: each object is what its
node gives (`Library.plan_of_load`).
-/

namespace UriTemplate.Yaml

open Relation

variable {lib : Library} {d : Document} {s : State} {filled? : Option Nat} {n : Nat} {o : Object}
  {read : Tag → Text → Option Value} {isNan : Tag → Text → Bool}

/-- What nodes give judges what is made of them. -/
theorem Library.judges_gives (lib : Library) (d : Document) : lib.Judges d (lib.Gives d) where
  mono h hscalar hmade := h.mono hscalar hmade
  gives h := h

/-- `lib.Draws d filled? s` says that in the state `s` something has been made of nodes of the
document, and that it is what they give, but for the collections that wait. -/
abbrev Library.Draws (lib : Library) (d : Document) : Option Nat → State → Prop :=
  Drawn d (· < d.size) (lib.Gives d)

variable (hknown : lib.Known d read isNan)
include hknown

/-- The plain constructor makes an object of a node: a scalar, or a collection that waits. -/
theorem Drawn.construct (depth : Nat) (hn : n < d.size) :
    Makes (lib.Draws d filled?) Grows True (lib.construct lib.plain depth [] false) n := by
  intro s hs
  cases depth with
  | zero => exact yields_refuse.2 trivial
  | succ depth =>
      rw [Methods.construct]
      simp only [yields_bind, yields_is_made, yields_ite, yields_pure, yields_refuse, yields_cell,
        yields_get, yields_lift, yields_put, yields_put_off]
      refine ⟨fun hmade => ⟨hs, .refl _, hmade⟩, fun hmade => ⟨fun _ => trivial, fun _ => ?_⟩⟩
      have hnone : s.objects n = none := by simpa using hmade
      have hold : ∀ v, s.objects n ≠ some (.scalar v) := fun v hv => by simp [hnone] at hv
      have hnew : ∀ o : Object, ((s.objects.set n o) n).isSome = true := by simp [Objects.set]
      refine ⟨fun htag => ?_, fun htag => ⟨fun hdeep => ?_, fun _ => ?_⟩⟩
      · split
        · next v hv =>
            obtain ⟨hvalue, hgives⟩ := hs.gives_scalar hknown (by simpa using htag) hv
            exact ⟨hs.put_scalar (lib.judges_gives d) hn hnone hvalue hgives, .put hold _, hnew _⟩
        · trivial
      · -- The constructor makes no collection at once.
        exact absurd hdeep (by simp [Methods.plain])
      · have hcollection : (d.graph n).tag.isCollection = true := by
          rw [← (hs.later.becomes n).tag.is_collection_eq]
          simpa using htag
        exact ⟨hs.put_off (lib.judges_gives d) hn hnone hcollection _, { Grows.put hold _ with },
          hnew _⟩

/-- A mapping or a set gives its entries when keys are compared as values. -/
theorem Drawn.hashed (size : Nat) (hn : n < d.size) (hs : lib.Draws d (some n) s) {tag : Tag}
    {written : List (Nat × Nat)} (hcell : d.graph n = .mapping tag written)
    (htag : tag = .map ∨ tag = .set) :
    Yields (lib.hashed ⟨lib.flattenAt, lib.construct lib.plain size []⟩ n) s True
      fun found t => lib.Draws d (some n) t ∧ Grows s t ∧ lib.Hashes d t.objects n tag found := by
  refine Library.yields_hashed (Drawn.tracks (lib.judges_gives d) (some n)) hknown.reads
    hknown.steady hknown.merging hknown.numbered hknown.acyclic Grows.growth id
    (fun g hspecial => .flatten g hspecial) rfl hcell htag hs (fun _ => trivial)
    (fun es hmerged i hi => ?_) fun _ _ _ _ _ _ _ => .inr trivial
  obtain ⟨e, he, hi⟩ := hi
  have hbelow : d.graph.Below n i := by
    obtain ⟨hkey, hvalue⟩ := hmerged.all_below e he
    rcases hi with rfl | rfl
    · exact hkey
    · exact hvalue
  exact (Drawn.construct hknown size (hknown.numbered.lt_of_below hn hbelow)).and
    fun s t hst hkeys e he hvalue => hkeys e he (hst.special _ hvalue)

/-- The pairs of a list of entries are made of these. -/
theorem Drawn.pairs (size : Nat) (hn : n < d.size) (hs : lib.Draws d (some n) s) {tag : Tag}
    {items : List Nat} (hcell : d.graph n = .sequence tag items)
    (htag : tag = .omap ∨ tag = .pairs) :
    Yields (Object.pairs <$> lib.pairsFrom (lib.construct lib.plain size [] false) n [] items)
      s True fun o t => lib.Draws d (some n) t ∧ Grows s t ∧ lib.Gives d t.objects n o ∧
        (∀ v, o ≠ .scalar v) ∧ ∀ i ∈ o.members, (t.objects i).isSome = true := by
  rw [yields_map]
  refine (Grows.growth.pairs_from (I := lib.Draws d (some n)) (R := d.graph.IsEntry)
    (fun item hitem t ht => ⟨fun tag key value hentry => ?_, fun _ => trivial⟩)
    (fun t ht pairs hpairs => ?_) hs (by simp)).mono ?_
  · have hitemLt := hknown.numbered.lt_of_below hn (Graph.below_of_item hcell hitem)
    have hisEntry := ht.later.is_entry hentry
    obtain ⟨hkey, hvalue⟩ := hisEntry.below
    refine (Drawn.construct hknown size (hknown.numbered.lt_of_below hitemLt hkey) t ht).mono ?_
    rintro _ u ⟨hu, htu, hmade⟩
    exact ⟨hu, htu, hmade,
      Drawn.construct hknown size (hknown.numbered.lt_of_below hitemLt hvalue), hisEntry⟩
  · simp only [showPairs, yields_bind, yields_is_made, yields_ite, yields_put, yields_pure]
    exact ⟨fun _ => ⟨ht.put_pairs (lib.judges_gives d) hpairs, .put ht.ne_scalar _⟩,
      fun _ => ⟨ht, .refl _⟩⟩
  · rintro pairs t ⟨ht, hst, hmade, more, hmore, hall⟩
    obtain rfl : pairs = more := hmore
    exact ⟨ht, hst, ⟨tag, items, hcell, htag, hall⟩, by simp, Object.forall_mem_pairs.2 hmade⟩

/-- The services that fill a collection make what is inside it. -/
theorem Drawn.content (size : Nat) (hn : n < d.size) (hs : lib.Draws d (some n) s) :
    Yields (lib.content lib.plain ⟨lib.flattenAt, lib.construct lib.plain size []⟩ n) s True
      fun o t => lib.Draws d (some n) t ∧ Grows s t ∧ lib.Gives d t.objects n o ∧
        (∀ v, o ≠ .scalar v) ∧ ∀ i ∈ o.members, (t.objects i).isSome = true := by
  rw [Methods.content, yields_bind, yields_cell]
  split
  · next htag hcell =>
      have hwritten := hs.later.sequence_of_tag htag hcell (by decide)
      simp only [yields_bind, yields_pure]
      refine (Grows.growth.items (fun i hi => Drawn.construct hknown size
        (hknown.numbered.lt_of_below hn (Graph.below_of_item hwritten hi))) hs).mono ?_
      rintro _ t ⟨ht, hst, hmade⟩
      exact ⟨ht, hst, hwritten, by simp, hmade⟩
  · next htag hcell =>
      exact hs.pairs hknown size hn (hs.later.sequence_of_tag htag hcell (by decide)) (.inl rfl)
  · next htag hcell =>
      exact hs.pairs hknown size hn (hs.later.sequence_of_tag htag hcell (by decide)) (.inr rfl)
  · next htag hcell =>
      obtain ⟨written, hwritten⟩ := hs.later.mapping_of_tag htag hcell (by decide)
      simp only [yields_bind, yields_pure]
      refine (Drawn.hashed hknown size hn hs hwritten (.inr rfl)).mono ?_
      rintro found t ⟨ht, hst, hfound⟩
      exact ⟨ht, hst, ⟨found, hfound, rfl⟩, by simp, by simp [Object.members]⟩
  · next htag =>
      simp only [Constructor.mapping, Methods.plain, yields_bind, yields_get, yields_modify,
        yields_pure]
      cases hcell : s.document.graph n with
      | scalar | sequence =>
          rw [Methods.hashed, yields_bind, yields_cell, hcell]
          exact yields_refuse.2 trivial
      | mapping tag entries =>
          obtain ⟨written, hwritten⟩ := hs.later.mapping_of_tag htag hcell (by decide)
          refine (Drawn.hashed hknown size hn hs hwritten (.inl rfl)).mono ?_
          rintro found t ⟨ht, hst, hfound⟩
          refine ⟨ht.with_calls _, { hst with },
            ⟨found, hfound, rfl⟩, by simp, fun i hi => ?_⟩
          obtain ⟨e, he, rfl⟩ := List.mem_map.1 hi
          obtain ⟨f, hf, rfl⟩ := List.mem_map.1 he
          exact hfound.is_some f hf
  · exact yields_refuse.2 trivial

/-- All collections are filled in the end. -/
theorem Drawn.fill_pending (size rounds : Nat) (hs : lib.Draws d none s) :
    Yields (lib.fillPending lib.plain size rounds) s True fun _ t =>
      lib.Draws d none t ∧ t.pending = [] ∧ Grows s t := by
  -- The load may fail for want of rounds, so nothing has to be counted.
  induction rounds generalizing s with
  | zero =>
      rw [Methods.fillPending, yields_bind, yields_get]
      split
      · next hpending => exact ⟨hs, hpending, .refl _⟩
      · exact yields_refuse.2 trivial
  | succ rounds ih =>
      rw [Methods.fillPending, yields_bind, yields_get]
      split
      · next hpending => exact ⟨hs, hpending, .refl _⟩
      · next n rest hpending =>
          simp only [yields_bind, yields_modify, yields_put]
          obtain ⟨-, _, hmade, _⟩ := hs.waiting n (.inr (by simp [hpending]))
          refine ((hs.pop hpending).content hknown size (hs.known n _ hmade)).mono ?_
          rintro o t ⟨ht, hst, hgives, hno, hmembers⟩
          have hfilled := ht.fill (lib.judges_gives d) hmembers hno hgives
          refine (ih hfilled).mono ?_
          rintro _ u ⟨hu, hnone, htu⟩
          refine ⟨hu, hnone, ?_⟩
          have hrest : Grows s t := ⟨hst.isSome, hst.scalar, hst.special⟩
          exact (hrest.trans (.put ht.ne_scalar o)).trans htu

/-- What is loaded with plain keys is what the nodes of the document give. -/
theorem Library.plan_of_load {l : Loaded} (h : lib.loadDocument lib.plain d = .ok l) :
    lib.Plan d l := by
  have hyields : Yields (lib.construct lib.plain (d.size + 1) [] false d.root) d.start True
      fun _ u => Yields (lib.fillPending lib.plain (d.size + 1) (d.size + 1)) u True fun _ t =>
        lib.Draws d none t ∧ t.pending = [] ∧ (t.objects d.root).isSome = true := by
    refine (Drawn.construct hknown _ hknown.numbered.root _ (.start d _ _)).mono ?_
    rintro _ u ⟨hu, _, hroot⟩
    refine (hu.fill_pending hknown _ _).mono ?_
    rintro _ t ⟨ht, hpending, hut⟩
    exact ⟨ht, hpending, hut.isSome _ hroot⟩
  obtain ⟨t, ⟨ht, hpending, hroot⟩, rfl⟩ := (Methods.load_document_of_yields hyields).1 l h
  exact ⟨fun n o ho => ht.right n o ho (by simp [Waits, hpending]), ht.closed, ht.known, hroot,
    ht.later, ht.document_eq, ht.differ⟩

end UriTemplate.Yaml
