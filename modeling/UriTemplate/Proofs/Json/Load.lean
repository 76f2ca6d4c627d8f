import UriTemplate.Proofs.Json.Values
import UriTemplate.Proofs.Yaml.Plan
import UriTemplate.Proofs.Yaml.TextKeys

/-!
# JSON texts as documents

What is known of a library that loads JSON texts: such a text composes the tree of its values if its
keys are short enough, and no document otherwise (`Library.ComposesJson`), and scalars in it are
read as what they are written as (`ReadsJson`). In a tree of lists and mappings whose keys are texts
all that is made of a node is what it holds (`Document.Holds`), whatever has been made before, and
no collection is put off. So the JSON text of a mapping is read as the value `j.loaded`
(`Library.read_json`).
-/

namespace UriTemplate

open Json

namespace Yaml

/-! ## Laws -/

/-- The JSON text of a mapping composes a tree of its values, where plain scalars have the tags that
their forms imply, if every key in it is short enough to be read as one, and no document
otherwise. -/
structure Library.ComposesJson (lib : Library) : Prop where
  compose : ∀ entries, (mapping entries).fits = true → ∃ d table,
    lib.compose (mapping entries).source = .ok (some d) ∧ d.graph.Acyclic ∧
      (mapping entries).node.ShownAt d.graph table d.root
  refuse : ∀ entries, (mapping entries).fits = false →
    ∃ e, lib.compose (mapping entries).source = .error e

/-- Null, truth values, integers that are not too long, floating-point numbers that are written with
a point, and texts are read by their tags as what they are written as. -/
structure ReadsJson (read : Tag → Text → Option Value) : Prop where
  null : read .null "null" = some .null
  bool : ∀ b, read .bool (Json.bool b).source = some (.bool b)
  int : ∀ n, Decimal.exceedsLimit n = false → read .int (Decimal.ofInt n) = some (.int n)
  float : ∀ negative m, HasPoint m → read .float (Binary64.finite negative m).text =
    some (.float (.finite negative m))
  text : ∀ t, read .str t = some (.text t)

variable {lib : Library} {d : Document} {g : Graph} {read : Tag → Text → Option Value}
  {isNan : Tag → Text → Bool} {s : State} {n : Nat} {o : Object} {rank : Nat → Nat}
  {table : List (Text × Nat)}

/-! ## Trees -/

/-- A scalar is written as a scalar, with a tag by which it is read. -/
theorem ReadsJson.exists_scalar (hread : ReadsJson read) {j : Json} (hj : j.isCollection = false)
    (h : j.value.Writable) : ∃ tag content, j.node = .scalar none tag content ∧
      tag.isCollection = false ∧ tag ≠ .value ∧ read tag content = some j.loaded := by
  cases j with
  | null => exact ⟨_, _, rfl, rfl, by decide, hread.null⟩
  | bool b =>
      have htag : Tag.ofPlain (Json.bool b).source = .bool := by cases b <;> rfl
      exact ⟨_, _, rfl, by rw [htag]; rfl, by rw [htag]; decide, by rw [htag]; exact hread.bool b⟩
  | int n =>
      have htag : Tag.ofPlain (Json.int n).source = .int := Tag.of_plain_of_int n
      refine ⟨_, _, rfl, by rw [htag]; rfl, by rw [htag]; decide, ?_⟩
      rw [htag]
      exact hread.int n (h n (by simp [value, Value.integers]))
  | float negative m =>
      have htag : Tag.ofPlain (Json.float negative m).source =
          if HasPoint m then .float else .str := Tag.of_plain_text negative m
      by_cases hpoint : HasPoint m
      · rw [if_pos hpoint] at htag
        refine ⟨_, _, rfl, by rw [htag]; rfl, by rw [htag]; decide, ?_⟩
        rw [htag, loaded, if_pos hpoint]
        exact hread.float negative m hpoint
      · rw [if_neg hpoint] at htag
        refine ⟨_, _, rfl, by rw [htag]; rfl, by rw [htag]; decide, ?_⟩
        rw [htag, loaded, if_neg hpoint]
        exact hread.text _
  | text t => exact ⟨_, _, rfl, rfl, by decide, hread.text _⟩
  | list | mapping => exact absurd hj (by simp [isCollection])

/-- Items are shown one by one. -/
theorem items_shown_at_iff {items : List Json} {is : List Nat} :
    Node.ItemsShownAt g table (itemNodes items) is ↔
      List.Forall₂ (fun j i => j.node.ShownAt g table i) items is := by
  induction items generalizing is with
  | nil => simp [itemNodes, Node.ItemsShownAt]
  | cons item rest ih =>
      rw [itemNodes, Node.ItemsShownAt]
      constructor
      · rintro ⟨i, more, rfl, hitem, hrest⟩
        exact .cons hitem (ih.1 hrest)
      · rintro (_ | ⟨hitem, hrest⟩)
        exact ⟨_, _, rfl, hitem, ih.2 hrest⟩

/-- Entries are shown one by one, with keys that are texts. -/
theorem entries_shown_at_iff {entries : List (Text × Json)} {es : List (Nat × Nat)} :
    Node.EntriesShownAt g table (entryNodes entries) es ↔
      List.Forall₂ (fun entry e => g e.1 = .scalar .str entry.1.units ∧
        entry.2.node.ShownAt g table e.2) entries es := by
  induction entries generalizing es with
  | nil => simp [entryNodes, Node.EntriesShownAt]
  | cons entry rest ih =>
      rw [entryNodes, Node.EntriesShownAt]
      constructor
      · rintro ⟨k, v, more, rfl, hkey, hvalue, hrest⟩
        exact .cons ⟨hkey, hvalue⟩ (ih.1 hrest)
      · rintro (_ | ⟨⟨hkey, hvalue⟩, hrest⟩)
        exact ⟨_, _, _, rfl, hkey, hvalue, ih.2 hrest⟩

/-- `d.Holds read n o` says that the node `n` of the document holds the object `o`: the scalar that
is read, the items, or the entries by their keys, which are texts. -/
def Document.Holds (d : Document) (read : Tag → Text → Option Value) (n : Nat) : Object → Prop
  | .scalar v => ∃ tag content, d.graph n = .scalar tag content ∧ tag.isCollection = false ∧
      read tag content = some v
  | .list items => d.graph n = .sequence .seq items
  | .mapping entries => ∃ written shown, d.graph n = .mapping .map written ∧
      List.Forall₂ (fun e f => d.graph e.1 = .scalar .str f.1 ∧ f.2 = e.2) written shown ∧
        entries = (Entries.ofList (· == ·) shown).map fun f => (.text f.1, f.2)
  | _ => False

namespace Document.Holds

/-- A scalar node holds the scalar that is read. -/
theorem of_scalar {tag : Tag} {content : Text} (h : d.Holds read n o)
    (hcell : d.graph n = .scalar tag content) : ∃ v, o = .scalar v ∧ read tag content = some v := by
  cases o with
  | scalar v =>
      obtain ⟨tag', content', hcell', _, hv⟩ := h
      obtain ⟨rfl, rfl⟩ := Cell.scalar.inj (hcell.symm.trans hcell')
      exact ⟨v, rfl, hv⟩
  | list items => exact absurd (hcell.symm.trans h) (by simp)
  | mapping entries =>
      obtain ⟨_, _, hcell', _⟩ := h
      exact absurd (hcell.symm.trans hcell') (by simp)
  | set | pairs => exact absurd h id

/-- A sequence holds its items. -/
theorem of_sequence {items : List Nat} (h : d.Holds read n o)
    (hcell : d.graph n = .sequence .seq items) : o = .list items := by
  cases o with
  | scalar v =>
      obtain ⟨_, _, hcell', _⟩ := h
      exact absurd (hcell.symm.trans hcell') (by simp)
  | list items' => rw [(Cell.sequence.inj (hcell.symm.trans h)).2]
  | mapping entries =>
      obtain ⟨_, _, hcell', _⟩ := h
      exact absurd (hcell.symm.trans hcell') (by simp)
  | set | pairs => exact absurd h id

/-- A mapping holds its entries by their keys. -/
theorem of_mapping {es : List (Nat × Nat)} (h : d.Holds read n o)
    (hcell : d.graph n = .mapping .map es) : ∃ shown,
      List.Forall₂ (fun e f => d.graph e.1 = .scalar .str f.1 ∧ f.2 = e.2) es shown ∧
        o = .mapping ((Entries.ofList (· == ·) shown).map fun f => (.text f.1, f.2)) := by
  cases o with
  | scalar v =>
      obtain ⟨_, _, hcell', _⟩ := h
      exact absurd (hcell.symm.trans hcell') (by simp)
  | list items => exact absurd (hcell.symm.trans h) (by simp)
  | mapping entries =>
      obtain ⟨written, shown, hcell', hshown, rfl⟩ := h
      obtain ⟨_, rfl⟩ := Cell.mapping.inj (hcell.symm.trans hcell')
      exact ⟨shown, hshown, rfl⟩
  | set | pairs => exact absurd h id

end Document.Holds

/-- `d.Builds read s` says that in the state `s` all that has been made is what the nodes hold, with
everything inside, and that no collection waits. -/
structure Document.Builds (d : Document) (read : Tag → Text → Option Value) (s : State) :
    Prop where
  later : d.graph.Later s.document.graph
  document_eq : s.document = { d with graph := s.document.graph }
  closed : s.objects.Closed
  holds : ∀ i o, s.objects i = some o → d.Holds read i o
  pending : s.pending = []

namespace Document.Builds

/-- Merge keys may be resolved. -/
theorem follows (d : Document) (read : Tag → Text → Option Value) : d.Follows (d.Builds read) where
  later hs := ⟨hs.later, hs.document_eq⟩
  flatten g hs hg _ := by
    refine ⟨hg, ?_, hs.closed, hs.holds, hs.pending⟩
    rw [hs.document_eq]

/-- No scalar is made of a collection. -/
theorem ne_scalar (hs : d.Builds read s) (htag : (d.graph n).tag.isCollection = true) (v : Value) :
    s.objects n ≠ some (.scalar v) := by
  intro hv
  obtain ⟨tag, content, hcell, hnot, _⟩ := hs.holds n _ hv
  rw [hcell] at htag
  exact absurd (htag.symm.trans hnot) (by simp)

/-- What has been made of a text is that text. -/
theorem eq_text (hs : d.Builds read s) (htext : ∀ t, read .str t = some (.text t)) {t : Text}
    (hcell : d.graph n = .scalar .str t) (hmade : (s.objects n).isSome = true) :
    s.objects n = some (.scalar (.text t)) := by
  obtain ⟨o, ho⟩ := Option.isSome_iff_exists.1 hmade
  obtain ⟨v, rfl, hv⟩ := (hs.holds n o ho).of_scalar hcell
  rw [ho, Option.some.inj (hv.symm.trans (htext t))]

/-- The text of a text as a key is that text. -/
theorem key_text_eq (hs : d.Builds read s) (htext : ∀ t, read .str t = some (.text t)) {t : Text}
    (hcell : d.graph n = .scalar .str t) (hmade : (s.objects n).isSome = true) :
    s.keyText n = .ok t := by
  rw [Stage.keyText, hs.eq_text htext hcell hmade]
  rfl

/-- A node may be given the object that it holds. -/
theorem put (hs : d.Builds read s) (ho : d.Holds read n o)
    (hmembers : ∀ i ∈ o.members, (s.objects i).isSome = true)
    (hold : ∀ v, s.objects n ≠ some (.scalar v)) :
    d.Builds read { s with objects := s.objects.set n o } ∧
      Grows s { s with objects := s.objects.set n o } ∧
        ((s.objects.set n o) n).isSome = true := by
  refine ⟨⟨hs.later, hs.document_eq, hs.closed.set hmembers, fun i p hp => ?_, hs.pending⟩,
    .put hold o, by simp [Objects.set]⟩
  by_cases hi : i = n
  · subst hi
    obtain rfl : o = p := by simpa [Objects.set] using hp
    exact ho
  · exact hs.holds i p (by simpa [Objects.set, hi] using hp)

/-! ## Making objects -/

variable {depth : Nat} {around : List Nat} {deep : Bool}

/-- A scalar is read. -/
theorem construct_scalar (hreads : lib.ReadsScalars read isNan) {tag : Tag} {content : Text}
    {v : Value} (hn : n ∉ around) (hcell : d.graph n = .scalar tag content)
    (htag : tag.isCollection = false) (hvalue : tag ≠ .value) (hv : read tag content = some v) :
    Makes (d.Builds read) Grows False (lib.construct .textKeys (depth + 1) around deep) n := by
  intro s hs
  have hnow : s.document.graph n = .scalar tag content := hs.later.eq_scalar hcell hvalue
  have hscalar : lib.scalar s.document n = .ok v :=
    to_option_eq_some_iff.1 ((hreads.scalar s.document n tag content hnow).trans hv)
  rw [Methods.construct]
  simp only [yields_bind, yields_is_made, yields_ite, yields_pure, yields_refuse, yields_cell,
    yields_get, yields_lift, yields_put, hscalar, hnow, Cell.tag, htag]
  refine ⟨fun hmade => ⟨hs, .refl s, hmade⟩, fun hmade =>
    ⟨fun hmem => absurd (by simpa using hmem) hn, fun _ => ⟨fun _ => ?_, by simp⟩⟩⟩
  have hnone : s.objects n = none := by simpa using hmade
  exact hs.put ⟨tag, content, hcell, htag, hv⟩ (by simp [Object.members]) (by simp [hnone])

/-- A collection that is made as a whole is made of what it contains. -/
theorem construct_collection {tag : Tag} (hn : n ∉ around)
    (htag : ∀ s, d.Builds read s → (s.document.graph n).tag = tag) (hdtag : (d.graph n).tag = tag)
    (hcollection : tag.isCollection = true) (hwhole : deep = true ∨ tag = .map)
    (hcontent : ∀ s, d.Builds read s → Yields (lib.content .textKeys
      ⟨lib.flattenAt, fun more => lib.construct .textKeys depth (n :: around) (deep || more)⟩ n)
        s False fun o t => d.Builds read t ∧ Grows s t ∧ d.Holds read n o ∧
          ∀ i ∈ o.members, (t.objects i).isSome = true) :
    Makes (d.Builds read) Grows False (lib.construct .textKeys (depth + 1) around deep) n := by
  intro s hs
  rw [Methods.construct]
  simp only [yields_bind, yields_is_made, yields_ite, yields_pure, yields_refuse, yields_cell,
    yields_get, yields_put, htag s hs]
  refine ⟨fun hmade => ⟨hs, .refl s, hmade⟩, fun _ =>
    ⟨fun hmem => absurd (by simpa using hmem) hn, fun _ => ⟨by simp [hcollection], fun _ =>
      ⟨fun _ => ?_, fun hnot => absurd ?_ hnot⟩⟩⟩⟩
  · refine (hcontent s hs).mono ?_
    rintro o t ⟨ht, hst, ho, hmembers⟩
    obtain ⟨hput, hgrows, hmade⟩ := ht.put ho hmembers (ht.ne_scalar (by rw [hdtag, hcollection]))
    exact ⟨hput, hst.trans hgrows, hmade⟩
  · rcases hwhole with rfl | rfl
    · simp
    · simp [Constructor.textKeys]

/-- A list is made of its items. -/
theorem construct_list {items : List Nat} (hn : n ∉ around)
    (hcell : d.graph n = .sequence .seq items)
    (hitems : ∀ i ∈ items, Makes (d.Builds read) Grows False
      (lib.construct .textKeys depth (n :: around) true) i) :
    Makes (d.Builds read) Grows False (lib.construct .textKeys (depth + 1) around true) n := by
  have hnow : ∀ s, d.Builds read s → s.document.graph n = .sequence .seq items := fun s hs =>
    hs.later.eq_sequence hcell (by decide)
  refine construct_collection hn (fun s hs => by rw [hnow s hs, Cell.tag])
    (by rw [hcell, Cell.tag]) rfl (.inl rfl) fun s hs => ?_
  rw [Methods.content, yields_bind, yields_cell, hnow s hs]
  simp only [Cell.tag, yields_bind, yields_pure]
  refine (Grows.growth.items hitems hs).mono ?_
  rintro _ t ⟨ht, hst, hmade⟩
  exact ⟨ht, hst, hcell, hmade⟩

/-- A mapping whose keys are texts holds the values that are made of its entries. -/
theorem mapping (hs : d.Builds read s) (hmerging : lib.FlattensByMerging) (hnumbered : d.Numbered)
    (hacyclic : d.graph.Acyclic) (htext : ∀ t, read .str t = some (.text t)) (hn : n < d.size)
    {es : List (Nat × Nat)} (hcell : d.graph n = .mapping .map es)
    (hkeys : ∀ e ∈ es, ∃ t, d.graph e.1 = .scalar .str t) {make : Bool → Nat → Loading Unit}
    (hentries : ∀ e ∈ es, Makes (d.Builds read) Grows False (make true) e.1 ∧
      Makes (d.Builds read) Grows False (make true) e.2) :
    Yields (Constructor.textKeys.mapping ⟨lib.flattenAt, make⟩ n) s False fun o t =>
      d.Builds read t ∧ Grows s t ∧ d.Holds read n o ∧
        ∀ i ∈ o.members, (t.objects i).isSome = true := by
  -- The keys are texts, so that none is a merge key.
  have hmerged : d.graph.Merged n es := .of_merge_free hcell fun e he => by
    obtain ⟨t, ht⟩ := hkeys e he
    simp [ht, Cell.tag]
  rw [Constructor.mapping]
  simp only [yields_bind, yields_get, yields_modify, yields_pure]
  show Yields (Constructor.textKeys.entries _ n) s _ _
  simp only [Constructor.textKeys, yields_bind, yields_cell]
  refine (Library.yields_flatten (follows d read) hmerging hnumbered hacyclic
    (fun g h => Grows.flatten g h) hcell (.inl rfl) hs fun hnone => ?_).mono ?_
  · obtain ⟨g, hg⟩ := hmerging.complete d s.document.graph n es hnumbered hacyclic hs.later hn
      (Graph.rewritten_of_tag hcell (.inl rfl)) hmerged
    rw [← hs.document_eq] at hg
    exact hnone g hg
  rintro _ t ⟨ht, hst, hmerged', _⟩
  rw [← hmerged.unique hmerged']
  refine (Grows.growth.text_keyed (fun u hu e he hmade => ?_) (fun u v hu huv e he hmade => ?_)
    hentries ht (by simp)).mono ?_
  · obtain ⟨t, ht⟩ := hkeys e he
    exact .inl ⟨t, hu.key_text_eq htext ht hmade⟩
  · obtain ⟨t, ht⟩ := hkeys e he
    rw [hu.key_text_eq htext ht hmade, Stage.keyText,
      huv.scalar _ _ (hu.eq_text htext ht hmade)]
    rfl
  · rintro result u ⟨hu, htu, hmembers, hmade, found, hfound, hresult⟩
    refine ⟨⟨hu.later, hu.document_eq, hu.closed, hu.holds, hu.pending⟩, { hst.trans htu with },
      ⟨es, found, hcell, ?_, hresult.trans (Entries.of_list_map_text found)⟩, fun i hi => ?_⟩
    · have htexts : ∀ e ∈ es, ∀ t, u.keyText e.1 = .ok t → d.graph e.1 = .scalar .str t := by
        intro e he t hkey
        obtain ⟨written, hwritten⟩ := hkeys e he
        have hread := hu.key_text_eq htext hwritten (hmade e he)
        rw [hwritten, Except.ok.inj (hread.symm.trans hkey)]
      exact ((List.forall₂_and_left _ _).2 ⟨htexts, hfound⟩).imp fun e f h =>
        ⟨h.1 f.1 h.2.1, h.2.2⟩
    · obtain ⟨e, he, rfl⟩ := List.mem_map.1 hi
      exact hmembers e he

/-- A mapping is made of its entries. -/
theorem construct_mapping (hmerging : lib.FlattensByMerging) (hnumbered : d.Numbered)
    (hacyclic : d.graph.Acyclic) (htext : ∀ t, read .str t = some (.text t)) (hlt : n < d.size)
    {es : List (Nat × Nat)} (hn : n ∉ around) (hcell : d.graph n = .mapping .map es)
    (hkeys : ∀ e ∈ es, ∃ t, d.graph e.1 = .scalar .str t)
    (hentries : ∀ e ∈ es,
      Makes (d.Builds read) Grows False (lib.construct .textKeys depth (n :: around) true) e.1 ∧
        Makes (d.Builds read) Grows False (lib.construct .textKeys depth (n :: around) true) e.2) :
    Makes (d.Builds read) Grows False (lib.construct .textKeys (depth + 1) around deep) n := by
  refine construct_collection hn (fun s hs => ?_) (by rw [hcell, Cell.tag]) rfl (.inr rfl)
    fun s hs => ?_
  · obtain ⟨entries, hnow⟩ := hs.later.exists_eq_mapping hcell (by decide)
    rw [hnow, Cell.tag]
  · obtain ⟨entries, hnow⟩ := hs.later.exists_eq_mapping hcell (by decide)
    rw [Methods.content, yields_bind, yields_cell, hnow]
    refine hs.mapping hmerging hnumbered hacyclic htext hlt hcell hkeys fun e he => ?_
    rw [Bool.or_true]
    exact hentries e he

/-! ## A whole tree -/

section

variable (hread : ReadsJson read) (hranks : d.Ranks rank)
include hread hranks

/-- Everything in a tree of values is made. -/
theorem construct (hreads : lib.ReadsScalars read isNan) (hmerging : lib.FlattensByMerging)
    (hnumbered : d.Numbered) (hacyclic : d.graph.Acyclic) (j : Json) (h : j.value.Writable)
    (hshown : j.node.ShownAt d.graph table n) (hopen : d.Open rank depth around n)
    (hwhole : deep = true ∨ (d.graph n).tag = .map) :
    Makes (d.Builds read) Grows False (lib.construct .textKeys depth around deep) n := by
  induction j using Json.induct generalizing n depth around deep with
  | scalar j hj =>
      obtain ⟨depth, rfl⟩ := hopen.exists_depth
      obtain ⟨tag, content, hnode, htag, hvalue, hv⟩ := hread.exists_scalar hj h
      rw [hnode] at hshown
      exact construct_scalar hreads (hopen.not_mem hranks) hshown htag hvalue hv
  | list items ih =>
      obtain ⟨depth, rfl⟩ := hopen.exists_depth
      obtain ⟨is, hcell, hitems⟩ := hshown
      -- A list that is not made at once would wait to be filled.
      obtain rfl : deep = true := hwhole.resolve_right (by simp [hcell, Cell.tag])
      refine construct_list (hopen.not_mem hranks) hcell fun i hi => ?_
      obtain ⟨j, hj, hshown⟩ := exists_mem_left (items_shown_at_iff.1 hitems) i hi
      exact ih j hj (writable_list_iff.1 h j hj) hshown
        (hopen.below hranks (Graph.below_of_item hcell hi)) (.inl rfl)
  | mapping entries ih =>
      obtain ⟨depth, rfl⟩ := hopen.exists_depth
      obtain ⟨es, hcell, hentries⟩ := hshown
      have hall := entries_shown_at_iff.1 hentries
      refine construct_mapping hmerging hnumbered hacyclic hread.text hopen.lt
        (hopen.not_mem hranks) hcell (forall_mem_right hall fun entry e hentry => ⟨_, hentry.1⟩)
        fun e he => ?_
      obtain ⟨entry, hentry, hkey, hvalue⟩ := exists_mem_left hall e he
      obtain ⟨hbelowKey, hbelowValue⟩ := Graph.below_of_mem hcell he
      have hopenKey := hopen.below hranks hbelowKey
      refine ⟨?_, ih entry hentry (writable_mapping_iff.1 h entry hentry) hvalue
        (hopen.below hranks hbelowValue) (.inl rfl)⟩
      obtain ⟨depth, rfl⟩ := hopenKey.exists_depth
      exact construct_scalar hreads (hopenKey.not_mem hranks) hkey rfl (by decide) (hread.text _)

/-- What has been made of a tree of values is their value. -/
theorem value_eq (hs : d.Builds read s) (j : Json) (h : j.value.Writable)
    (hshown : j.node.ShownAt d.graph table n) (hopen : d.Open rank depth around n)
    (hmade : (s.objects n).isSome = true) : s.objects.value depth around n = j.loaded := by
  induction j using Json.induct generalizing n depth around with
  | scalar j hj =>
      obtain ⟨depth, rfl⟩ := hopen.exists_depth
      obtain ⟨tag, content, hnode, _, _, hv⟩ := hread.exists_scalar hj h
      rw [hnode] at hshown
      obtain ⟨o, ho⟩ := Option.isSome_iff_exists.1 hmade
      obtain ⟨v, rfl, hv'⟩ := (hs.holds n o ho).of_scalar hshown
      rw [Objects.value, ho]
      exact Option.some.inj (hv'.symm.trans hv)
  | list items ih =>
      obtain ⟨depth, rfl⟩ := hopen.exists_depth
      obtain ⟨is, hcell, hitems⟩ := hshown
      obtain ⟨o, ho⟩ := Option.isSome_iff_exists.1 hmade
      obtain rfl := (hs.holds n o ho).of_sequence hcell
      have hnot : around.contains n = false := by simpa using hopen.not_mem hranks
      have hvalues : List.Forall₂ (fun j i => j.loaded = s.objects.value depth (n :: around) i)
          items is :=
        forall₂_imp_of_mem (items_shown_at_iff.1 hitems) fun j hj i hi hshown =>
          (ih j hj (writable_list_iff.1 h j hj) hshown
            (hopen.below hranks (Graph.below_of_item hcell hi)) (hs.closed n _ ho i hi)).symm
      have heq : items.map loaded = is.map (s.objects.value depth (n :: around)) := by
        rwa [← List.forall₂_eq_eq_eq, List.forall₂_map_left_iff, List.forall₂_map_right_iff]
      rw [Objects.value, ho, loaded, loaded_items_eq_map, heq]
      simp only [hnot, Bool.false_eq_true, if_false]
  | mapping entries ih =>
      obtain ⟨depth, rfl⟩ := hopen.exists_depth
      obtain ⟨es, hcell, hentries⟩ := hshown
      obtain ⟨o, ho⟩ := Option.isSome_iff_exists.1 hmade
      obtain ⟨shown, hshown, rfl⟩ := (hs.holds n o ho).of_mapping hcell
      have hnot : around.contains n = false := by simpa using hopen.not_mem hranks
      let inner := s.objects.value depth (n :: around)
      -- Entries whose key comes again need not have been made.
      have hpairs : List.Forall₂ (fun f (p : Text × Value) =>
          f.1 = p.1 ∧ ((s.objects f.2).isSome = true → inner f.2 = p.2))
          shown (loadedEntries entries) := by
        rw [loaded_entries_eq_map, List.forall₂_map_right_iff]
        refine forall₂_imp_of_mem (forall₂_of_common hshown
          (entries_shown_at_iff.1 hentries).flip) ?_
        rintro f _ entry hentry ⟨e, he, ⟨hkey, hvalue⟩, hkey', hshown⟩
        refine ⟨?_, fun hmade => ?_⟩
        · exact (Cell.scalar.inj (hkey.symm.trans hkey')).2
        · rw [hvalue] at hmade ⊢
          exact ih entry hentry (writable_mapping_iff.1 h entry hentry) hshown
            (hopen.below hranks (Graph.below_of_mem hcell he).2) hmade
      have heq : (Entries.ofList (· == ·) shown).map (fun f => (f.1, inner f.2)) =
          Entries.ofList (· == ·) (loadedEntries entries) :=
        Entries.map_of_list_congr (p := fun i => (s.objects i).isSome = true) hpairs fun f hf =>
          hs.closed n _ ho f.2 (by simpa [Object.members] using ⟨f.1, hf⟩)
      rw [Objects.value, ho, loaded, ← heq]
      simp only [hnot, Bool.false_eq_true, if_false, List.map_map]
      rfl

end

end Document.Builds

/-- A document that is a tree of the values of a mapping is loaded, and its value is theirs. -/
theorem Library.value_of_shown (hreads : lib.ReadsScalars read isNan)
    (hmerging : lib.FlattensByMerging) (hread : ReadsJson read) (hnumbered : d.Numbered)
    (hacyclic : d.graph.Acyclic) {entries : List (Text × Json)}
    (h : (mapping entries).value.Writable)
    (hshown : (mapping entries).node.ShownAt d.graph table d.root) :
    ∃ l, lib.loadDocument .textKeys d = .ok l ∧ l.value = (mapping entries).loaded := by
  obtain ⟨rank, hranks⟩ := Document.exists_ranks hnumbered hacyclic
  have hopen := Document.Open.of_lt hranks hnumbered.root
  obtain ⟨es, hcell, _⟩ := id hshown
  have hstart : d.Builds read d.start :=
    ⟨.refl _, rfl, fun _ _ ho => absurd ho (by simp [Document.start]),
      fun _ _ ho => absurd ho (by simp [Document.start]), rfl⟩
  have hyields : Yields (lib.construct .textKeys (d.size + 1) [] false d.root) d.start False
      fun _ u => Yields (lib.fillPending .textKeys (d.size + 1) (d.size + 1)) u False fun _ t =>
        d.Builds read t ∧ (t.objects d.root).isSome = true := by
    refine (Document.Builds.construct hread hranks hreads hmerging hnumbered hacyclic _ h hshown
      hopen (.inr (by rw [hcell, Cell.tag])) _ hstart).mono ?_
    rintro _ t ⟨ht, _, hmade⟩
    -- Nothing waits to be filled.
    rw [Methods.fillPending, yields_bind, yields_get, ht.pending]
    exact ⟨ht, hmade⟩
  obtain ⟨t, ⟨ht, hmade⟩, hload⟩ := (Methods.load_document_of_yields hyields).2 id
  refine ⟨_, hload, ?_⟩
  unfold Stage.value
  rw [ht.document_eq]
  exact ht.value_eq hread hranks _ h hshown hopen hmade

/-- The JSON text of a mapping is read as `j.loaded` if its keys are short enough, and refused
otherwise. -/
theorem Library.read_json (hsteps : lib.LoadsInSteps) (hnumbers : lib.NumbersNodes)
    (hreads : lib.ReadsScalars read isNan) (hmerging : lib.FlattensByMerging)
    (hjson : lib.ComposesJson) (hread : ReadsJson read) {entries : List (Text × Json)}
    (h : (mapping entries).value.Writable) :
    ((mapping entries).fits = true →
      lib.read (mapping entries).source = .ok (mapping entries).loaded) ∧
    ((mapping entries).fits = false → ∃ e, lib.read (mapping entries).source = .error e) := by
  refine ⟨fun hfits => ?_, fun hfits => ?_⟩
  · obtain ⟨d, table, hcompose, hacyclic, hshown⟩ := hjson.compose entries hfits
    obtain ⟨l, hload, hvalue⟩ := value_of_shown hreads hmerging hread
      (hnumbers.numbered _ _ hcompose) hacyclic h hshown
    rw [Library.read, hsteps.load, Methods.load_eq_some_iff.2 ⟨d, hcompose, hload⟩, ← hvalue]
    rfl
  · obtain ⟨e, he⟩ := hjson.refuse entries hfits
    exact ⟨e, by rw [Library.read, hsteps.load, Methods.load, he]; rfl⟩

/-! ## The standard library -/

mutual

/-- A JSON text has no references. -/
theorem is_tree_node (j : Json) : j.node.IsTree := by
  cases j with
  | null | bool | int | float | text => trivial
  | list items => exact are_trees_item_nodes items
  | mapping entries => exact are_entries_of_trees_entry_nodes entries
termination_by structural j

/-- The nodes of items are trees. -/
theorem are_trees_item_nodes (items : List Json) : Node.AreTrees (itemNodes items) := by
  cases items with
  | nil => trivial
  | cons item rest => exact ⟨is_tree_node item, are_trees_item_nodes rest⟩
termination_by structural items

/-- The nodes of entries are trees. -/
theorem are_entries_of_trees_entry_nodes (entries : List (Text × Json)) :
    Node.AreEntriesOfTrees (entryNodes entries) := by
  cases entries with
  | nil => trivial
  | cons entry rest => exact ⟨trivial, is_tree_node entry.2, are_entries_of_trees_entry_nodes rest⟩
termination_by structural entries

end

/-- A JSON text has only code points that are allowed. -/
theorem all_is_allowed_source (j : Json) : j.source.all CodePoint.isAllowed = true :=
  List.all_eq_true.2 fun c hc =>
    CodePoint.is_allowed_of_is_printable_ascii (is_printable_ascii_source j c hc)

namespace Library

/-- The standard library composes trees of JSON texts. -/
theorem standard_composes_json : standard.ComposesJson where
  compose entries hfits := by
    have hnode := of_tokens?_source entries
    rw [if_pos hfits] at hnode
    exact ⟨_, _, Standard.compose_of_node (all_is_allowed_source _) hnode,
      Document.acyclic_of_node (is_tree_node _), Document.shown_of_node _⟩
  refuse entries hfits := by
    have hnode := of_tokens?_source entries
    rw [if_neg (by simp [hfits])] at hnode
    refine ⟨Error.layout.failure, ?_⟩
    show (Standard.compose _).mapError _ = _
    rw [Standard.compose, if_pos (all_is_allowed_source _), hnode]
    rfl

/-- The standard library reads the scalars of JSON texts. -/
theorem standard_reads_json : ReadsJson fun tag text => (Standard.valueOf tag text).toOption where
  null := rfl
  bool b := by cases b <;> rfl
  int n hn := by
    show ((Scalar.int (Decimal.ofInt n)).mapError _).toOption = _
    rw [Scalar.int_of_int n hn]
    rfl
  float negative m _ := by
    show ((Scalar.float _).mapError _).toOption = _
    rw [Scalar.float_text]
    rfl
  text _ := rfl

end Library

end Yaml

end UriTemplate
