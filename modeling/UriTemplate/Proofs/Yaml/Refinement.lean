import UriTemplate.Proofs.Value.TextKeys
import UriTemplate.Proofs.Yaml.Plain
import UriTemplate.Proofs.Yaml.Renamed
import UriTemplate.Proofs.Yaml.Standard

/-!
# Texts as keys in place of plain keys

What a library loads with texts as keys is what it loads with its own constructor, with the texts of
keys in the place of the keys (`Library.texts_of_plain`): the same objects are made of the same
nodes, so that what stands at several places is one object on both sides.
-/

namespace UriTemplate

/-- A scalar has no keys. -/
theorem Value.IsScalar.with_text_keys {v : Value} (h : v.IsScalar) : v.withTextKeys = .ok v := by
  cases v with
  | null | bool | int | float | text | bytes | date | dateTime => rfl
  | list | tuple | set | mapping | pairs | object => exact absurd h id

namespace Yaml

variable {lib : Library} {d : Document} {l l' : Loaded} {read : Tag → Text → Option Value}
  {isNan : Tag → Text → Bool} {text : Text}

/-- The value of an object is that of the object with the texts of keys, with the texts of keys. -/
theorem Objects.with_text_keys_value {objects renamed : Objects} (hclosed : renamed.Closed)
    (hscalar : ∀ i v, objects i = some (.scalar v) → v.IsScalar)
    (hrenamed : ∀ i o, renamed i = some o → ∃ p, objects i = some p ∧ p.Renames o) (depth : Nat)
    (around : List Nat) {n : Nat} (hn : (renamed n).isSome = true) :
    (objects.value depth around n).withTextKeys = .ok (renamed.value depth around n) := by
  induction depth generalizing around n with
  | zero => rfl
  | succ depth ih =>
      obtain ⟨o, ho⟩ := Option.isSome_iff_exists.1 hn
      obtain ⟨p, hp, hrenames⟩ := hrenamed n o ho
      -- What is inside an object has been made as well.
      have hinside : ∀ i ∈ o.members, (objects.value depth (n :: around) i).withTextKeys =
          .ok (renamed.value depth (n :: around) i) := fun i hi => ih _ (hclosed n o ho i hi)
      rw [Objects.value, Objects.value, hp, ho]
      cases p with
      | scalar v =>
          cases hrenames
          exact (hscalar n v hp).with_text_keys
      | set members =>
          cases hrenames
          rfl
      | list items =>
          cases hrenames
          refine Value.with_text_keys_list ?_
          split
          · exact .nil
          · rw [List.forall₂_map_left_iff, List.forall₂_map_right_iff, List.forall₂_same]
            exact hinside
      | pairs entries =>
          cases hrenames
          refine Value.with_text_keys_list ?_
          split
          · exact .nil
          · rw [List.forall₂_map_left_iff, List.forall₂_map_right_iff, List.forall₂_same]
            intro e he
            have hkey := hinside e.1 (List.mem_flatMap.2 ⟨e, he, by simp⟩)
            have hvalue := hinside e.2 (List.mem_flatMap.2 ⟨e, he, by simp⟩)
            exact Value.with_text_keys_tuple (.cons hkey (.cons hvalue .nil))
      | mapping entries =>
          obtain ⟨shown, rfl, hshown⟩ := hrenames
          dsimp only
          split
          · rfl
          · have hmembers : ∀ f ∈ shown, (objects.value depth (n :: around) f.2).withTextKeys =
                .ok (renamed.value depth (n :: around) f.2) := fun f hf =>
              hinside f.2 (by simpa [Object.members] using ⟨f.1, hf⟩)
            have hall : List.Forall₂
                (fun e f => e.1.keyText = .ok f.1 ∧ e.2.withTextKeys = .ok f.2)
                (entries.map fun e => (e.1, objects.value depth (n :: around) e.2))
                (shown.map fun f => (f.1, renamed.value depth (n :: around) f.2)) := by
              rw [List.forall₂_map_left_iff, List.forall₂_map_right_iff]
              refine (((List.forall₂_and_left _ _).2 ⟨hmembers, hshown.flip⟩).flip).imp ?_
              rintro e f ⟨hvalue, htext, heq⟩
              refine ⟨htext, ?_⟩
              rw [← heq]
              exact hvalue
            rw [Value.with_text_keys_mapping hall, List.map_map, List.map_map]
            rfl

/-- What a library loads with texts as keys is what it loads with plain keys, with the texts of keys
in the place of the keys and everything else the same, also which objects stand at several places.
It is for documents without recursion in which the keys of each mapping have the same text if and
only if they are the same key; a mapping that is read as a scalar has to have the same value all the
time. If the document is settled, it can be loaded with texts as keys. -/
theorem Library.texts_of_plain (hsteps : lib.LoadsInSteps) (hnumbers : lib.NumbersNodes)
    (hscalars : lib.MakesScalars) (hreads : lib.ReadsScalars read isNan)
    (hmerging : lib.FlattensByMerging) (hcompose : lib.compose text = .ok (some d))
    (hacyclic : d.graph.Acyclic) (hsteady : lib.Steady d)
    (hload : lib.load lib.plain text = .ok (some l)) (hkeys : lib.TellsKeys d l) :
    (d.Settled → ∃ l', lib.load .textKeys text = .ok (some l')) ∧
      ∀ l', lib.load .textKeys text = .ok (some l') → lib.read text = .ok l'.value ∧
        l.value.withTextKeys = .ok l'.value ∧ l'.document.root = l.document.root ∧
          (l'.objects l.document.root).isSome = true ∧ l'.objects.Closed ∧
            ∀ n o, l'.objects n = some o → ∃ p, l.objects n = some p ∧ p.Renames o := by
  have hplain := (hsteps.load _ _).symm.trans hload
  obtain ⟨d', hcompose', hplain⟩ := Methods.load_eq_some_iff.1 hplain
  obtain rfl : d' = d := by simpa using hcompose'.symm.trans hcompose
  have hnumbered := hnumbers.numbered text _ hcompose
  obtain ⟨rank, hranks⟩ := Document.exists_ranks hnumbered hacyclic
  have hknown : lib.Known d' read isNan := ⟨hreads, hmerging, hnumbered, hacyclic, hsteady⟩
  -- The plain load says what each node gives, which the load with texts as keys then follows.
  have hplan := plan_of_load hknown hplain
  have hsource : lib.Source d' l read isNan rank :=
    { hknown, hplan with
      keys := hkeys
      ranks := hranks }
  obtain ⟨hexists, hloaded⟩ := hsource.load_document
  have hload' : ∀ l', lib.load .textKeys text = .ok (some l') ↔
      lib.loadDocument .textKeys d' = .ok l' := by
    intro l'
    rw [hsteps.load, Methods.load_eq_some_iff]
    constructor
    · rintro ⟨d, hd, h⟩
      obtain rfl : d = d' := by simpa using hd.symm.trans hcompose
      exact h
    · exact fun h => ⟨d', hcompose, h⟩
  refine ⟨fun hsettled => ?_, fun l' hl' => ?_⟩
  · obtain ⟨l', hl'⟩ := hexists hsettled
    exact ⟨l', (hload' l').2 hl'⟩
  · obtain ⟨hroot, hsize, hmade, hclosed, hrenamed⟩ := hloaded l' ((hload' l').1 hl')
    have hdocument := hplan.document_eq
    have hrootEq : l.document.root = d'.root := by rw [hdocument]
    have hsizeEq : l.document.size = d'.size := by rw [hdocument]
    refine ⟨?_, ?_, hroot.trans hrootEq.symm, hrootEq ▸ hmade, hclosed, hrenamed⟩
    · rw [Library.read, hl']
      rfl
    · unfold Stage.value
      rw [hrootEq, hsizeEq, hroot, hsize]
      exact Objects.with_text_keys_value hclosed (fun i v hv => hscalars.scalar _ _ _
        (hplan.gives i _ hv).2) hrenamed _ _ hmade

/-! ## A document that can be checked -/

/-- `c.isRead` says that the node `c` is a mapping that is read as a scalar. -/
def Cell.isRead : Cell → Bool
  | mapping tag _ => !tag.isCollection
  | _ => false

/-- Where no mapping is read as a scalar, none changes its value. -/
theorem Library.steady_of_is_read (h : ∀ n, (d.graph n).isRead = false) : lib.Steady d := by
  intro n tag entries hcell htag
  have hread := h n
  rw [hcell] at hread
  exact absurd hread (by simp [Cell.isRead, htag])

/-- A document without special keys and merge keys is settled. -/
theorem Document.settled_of_tag_ne (hvalue : ∀ n, (d.graph n).tag ≠ .value)
    (hmerge : ∀ n, (d.graph n).tag ≠ .merge) : d.Settled where
  root := hvalue _
  items _ _ _ i _ := hvalue i
  pairs _ _ _ _ _ _ _ := ⟨by simp [Graph.merging, hmerge], fun e _ => ⟨hvalue e.1, hvalue e.2⟩⟩
  entries _ _ _ _ e _ h := absurd h (hvalue e.2)

/-- `m.checkKeys l entries` checks that the keys of the entries have texts, which are equal if and
only if the keys are the same. -/
def Methods.checkKeys (m : Methods) (l : Loaded) (entries : List (Nat × Nat)) : Bool :=
  entries.all fun e => entries.all fun f =>
    match l.objects e.1, l.objects f.1 with
    | some (.scalar v), some (.scalar w) =>
        match v.keyText, w.keyText with
        | .ok t, .ok u => (t == u) == m.sameKey l.document (e.1, v) (f.1, w)
        | _, _ => false
    | _, _ => true

/-- The keys of the mappings of a document without merge keys are as they are checked to be. -/
theorem Library.tells_keys_of_check_keys (hfree : ∀ n, (d.graph n).tag ≠ .merge)
    (hcheck : ∀ n, lib.checkKeys l (d.graph n).entries = true) : lib.TellsKeys d l := by
  intro n entries es _ hmerged e he v hv
  have hes : (d.graph n).entries = es := hmerged.entries_eq (by simp [Graph.merging, hfree])
  have hall := hcheck n
  rw [hes] at hall
  have hpair : ∀ f ∈ es, ∀ w, l.objects f.1 = some (.scalar w) → ∃ t u, v.keyText = .ok t ∧
      w.keyText = .ok u ∧ (t == u) = lib.sameKey l.document (e.1, v) (f.1, w) := by
    intro f hf w hw
    have hcheck := List.all_eq_true.1 (List.all_eq_true.1 hall e he) f hf
    simp only [hv, hw] at hcheck
    split at hcheck
    · next t u ht hu => exact ⟨t, u, ht, hu, eq_of_beq hcheck⟩
    · exact absurd hcheck Bool.false_ne_true
  refine ⟨?_, fun f hf w hw => ?_⟩
  · obtain ⟨t, _, ht, _⟩ := hpair e he v hv
    exact ⟨t, ht⟩
  · obtain ⟨t, u, ht, hu, hsame⟩ := hpair f hf w hw
    rw [ht, hu, ← hsame, beq_iff_eq, Except.ok.injEq]

/-- A mapping with keys of several kinds and a set, which stand at two places, the former in an
ordered mapping. -/
def sharedText : Text :=
  "- &m \x7byes: [1], 2: &s !!set \x7ba, b\x7d\x7d\n- !!omap [x: *m]\n- *s\n"

/-- The nodes of the document. -/
def sharedCells : List Cell :=
  [.scalar .bool "yes", .scalar .int "1", .sequence .seq [1], .scalar .int "2", .scalar .str "a",
    .scalar .null "", .scalar .str "b", .scalar .null "", .mapping .set [(4, 5), (6, 7)],
    .mapping .map [(0, 2), (3, 8)], .scalar .str "x", .mapping .map [(10, 9)],
    .sequence .omap [11], .sequence .seq [9, 12, 8]]

/-- What stands at two places is loaded with texts as keys as it is loaded with plain keys. -/
theorem Library.texts_of_plain_shared : ∃ l l',
    standard.load standard.plain sharedText = .ok (some l) ∧
      standard.load .textKeys sharedText = .ok (some l') ∧
        l.value.withTextKeys = .ok l'.value ∧
          l.value.display = .ok ("[\x7bTrue: [1], 2: \x7b'a', 'b'\x7d\x7d, " ++
            Text.ofString
              "[('x', \x7bTrue: [1], 2: \x7b'a', 'b'\x7d\x7d)], \x7b'a', 'b'\x7d]") := by
  have hnode : ((Node.ofTokens? (TokenStream.ofText sharedText)).toOption.join.map fun n =>
      (n.number (n.names 0) 0, n.cells (n.names 0) 0)) = some (13, sharedCells) := by
    decide +kernel
  obtain ⟨n, hn, hnumbers⟩ := Option.map_eq_some_iff.1 hnode
  obtain ⟨hroot, hcells⟩ := Prod.mk.inj hnumbers
  have hcompose := Standard.compose_of_node (by decide +kernel)
    (to_option_eq_some_iff.1 (Option.join_eq_some_iff.1 hn))
  have hgraph : (Document.ofNode n).graph = Graph.ofCells sharedCells := by
    rw [← hcells]
    rfl
  have hload : ((standard.load standard.plain sharedText).toOption.join.any fun l =>
      l.value.display = .ok ("[\x7bTrue: [1], 2: \x7b'a', 'b'\x7d\x7d, " ++
        Text.ofString "[('x', \x7bTrue: [1], 2: \x7b'a', 'b'\x7d\x7d)], \x7b'a', 'b'\x7d]") ∧
      sharedCells.all fun c => standard.checkKeys l c.entries) = true := by
    decide +kernel
  obtain ⟨l, hl, hchecked⟩ := (Option.any_eq_true _ _).1 hload
  obtain ⟨hdisplay, hkeys⟩ := of_decide_eq_true hchecked
  have hplain := to_option_eq_some_iff.1 (Option.join_eq_some_iff.1 hl)
  have hless : ∀ i, ∀ j ∈ ((Document.ofNode n).graph i).members, j < i := by
    rw [hgraph]
    exact Graph.forall_of_cells (p := fun i c => ∀ j ∈ c.members, j < i) (by simp [Cell.members])
      (by decide +kernel)
  have htags : ∀ i, ((Document.ofNode n).graph i).tag ≠ .value ∧
      ((Document.ofNode n).graph i).tag ≠ .merge ∧
        ((Document.ofNode n).graph i).isRead = false := by
    rw [hgraph]
    exact Graph.forall_of_cells
      (p := fun _ c => c.tag ≠ .value ∧ c.tag ≠ .merge ∧ c.isRead = false)
      (by simp [Cell.tag, Cell.isRead]) (by decide +kernel)
  have hchecks : ∀ i, standard.checkKeys l ((Document.ofNode n).graph i).entries = true := by
    rw [hgraph]
    exact Graph.forall_of_cells (p := fun _ c => standard.checkKeys l c.entries = true)
      (fun _ => rfl) fun i hi => List.all_eq_true.1 hkeys _ (List.getElem_mem hi)
  obtain ⟨hexists, htexts⟩ := texts_of_plain standard_loads_in_steps standard_numbers_nodes
    standard_makes_scalars standard_reads_scalars standard_flattens_by_merging hcompose
    (Graph.acyclic_of_lt hless) (steady_of_is_read fun i => (htags i).2.2) hplain
    (tells_keys_of_check_keys (fun i => (htags i).2.1) hchecks)
  obtain ⟨l', hl'⟩ := hexists
    (Document.settled_of_tag_ne (fun i => (htags i).1) fun i => (htags i).2.1)
  exact ⟨l, l', hplain, hl', (htexts l' hl').2.1, hdisplay⟩

/-- A special key that stands in a list as well is loaded with plain keys, whose texts they are, but
not with texts as keys. -/
theorem Library.texts_of_plain_special_key :
    (∃ l, standard.load standard.plain "- a: [&k =]\n- *k : 1" = .ok (some l) ∧
      l.value.withTextKeys.toOption.map Value.display =
        some (.ok "[\x7b'a': ['=']\x7d, \x7b'=': 1\x7d]")) ∧
    ((standard.read "- a: [&k =]\n- *k : 1").map Value.display).mapError Failure.kind =
      .error "ConstructorError" := by
  have hload : ((standard.load standard.plain "- a: [&k =]\n- *k : 1").toOption.join.any fun l =>
      l.value.withTextKeys.toOption.map Value.display =
        some (.ok "[\x7b'a': ['=']\x7d, \x7b'=': 1\x7d]")) = true := by
    decide +kernel
  obtain ⟨l, hl, hshown⟩ := (Option.any_eq_true _ _).1 hload
  exact ⟨⟨l, to_option_eq_some_iff.1 (Option.join_eq_some_iff.1 hl), of_decide_eq_true hshown⟩,
    by decide +kernel⟩

end Yaml

end UriTemplate
