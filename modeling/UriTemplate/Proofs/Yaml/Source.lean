import UriTemplate.Proofs.Yaml.Drawn
import UriTemplate.Proofs.Yaml.TextKeys

/-!
# What is known of a loaded document

`Library.Source` says what is known of a document that the loader itself has loaded, and whose keys
can be told apart by their texts. A load of it with texts as keys follows the first one
(`Loaded.Follows`), and goes on by steps that make nothing of the nodes around (`Advances`). A
special key `=` may be come to while it is not yet a text, and an entry of an ordered mapping while
its merge keys are not yet resolved; in a `Settled` document neither happens.
-/

namespace UriTemplate

open Relation

namespace Yaml

/-- `p.Renames o` says that `o` is the object `p` with the texts of keys in the place of the keys.
-/
def Object.Renames : Object → Object → Prop
  | mapping entries, o => ∃ shown : List (Text × Nat),
      o = mapping (shown.map fun f => (.text f.1, f.2)) ∧
        List.Forall₂ (fun e f => e.1.keyText = .ok f.1 ∧ f.2 = e.2) entries shown
  | p, o => o = p

/-- `l.Renamed objects n o` says that `o` is what has been loaded of the node `n`, with the texts of
keys. -/
def Loaded.Renamed (l : Loaded) (_ : Objects) (n : Nat) (o : Object) : Prop :=
  ∃ p, l.objects n = some p ∧ p.Renames o

/-- `d.Settled` says that a special key `=` stands nowhere where something is made of it, except as
a key of the same mapping or set, and that the entries of ordered mappings and lists of pairs have
no merge keys. -/
structure Document.Settled (d : Document) : Prop where
  root : (d.graph d.root).tag ≠ .value
  items : ∀ n items, d.graph n = .sequence .seq items → ∀ i ∈ items, (d.graph i).tag ≠ .value
  pairs : ∀ n tag items, d.graph n = .sequence tag items → tag = .omap ∨ tag = .pairs →
    ∀ item ∈ items, d.graph.merging (d.graph item).entries = [] ∧
      ∀ e ∈ (d.graph item).entries, (d.graph e.1).tag ≠ .value ∧ (d.graph e.2).tag ≠ .value
  entries : ∀ n es, (d.graph n).tag = .map ∨ (d.graph n).tag = .set → d.graph.Merged n es →
    ∀ e ∈ es, (d.graph e.2).tag = .value → ∃ f ∈ es, f.1 = e.2

namespace Library

variable (lib : Library) (d : Document) (l : Loaded)

/-- `lib.TellsKeys d l` says that the keys of each mapping that is loaded have texts, and that two
of them have the same text if and only if they are the same key. -/
def TellsKeys : Prop :=
  ∀ n entries es, l.objects n = some (.mapping entries) → d.graph.Merged n es →
    ∀ e ∈ es, ∀ v, l.objects e.1 = some (.scalar v) → (∃ t, v.keyText = .ok t) ∧
      ∀ f ∈ es, ∀ w, l.objects f.1 = some (.scalar w) →
        (v.keyText = w.keyText ↔ lib.sameKey l.document (e.1, v) (f.1, w) = true)

/-- What is known of a document of which `l` has been loaded, whose nodes have ranks. -/
structure Source (read : Tag → Text → Option Value) (isNan : Tag → Text → Bool)
    (rank : Nat → Nat) : Prop extends lib.Known d read isNan, lib.Plan d l where
  keys : lib.TellsKeys d l
  ranks : d.Ranks rank

end Library

variable {lib : Library} {d : Document} {l : Loaded} {s t : State} {filled? : Option Nat} {n : Nat}
  {o p : Object} {objects : Objects} {around : List Nat} {read : Tag → Text → Option Value}
  {isNan : Tag → Text → Bool} {rank : Nat → Nat}

/-! ## What nodes give -/

/-- The kind of the object that a node gives is that of its tag. -/
theorem Library.Gives.of_tag (h : lib.Gives d objects n o) :
    match (d.graph n).tag with
    | .seq => ∃ items, d.graph n = .sequence .seq items ∧ o = .list items
    | .omap | .pairs => ∃ pairs, o = .pairs pairs
    | .set => ∃ members, o = .set members
    | .map => ∃ entries, o = .mapping entries
    | _ => ∃ v, o = .scalar v := by
  cases o with
  | scalar v =>
      have htag := h.1
      split <;> simp_all [Tag.isCollection]
  | list items =>
      rw [show d.graph n = .sequence .seq items from h]
      exact ⟨items, rfl, rfl⟩
  | pairs pairs =>
      obtain ⟨tag, items, hcell, rfl | rfl, _⟩ := h <;>
      · rw [hcell]
        exact ⟨pairs, rfl⟩
  | set members =>
      obtain ⟨_, ⟨_, _, _, hcell, _⟩, _⟩ := h
      rw [hcell]
      exact ⟨members, rfl⟩
  | mapping entries =>
      obtain ⟨_, ⟨_, _, _, hcell, _⟩, _⟩ := h
      rw [hcell]
      exact ⟨entries, rfl⟩

/-- A scalar is made of a node that is no collection. -/
theorem Library.Gives.exists_scalar (h : lib.Gives d objects n o)
    (htag : (d.graph n).tag.isCollection = false) : ∃ v, o = .scalar v := by
  cases o with
  | scalar v => exact ⟨v, rfl⟩
  | list | pairs | set | mapping =>
      have hof := h.of_tag
      cases heq : (d.graph n).tag <;> simp_all [Tag.isCollection]

/-- The entries by scalars are determined by these. -/
theorem Objects.Keyed.unique {entries : List (Nat × Nat)}
    {keyed keyed' : List ((Nat × Value) × Nat)}
    (h : objects.Keyed entries keyed) (h' : objects.Keyed entries keyed') : keyed = keyed' := by
  rw [← List.forall₂_eq_eq_eq]
  refine (forall₂_of_common h h').imp fun k k' ⟨e, _, hk, hk'⟩ => ?_
  obtain ⟨hv, hnode, hvalue⟩ := hk
  obtain ⟨hv', hnode', hvalue'⟩ := hk'
  have heq : k.1.2 = k'.1.2 := by simpa using hv.symm.trans hv'
  exact Prod.ext (Prod.ext (hnode.trans hnode'.symm) heq) (hvalue.trans hvalue'.symm)

/-- The entries that a node has by its keys are determined by the scalars that are there. -/
theorem Library.Hashes.unique {more : Objects} {tag : Tag}
    {found found' : List ((Nat × Value) × Nat)}
    (h : lib.Hashes d objects n tag found) (h' : lib.Hashes d more n tag found')
    (hscalar : ∀ i v, objects i = some (.scalar v) → more i = some (.scalar v)) :
    found = found' := by
  obtain ⟨_, es, keyed, _, hmerged, _, hkeyed, rfl⟩ := h
  obtain ⟨_, es', keyed', _, hmerged', _, hkeyed', rfl⟩ := h'
  obtain rfl := hmerged.unique hmerged'
  rw [(hkeyed.mono hscalar).unique hkeyed']

/-- An entry without a merge key is what the mapping comes to. -/
theorem Graph.IsEntry.merged {g : Graph} {pair : Nat × Nat} (h : g.IsEntry n pair)
    (hkey : (g pair.1).tag ≠ .merge) : g.Merged n [pair] := by
  obtain ⟨tag, written, hcell, rfl | hmerged⟩ := h
  · exact .of_merge_free hcell (by simpa using hkey)
  · exact hmerged

/-- `Known l i` says that something has been loaded of the node `i`. -/
abbrev Loaded.Has (l : Loaded) (i : Nat) : Prop := (l.objects i).isSome = true

/-- `l.Follows d filled? s` says that in the state `s` what has been made is what has been loaded,
with the texts of keys. -/
abbrev Loaded.Follows (l : Loaded) (d : Document) : Option Nat → State → Prop :=
  Drawn d l.Has l.Renamed

/-! ## Steps -/

/-- `s.left d` counts the nodes of the document `d` of which nothing has been made and the
collections that are to be filled. -/
def State.left (s : State) (d : Document) : Nat :=
  ((Finset.range d.size).filter fun i => s.objects i = none).card + s.pending.length

/-- `Advances d around s t` says that the state `t` comes after the state `s`, where nothing is made
of the nodes in `around`, of which an object is being made. -/
structure Advances (d : Document) (around : List Nat) (s t : State) : Prop extends Grows s t where
  unmade : ∀ a ∈ around, s.objects a = none → t.objects a = none
  left_le : t.left d ≤ s.left d

namespace Advances

variable {u : State}

/-- A state may stay as it is. -/
theorem refl (d : Document) (around : List Nat) (s : State) : Advances d around s s :=
  ⟨.refl s, fun _ _ h => h, Nat.le_refl _⟩

/-- States may advance one after the other. -/
theorem trans (hst : Advances d around s t) (htu : Advances d around t u) :
    Advances d around s u :=
  ⟨hst.toGrows.trans htu.toGrows, fun a ha h => htu.unmade a ha (hst.unmade a ha h),
    Nat.le_trans htu.left_le hst.left_le⟩

/-- States that advance grow. -/
theorem growth (d : Document) (around : List Nat) : Growth (Advances d around) :=
  ⟨refl d around, trans, fun h => h.isSome⟩

/-- Fewer nodes may be left alone. -/
theorem of_cons (h : Advances d (n :: around) s t) : Advances d around s t :=
  ⟨h.toGrows, fun a ha => h.unmade a (List.mem_cons_of_mem _ ha), h.left_le⟩

/-- Merge keys may be resolved. -/
theorem flatten (d : Document) (around : List Nat) (g : Graph)
    (h : ∀ i, (g i).tag = .value → (s.document.graph i).tag = .value) :
    Advances d around s { s with document := { s.document with graph := g } } :=
  ⟨.flatten g h, fun _ _ h => h, Nat.le_refl _⟩

/-- Something may be made of a node of which no scalar has been made. -/
theorem put (hn : ∀ v, s.objects n ≠ some (.scalar v))
    (haround : n ∈ around → (s.objects n).isSome = true) (o : Object) :
    Advances d around s { s with objects := s.objects.set n o } := by
  have hunmade : ∀ i, (s.objects.set n o) i = none → s.objects i = none := by
    intro i hi
    by_cases hin : i = n
    · simp [Objects.set, hin] at hi
    · simpa [Objects.set, hin] using hi
  refine ⟨.put hn o, fun a ha hnone => ?_, ?_⟩
  · have han : a ≠ n := by
      rintro rfl
      simp [hnone] at haround
      exact haround ha
    simpa [Objects.set, han] using hnone
  · refine Nat.add_le_add_right (Finset.card_le_card fun i hi => ?_) _
    obtain ⟨hlt, hi⟩ := Finset.mem_filter.1 hi
    exact Finset.mem_filter.2 ⟨hlt, hunmade i hi⟩

/-- A collection may be made of a node and put off. -/
theorem put_off (hlt : n < d.size) (hnone : s.objects n = none) (haround : n ∉ around)
    (o : Object) :
    Advances d around s
      { s with objects := s.objects.set n o, pending := s.pending ++ [n] } := by
  have hold : ∀ v, s.objects n ≠ some (.scalar v) := fun v hv => by simp [hnone] at hv
  have hput : Advances d around s { s with objects := s.objects.set n o } :=
    put hold (fun h => absurd h haround) o
  refine ⟨⟨hput.isSome, hput.scalar, hput.special⟩, hput.unmade, ?_⟩
  have hfewer : ((Finset.range d.size).filter fun i => (s.objects.set n o) i = none).card <
      ((Finset.range d.size).filter fun i => s.objects i = none).card := by
    refine Finset.card_lt_card (Finset.ssubset_iff_of_subset (fun i hi => ?_) |>.2 ⟨n, ?_, ?_⟩)
    · obtain ⟨hi, hunmade⟩ := Finset.mem_filter.1 hi
      have hin : i ≠ n := fun hin => by simp [Objects.set, hin] at hunmade
      exact Finset.mem_filter.2 ⟨hi, by simpa [Objects.set, hin] using hunmade⟩
    · exact Finset.mem_filter.2 ⟨Finset.mem_range.2 hlt, hnone⟩
    · exact fun hi => absurd (Finset.mem_filter.1 hi).2 (by simp [Objects.set])
  simp only [State.left, List.length_append, List.length_singleton]
  omega

end Advances

/-- A mapping without merge keys comes to its entries. -/
theorem Graph.Merged.entries_eq {g : Graph} {es : List (Nat × Nat)} (h : g.Merged n es)
    (hfree : g.merging (g n).entries = []) : (g n).entries = es := by
  obtain ⟨tag, written, _, _, hcell, _⟩ := id h
  rw [hcell] at hfree ⊢
  refine (Graph.Merged.of_merge_free hcell fun e he => ?_).unique h
  simpa using List.filter_eq_nil_iff.1 hfree e he

namespace Library.Source

/-- A scalar that is made is the one that has been loaded. -/
theorem scalar_eq (hs : l.Follows d filled? s) {i : Nat} {v : Value}
    (hv : s.objects i = some (.scalar v)) : l.objects i = some (.scalar v) := by
  obtain ⟨p, hp, hrenames⟩ := hs.right i _ hv (hs.not_waits hv)
  cases p with
  | scalar w =>
      cases hrenames
      exact hp
  | list | pairs | set | mapping => exact absurd hrenames (by simp [Object.Renames])

variable (hsource : lib.Source d l read isNan rank)
include hsource

/-- What has been loaded is nodes of the document. -/
theorem lt_of_has {i : Nat} (h : l.Has i) : i < d.size := by
  obtain ⟨p, hp⟩ := Option.isSome_iff_exists.1 h
  exact hsource.lt i p hp

/-- Nothing is made of a merge key. -/
theorem tag_ne_merge (hp : l.objects n = some p) : (d.graph n).tag ≠ .merge := by
  intro hmerge
  have hgives := hsource.gives n p hp
  obtain ⟨v, rfl⟩ := hgives.exists_scalar (by rw [hmerge]; rfl)
  exact hsource.reads.special d.asKeys n v (.inl ((d.later_as_keys.tag_eq_merge_iff).2 hmerge))
    hgives.2

/-- What has been loaded judges what is made with texts as keys. -/
theorem judges : lib.Judges d l.Renamed where
  mono h _ _ := h
  gives := by
    intro objects i v ⟨p, hp, hrenames⟩
    have hgives := hsource.gives i p hp
    cases p with
    | scalar w =>
        cases hrenames
        exact hgives
    | list | pairs | set | mapping => exact absurd hrenames (by simp [Object.Renames])

/-- Where a scalar has been loaded, the scalar is made. -/
theorem exists_scalar (hs : l.Follows d filled? s) {i : Nat} {v : Value}
    (hv : l.objects i = some (.scalar v)) (hmade : (s.objects i).isSome = true) :
    s.objects i = some (.scalar v) := by
  obtain ⟨o, ho⟩ := Option.isSome_iff_exists.1 hmade
  have hfree : ¬Waits filled? s.pending i := fun hwaits => by
    have htag := (hsource.gives i _ hv).1
    rw [(hs.waiting i hwaits).1] at htag
    exact absurd htag (by simp)
  obtain ⟨p, hp, hrenames⟩ := hs.right i o ho hfree
  obtain rfl := Option.some.inj (hv.symm.trans hp)
  rw [ho, hrenames]

end Library.Source

end Yaml

end UriTemplate
