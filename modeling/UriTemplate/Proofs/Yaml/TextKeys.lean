import Mathlib.Logic.Relation
import UriTemplate.Proofs.Yaml.Making

/-!
# What is made with texts as keys

A load with `Constructor.textKeys` makes its mappings by calls of the constructor. `Call.Gives` says
what mapping a call gives: the entries that the loader leaves when it resolves the merge keys of the
node, put together by the texts of their keys. `Loaded.Sound` says that all objects come from
scalars and from such calls, and that the calls find the document with some merge keys resolved.
Every part of a load keeps it, so it holds of what a load gives (`Methods.sound_of_load`).
-/

namespace UriTemplate.Yaml

open Relation

variable {m : Methods} {d : Document} {A : List Nat} {filled? : Option Nat} {loader : Services}
  {n : Nat}
  {s : State} {deep : Bool}

/-- `m.Flattens d d'` says that the document `d` becomes `d'` when merge keys of a node are
resolved. -/
def Methods.Flattens (m : Methods) (d d' : Document) : Prop :=
  ∃ n g, m.flatten d n = .ok g ∧ d' = { d with graph := g }

/-- `s.Shows entries shown` says that `shown` is the entries with the texts of their keys. -/
def Stage.Shows (s : Stage) (entries : List (Nat × Nat)) (shown : List (Text × Nat)) : Prop :=
  List.Forall₂ (fun e f => s.keyText e.1 = .ok f.1 ∧ f.2 = e.2) entries shown

/-- `call.Gives m entries` says that the call gives the mapping with the entries. -/
def Call.Gives (m : Methods) (call : Call) (entries : List (Value × Nat)) : Prop :=
  ∃ g shown, m.flatten call.before.document call.node = .ok g ∧
    call.after.Shows (g call.node).entries shown ∧
    entries = (Entries.ofList (· == ·) shown).map fun f => (.text f.1, f.2)

/-- `Made m calls n o` says where the object `o` of the node `n` comes from: a scalar, or a set of
them, from the library, and a mapping from one of the calls. -/
def Made (m : Methods) (calls : List Call) (n : Nat) : Object → Prop
  | .scalar v => ∃ d, m.scalar d n = .ok v
  | .set members => ∀ v ∈ members, ∃ vs, v ∈ m.arrange vs ∧ ∀ w ∈ vs, ∃ d i, m.scalar d i = .ok w
  | .mapping entries => ∃ call ∈ calls, call.node = n ∧ call.Gives m entries
  | .list _ | .pairs _ => True

/-- Later calls do not matter. -/
theorem Made.of_calls_append {calls more : List Call} {o : Object} (h : Made m calls n o)
    (hmore : calls <+: more) : Made m more n o := by
  cases o with
  | mapping entries =>
      obtain ⟨call, hcall, hgives⟩ := h
      exact ⟨call, hmore.subset hcall, hgives⟩
  | scalar | set | list | pairs => exact h

/-- `l.Sound m d` says that the objects are closed and come from scalars and calls, which found the
document `d` with some merge keys resolved. -/
structure Loaded.Sound (m : Methods) (d : Document) (l : Loaded) : Prop where
  closed : l.objects.Closed
  made : ∀ n o, l.objects n = some o → Made m l.calls n o
  flattened : ReflTransGen m.Flattens d l.document
  calls : ∀ call ∈ l.calls, ReflTransGen m.Flattens d call.before.document

/-- What is loaded stays sound when an object is made of things that have been made. -/
theorem Loaded.Sound.put (h : s.Sound m d) {o : Object}
    (hmembers : ∀ i ∈ o.members, (s.objects i).isSome = true) (hmade : Made m s.calls n o) :
    ({ s with objects := s.objects.set n o } : State).Sound m d where
  closed := h.closed.set hmembers
  made i p hp := by
    by_cases hi : i = n
    · subst hi
      obtain rfl : o = p := by simpa [Objects.set] using hp
      exact hmade
    · exact h.made i p (by simpa [Objects.set, hi] using hp)
  flattened := h.flattened
  calls := h.calls

/-- The empty collection that is made of a node with the tag of one. -/
theorem made_of_tag {tag : Tag} {calls : List Call} (hmap : tag ≠ .map)
    (htag : tag.isCollection = true) :
    (Object.ofTag tag).members = [] ∧ Made m calls n (.ofTag tag) := by
  cases tag with
  | seq | omap | pairs => exact ⟨rfl, trivial⟩
  | set => exact ⟨rfl, by simp [Object.ofTag, Made]⟩
  | map => exact absurd rfl hmap
  | null | bool | int | float | binary | timestamp | str | merge | value | other =>
      exact absurd htag (by simp [Tag.isCollection])

/-- Pairs of things that have been made may be shown. -/
theorem yields_show_pairs (hs : s.Sound m d) (hfills : Fills A filled? n s)
    {pairs : List (Nat × Nat)}
    (hpairs : ∀ p ∈ pairs, (s.objects p.1).isSome = true ∧ (s.objects p.2).isSome = true) :
    Yields (showPairs n pairs) s True fun _ t => t.Sound m d ∧ Steps A filled? s t := by
  simp only [showPairs, yields_bind, yields_is_made, yields_ite, yields_put, yields_pure]
  constructor
  · intro hmade
    refine ⟨hs.put (Object.forall_mem_pairs.2 hpairs) trivial, ?_⟩
    rcases hfills with rfl | ⟨_, hnone⟩
    · exact .fill hmade
    · exact absurd hmade (by simp [hnone])
  · exact fun _ => ⟨hs, .refl _ _ _⟩

/-! ## Services that keep what is loaded sound -/

/-- What is made stays on the way from state to state. -/
theorem Steps.growth (A : List Nat) (filled? : Option Nat) : Growth (Steps A filled?) :=
  ⟨.refl A filled?, .trans, Steps.isSome⟩

/-- `Serves m d A loader` says that the services keep what is loaded sound and make nothing of the
nodes in `A`. -/
structure Serves (m : Methods) (d : Document) (A : List Nat) (loader : Services) : Prop where
  flatten : loader.flatten = m.flattenAt
  construct : ∀ deep i,
    Makes (fun s => s.Sound m d) (Steps A none) True (loader.construct deep) i

namespace Serves

/-- The pairs of a list of entries are made while their collection is filled. -/
theorem pairs_from (h : Serves m d A loader) (hs : s.Sound m d) (hfills : Fills A filled? n s)
    (items : List Nat) :
    Yields (m.pairsFrom (loader.construct deep) n [] items) s True fun pairs t =>
      t.Sound m d ∧ Steps A filled? s t ∧
        ∀ p ∈ pairs, (t.objects p.1).isSome = true ∧ (t.objects p.2).isSome = true := by
  have hmakes : ∀ i, Makes (fun s => s.Sound m d ∧ Fills A filled? n s) (Steps A filled?) True
      (loader.construct deep) i := by
    intro i t ht
    refine (h.construct deep i t ht.1).mono ?_
    rintro _ u ⟨hu, htu, hmade⟩
    exact ⟨⟨hu, ht.2.mono htu.unmade⟩, htu.filling, hmade⟩
  refine ((Steps.growth A filled?).pairs_from (I := fun s => s.Sound m d ∧ Fills A filled? n s)
    (R := fun _ _ => True) (fun item _ t ht => ⟨fun tag key value _ => ?_, fun _ => trivial⟩)
    (fun t ht pairs hpairs => ?_) ⟨hs, hfills⟩ (by simp)).mono ?_
  · refine (hmakes key t ht).mono ?_
    rintro _ u ⟨hu, htu, hmade⟩
    exact ⟨hu, htu, hmade, hmakes value, trivial⟩
  · refine (yields_show_pairs ht.1 ht.2 hpairs).mono ?_
    rintro _ u ⟨hu, htu⟩
    exact ⟨⟨hu, ht.2.mono htu.unmade⟩, htu⟩
  · rintro pairs u ⟨hu, hsu, hpairs, _⟩
    exact ⟨hu.1, hsu, hpairs⟩

/-- A key that is compared as a value is a scalar. -/
theorem yields_hashable (hs : s.Sound m d) :
    Yields (m.hashable n) s True fun v t => t = s ∧ ∃ d, m.scalar d n = .ok v := by
  rw [Methods.hashable, yields_bind, yields_get]
  split
  · next v hv => exact yields_pure.2 ⟨rfl, hs.made n _ hv⟩
  · exact yields_refuse.2 trivial

/-- Keys that are compared as values are scalars. -/
theorem hashed_from (h : Serves m d A loader) (hs : s.Sound m d)
    {found : List ((Nat × Value) × Nat)}
    (hfound : ∀ e ∈ found, ∃ d i, m.scalar d i = .ok e.1.2) (entries : List (Nat × Nat)) :
    Yields (m.hashedFrom (loader.construct deep) found entries) s True fun hashed t =>
      t.Sound m d ∧ Steps A none s t ∧ ∀ e ∈ hashed, ∃ d i, m.scalar d i = .ok e.1.2 := by
  induction entries generalizing s found with
  | nil => exact ⟨hs, .refl _ _ _, hfound⟩
  | cons entry rest ih =>
      obtain ⟨key, value⟩ := entry
      rw [Methods.hashedFrom]
      simp only [yields_bind, yields_get]
      refine (h.construct deep key s hs).mono ?_
      rintro _ t ⟨ht, hst, _⟩
      refine (yields_hashable ht).mono ?_
      rintro v _ ⟨heq, d, hv⟩
      obtain rfl := heq.symm
      refine (h.construct deep value t ht).mono ?_
      rintro _ u ⟨hu, htu, _⟩
      have hmore : ∀ e ∈ Entries.insert (m.sameKey u.document) (key, v) value found,
          ∃ d i, m.scalar d i = .ok e.1.2 :=
        Entries.forall_keys_insert (P := fun k : Nat × Value => ∃ d i, m.scalar d i = .ok k.2)
          ⟨d, key, hv⟩ hfound
      refine (ih hu hmore).mono ?_
      rintro _ w ⟨hw, huw, hhashed⟩
      exact ⟨hw, hst.trans (htu.trans huw), hhashed⟩

/-- Resolving merge keys keeps what is loaded sound. -/
theorem yields_flatten (h : Serves m d A loader) (hs : s.Sound m d) :
    Yields (loader.flatten n) s True fun _ t => t.Sound m d ∧ Steps A none s t ∧
      m.flatten s.document n = .ok t.document.graph := by
  rw [h.flatten, yields_flatten_at]
  split
  · next g hg =>
      exact ⟨⟨hs.closed, hs.made, hs.flattened.tail ⟨n, g, hg, rfl⟩, hs.calls⟩,
        ⟨fun _ _ _ h => h, fun _ h => h, fun _ _ h => h, List.prefix_rfl, rfl, rfl⟩, hg⟩
  · trivial

/-- The members of a set are scalars. -/
theorem hashed (h : Serves m d A loader) (hs : s.Sound m d) :
    Yields (m.hashed loader n) s True fun hashed t =>
      t.Sound m d ∧ Steps A none s t ∧ ∀ e ∈ hashed, ∃ d i, m.scalar d i = .ok e.1.2 := by
  rw [Methods.hashed, yields_bind, yields_cell]
  split
  · simp only [yields_bind, yields_cell]
    refine (h.yields_flatten hs).mono ?_
    rintro _ t ⟨ht, hst, _⟩
    refine (h.hashed_from ht (by simp) _).mono ?_
    rintro _ u ⟨hu, htu, hhashed⟩
    exact ⟨hu, hst.trans htu, hhashed⟩
  · exact yields_refuse.2 trivial

/-- The texts of keys are those that the keys have in the end. -/
theorem text_keyed (h : Serves m d A loader) (hs : s.Sound m d) (entries : List (Nat × Nat)) :
    Yields (textKeyed loader [] entries) s True fun result t =>
      t.Sound m d ∧ Steps A none s t ∧ (∀ f ∈ result, (t.objects f.2).isSome = true) ∧
        ∃ shown, t.Shows entries shown ∧
          result = Entries.ofList Value.same (shown.map fun f => (.text f.1, f.2)) := by
  refine ((Steps.growth A none).text_keyed (fun _ _ _ _ _ => .inr trivial)
    (fun _ _ ht htu _ _ hmade => htu.key_text ht.closed hmade)
    (fun e _ => ⟨h.construct true e.1, h.construct true e.2⟩) hs (by simp)).mono ?_
  rintro _ _ ⟨ht, hst, hvalues, _, hshown⟩
  exact ⟨ht, hst, hvalues, hshown⟩

end Serves

/-- Entries with texts as keys are put together by these. -/
theorem Entries.of_list_map_text {β : Type} (entries : List (Text × β)) :
    Entries.ofList Value.same (entries.map fun e => (.text e.1, e.2)) =
      (Entries.ofList (· == ·) entries).map fun e => (.text e.1, e.2) := by
  have hkeyed : List.Forall₂ (fun (e : Text × β) (f : Value × β) => f.1 = .text e.1 ∧ e.2 = f.2)
      entries (entries.map fun e => (.text e.1, e.2)) := by
    rw [List.forall₂_map_right_iff]
    exact List.forall₂_same.2 fun _ _ => ⟨rfl, rfl⟩
  have hsame : ∀ (t u : Text) (v w : Value), v = .text t → w = .text u →
      (t == u) = v.same w := by
    rintro t u _ _ rfl rfl
    exact beq_eq_decide t u
  have hput := Entries.forall₂_of_list (K := fun t v => v = Value.text t) (R := Eq) hsame hkeyed
  rw [← List.forall₂_eq_eq_eq, List.forall₂_map_right_iff]
  exact hput.flip.imp fun f e h => Prod.ext h.1 h.2.symm

namespace Serves

/-- A call of the constructor gives the mapping that is made. -/
theorem mapping (h : Serves m d A loader) (hs : s.Sound m d) :
    Yields (Constructor.textKeys.mapping loader n) s True fun o t =>
      t.Sound m d ∧ Steps A none s t ∧ Made m t.calls n o ∧
        ∀ i ∈ o.members, (t.objects i).isSome = true := by
  rw [Constructor.mapping]
  simp only [yields_bind, yields_get, yields_modify, yields_pure]
  show Yields (Constructor.textKeys.entries loader n) s True _
  simp only [Constructor.textKeys, yields_bind, yields_cell]
  refine (h.yields_flatten hs).mono ?_
  rintro _ t ⟨ht, hst, hflatten⟩
  refine (h.text_keyed ht _).mono ?_
  rintro entries u ⟨hu, htu, hvalues, shown, hshown, hentries⟩
  have hmore : u.calls <+: u.calls ++ [⟨n, s.toStage, u.toStage⟩] := List.prefix_append _ _
  refine ⟨⟨hu.closed, fun i o ho => (hu.made i o ho).of_calls_append hmore, hu.flattened, ?_⟩,
    { hst.trans htu with calls := (hst.trans htu).calls.trans hmore },
    ⟨_, List.mem_append_right _ List.mem_cons_self, rfl, t.document.graph, shown, hflatten, hshown,
      hentries.trans (Entries.of_list_map_text shown)⟩, ?_⟩
  · intro call hcall
    rcases List.mem_append.1 hcall with hcall | hcall
    · exact hu.calls call hcall
    · obtain rfl := List.mem_singleton.1 hcall
      exact hs.flattened
  -- The members are the values of the entries.
  intro i hi
  obtain ⟨e, he, rfl⟩ := List.mem_map.1 hi
  exact hvalues e he

/-- What a collection holds is made of things that have been made. -/
theorem content (h : Serves m d A loader) (hs : s.Sound m d) (hfills : Fills A filled? n s) :
    Yields (m.content .textKeys loader n) s True fun o t =>
      t.Sound m d ∧ Steps A filled? s t ∧ Made m t.calls n o ∧
        ∀ i ∈ o.members, (t.objects i).isSome = true := by
  have hpairs : ∀ items, Yields (Object.pairs <$> m.pairsFrom (loader.construct false) n [] items)
      s True fun o t => t.Sound m d ∧ Steps A filled? s t ∧ Made m t.calls n o ∧
        ∀ i ∈ o.members, (t.objects i).isSome = true := by
    intro items
    rw [yields_map]
    refine (h.pairs_from hs hfills items).mono ?_
    rintro pairs t ⟨ht, hst, hpairs⟩
    exact ⟨ht, hst, trivial, Object.forall_mem_pairs.2 hpairs⟩
  rw [Methods.content, yields_bind, yields_cell]
  split
  · simp only [yields_bind, yields_pure]
    refine ((Steps.growth A none).items (fun i _ => h.construct false i) hs).mono ?_
    rintro _ t ⟨ht, hst, hitems⟩
    exact ⟨ht, hst.filling, trivial, hitems⟩
  · exact hpairs _
  · exact hpairs _
  · simp only [yields_bind, yields_pure]
    refine (h.hashed hs).mono ?_
    rintro hashed t ⟨ht, hst, hhashed⟩
    refine ⟨ht, hst.filling, fun v hv => ⟨_, hv, fun w hw => ?_⟩, by simp [Object.members]⟩
    obtain ⟨e, he, rfl⟩ := List.mem_map.1 hw
    exact hhashed e he
  · refine (h.mapping hs).mono ?_
    rintro _ t ⟨ht, hst, hmade⟩
    exact ⟨ht, hst.filling, hmade⟩
  · exact yields_refuse.2 trivial

end Serves

/-! ## A load -/

/-- Making an object of a node keeps what is loaded sound, and makes nothing of the nodes around
it. -/
theorem Loaded.Sound.construct (depth : Nat) (around : List Nat) (deep : Bool) (n : Nat)
    (hs : s.Sound m d) : Yields (m.construct .textKeys depth around deep n) s True fun _ t =>
      t.Sound m d ∧ Steps around none s t ∧ (t.objects n).isSome = true := by
  induction depth generalizing around deep n s with
  | zero => exact yields_refuse.2 trivial
  | succ depth ih =>
      have hset : ∀ (t : State) (o : Object), ((t.objects.set n o) n).isSome = true := by
        simp [Objects.set]
      rw [Methods.construct]
      simp only [yields_bind, yields_is_made, yields_ite, yields_pure, yields_refuse, yields_cell,
        yields_get, yields_lift, yields_put, yields_put_off]
      refine ⟨fun hmade => ⟨hs, .refl _ _ _, hmade⟩, fun hmade => ⟨fun _ => trivial, fun hn => ?_⟩⟩
      have hnone : s.objects n = none := by simpa using hmade
      have haround : n ∉ around := by simpa using hn
      refine ⟨fun _ => ?_, fun htag => ⟨fun _ => ?_, fun hlater => ?_⟩⟩
      · split
        · next v hv =>
            exact ⟨hs.put (by simp [Object.members]) ⟨_, hv⟩, .put hnone haround, hset _ _⟩
        · trivial
      · have hserves : Serves m d (n :: around)
            ⟨m.flattenAt, fun more => m.construct .textKeys depth (n :: around) (deep || more)⟩ :=
          ⟨rfl, fun more i t ht => ih (n :: around) (deep || more) i ht⟩
        have hfills : Fills (n :: around) none n s := .inr ⟨List.mem_cons_self, hnone⟩
        refine (hserves.content hs hfills).mono ?_
        rintro o t ⟨ht, hst, hmade, hmembers⟩
        have hstill := hst.unmade n List.mem_cons_self hnone
        exact ⟨ht.put hmembers hmade,
          (hst.subset (List.subset_cons_self _ _)).trans (.put hstill haround), hset _ _⟩
      · have hmap : (s.document.graph n).tag ≠ .map := fun heq => hlater (by
          simp [heq, Constructor.textKeys])
        obtain ⟨hmembers, hmade⟩ := made_of_tag hmap (by simpa using htag)
        have hput : Steps around none s _ :=
          .put (o := .ofTag (s.document.graph n).tag) hnone haround
        refine ⟨?_, { hput with }, hset _ _⟩
        have hsound := hs.put (n := n) (by simp [hmembers]) hmade
        exact ⟨hsound.closed, hsound.made, hsound.flattened, hsound.calls⟩

/-- Filling collections keeps what is loaded sound. -/
theorem Loaded.Sound.fill_pending (size rounds : Nat) (hs : s.Sound m d) :
    Yields (m.fillPending .textKeys size rounds) s True fun _ t => t.Sound m d := by
  induction rounds generalizing s with
  | zero =>
      rw [Methods.fillPending, yields_bind, yields_get]
      split
      · exact hs
      · exact yields_refuse.2 trivial
  | succ rounds ih =>
      rw [Methods.fillPending, yields_bind, yields_get]
      split
      · exact hs
      · next n rest _ =>
          simp only [yields_bind, yields_modify, yields_put]
          have hserves : Serves m d [] ⟨m.flattenAt, m.construct .textKeys size []⟩ :=
            ⟨rfl, fun more i t ht => ht.construct size [] more i⟩
          have hpopped : ({ s with pending := rest } : State).Sound m d :=
            ⟨hs.closed, hs.made, hs.flattened, hs.calls⟩
          refine (hserves.content hpopped (Or.inl rfl : Fills [] (some n) n _)).mono ?_
          rintro o t ⟨ht, _, hmade, hmembers⟩
          exact ih (ht.put hmembers hmade)

/-- All objects of a load with texts as keys come from scalars and calls. -/
theorem Methods.sound_of_load {text : Text} {l : Loaded}
    (h : m.load .textKeys text = .ok (some l)) :
    ∃ d, m.compose text = .ok (some d) ∧ l.Sound m d := by
  obtain ⟨d, hcompose, hload⟩ := load_eq_some_iff.1 h
  have hstart : d.start.Sound m d :=
    ⟨fun _ _ ho => absurd ho (by simp [Document.start]),
      fun _ _ ho => absurd ho (by simp [Document.start]), .refl, by simp [Document.start]⟩
  obtain ⟨t, ht, rfl⟩ := (load_document_of_yields (E := True) (Q := fun t => t.Sound m d)
    ((hstart.construct _ _ _ _).mono fun _ u hu => hu.1.fill_pending _ _)).1 l hload
  exact ⟨d, hcompose, ht⟩

end UriTemplate.Yaml
