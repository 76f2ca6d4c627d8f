import UriTemplate.Proofs.Value.Entries
import UriTemplate.Proofs.Yaml.Loading

/-!
# Making many objects

A loader makes the objects inside a collection one after the other. The rules here take such loops
apart: if making each object keeps an invariant `I` and leads from a state to one that is related to
it by `G`, then so does making them all. What the loop gives is said by the objects that are there
in the end.
-/

namespace UriTemplate

/-- Keys that are the same for both relations are inserted alike. -/
theorem Entries.insert_congr {α β : Type} {same other : α → α → Bool} {key : α} {value : β}
    {entries : List (α × β)} (h : ∀ e ∈ entries, same e.1 key = other e.1 key) :
    insert same key value entries = insert other key value entries := by
  induction entries with
  | nil => rfl
  | cons e rest ih =>
      obtain ⟨he, hrest⟩ := List.forall_mem_cons.1 h
      rw [insert, insert, he, ih hrest]

namespace Yaml

/-- `Growth G` says that `G` relates a state to those that any number of steps lead to, and that
what is made stays. -/
structure Growth (G : State → State → Prop) : Prop where
  refl : ∀ s, G s s
  trans : ∀ {s t u}, G s t → G t u → G s u
  isSome : ∀ {s t}, G s t → ∀ i, (s.objects i).isSome = true → (t.objects i).isSome = true

/-- `Makes I G E make i` says that `make i` makes an object of the node `i` wherever `I` holds: then
`I` still does, and `G` relates the states. It may only fail if `E` holds. -/
def Makes (I : State → Prop) (G : State → State → Prop) (E : Prop) (make : Nat → Loading Unit)
    (i : Nat) : Prop :=
  ∀ s, I s → Yields (make i) s E fun _ t => I t ∧ G s t ∧ (t.objects i).isSome = true

/-- What steps keep stays while an object is made. -/
theorem Makes.and {I P : State → Prop} {G : State → State → Prop} {E : Prop}
    {make : Nat → Loading Unit} {i : Nat} (h : Makes I G E make i)
    (hP : ∀ s t, G s t → P s → P t) : Makes (fun s => I s ∧ P s) G E make i := by
  intro s hs
  refine (h s hs.1).mono ?_
  rintro _ t ⟨ht, hst, hmade⟩
  exact ⟨⟨ht, hP s t hst hs.2⟩, hst, hmade⟩

/-- What makes an object where one invariant holds makes it where a stronger one holds, if steps
keep that. -/
theorem Makes.of {I J : State → Prop} {G : State → State → Prop} {E : Prop}
    {make : Nat → Loading Unit} {i : Nat} (h : Makes I G E make i) (hJI : ∀ s, J s → I s)
    (hIJ : ∀ s t, J s → I t → G s t → J t) : Makes J G E make i := by
  intro s hs
  refine (h s (hJI s hs)).mono ?_
  rintro _ t ⟨ht, hst, hmade⟩
  exact ⟨hIJ s t hs ht hst, hst, hmade⟩

/-- `objects.Keyed entries keyed` says that `keyed` is the entries with the scalars that are made of
their keys. -/
def Objects.Keyed (objects : Objects) (entries : List (Nat × Nat))
    (keyed : List ((Nat × Value) × Nat)) : Prop :=
  List.Forall₂ (fun e k => objects e.1 = some (.scalar k.1.2) ∧ k.1.1 = e.1 ∧ k.2 = e.2)
    entries keyed

namespace Growth

variable {I : State → Prop} {G : State → State → Prop} {E : Prop} {make : Nat → Loading Unit}
  {m : Methods} {s : State} {n : Nat} (hG : Growth G)
include hG

/-- The items of a sequence are made one after the other. -/
theorem items {items : List Nat} (hitems : ∀ i ∈ items, Makes I G E make i) (hs : I s) :
    Yields (items.forM make) s E fun _ t =>
      I t ∧ G s t ∧ ∀ i ∈ items, (t.objects i).isSome = true := by
  induction items generalizing s with
  | nil => exact ⟨hs, hG.refl _, by simp⟩
  | cons i rest ih =>
      obtain ⟨hi, hrest⟩ := List.forall_mem_cons.1 hitems
      show Yields (make i >>= fun _ => rest.forM make) s E _
      rw [yields_bind]
      refine (hi s hs).mono ?_
      rintro _ t ⟨ht, hst, hmade⟩
      refine (ih hrest ht).mono ?_
      rintro _ u ⟨hu, htu, hall⟩
      refine ⟨hu, hG.trans hst htu, ?_⟩
      exact List.forall_mem_cons.2 ⟨hG.isSome htu i hmade, hall⟩

/-- The pairs of a list of entries are made one after the other. Each item is an entry of which `R`
says what the pair is, or it is refused. -/
theorem pairs_from {R : Nat → Nat × Nat → Prop} {items : List Nat}
    (hitems : ∀ item ∈ items, ∀ s, I s →
      (∀ tag key value, s.document.graph item = .mapping tag [(key, value)] →
        Yields (make key) s E fun _ t => I t ∧ G s t ∧ (t.objects key).isSome = true ∧
          Makes I G E make value ∧ R item (key, value)) ∧
      ((∀ tag p, s.document.graph item ≠ .mapping tag [p]) → E))
    (hshow : ∀ s, I s → ∀ pairs : List (Nat × Nat),
      (∀ p ∈ pairs, (s.objects p.1).isSome = true ∧ (s.objects p.2).isSome = true) →
        Yields (showPairs n pairs) s E fun _ t => I t ∧ G s t)
    (hs : I s) {found : List (Nat × Nat)}
    (hfound : ∀ p ∈ found, (s.objects p.1).isSome = true ∧ (s.objects p.2).isSome = true) :
    Yields (m.pairsFrom make n found items) s E fun pairs t => I t ∧ G s t ∧
      (∀ p ∈ pairs, (t.objects p.1).isSome = true ∧ (t.objects p.2).isSome = true) ∧
        ∃ more, pairs = found ++ more ∧ List.Forall₂ R items more := by
  induction items generalizing s found with
  | nil => exact ⟨hs, hG.refl _, hfound, [], by simp, .nil⟩
  | cons item rest ih =>
      obtain ⟨hitem, hrest⟩ := List.forall_mem_cons.1 hitems
      obtain ⟨hentry, hrefused⟩ := hitem s hs
      rw [Methods.pairsFrom, yields_bind, yields_cell]
      split
      · next tag key value hcell =>
          simp only [yields_bind]
          refine (hentry tag key value hcell).mono ?_
          rintro _ t ⟨ht, hst, hkey, hmake, hR⟩
          refine (hmake t ht).mono ?_
          rintro _ u ⟨hu, htu, hvalue⟩
          have hsu := hG.trans hst htu
          -- What has been made before stays.
          have hmore : ∀ p ∈ found ++ [(key, value)],
              (u.objects p.1).isSome = true ∧ (u.objects p.2).isSome = true := by
            intro p hp
            rcases List.mem_append.1 hp with hp | hp
            · exact ⟨hG.isSome hsu _ (hfound p hp).1, hG.isSome hsu _ (hfound p hp).2⟩
            · obtain rfl := List.mem_singleton.1 hp
              exact ⟨hG.isSome htu _ hkey, hvalue⟩
          refine (hshow u hu _ hmore).mono ?_
          rintro _ v ⟨hv, huv⟩
          refine (ih hrest hv fun p hp => ?_).mono ?_
          · exact ⟨hG.isSome huv _ (hmore p hp).1, hG.isSome huv _ (hmore p hp).2⟩
          · rintro pairs w ⟨hw, hvw, hpairs, more, heq, hall⟩
            refine ⟨hw, hG.trans hsu (hG.trans huv hvw), hpairs, (key, value) :: more, ?_,
              .cons hR hall⟩
            rw [heq, List.append_assoc]
            rfl
      · next hother => exact yields_refuse.2 (hrefused fun tag p hcell => hother tag p.1 p.2 hcell)

/-- Entries whose keys are compared as values are put together by `same`, if that compares the
scalars that are made of their keys. -/
theorem hashed_from {same : Nat × Value → Nat × Value → Bool} {keys : List Nat}
    (hscalar : ∀ {s t}, G s t → ∀ i v, s.objects i = some (.scalar v) →
      t.objects i = some (.scalar v))
    (hkey : ∀ s, I s → ∀ i ∈ keys, (s.objects i).isSome = true →
      (∃ v, s.objects i = some (.scalar v)) ∨ E)
    (hsame : ∀ s, I s → ∀ a b : Nat × Value, a.1 ∈ keys → b.1 ∈ keys →
      s.objects a.1 = some (.scalar a.2) → s.objects b.1 = some (.scalar b.2) →
        m.sameKey s.document a b = same a b) {entries : List (Nat × Nat)}
    (hentries : ∀ e ∈ entries, e.1 ∈ keys ∧ Makes I G E make e.1 ∧ Makes I G E make e.2)
    (hs : I s) {found : List ((Nat × Value) × Nat)}
    (hfound : ∀ f ∈ found, f.1.1 ∈ keys ∧ s.objects f.1.1 = some (.scalar f.1.2)) :
    Yields (m.hashedFrom make found entries) s E fun result t => I t ∧ G s t ∧
      (∀ e ∈ entries, (t.objects e.2).isSome = true) ∧
        ∃ keyed, t.objects.Keyed entries keyed ∧ result = Entries.update same found keyed := by
  induction entries generalizing s found with
  | nil => exact ⟨hs, hG.refl _, by simp, [], .nil, rfl⟩
  | cons entry rest ih =>
      obtain ⟨key, value⟩ := entry
      obtain ⟨⟨hmem, hmakeKey, hmakeValue⟩, hrest⟩ := List.forall_mem_cons.1 hentries
      rw [Methods.hashedFrom]
      simp only [yields_bind, yields_get]
      refine (hmakeKey s hs).mono ?_
      rintro _ t ⟨ht, hst, hmade⟩
      unfold Methods.hashable
      rw [yields_bind, yields_get]
      split
      · next v hv =>
          rw [yields_pure]
          refine (hmakeValue t ht).mono ?_
          rintro _ u ⟨hu, htu, hvalue⟩
          have hkeyed : u.objects key = some (.scalar v) := hscalar htu key v hv
          have hkept : ∀ f ∈ found, f.1.1 ∈ keys ∧ u.objects f.1.1 = some (.scalar f.1.2) :=
            fun f hf => ⟨(hfound f hf).1, hscalar (hG.trans hst htu) _ _ (hfound f hf).2⟩
          -- All keys so far are scalars in this state, so that they are compared as by `same`.
          have hinsert : Entries.insert (m.sameKey u.document) (key, v) value found =
              Entries.insert same (key, v) value found :=
            Entries.insert_congr fun f hf =>
              hsame u hu f.1 (key, v) (hkept f hf).1 hmem (hkept f hf).2 hkeyed
          rw [hinsert]
          have hmore : ∀ f ∈ Entries.insert same (key, v) value found,
              f.1.1 ∈ keys ∧ u.objects f.1.1 = some (.scalar f.1.2) :=
            Entries.forall_keys_insert
              (P := fun k : Nat × Value => k.1 ∈ keys ∧ u.objects k.1 = some (.scalar k.2))
              ⟨hmem, hkeyed⟩ hkept
          refine (ih hrest hu hmore).mono ?_
          rintro result w ⟨hw, huw, hvalues, keyed, hall, hresult⟩
          refine ⟨hw, hG.trans hst (hG.trans htu huw),
            List.forall_mem_cons.2 ⟨hG.isSome huw _ hvalue, hvalues⟩, ((key, v), value) :: keyed,
            .cons ⟨hscalar huw key v hkeyed, rfl, rfl⟩ hall, hresult⟩
      · next hother =>
          rcases hkey t ht key hmem hmade with ⟨v, hv⟩ | hE
          · exact absurd hv (hother v)
          · exact yields_refuse.2 hE

/-- Entries are put together by the texts of their keys, which are those that the keys have in the
end. -/
theorem text_keyed {loader : Services} {entries : List (Nat × Nat)}
    (htext : ∀ s, I s → ∀ e ∈ entries, (s.objects e.1).isSome = true →
      (∃ t, s.keyText e.1 = .ok t) ∨ E)
    (hstays : ∀ s t, I s → G s t → ∀ e ∈ entries, (s.objects e.1).isSome = true →
      t.keyText e.1 = s.keyText e.1)
    (hentries : ∀ e ∈ entries, Makes I G E (loader.construct true) e.1 ∧
      Makes I G E (loader.construct true) e.2)
    (hs : I s) {found : List (Value × Nat)} (hfound : ∀ f ∈ found, (s.objects f.2).isSome = true) :
    Yields (textKeyed loader found entries) s E fun result t => I t ∧ G s t ∧
      (∀ f ∈ result, (t.objects f.2).isSome = true) ∧
      (∀ e ∈ entries, (t.objects e.1).isSome = true) ∧ ∃ shown : List (Text × Nat),
        List.Forall₂ (fun e f => t.keyText e.1 = .ok f.1 ∧ f.2 = e.2) entries shown ∧
          result = Entries.update Value.same found (shown.map fun f => (.text f.1, f.2)) := by
  induction entries generalizing s found with
  | nil => exact ⟨hs, hG.refl _, hfound, by simp, [], .nil, rfl⟩
  | cons entry rest ih =>
      obtain ⟨key, value⟩ := entry
      obtain ⟨⟨hmakeKey, hmakeValue⟩, hrest⟩ := List.forall_mem_cons.1 hentries
      rw [Yaml.textKeyed]
      simp only [yields_bind]
      refine (hmakeKey s hs).mono ?_
      rintro _ t ⟨ht, hst, hkey⟩
      refine (hmakeValue t ht).mono ?_
      rintro _ u ⟨hu, htu, hvalue⟩
      simp only [keyText, yields_bind, yields_get]
      have hmade := hG.isSome htu key hkey
      split
      · next text hkeyText =>
          rw [yields_pure]
          have hsu := hG.trans hst htu
          have hmore : ∀ f ∈ Entries.insert Value.same (.text text) value found,
              (u.objects f.2).isSome = true :=
            Entries.forall_values_insert (Q := fun i => (u.objects i).isSome = true) hvalue
              fun f hf => hG.isSome hsu _ (hfound f hf)
          refine (ih (fun s hs e he => htext s hs e (List.mem_cons_of_mem _ he))
            (fun s t hs hst e he => hstays s t hs hst e (List.mem_cons_of_mem _ he)) hrest hu
            hmore).mono ?_
          rintro result w ⟨hw, huw, hvalues, hkeys, shown, hshown, hresult⟩
          refine ⟨hw, hG.trans hsu huw, hvalues,
            List.forall_mem_cons.2 ⟨hG.isSome huw _ hmade, hkeys⟩, (text, value) :: shown,
            .cons ⟨?_, rfl⟩ hshown, hresult⟩
          -- The text is read before the other entries are made.
          rw [hstays u w hu huw (key, value) List.mem_cons_self hmade]
          exact hkeyText
      · next e hkeyText =>
          rcases htext u hu (key, value) List.mem_cons_self hmade with ⟨t, ht⟩ | hE
          · exact absurd (hkeyText.symm.trans ht) (by simp)
          · exact yields_throw.2 hE

end Growth

end Yaml

end UriTemplate
