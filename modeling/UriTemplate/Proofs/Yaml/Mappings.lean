import UriTemplate.Proofs.Yaml.Constructed
import UriTemplate.Proofs.Yaml.Standard

/-!
# Mappings with texts as keys

Which mappings a load with `Constructor.textKeys` makes (`Library.mappings_of_load`): the keys are
the texts of the keys that are left when the merge keys of a node are resolved, each once, where it
first stands, with the value of its last entry. Merge keys may have been resolved before, when the
node was itself merged into another, and what matters is how the document was composed.
-/

namespace UriTemplate.Yaml

open Relation

variable {lib : Library} {s : Stage} {text : Text} {l : Loaded} {d d' : Document}

/-! ## Entries that are shown -/

/-- Entries put together are shown one after the other. -/
theorem Stage.Shows.append {entries more : List (Nat × Nat)} {shown : List (Text × Nat)}
    (h : s.Shows (entries ++ more) shown) :
    ∃ first rest, s.Shows entries first ∧ s.Shows more rest ∧ shown = first ++ rest :=
  exists_of_forall₂_append h

/-- Where lists of entries stand in reverse, the first of them with a key decides. -/
theorem Stage.Shows.reverse_flatten {each : List (List (Nat × Nat))} {shown : List (Text × Nat)}
    (h : s.Shows each.reverse.flatten shown) : ∃ lists, List.Forall₂ s.Shows each lists ∧
      ∀ t, shown.reverse.lookup t = lists.findSome? fun es => es.reverse.lookup t := by
  obtain ⟨lists, hlists, rfl⟩ := exists_of_forall₂_flatten h
  have hreverse := List.rel_reverse hlists
  rw [List.reverse_reverse] at hreverse
  refine ⟨lists.reverse, hreverse, fun t => ?_⟩
  rw [List.reverse_flatten, ← List.map_reverse, Entries.lookup_flatten, List.findSome?_map]
  rfl

/-- What is found among entries that are put together: the last entry with the key, which is one of
the second part if there is any. -/
theorem Entries.lookup_of_list_append {β : Type} (entries more : List (Text × β)) (t : Text) :
    (Entries.ofList (· == ·) (entries ++ more)).lookup t =
      (more.reverse.lookup t).or (entries.reverse.lookup t) := by
  rw [Entries.lookup_of_list, List.reverse_append, List.lookup_append]

/-! ## Documents at work -/

/-- Wherever a document gets by resolving merge keys, they are resolved. -/
theorem Library.FlattensInOrder.resolves_of_flattens (horder : lib.FlattensInOrder)
    (h : ReflTransGen lib.toMethods.Flattens d d') : d.graph.Resolves d'.graph := by
  induction h with
  | refl => exact .refl _
  | tail _ hlast ih =>
      obtain ⟨n, g, hflatten, rfl⟩ := hlast
      exact ih.trans (horder.resolves _ n g hflatten).1

/-- A call of the constructor finds the merge keys of its node resolved as the document was
composed, and gives a mapping of what is left. -/
theorem Library.FlattensInOrder.resolved_at (horder : lib.FlattensInOrder) {n : Nat} {g : Graph}
    (h : ReflTransGen lib.toMethods.Flattens d d') (hflatten : lib.flatten d' n = .ok g) :
    d.graph.ResolvedAt g n := by
  obtain ⟨hresolves, hnone⟩ := horder.resolves d' n g hflatten
  exact ((horder.resolves_of_flattens h).trans hresolves).resolved_at hnone

/-! ## The mappings of a load -/

/-- Whatever is loaded with texts as keys has texts as keys. A mapping of a load comes from a call
of the constructor for its node, whose merge keys are resolved first. What they bring in comes
before the entries that the node itself has in the document. The keys are the texts of the keys of
all these entries, each where it first stands, with the value of the last entry: so an entry of the
node itself prevails. If there is only one merge key and a sequence of mappings at it, then the
value at any other text is that of the first mapping of the sequence that has it. A mapping of the
sequence brings in all the entries that it has in the end, unless it brings in the node itself. -/
theorem Library.mappings_of_load (hsteps : lib.LoadsInSteps) (hscalars : lib.MakesScalars)
    (horder : lib.FlattensInOrder) (h : lib.load .textKeys text = .ok (some l)) :
    lib.read text = .ok l.value ∧ Constructed l.value ∧
      ∃ d, lib.compose text = .ok (some d) ∧
        ∀ n entries, l.objects n = some (.mapping entries) →
          ∃ call ∈ l.calls, ∃ (g : Graph) (merged : List (Nat × Nat))
            (brought own found : List (Text × Nat)), call.node = n ∧
            ReflTransGen lib.toMethods.Flattens d call.before.document ∧
            lib.flatten call.before.document n = .ok g ∧
            (g n).entries = merged ++ d.graph.own (d.graph n).entries ∧
            call.after.Shows merged brought ∧
            call.after.Shows (d.graph.own (d.graph n).entries) own ∧
            entries = found.map (fun e => (.text e.1, e.2)) ∧
            found.map Prod.fst = ((brought ++ own).map Prod.fst).eraseDups ∧
            (∀ t, found.lookup t = (brought ++ own).reverse.lookup t) ∧
            (∀ t v, own.reverse.lookup t = some v → found.lookup t = some v) ∧
            ∀ key value tag items, d.graph.merging (d.graph n).entries = [(key, value)] →
              d.graph value = .sequence tag items →
                ∃ each shown, List.Forall₂ (fun i es => es <:+ (g i).entries ∧
                    (¬TransGen d.graph.Brings i n → es = (g i).entries)) items each ∧
                  List.Forall₂ call.after.Shows each shown ∧
                  ∀ t, own.reverse.lookup t = none →
                    found.lookup t = shown.findSome? fun es => es.reverse.lookup t := by
  obtain ⟨d, hcompose, hsound⟩ := hsteps.sound h
  have hread : lib.read text = .ok l.value := by rw [Library.read, h]; rfl
  refine ⟨hread, constructed_of_read hsteps hscalars hread, d, hcompose, fun n entries hn => ?_⟩
  obtain ⟨call, hcall, rfl, g, shown, hflatten, hshown, hentries⟩ := hsound.made n _ hn
  have hreached := hsound.calls call hcall
  have hresolved := horder.resolved_at hreached hflatten
  obtain ⟨merged, hmerged⟩ := hresolved.own_last
  obtain ⟨brought, own, hbrought, hown, rfl⟩ := Stage.Shows.append (hmerged ▸ hshown)
  have hlookup := Entries.lookup_of_list_append brought own
  refine ⟨call, hcall, g, merged, brought, own, _, rfl, hreached, hflatten, hmerged, hbrought, hown,
    hentries, Entries.map_fst_of_list _, fun t => Entries.lookup_of_list t _, fun t v hv => ?_, ?_⟩
  · rw [hlookup, hv]
    rfl
  · intro key value tag items honly hvalue
    obtain ⟨each, heach, hall⟩ := hresolved.later_first key value items honly
      (by rw [Graph.sources?, hvalue])
    -- What the sequence brings in is all that is brought in.
    obtain rfl : merged = each.reverse.flatten :=
      List.append_cancel_right (hmerged.symm.trans heach)
    obtain ⟨lists, hlists, hfirst⟩ := hbrought.reverse_flatten
    refine ⟨each, lists, hall, hlists, fun t ht => ?_⟩
    rw [hlookup, ht, Option.none_or, hfirst]

/-- `o.isMapping` says that the object `o` is a mapping. -/
def Object.isMapping : Object → Bool
  | mapping _ => true
  | _ => false

/-- A truth value and a text are one key of a merged list, and the value of the first mapping that
has it is found there. The mapping with the merge key comes from a call for its node. -/
theorem Library.mappings_of_load_merged_list :
    ∃ l, standard.load .textKeys
        "\x7bz: \x7b<<: [\x7byes: a\x7d, \x7b'true': b, x: c\x7d], y: d\x7d\x7d" =
          .ok (some l) ∧
      l.value.display = .ok "\x7b'z': \x7b'true': 'a', 'x': 'c', 'y': 'd'\x7d\x7d" ∧
      Constructed l.value ∧ ∃ call ∈ l.calls, call.node = 13 := by
  have hread : (standard.load .textKeys
      "\x7bz: \x7b<<: [\x7byes: a\x7d, \x7b'true': b, x: c\x7d], y: d\x7d\x7d").toOption.join.map
        (fun l => (l.value.display, (l.objects 13).any (·.isMapping))) =
      some (.ok "\x7b'z': \x7b'true': 'a', 'x': 'c', 'y': 'd'\x7d\x7d", true) := by decide +kernel
  obtain ⟨l, hl, hshown⟩ := Option.map_eq_some_iff.1 hread
  obtain ⟨hdisplay, hmade⟩ := Prod.mk.inj hshown
  have hload := to_option_eq_some_iff.1 (Option.join_eq_some_iff.1 hl)
  obtain ⟨-, hconstructed, d, -, hmappings⟩ := mappings_of_load standard_loads_in_steps
    standard_makes_scalars standard_flattens_in_order hload
  obtain ⟨o, ho, hmapping⟩ := (Option.any_eq_true _ _).1 hmade
  cases o with
  | mapping entries =>
      obtain ⟨call, hcall, _, _, _, _, _, hnode, _⟩ := hmappings 13 entries ho
      exact ⟨l, hload, hdisplay, hconstructed, call, hcall, hnode⟩
  | scalar | list | pairs | set => exact absurd hmapping (by simp [Object.isMapping])

end UriTemplate.Yaml
