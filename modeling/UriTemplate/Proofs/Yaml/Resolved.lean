import Mathlib.Logic.Relation
import UriTemplate.Proofs.Yaml.Merged

/-!
# Graphs in which merge keys are resolved

A loader resolves merge keys in place, one mapping after the other, while it works. `Resolves g h`
says what the graph `g` of a document may have become: a node keeps its entries, or it has entries
that merge keys bring in and then its own (`ResolvedAt`). Of a sequence of mappings at a merge key
the entries of the last come first. They are what each mapping has when it is merged, that is, all
its entries unless the mapping brings in the node in turn (`Brings`). Merge keys may be resolved in
any number of steps (`Resolves.trans`).
-/

namespace UriTemplate.Yaml.Graph

open Relation

variable {g h last : Graph} {n i j : Nat} {entries more : List (Nat × Nat)}

/-! ## Entries with and without merge keys -/

/-- Where there are no merge keys, all entries are own ones. -/
theorem own_eq_self (h : g.merging entries = []) : g.own entries = entries := by
  refine List.filter_eq_self.2 fun e he => ?_
  simpa using List.filter_eq_nil_iff.1 h e he

/-- Of entries put together, the merge keys of both have to be resolved. -/
theorem merging_append (g : Graph) (entries more : List (Nat × Nat)) :
    g.merging (entries ++ more) = g.merging entries ++ g.merging more := List.filter_append ..

/-- Of entries put together, the own ones of both are own. -/
theorem own_append (g : Graph) (entries more : List (Nat × Nat)) :
    g.own (entries ++ more) = g.own entries ++ g.own more := List.filter_append ..

/-- Entries of lists without merge keys have no merge keys. -/
theorem merging_flatten {lists : List (List (Nat × Nat))} (h : ∀ es ∈ lists, g.merging es = []) :
    g.merging lists.flatten = [] := by
  refine List.filter_eq_nil_iff.2 fun e he => ?_
  obtain ⟨es, hes, hmem⟩ := List.mem_flatten.1 he
  exact List.filter_eq_nil_iff.1 (h es hes) e hmem

/-- An end without merge keys is one of the own entries. -/
theorem suffix_own (hsuffix : entries <:+ more) (hentries : g.merging entries = []) :
    entries <:+ g.own more := by
  obtain ⟨before, rfl⟩ := hsuffix
  rw [own_append, own_eq_self hentries]
  exact List.suffix_append _ _

/-! ## What may change -/

/-- `Narrows g h` says that the graph `h` has no merge keys but those of `g`, which bring in the
same nodes. -/
structure Narrows (g h : Graph) : Prop where
  tag : ∀ i, (h i).tag = .merge ↔ (g i).tag = .merge
  sources : ∀ i, h.sources? i = g.sources? i
  subset : ∀ i, h.merging (h i).entries ⊆ g.merging (g i).entries

/-- `ResolvedAt g h n` says that the merge keys of the node `n` of the graph `g` are resolved in the
graph `h`. A sequence of mappings at the only merge key brings in entries of each mapping, those of
the last first. -/
structure ResolvedAt (g h : Graph) (n : Nat) : Prop where
  own_last : ∃ merged, (h n).entries = merged ++ g.own (g n).entries
  later_first : ∀ key value nodes, g.merging (g n).entries = [(key, value)] →
    g.sources? value = some nodes → ∃ each, (h n).entries = each.reverse.flatten ++
      g.own (g n).entries ∧ List.Forall₂ (fun i es => es <:+ (h i).entries ∧
        (¬TransGen g.Brings i n → es = (h i).entries)) nodes each

/-- `ResolvesAt g h i` says that the node `i` keeps its entries, or that no merge key of it is left
in the graph `h`. -/
def ResolvesAt (g h : Graph) (i : Nat) : Prop :=
  (h i).entries = (g i).entries ∨
    g.merging (g i).entries ≠ [] ∧ h.merging (h i).entries = [] ∧ ResolvedAt g h i

/-- `Resolves g h` says that merge keys of the graph `g` are resolved in the graph `h`. -/
structure Resolves (g h : Graph) : Prop extends Narrows g h where
  entries : ∀ i, ResolvesAt g h i

namespace Narrows

/-- A graph has its own merge keys. -/
theorem refl (g : Graph) : Narrows g g :=
  ⟨fun _ => Iff.rfl, fun _ => rfl, fun _ => List.Subset.refl _⟩

/-- Merge keys may go one after the other. -/
theorem trans (hgh : Narrows g h) (hhl : Narrows h last) : Narrows g last :=
  ⟨fun i => (hhl.tag i).trans (hgh.tag i), fun i => (hhl.sources i).trans (hgh.sources i),
    fun i => List.Subset.trans (hhl.subset i) (hgh.subset i)⟩

/-- The own entries are the same. -/
theorem own (hgh : Narrows g h) (entries : List (Nat × Nat)) : h.own entries = g.own entries :=
  List.filter_congr fun e _ => by simp [hgh.tag e.1]

/-- The entries with merge keys are the same. -/
theorem merging (hgh : Narrows g h) (entries : List (Nat × Nat)) :
    h.merging entries = g.merging entries :=
  List.filter_congr fun e _ => by simp [hgh.tag e.1]

/-- Merge keys that are left bring in what they did. -/
theorem brings (hgh : Narrows g h) (hbrings : h.Brings n i) : g.Brings n i := by
  obtain ⟨e, he, nodes, hnodes, hi⟩ := hbrings
  exact ⟨e, hgh.subset n he, nodes, (hgh.sources e.2).symm.trans hnodes, hi⟩

/-- What is brought in at any depth was so before. -/
theorem trans_gen (hgh : Narrows g h) (hbrings : TransGen h.Brings n i) :
    TransGen g.Brings n i :=
  TransGen.mono (fun _ _ => hgh.brings) _ _ hbrings

end Narrows

/-- `Keeps g h i` says that the node `i` keeps its entries, or ends with its own. -/
def Keeps (g h : Graph) (i : Nat) : Prop :=
  (h i).entries = (g i).entries ∨ g.own (g i).entries <:+ (h i).entries

/-- An end without merge keys stays. -/
theorem Keeps.suffix (hkeeps : Keeps g h i) (hsuffix : entries <:+ (g i).entries)
    (hentries : g.merging entries = []) : entries <:+ (h i).entries := by
  rcases hkeeps with heq | hown
  · rwa [heq]
  · exact (suffix_own hsuffix hentries).trans hown

/-- What is resolved stays so in further graphs, if ends without merge keys stay there, and nodes
that do not bring in the resolved one keep what they have. -/
theorem ResolvedAt.trans (hn : ResolvedAt g h n) (hnone : h.merging (h n).entries = [])
    (heq : (last n).entries = (h n).entries) (hkeeps : ∀ i, Keeps h last i)
    (hstays : ∀ i, ¬TransGen g.Brings i n → h.merging (h i).entries = [] →
      (last i).entries = (h i).entries) : ResolvedAt g last n where
  own_last := by
    rw [heq]
    exact hn.own_last
  later_first key value nodes honly hnodes := by
    obtain ⟨each, hentries, heach⟩ := hn.later_first key value nodes honly hnodes
    refine ⟨each, heq.trans hentries, ?_⟩
    -- No merge key is left among the entries that are brought in.
    have hfree : ∀ es ∈ each, h.merging es = [] := by
      intro es hes
      refine List.filter_eq_nil_iff.2 fun e he => ?_
      rw [hentries] at hnone
      refine List.filter_eq_nil_iff.1 hnone e (List.mem_append_left _ ?_)
      exact List.mem_flatten.2 ⟨es, List.mem_reverse.2 hes, he⟩
    have hboth : List.Forall₂ (fun i es => h.merging es = [] ∧ es <:+ (h i).entries ∧
        (¬TransGen g.Brings i n → es = (h i).entries)) nodes each :=
      ((List.forall₂_and_left each nodes).2 ⟨hfree, heach.flip⟩).flip
    refine hboth.imp fun i es ⟨hes, hsuffix, hall⟩ => ⟨(hkeeps i).suffix hsuffix hes, fun hi => ?_⟩
    obtain rfl := hall hi
    exact (hstays i hi hes).symm

namespace ResolvesAt

/-- A node without merge keys keeps its entries. -/
theorem entries_eq (hi : ResolvesAt g h i) (hnone : g.merging (g i).entries = []) :
    (h i).entries = (g i).entries :=
  hi.resolve_right fun hresolved => hresolved.1 hnone

/-- A node keeps its entries or ends with its own. -/
theorem keeps (hi : ResolvesAt g h i) : Keeps g h i := by
  refine hi.imp id fun ⟨_, _, hresolved⟩ => ?_
  obtain ⟨merged, hentries⟩ := hresolved.own_last
  exact ⟨merged, hentries.symm⟩

/-- A node whose merge keys are resolved one after the other has them resolved, if ends without
merge keys stay, and nodes that do not bring it in keep what they have once it is resolved. -/
theorem trans (hgh : Narrows g h) (hi : ResolvesAt g h i) (hhl : Narrows h last)
    (hi' : ResolvesAt h last i) (hkeeps : ∀ j, Keeps h last j)
    (hstays : g.merging (g i).entries ≠ [] → h.merging (h i).entries = [] →
      ∀ j, ¬TransGen g.Brings j i → h.merging (h j).entries = [] →
        (last j).entries = (h j).entries) : ResolvesAt g last i := by
  rcases hi with heq | ⟨hmerging, hnone, hat⟩
  · -- The merge keys of the node are those of before.
    unfold ResolvesAt at hi' ⊢
    rw [heq, hgh.merging] at hi'
    refine hi'.imp id fun ⟨hmerging, hnone, hat⟩ => ⟨hmerging, hnone, ?_, ?_⟩
    · simpa [heq, hgh.own] using hat.own_last
    · intro key value nodes honly hnodes
      obtain ⟨each, hentries, heach⟩ := hat.later_first key value nodes
        (by rwa [heq, hgh.merging]) ((hgh.sources value).trans hnodes)
      refine ⟨each, by rwa [heq, hgh.own] at hentries, heach.imp fun j es hes => ⟨hes.1, ?_⟩⟩
      exact fun hj => hes.2 fun hbrings => hj (hgh.trans_gen hbrings)
  · have hsame := hi'.entries_eq hnone
    refine .inr ⟨hmerging, ?_, hat.trans hnone hsame hkeeps (hstays hmerging hnone)⟩
    rw [hsame, hhl.merging]
    exact hnone

end ResolvesAt

namespace Resolves

/-- Nothing has to be resolved. -/
theorem refl (g : Graph) : Resolves g g := ⟨Narrows.refl g, fun _ => .inl rfl⟩

/-- Merge keys may be resolved one after the other. -/
theorem trans (hgh : Resolves g h) (hhl : Resolves h last) : Resolves g last :=
  ⟨hgh.toNarrows.trans hhl.toNarrows, fun i => (hgh.entries i).trans hgh.toNarrows hhl.toNarrows
    (hhl.entries i) (fun j => (hhl.entries j).keeps) fun _ _ j _ => (hhl.entries j).entries_eq⟩

/-- A node without merge keys gets none. -/
theorem merging_eq_nil (hgh : Resolves g h) (hi : g.merging (g i).entries = []) :
    h.merging (h i).entries = [] := by
  rw [(hgh.entries i).entries_eq hi, hgh.merging]
  exact hi

/-- The merge keys of a node are resolved when it has none left. -/
theorem resolved_at (hgh : Resolves g h) (hn : h.merging (h n).entries = []) :
    ResolvedAt g h n := by
  rcases hgh.entries n with heq | ⟨-, -, hresolved⟩
  · rw [heq, hgh.merging] at hn
    refine ⟨⟨[], by rw [heq, own_eq_self hn]; rfl⟩, fun key value nodes honly _ => ?_⟩
    exact absurd (honly.symm.trans hn) (by simp)
  · exact hresolved

end Resolves

end UriTemplate.Yaml.Graph
