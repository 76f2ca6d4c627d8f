import UriTemplate.Proofs.Yaml.Laws
import UriTemplate.Proofs.Yaml.TextKeys

/-!
# The values of documents

`Constructed v` says that `v` is a value that a document may stand for: the keys of mappings are
texts, and tuples stand only in lists. Every document that is read stands for such a value
(`Library.constructed_of_read`), because its objects come from scalars and from calls of the
constructor.
-/

namespace UriTemplate.Yaml

mutual

/-- `Constructed v` says that a document may stand for the value `v`. -/
inductive Constructed : Value → Prop where
  | null : Constructed .null
  | bool (b) : Constructed (.bool b)
  | int (n) : Constructed (.int n)
  | float (x) : Constructed (.float x)
  | text (t) : Constructed (.text t)
  | bytes (bs) : Constructed (.bytes bs)
  | date (d) : Constructed (.date d)
  | dateTime (t) : Constructed (.dateTime t)
  | list (items) : (∀ v ∈ items, Listed v) → Constructed (.list items)
  | set (members) : (∀ v ∈ members, Constructed v) → Constructed (.set members)
  | mapping (entries : List (Text × Value)) : (∀ e ∈ entries, Constructed e.2) →
      Constructed (.mapping (entries.map fun (key, v) => (.text key, v)))

/-- `Listed v` says that the value `v` may stand in a list of a document. -/
inductive Listed : Value → Prop where
  | value (v) : Constructed v → Listed v
  | tuple (parts) : (∀ v ∈ parts, Constructed v) → Listed (.tuple parts)

end

/-- The values of a mapping are values that a document may stand for. -/
theorem Constructed.of_mem_mapping {entries : List (Value × Value)} {e : Value × Value}
    (h : Constructed (.mapping entries)) (he : e ∈ entries) : Constructed e.2 := by
  cases h with
  | mapping entries hentries =>
      obtain ⟨f, hf, rfl⟩ := List.mem_map.1 he
      exact hentries f hf

/-- A document may stand for any scalar. -/
theorem Constructed.of_is_scalar {v : Value} (h : v.IsScalar) : Constructed v := by
  cases v with
  | null => exact .null
  | bool b => exact .bool b
  | int n => exact .int n
  | float x => exact .float x
  | text t => exact .text t
  | bytes bs => exact .bytes bs
  | date d => exact .date d
  | dateTime t => exact .dateTime t
  | list | tuple | set | mapping | pairs | object => exact absurd h id

/-! ## Objects of a load -/

variable {lib : Library} {l : Loaded}

/-- The keys of a mapping that is made are texts. -/
theorem Loaded.Sound.exists_text {m : Methods} {d : Document} (h : l.Sound m d) {n : Nat}
    {entries : List (Value × Nat)}
    (hn : l.objects n = some (.mapping entries)) :
    ∃ shown : List (Text × Nat), entries = shown.map fun e => (.text e.1, e.2) := by
  obtain ⟨_, _, _, _, shown, _, _, heq⟩ := h.made n _ hn
  exact ⟨_, heq⟩

/-- The objects of a sound load are values that a document may stand for. -/
theorem Loaded.Sound.constructed {d : Document} (h : l.Sound lib.toMethods d)
    (hscalars : lib.MakesScalars)
    (depth : Nat) (around : List Nat) (n : Nat) :
    Constructed (l.objects.value depth around n) := by
  -- A collection that is around counts as empty, so recursion is no case of its own.
  induction depth generalizing around n with
  | zero => exact .null
  | succ depth ih =>
      rw [Objects.value]
      split
      · exact .null
      · next v hv =>
          obtain ⟨d, hd⟩ := h.made n _ hv
          exact .of_is_scalar (hscalars.scalar d n v hd)
      · next members hmembers =>
          refine .set members fun v hv => ?_
          obtain ⟨vs, hmem, hall⟩ := h.made n _ hmembers v hv
          obtain ⟨d, i, hd⟩ := hall v (hscalars.arrange vs v hmem)
          exact .of_is_scalar (hscalars.scalar d i v hd)
      · next items _ =>
          refine .list _ fun v hv => ?_
          split at hv
          · simp at hv
          · obtain ⟨i, _, rfl⟩ := List.mem_map.1 hv
            exact .value _ (ih _ i)
      · next entries _ =>
          refine .list _ fun v hv => ?_
          split at hv
          · simp at hv
          · obtain ⟨⟨key, value⟩, _, rfl⟩ := List.mem_map.1 hv
            refine .tuple _ ?_
            simpa using ⟨ih _ key, ih _ value⟩
      · next entries hentries =>
          obtain ⟨shown, rfl⟩ := h.exists_text hentries
          split
          · exact .mapping [] (by simp)
          · rw [List.map_map]
            have hvalues := Constructed.mapping
              (shown.map fun e => (e.1, l.objects.value depth (n :: around) e.2))
              (List.forall_mem_map.2 fun e _ => ih _ e.2)
            rw [List.map_map] at hvalues
            exact hvalues

namespace Library

/-- What is loaded with texts as keys comes from scalars and from calls of the constructor. -/
theorem LoadsInSteps.sound (hsteps : lib.LoadsInSteps) {text : Text}
    (h : lib.load .textKeys text = .ok (some l)) :
    ∃ d, lib.compose text = .ok (some d) ∧ l.Sound lib.toMethods d :=
  Methods.sound_of_load ((hsteps.load _ _).symm.trans h)

/-- Every document that is read stands for a value that a document may stand for. -/
theorem constructed_of_read (hsteps : lib.LoadsInSteps) (hscalars : lib.MakesScalars) {text : Text}
    {v : Value} (h : lib.read text = .ok v) : Constructed v := by
  obtain ⟨l?, hload, hv⟩ := bind_eq_ok_iff.1 h
  cases l? with
  | none =>
      cases hv
      exact .null
  | some l =>
      cases hv
      obtain ⟨_, _, hsound⟩ := hsteps.sound hload
      exact hsound.constructed hscalars _ _ _

end Library

end UriTemplate.Yaml
