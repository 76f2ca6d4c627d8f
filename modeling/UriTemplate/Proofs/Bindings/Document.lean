import UriTemplate.Bindings.Standard
import UriTemplate.Proofs.Expansion.Sequence
import UriTemplate.Proofs.Value.Coercion
import UriTemplate.Proofs.Yaml.Constructed
import UriTemplate.Proofs.Yaml.Standard

/-!
# Bindings documents and expansion

The values that `Schema.binding` accepts are those that a variable can expand as, and null
(`accepts_iff_is_supported`). So the bindings of a document never make an expansion fail, and none
of their values but null is ignored (`accepts_iff_coerces`).
-/

namespace UriTemplate

open Yaml

/-! ## The schema and the supported shapes -/

/-- A list is accepted if its members are scalars. -/
theorem accepts_list (items : List Value) :
    Schema.binding.accepts (.list items) = items.all Schema.scalar.accepts := by
  simp [Schema.binding, Schema.scalar, Schema.accepts, Kind.includes]

/-- A mapping is accepted if its values are scalars. -/
theorem accepts_mapping (entries : List (Value × Value)) :
    Schema.binding.accepts (.mapping entries) =
      entries.all fun e => Schema.scalar.accepts e.2 := by
  simp [Schema.binding, Schema.scalar, Schema.accepts, Kind.includes]

/-- Among the values of documents the schema accepts null and the supported shapes. -/
theorem accepts_iff_is_supported {v : Value} (h : Constructed v) :
    Schema.binding.accepts v = true ↔ v = .null ∨ v.isSupported = true := by
  cases h with
  | list items hitems =>
      rw [accepts_list]
      simp [Value.isSupported]
  | mapping entries hentries =>
      -- The keys of a document are texts, which are scalars.
      have hkeys : ∀ t, Schema.scalar.accepts (.text t) = true := fun t => rfl
      rw [accepts_mapping]
      simp [Value.isSupported, hkeys]
  | null => exact iff_of_true rfl (.inl rfl)
  | bool | int | float | text => exact iff_of_true rfl (.inr rfl)
  | bytes | date | dateTime | set =>
      refine iff_of_false Bool.false_ne_true ?_
      rintro (hnull | hsupported)
      · cases hnull
      · exact Bool.false_ne_true hsupported

/-! ## The bindings of a document -/

namespace Bindings

variable {libs : Libraries} {bindings checked : Bindings} {document : Text}

/-- Bindings that pass the check can be written. -/
theorem writable_of_check_writable (h : checkWritable bindings = .ok ()) :
    ∀ e ∈ bindings, e.2.Writable := by
  induction bindings with
  | nil => simp
  | cons e rest ih =>
      obtain ⟨t, ht, h⟩ := bind_eq_ok_iff.1 h
      exact List.forall_mem_cons.2 ⟨Value.writable_of_display ht, ih h⟩

/-- Bindings pass the check unchanged, and each of their values can be written and is accepted. -/
theorem check_eq_ok (h : check libs bindings = .ok checked) :
    checked = bindings ∧ ∀ e ∈ bindings, e.2.Writable ∧ Schema.binding.accepts e.2 = true := by
  obtain ⟨_, hwritable, h⟩ := bind_eq_ok_iff.1 h
  have hall := writable_of_check_writable (map_error_eq_ok_iff.1 hwritable)
  split at h
  · exact absurd h (by simp [throw, throwThe, MonadExceptOf.throw])
  · rename_i hnone
    cases h
    refine ⟨rfl, fun e he => ⟨hall e he, ?_⟩⟩
    have haccepts := List.find?_eq_none.1 hnone e he
    simpa using haccepts

/-- Bindings that can be written pass the check of this. -/
theorem check_writable_of_forall (h : ∀ e ∈ bindings, e.2.Writable) :
    checkWritable bindings = .ok () := by
  induction bindings with
  | nil => rfl
  | cons e rest ih =>
      obtain ⟨hvalue, hrest⟩ := List.forall_mem_cons.1 h
      obtain ⟨t, ht⟩ := Value.exists_display hvalue
      rw [checkWritable, ht, ok_bind]
      exact ih hrest

/-- Bindings whose values can be written and are accepted pass the check. -/
theorem check_of_forall (libs : Libraries)
    (h : ∀ e ∈ bindings, e.2.Writable ∧ Schema.binding.accepts e.2 = true) :
    check libs bindings = .ok bindings := by
  have hwritable := check_writable_of_forall fun e he => (h e he).1
  refine bind_eq_ok_iff.2 ⟨(), by rw [hwritable]; rfl, ?_⟩
  split
  · next name value hfound =>
      have hrefused := List.find?_some hfound
      have haccepts := (h _ (List.mem_of_find?_eq_some hfound)).2
      exact absurd haccepts (by simpa using hrefused)
  · rfl

/-- Entries with texts as keys are the bindings that they make up. -/
theorem of_entries_map_text (bindings : Bindings) :
    ofEntries (bindings.map fun e => (.text e.1, e.2)) = bindings := by
  induction bindings with
  | nil => rfl
  | cons e rest ih =>
      rw [List.map_cons, ofEntries, List.filterMap_cons]
      exact congrArg (e :: ·) ih

/-- What is bound is the value of an entry. -/
theorem mem_of_mem_of_entries {entries : List (Value × Value)} {name : Text} {v : Value}
    (h : (name, v) ∈ ofEntries entries) : (.text name, v) ∈ entries := by
  obtain ⟨⟨key, w⟩, he, hname⟩ := List.mem_filterMap.1 h
  cases key with
  | text t =>
      cases hname
      exact he
  | _ => exact absurd hname (by simp)

/-- A document that binds something is read as a mapping, of which the entries can be written and
are accepted. An empty one binds nothing. -/
theorem exists_read_of_document (h : ofDocument libs document = .ok bindings) :
    ∃ v, libs.yaml.read document = .ok v ∧
      ∀ e ∈ bindings, (∃ entries, v = .mapping entries ∧ (.text e.1, e.2) ∈ entries) ∧
        e.2.Writable ∧ Schema.binding.accepts e.2 = true := by
  obtain ⟨bindings?, hread, hbindings⟩ := bind_eq_ok_iff.1 h
  obtain ⟨v, hv, hvalue⟩ := bind_eq_ok_iff.1 hread
  refine ⟨v, map_error_eq_ok_iff.1 hv, ?_⟩
  cases hbindings
  cases v with
  | null =>
      cases hvalue
      simp
  | mapping entries =>
      obtain ⟨checked, hchecked, hvalue⟩ := bind_eq_ok_iff.1 hvalue
      cases hvalue
      obtain ⟨rfl, hall⟩ := check_eq_ok hchecked
      exact fun e he => ⟨⟨entries, rfl, mem_of_mem_of_entries he⟩, hall e he⟩
  | _ => exact absurd hvalue (by simp [ofValue?])

/-- Whatever a document binds a name to can be coerced. -/
theorem exists_coerce_of_document (h : ofDocument libs document = .ok bindings) {name : Text}
    {v : Value} (hname : bindings.get? name = some v) : ∃ value?, v.coerce = .ok value? := by
  obtain ⟨_, _, hall⟩ := exists_read_of_document h
  obtain ⟨_, hwritable, _⟩ := hall _ (mem_of_get? hname)
  exact Value.exists_coerce hwritable

/-- What a document binds a name to is null, or is coerced to something. -/
theorem coerce_of_document (hsteps : libs.yaml.LoadsInSteps)
    (hscalars : libs.yaml.MakesScalars) (h : ofDocument libs document = .ok bindings) {name : Text}
    {v : Value} (hname : bindings.get? name = some v) :
    ∃ value?, v.coerce = .ok value? ∧ (v = .null ∨ value? ≠ none) := by
  obtain ⟨_, hread, hall⟩ := exists_read_of_document h
  obtain ⟨⟨entries, rfl, hmem⟩, hwritable, haccepts⟩ := hall _ (mem_of_get? hname)
  have hconstructed := (Library.constructed_of_read hsteps hscalars hread).of_mem_mapping hmem
  obtain ⟨value?, hvalue⟩ := Value.exists_coerce hwritable
  refine ⟨value?, hvalue, ?_⟩
  rw [accepts_iff_is_supported hconstructed, ← Value.is_some_of_coerce hvalue,
    Option.isSome_iff_ne_none] at haccepts
  exact haccepts

end Bindings

/-- Of the values that a document may stand for, the schema accepts null and those that a variable
can expand as. So no template fails to expand under the bindings of a document, and none of its
variables is undefined that is bound to anything but null. -/
theorem accepts_iff_coerces (libs : Libraries) (hsteps : libs.yaml.LoadsInSteps)
    (hscalars : libs.yaml.MakesScalars) :
    (∀ document v, libs.yaml.read document = .ok v → Constructed v) ∧
      (∀ v, Constructed v → v.Writable → ∃ value?, v.coerce = .ok value? ∧
        (Schema.binding.accepts v = true ↔ v = .null ∨ value? ≠ none)) ∧
      ∀ document bindings, Bindings.ofDocument libs document = .ok bindings →
        ∀ limits text template, Template.parse limits text = .ok template →
          (∃ expansion, template.expand bindings = .ok expansion) ∧
            ∀ s ∈ template.specs, ∀ v, bindings.get? s.name = some v → v ≠ .null →
              ∃ value, s.value? bindings = .ok (some value) := by
  refine ⟨fun document v => Library.constructed_of_read hsteps hscalars,
    fun v hv hwritable => ?_, ?_⟩
  · obtain ⟨value?, hvalue⟩ := Value.exists_coerce hwritable
    refine ⟨value?, hvalue, ?_⟩
    rw [accepts_iff_is_supported hv, ← Value.is_some_of_coerce hvalue, Option.isSome_iff_ne_none]
  · intro document bindings hbindings limits text template _
    refine ⟨Template.exists_expand fun s _ => ?_, fun s _ v hname hne => ?_⟩
    · unfold VariableSpec.value?
      cases hname : bindings.get? s.name with
      | none => exact ⟨none, rfl⟩
      | some v => exact Bindings.exists_coerce_of_document hbindings hname
    · obtain ⟨value?, hvalue, hsome⟩ :=
        Bindings.coerce_of_document hsteps hscalars hbindings hname
      obtain ⟨value, rfl⟩ := Option.ne_none_iff_exists'.1 (hsome.resolve_left hne)
      refine ⟨value, ?_⟩
      rw [VariableSpec.value?, hname]
      exact hvalue

/-- A list with a null in it is refused as it is coerced to nothing. A document that binds a list is
loaded, a template has an expansion under it, and its variable is not undefined. -/
theorem accepts_iff_coerces_list :
    Schema.binding.accepts (.list [.int 5, .null]) = false ∧
      ∃ bindings, Bindings.ofDocument Libraries.standard "x: [1, two]\n" = .ok bindings ∧
        ∃ template, Template.parse Limits.standard "\x7bx\x7d" = .ok template ∧
          (∃ expansion, template.expand bindings = .ok expansion) ∧
            ∃ value, VariableSpec.value? ⟨"x", none⟩ bindings = .ok (some value) := by
  obtain ⟨_, hschema, hdocument⟩ := accepts_iff_coerces Libraries.standard
    Library.standard_loads_in_steps Library.standard_makes_scalars
  constructor
  · have hlisted : ∀ v ∈ [Value.int 5, .null], Listed v := by
      simpa using ⟨Listed.value _ (.int 5), Listed.value _ .null⟩
    obtain ⟨value?, hvalue, haccepts⟩ :=
      hschema (.list [.int 5, .null]) (.list _ hlisted) (by decide +kernel)
    have hnone : value? = none := by
      rw [← Option.isNone_iff_eq_none, ← Option.isSome_eq_false_iff,
        Value.is_some_of_coerce hvalue]
      rfl
    rw [Bool.eq_false_iff, Ne, haccepts]
    simp [hnone]
  · have hread : ((Bindings.ofDocument Libraries.standard "x: [1, two]\n").toOption.bind
        fun bindings => bindings.get? "x").any Value.isSupported = true := by decide +kernel
    obtain ⟨v, hv, hsupported⟩ := (Option.any_eq_true _ _).1 hread
    obtain ⟨bindings, hbindings, hname⟩ := Option.bind_eq_some_iff.1 hv
    have hne : v ≠ .null := by
      rintro rfl
      exact absurd hsupported (by decide)
    have hparse : Template.parse Limits.standard "\x7bx\x7d" =
        .ok ⟨"\x7bx\x7d", [.expression ⟨.simple, [⟨"x", none⟩]⟩]⟩ := by decide +kernel
    obtain ⟨hexpand, hdefined⟩ := hdocument _ _ (to_option_eq_some_iff.1 hbindings) _ _ _ hparse
    exact ⟨bindings, to_option_eq_some_iff.1 hbindings, _, hparse, hexpand,
      hdefined ⟨"x", none⟩ List.mem_cons_self v hname hne⟩

end UriTemplate
