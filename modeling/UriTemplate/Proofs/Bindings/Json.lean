import UriTemplate.Bindings.Standard
import UriTemplate.Proofs.Bindings.Document
import UriTemplate.Proofs.Json.Faithful
import UriTemplate.Proofs.Json.Load

/-!
# JSON texts as bindings documents

The JSON text of a mapping whose values may be bound is a bindings document: what it binds is what
its names and values are read as, if its keys are short enough, and it has no layout otherwise
(`Bindings.of_document_source`). So it binds what was written exactly if, beside that, all
floating-point numbers are written with a point and no text or key has a code point of two code
units (`Bindings.of_document_json`).
-/

namespace UriTemplate

open Json Yaml

namespace Json

/-- `j.isScalar` says that `j` is a text, a number or a truth value. -/
def isScalar : Json → Bool
  | bool _ | int _ | float _ _ | text _ => true
  | null | list _ | mapping _ => false

/-- `j.isBindable` says that `j` is null, a scalar, a list of scalars, or a mapping of scalars. -/
def isBindable : Json → Bool
  | null => true
  | list items => items.all isScalar
  | mapping entries => entries.all fun e => e.2.isScalar
  | j => j.isScalar

/-- `Bindable entries` says that the entries are those of a mapping, where no key is repeated, whose
values may be bound and whose integers can be written. -/
structure Bindable (entries : List (Text × Json)) : Prop where
  distinct : (mapping entries).isDistinct = true
  bindable : ∀ e ∈ entries, e.2.isBindable = true
  writable : (mapping entries).value.Writable

variable {j : Json} {entries : List (Text × Json)}

/-- A scalar is read as a scalar. -/
theorem scalar_accepts_loaded (h : j.isScalar = true) : Schema.scalar.accepts j.loaded = true := by
  cases j with
  | bool | int | text => rfl
  | float =>
      rw [loaded]
      split <;> rfl
  | null | list | mapping => exact absurd h (by simp [isScalar])

/-- A scalar may be bound. -/
theorem accepts_of_scalar {v : Value} (h : Schema.scalar.accepts v = true) :
    Schema.binding.accepts v = true := by
  show (_ || (Schema.scalar.accepts v || _)) = true
  rw [h, Bool.true_or, Bool.or_true]

/-- A value that may be bound is read as one that a document may bind. -/
theorem accepts_loaded (h : j.isBindable = true) : Schema.binding.accepts j.loaded = true := by
  cases j with
  | null => rfl
  | bool | int | float | text => exact accepts_of_scalar (scalar_accepts_loaded rfl)
  | list items =>
      rw [loaded, accepts_list, loaded_items_eq_map, List.all_map]
      refine List.all_eq_true.2 fun item hitem => ?_
      exact scalar_accepts_loaded (List.all_eq_true.1 h item hitem)
  | mapping entries =>
      have hscalars : ∀ e ∈ loadedEntries entries, Schema.scalar.accepts e.2 = true := by
        rw [loaded_entries_eq_map]
        refine List.forall_mem_map.2 fun e he => ?_
        exact scalar_accepts_loaded (List.all_eq_true.1 h e he)
      rw [loaded, accepts_mapping, List.all_map]
      refine List.all_eq_true.2 fun e he => ?_
      exact (Entries.forall_of_list (fun _ => True) (Schema.scalar.accepts · = true)
        (fun e he => ⟨trivial, hscalars e he⟩) e he).2

end Json

namespace Bindings

variable {libs : Libraries} {entries : List (Text × Json)} {read : Tag → Text → Option Value}
  {isNan : Tag → Text → Bool}

/-- The value that is read of a mapping whose values may be bound stands for bindings. -/
theorem of_value?_loaded (h : Bindable entries) : ofValue? libs (mapping entries).loaded =
    .ok (some (Bindings.ofList (loadedEntries entries))) := by
  have haccepted : ∀ e ∈ Bindings.ofList (loadedEntries entries),
      e.2.Writable ∧ Schema.binding.accepts e.2 = true := by
    refine fun e he => (Entries.forall_of_list (fun _ => True)
      (fun v => v.Writable ∧ Schema.binding.accepts v = true) (fun e he => ⟨trivial, ?_⟩) e he).2
    rw [loaded_entries_eq_map] at he
    obtain ⟨entry, hentry, rfl⟩ := List.mem_map.1 he
    exact ⟨writable_loaded _ (writable_mapping_iff.1 h.writable entry hentry),
      accepts_loaded (h.bindable entry hentry)⟩
  show (check libs (ofEntries ((Bindings.ofList (loadedEntries entries)).map
    fun e => (.text e.1, e.2))) >>= fun bindings => .ok (some bindings)) = _
  rw [of_entries_map_text, check_of_forall libs haccepted]
  rfl

/-- What is read is what was written exactly if it is faithful. -/
theorem of_list_loaded_entries_iff (hdistinct : (mapping entries).isDistinct = true) :
    Bindings.ofList (loadedEntries entries) = Json.bindings entries ↔
      (mapping entries).isFaithful = true := by
  have hmapping : (mapping entries).value =
      .mapping ((Json.bindings entries).map fun e => (.text e.1, e.2)) := by
    rw [value, value_entries_eq_map, Json.bindings, List.map_map]
    rfl
  refine Iff.trans ⟨fun heq => ?_, fun heq => ?_⟩ (loaded_eq_value_iff hdistinct)
  · rw [hmapping, ← heq]
    rfl
  · have hentries := congrArg ofEntries (Value.mapping.inj (heq.trans hmapping))
    rwa [of_entries_map_text, of_entries_map_text] at hentries

section

variable (hsteps : libs.yaml.LoadsInSteps) (hnumbers : libs.yaml.NumbersNodes)
  (hreads : libs.yaml.ReadsScalars read isNan) (hmerging : libs.yaml.FlattensByMerging)
  (hjson : libs.yaml.ComposesJson) (hread : ReadsJson read) (h : Bindable entries)
include hsteps hnumbers hreads hmerging hjson hread h

/-- What the JSON text of a mapping binds if its keys are short enough. -/
theorem of_document_source :
    ((mapping entries).fits = false →
      ∃ e, ofDocument libs (mapping entries).source = .error (.yaml e)) ∧
    ((mapping entries).fits = true → ofDocument libs (mapping entries).source =
      .ok (Bindings.ofList (loadedEntries entries))) := by
  obtain ⟨hfits, hlong⟩ :=
    Library.read_json hsteps hnumbers hreads hmerging hjson hread h.writable
  refine ⟨fun hnot => ?_, fun hshort => ?_⟩
  · obtain ⟨e, he⟩ := hlong hnot
    exact ⟨e, by rw [ofDocument, ofDocument?, he]; rfl⟩
  · rw [ofDocument, ofDocument?, hfits hshort]
    show (ofValue? libs (mapping entries).loaded >>= fun bindings? => .ok (bindings?.getD [])) = _
    rw [of_value?_loaded h]
    rfl

/-- Bindings that are written as JSON are read as they were written exactly if the keys are short
enough, all floating-point numbers are written with a point, and no text or key has a code point of
two code units. The rest is read as something else, or not at all. The library of documents composes
JSON texts and reads the scalars in them as it does. -/
theorem of_document_json :
    ((mapping entries).fits = false →
      ∃ e, ofDocument libs (mapping entries).source = .error (.yaml e)) ∧
    ((mapping entries).fits = true → ofDocument libs (mapping entries).source =
      .ok (Bindings.ofList (loadedEntries entries))) ∧
    (ofDocument libs (mapping entries).source = .ok (Json.bindings entries) ↔
      (mapping entries).fits = true ∧ (mapping entries).isFaithful = true) := by
  obtain ⟨hlong, hfits⟩ := of_document_source hsteps hnumbers hreads hmerging hjson hread h
  refine ⟨hlong, hfits, ?_⟩
  cases hshort : (mapping entries).fits with
  | false =>
      obtain ⟨e, he⟩ := hlong hshort
      simp [he]
  | true => rw [hfits hshort, Except.ok.injEq, of_list_loaded_entries_iff h.distinct]; simp

end

/-- A list, a text with escapes and null are read as they were written. -/
theorem of_document_json_list :
    Bindable [("x", .list [.int (-1), .text "é\n"]), ("y", .null)] ∧
      (mapping [("x", .list [.int (-1), .text "é\n"]), ("y", .null)]).source =
        "\x7b\"x\": [-1, \"\\u00e9\\n\"], \"y\": null\x7d" ∧
      ofDocument .standard (mapping [("x", .list [.int (-1), .text "é\n"]), ("y", .null)]).source =
        .ok [("x", .list [.int (-1), .text "é\n"]), ("y", .null)] := by
  have hbindable : Bindable [("x", .list [.int (-1), .text "é\n"]), ("y", .null)] :=
    ⟨by decide, by simp [isBindable, isScalar], by decide +kernel⟩
  refine ⟨hbindable, by decide +kernel, ?_⟩
  exact (@of_document_json .standard _ _ _ Library.standard_loads_in_steps
    Library.standard_numbers_nodes Library.standard_reads_scalars
    Library.standard_flattens_by_merging Library.standard_composes_json
    Library.standard_reads_json hbindable).2.2.2
      ⟨by decide +kernel, by decide +kernel⟩

/-- Ten to the power of sixteen. -/
def tenQuadrillion : Magnitude := ⟨10 ^ 16 * Binary64.one, by decide +kernel, by decide +kernel⟩

/-- A number that is written with an exponent and no point is read as a text. -/
theorem of_document_json_exponent :
    Bindable [("a", .float false tenQuadrillion)] ∧
      (mapping [("a", .float false tenQuadrillion)]).source = "\x7b\"a\": 1e+16\x7d" ∧
      ofDocument .standard (mapping [("a", .float false tenQuadrillion)]).source =
        .ok [("a", .text "1e+16")] ∧
      ofDocument .standard (mapping [("a", .float false tenQuadrillion)]).source ≠
        .ok (Json.bindings [("a", .float false tenQuadrillion)]) := by
  have hbindable : Bindable [("a", .float false tenQuadrillion)] :=
    ⟨by decide, by simp [isBindable, isScalar], by decide +kernel⟩
  have hsource : (mapping [("a", .float false tenQuadrillion)]).source =
      "\x7b\"a\": 1e+16\x7d" := by decide +kernel
  have hread : ofDocument .standard (mapping [("a", .float false tenQuadrillion)]).source =
      .ok [("a", .text "1e+16")] := by
    have hfits : (mapping [("a", .float false tenQuadrillion)]).fits = true := by decide +kernel
    have hpoint : ¬HasPoint tenQuadrillion := by decide +kernel
    have htext : (float false tenQuadrillion).source = "1e+16" := by decide +kernel
    rw [(@of_document_source .standard _ _ _ Library.standard_loads_in_steps
      Library.standard_numbers_nodes Library.standard_reads_scalars
      Library.standard_flattens_by_merging Library.standard_composes_json
      Library.standard_reads_json hbindable).2 hfits, loadedEntries, loaded, if_neg hpoint, htext]
    rfl
  refine ⟨hbindable, hsource, hread, ?_⟩
  rw [hread]
  simp [Json.bindings, value]

end Bindings

end UriTemplate
