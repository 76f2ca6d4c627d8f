import UriTemplate.AssociativeArray
import UriTemplate.Proofs.Expansion.Sequence
import UriTemplate.Proofs.Value.Alike
import UriTemplate.Proofs.Value.Entries
import UriTemplate.Template

/-!
# What an expansion depends on

Of all that a `Call` binds, only what the values of the names in the template are coerced to counts
(`Template.expand_eq_of_coerce`); so neither the order of the bindings nor other names do, nor what
values that are `Value.Alike` differ in (`Template.expand_determined`). The mappings of the caller
are as before when a template has been expanded with one of them (`Template.expand_call_run`).
-/

namespace UriTemplate

/-! ## Mappings of the caller -/

/-- Keywords are put into the mapping, if there are any. -/
theorem Bindings.merged_eq_update (mapping keywords : Bindings) :
    mapping.merged keywords = mapping.update keywords := by
  cases keywords with
  | nil => rfl
  | cons entry rest => rfl

/-- A mapping that is kept last can be changed without touching those before it. -/
theorem Mappings.modify_concat (ms : Mappings) (last : Bindings) (f : Bindings → Bindings) :
    List.modify (ms ++ [last]) ms.length f = ms ++ [f last] := by
  induction ms with
  | nil => rfl
  | cons first rest ih => exact congrArg (first :: ·) ih

/-- An expansion takes the keywords into account and leaves all mappings of the caller as they
were. -/
theorem Template.expand_call_run (template : Template) (place? : Option Nat) (keywords : Bindings)
    (ms : Mappings) :
    (template.expandCall place? keywords).run ms =
      (template.expand ((ms.get place?).merged keywords), ms) := by
  cases keywords with
  | nil => rfl
  | cons entry rest =>
      show (template.expand (Mappings.get (List.modify (ms ++ [ms.get place?]) ms.length
          (·.update (entry :: rest))) (some ms.length)),
        List.dropLast (List.modify (ms ++ [ms.get place?]) ms.length (·.update (entry :: rest)))) =
          _
      rw [Mappings.modify_concat, List.dropLast_concat]
      have hcopy : Mappings.get (ms ++ [(ms.get place?).update (entry :: rest)]) (some ms.length) =
          (ms.get place?).merged (entry :: rest) := by
        simp [Mappings.get, Bindings.merged_eq_update]
      rw [hcopy]

/-! ## Calls -/

namespace Call

variable {call first second : Call}

/-- `call.effective name` is the value that counts for a name: that of the keywords if they bind
it, else that of the mapping, else null. -/
def effective (call : Call) (name : Text) : Value :=
  ((call.keywords.get? name).or (call.mapping.get? name)).getD .null

/-- `call.Writable` says that every value can be written. -/
def Writable (call : Call) : Prop := ∀ e ∈ call.mapping ++ call.keywords, e.2.Writable

instance (call : Call) : Decidable call.Writable :=
  inferInstanceAs (Decidable (∀ e ∈ call.mapping ++ call.keywords, e.2.Writable))

/-- `call.restrict names` is the call without the bindings of other names. -/
def restrict (call : Call) (names : List Text) : Call where
  mapping := call.mapping.filter fun e => names.contains e.1
  keywords := call.keywords.filter fun e => names.contains e.1
  mapping_distinct := call.mapping_distinct.sublist (List.filter_sublist.map Prod.fst)
  keywords_distinct := call.keywords_distinct.sublist (List.filter_sublist.map Prod.fst)

/-- A variable expands as what the value that counts for its name is coerced to. -/
theorem value?_bindings (call : Call) (s : VariableSpec) :
    s.value? call.bindings = (call.effective s.name).coerce := by
  rw [VariableSpec.value?, bindings, Bindings.merged_eq_update,
    Bindings.get?_update _ call.keywords_distinct, effective]
  cases (call.keywords.get? s.name).or (call.mapping.get? s.name) with
  | none => rfl
  | some v => rfl

/-- In a writable call each effective value is writable. -/
theorem writable_effective (h : call.Writable) (name : Text) : (call.effective name).Writable := by
  unfold effective
  cases hfound : (call.keywords.get? name).or (call.mapping.get? name) with
  | none => exact fun n hn => absurd hn (by simp [Value.integers])
  | some v =>
      rw [Option.or_eq_some_iff] at hfound
      rcases hfound with hkeyword | ⟨_, hmapping⟩
      · exact h (name, v) (List.mem_append_right _ (Bindings.mem_of_get? hkeyword))
      · exact h (name, v) (List.mem_append_left _ (Bindings.mem_of_get? hmapping))

/-- The order of the bindings does not count. -/
theorem effective_of_perm (hmapping : first.mapping.Perm second.mapping)
    (hkeywords : first.keywords.Perm second.keywords) (name : Text) :
    first.effective name = second.effective name := by
  rw [effective, effective, Bindings.get?_of_perm first.mapping_distinct hmapping,
    Bindings.get?_of_perm first.keywords_distinct hkeywords]

/-- Bindings of other names do not count. -/
theorem effective_restrict (call : Call) {names : List Text} {name : Text} (h : name ∈ names) :
    (call.restrict names).effective name = call.effective name := by
  have hcontains : names.contains name = true := List.contains_iff_mem.2 h
  have hget (b : Bindings) :
      Bindings.get? (b.filter fun e => names.contains e.1) name = b.get? name :=
    Entries.lookup_filter hcontains b
  rw [effective, effective, restrict, hget, hget]

end Call

/-! ## Associative arrays of mappings -/

/-- A mapping is read as its entries. -/
theorem AssociativeArray.of_value_mapping (entries : List (Value × Value)) :
    ofValue (.mapping entries) = .ok entries := by
  show (entries.map fun e => Value.tuple [e.1, e.2]).mapM pair = .ok entries
  rw [mapm_eq_ok_iff, List.forall₂_map_left_iff]
  exact List.forall₂_same.2 fun e _ => rfl

/-- A list of pairs is read as these. -/
theorem AssociativeArray.of_value_items (entries : List (Value × Value)) :
    ofValue (.list (entries.map fun e => .tuple [e.1, e.2])) = .ok entries :=
  of_value_mapping entries

namespace Template

variable {template : Template} {first second : Call}

/-- Where every value can be written, a template has an expansion. -/
theorem exists_expand_of_writable (h : first.Writable) :
    ∃ t, template.expand first.bindings = .ok t := by
  refine exists_expand fun s _ => ?_
  rw [first.value?_bindings]
  exact Value.exists_coerce (first.writable_effective h s.name)

/-- An expansion depends only on what the values of the names in the template are coerced to. -/
theorem expand_eq_of_coerce
    (h : ∀ name ∈ template.names,
      (first.effective name).coerce = (second.effective name).coerce) :
    template.expand first.bindings = template.expand second.bindings := by
  refine expand_congr fun s hs => ?_
  rw [first.value?_bindings, second.value?_bindings]
  exact h s.name (List.mem_map.2 ⟨s, hs, rfl⟩)

/-- Two calls over values that can be written each expand a template, and to the same text where
the values of its names are coerced to the same: in whatever order they are bound, whatever other
names are, and where the values are alike. A mapping is alike to the associative arrays made from
it, and what a value is coerced to is coerced to itself. -/
theorem expand_determined (template : Template) (first second : Call) (hfirst : first.Writable)
    (hsecond : second.Writable) :
    ((∃ t, template.expand first.bindings = .ok t) ∧
        ∃ t, template.expand second.bindings = .ok t) ∧
      ((∀ name ∈ template.names,
          (first.effective name).coerce = (second.effective name).coerce) →
        template.expand first.bindings = template.expand second.bindings) ∧
      (first.mapping.Perm second.mapping → first.keywords.Perm second.keywords →
        template.expand first.bindings = template.expand second.bindings) ∧
      template.expand (first.restrict template.names).bindings =
        template.expand first.bindings ∧
      ((∀ name ∈ template.names, (first.effective name).Alike (second.effective name)) →
        template.expand first.bindings = template.expand second.bindings) ∧
      (∀ entries, AssociativeArray.ofValue (.mapping entries) = .ok entries ∧
        AssociativeArray.ofValue (.list (entries.map fun e => .tuple [e.1, e.2])) = .ok entries ∧
        AssociativeArray.ofMapping (.mapping entries) = .ok entries ∧
        (Value.mapping entries).Alike (.pairs entries)) ∧
      ∀ v value, Value.coerce v = .ok (some value) → value.value.coerce = .ok (some value) := by
  refine ⟨⟨exists_expand_of_writable hfirst, exists_expand_of_writable hsecond⟩,
    expand_eq_of_coerce, ?_, ?_, ?_, ?_, ?_⟩
  · intro hmapping hkeywords
    refine expand_eq_of_coerce fun name _ => ?_
    rw [Call.effective_of_perm hmapping hkeywords]
  · refine expand_eq_of_coerce fun name hname => ?_
    rw [Call.effective_restrict first hname]
  · intro halike
    exact expand_eq_of_coerce fun name hname => Value.coerce_eq_of_alike (halike name hname)
  · intro entries
    exact ⟨AssociativeArray.of_value_mapping entries, AssociativeArray.of_value_items entries, rfl,
      .pairs entries⟩
  · intro v value _
    exact Value.coerce_value value

/-- An integer inside a list and its text inside a tuple expand alike, and a name that the keywords
bind is not looked up in the mapping. -/
theorem expand_determined_keywords :
    ∃ first second : Call,
      first.mapping = ([("x", .int 5), ("y", .list [.text "a", .int 7])] : Bindings) ∧
      first.keywords = [] ∧ second.mapping = ([("z", .object), ("x", .null)] : Bindings) ∧
      second.keywords =
        ([("y", .tuple [.text "a", .text "7"]), ("x", .text "5")] : Bindings) ∧
      first.Writable ∧ second.Writable ∧
      expand ⟨"\x7b?x,y*\x7d", [.expression ⟨.query, [⟨"x", none⟩, ⟨"y", some .explode⟩]⟩]⟩
          first.bindings = .ok "?x=5&y=a&y=7" ∧
      expand ⟨"\x7b?x,y*\x7d", [.expression ⟨.query, [⟨"x", none⟩, ⟨"y", some .explode⟩]⟩]⟩
          second.bindings = .ok "?x=5&y=a&y=7" := by
  let first : Call :=
    { mapping := [("x", .int 5), ("y", .list [.text "a", .int 7])]
      keywords := []
      mapping_distinct := by decide
      keywords_distinct := by decide }
  let second : Call :=
    { mapping := [("z", .object), ("x", .null)]
      keywords := [("y", .tuple [.text "a", .text "7"]), ("x", .text "5")]
      mapping_distinct := by decide
      keywords_distinct := by decide }
  have hfirst : first.Writable := by decide +kernel
  have hsecond : second.Writable := by decide +kernel
  have hexpand : expand ⟨"\x7b?x,y*\x7d",
      [.expression ⟨.query, [⟨"x", none⟩, ⟨"y", some .explode⟩]⟩]⟩ first.bindings =
        .ok "?x=5&y=a&y=7" := by decide +kernel
  have hx : Value.Alike (.int 5) (.text "5") := .integer (by decide +kernel)
  have hy : Value.Alike (.list [.text "a", .int 7]) (.tuple [.text "a", .text "7"]) :=
    .trans (.item [.text "a"] [] (.integer (by decide +kernel))) (.tuple _)
  refine ⟨first, second, rfl, rfl, rfl, rfl, hfirst, hsecond, hexpand, ?_⟩
  refine ((expand_determined _ first second hfirst hsecond).2.2.2.2.1 ?_).symm.trans hexpand
  intro name hname
  simp only [names, specs, List.flatMap_cons, List.flatMap_nil, Component.specs, List.map_cons,
    List.map_nil, List.append_nil, List.mem_cons, List.not_mem_nil, or_false] at hname
  rcases hname with rfl | rfl
  · exact hx
  · exact hy

end Template

end UriTemplate
