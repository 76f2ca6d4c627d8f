import UriTemplate.Proofs.Component.RoundTrip
import UriTemplate.Proofs.Expansion.Sequence
import UriTemplate.Proofs.Percent
import UriTemplate.Proofs.Text.Join

/-!
# Exploded pairs and listed variables

A named operator writes an exploded associative array as it writes variables that have the keys as
names and are bound to the values, one pair for each. The two forms differ where a value is empty
and the operator writes nothing after the name of an empty variable: a pair has an equals sign even
then. `expand_exploded_eq_listed_iff` says that there is no other difference.
-/

namespace UriTemplate

open Text

/-- `t.IsDottedWord` says that the text is not empty and consists of ASCII letters and digits,
underscores and dots. -/
def Text.IsDottedWord (t : Text) : Prop :=
  t ≠ [] ∧ ∀ c ∈ t, (c.isLetter || c.isDigit || c = '_' || c = '.') = true

variable {limits : Limits} {op : Operator} {key value t : Text} {bindings : Bindings}

/-! ## Dotted words -/

namespace Text.IsDottedWord

variable (h : t.IsDottedWord)

include h

/-- A dotted word is not encoded. -/
theorem encode_eq (keepReserved : Bool) : Percent.encode keepReserved t = t := by
  refine Percent.encode_of_is_allowed fun c hc => ?_
  have hclass := h.2 c hc
  simp only [Bool.or_eq_true, decide_eq_true_eq] at hclass
  simp only [Percent.isAllowed, CodePoint.isUnreserved, Bool.or_eq_true, decide_eq_true_eq]
  tauto

/-- The characters of a dotted word stand between the point and the letter z. -/
theorem val_bounds : ∀ c ∈ t, 46 ≤ c.val ∧ c.val ≤ 122 := by
  intro c hc
  have hclass := h.2 c hc
  simp only [Bool.or_eq_true, decide_eq_true_eq] at hclass
  rcases hclass with ((hletter | hdigit) | rfl) | rfl
  · rw [CodePoint.is_letter_iff] at hletter
    omega
  · rw [CodePoint.is_digit_iff] at hdigit
    omega
  · decide
  · decide

/-- A dotted word is a name. -/
theorem is_name : Name.isName t = true := by
  have hpercent : CodePoint.ofChar '%' ∉ t := fun hmem => absurd (h.2 _ hmem) (by decide)
  refine Name.is_name_iff.2 ⟨h.1, .inr ⟨hpercent, fun c hc => ?_⟩⟩
  have hclass := h.2 c hc
  simp only [Bool.or_eq_true, decide_eq_true_eq] at hclass
  unfold Name.IsBare
  tauto

/-- A dotted word may stand as a name in a template. -/
theorem well_formed : (VariableSpec.mk t none).WellFormed limits := by
  have hblank : ∀ c ∈ t, c.isBlank = false := by
    intro c hc
    have hbounds := h.val_bounds c hc
    have htab : c ≠ CodePoint.ofChar '\t' := by
      rintro rfl
      exact absurd hbounds (by decide)
    simp only [CodePoint.isBlank, CodePoint.isSpaceSeparator, htab, decide_false, Bool.false_or,
      Bool.or_eq_false_iff, Bool.and_eq_false_iff, decide_eq_false_iff_not]
    omega
  exact ⟨h.is_name, fun c hc => hblank c (List.mem_of_mem_head? hc),
    fun _ c hc => hblank c (List.mem_of_getLast? hc), by simp⟩

end Text.IsDottedWord

/-! ## Pairs and variables, one by one -/

namespace Operator

/-- Among the named operators only that of path parameters writes nothing after the name of an
empty variable. -/
theorem empty_suffix_of_is_named (h : op.isNamed = true) :
    op.emptySuffix = if op = .pathStyle then [] else Text.ofString "=" := by
  cases op <;> first | rfl | exact absurd h (by decide)

/-- A named operator writes a pair as it writes a variable with the value, unless the value is empty
and nothing is written after the name. -/
theorem format_variable_of_is_named (h : op.isNamed = true) : op.formatVariable key value =
    if op = .pathStyle ∧ value = [] then key else op.formatPair key value := by
  by_cases hvalue : value = []
  · by_cases hop : op = .pathStyle
    · subst hop
      simp [formatVariable, isNamed, emptySuffix, hvalue]
    · simp [formatVariable, formatPair, h, hvalue, hop, empty_suffix_of_is_named h]
  · simp [formatVariable, formatPair, h, hvalue]

/-- A variable is written at most as long as a pair. -/
theorem length_format_variable_le (h : op.isNamed = true) (key value : Text) :
    (op.formatVariable key value).length ≤ (op.formatPair key value).length := by
  rw [format_variable_of_is_named h]
  split
  · simp [formatPair]
  · exact Nat.le_refl _

/-- They are written alike except for an empty value after a semicolon. -/
theorem format_variable_eq_format_pair_iff (h : op.isNamed = true) :
    op.formatVariable key value = op.formatPair key value ↔ (op = .pathStyle → value ≠ []) := by
  rw [format_variable_of_is_named h]
  constructor
  · rintro heq hop rfl
    have hlength := congrArg List.length heq
    simp [hop, formatPair, Text.ofString] at hlength
  · intro hvalue
    rw [if_neg fun hempty => hvalue hempty.1 hempty.2]

end Operator

/-- Something joined has the lead in front. -/
theorem Operator.join_of_ne_nil {ts : List Text} (h : ts ≠ []) :
    op.join ts = op.lead ++ Text.join op.separator ts := by
  simp [Operator.join, h]

/-! ## The two forms -/

/-- `exploded op name` refers to one variable, each pair of which is written on its own. -/
def exploded (op : Operator) (name : Text) : Expression := ⟨op, [⟨name, some .explode⟩]⟩

/-- `listed op names` refers to the variables with the given names. -/
def listed (op : Operator) (names : List Text) : Expression := ⟨op, names.map (⟨·, none⟩)⟩

/-- A well-formed expression in braces is a template that expands as the expression does. -/
theorem expand_text_braced {e : Expression} (h : e.WellFormed limits) :
    expandText limits (braced e.content) bindings = (e.expand bindings).mapError .digitLimit := by
  have hparse : Component.parseAll limits (braced e.content) = .ok [.expression e] := by
    rw [Component.parse_all_braced h.brace_free_content, h.parse_content]
    rfl
  have htemplate : Template.parse limits (braced e.content) =
      .ok ⟨braced e.content, [.expression e]⟩ := by
    rw [Template.parse, hparse]
    rfl
  rw [expandText, htemplate]
  show (Component.expandAll bindings [.expression e]).mapError _ = _
  rw [Component.expand_all_cons, Component.expand_all_nil]
  show ((e.expand bindings) >>= _).mapError _ = _
  cases e.expand bindings <;> simp [Except.mapError]

/-- An expression with a named operator is not read as a label. -/
theorem Expression.content_of_is_named {e : Expression} (h : e.operator.isNamed = true) :
    e.content = e.operator.symbol ++ e.variableList := by
  refine content_of_not_looks_like_label ?_
  have hsimple : e.operator ≠ .simple := by
    intro hsimple
    simp [hsimple, Operator.isNamed] at h
  simp [looksLikeLabel, hsimple]

/-- How the expression of one exploded variable is written. -/
theorem content_exploded (h : op.isNamed = true) (name : Text) :
    (exploded op name).content = op.symbol ++ (name ++ Text.ofString "*") := by
  rw [Expression.content_of_is_named h]
  rfl

/-- How the expression of listed variables is written. -/
theorem content_listed (h : op.isNamed = true) (names : List Text) :
    (listed op names).content = op.symbol ++ join [','] names := by
  have hsources : (names.map (⟨·, none⟩)).map VariableSpec.source = names := by
    rw [List.map_map]
    exact List.map_id names
  rw [Expression.content_of_is_named h, Expression.variableList, listed, hsources]

section

variable {name : Text} {entries : List (Text × Text)}

/-- An exploded array of pairs is expanded to these. -/
theorem expand_exploded (hne : entries ≠ []) (hkeys : ∀ pair ∈ entries, pair.1.IsDottedWord)
    (hpairs : (VariableSpec.mk name (some .explode)).value? bindings =
      .ok (some (.pairs entries))) :
    (exploded op name).expand bindings = .ok (op.lead ++ join op.separator (entries.map fun pair =>
      op.formatPair pair.1 (Percent.encode op.keepsReserved pair.2))) := by
  have hencode : entries.map (fun pair => op.formatPair (Percent.encode op.keepsReserved pair.1)
        (Percent.encode op.keepsReserved pair.2)) =
      entries.map fun pair => op.formatPair pair.1 (Percent.encode op.keepsReserved pair.2) :=
    List.map_congr_left fun pair hpair => by rw [(hkeys pair hpair).encode_eq]
  have hempty : ¬entries.isEmpty = true := by simpa using hne
  have hfragment : VariableSpec.fragment? ⟨name, some .explode⟩ op (.pairs entries) =
      some (join op.separator (entries.map fun pair =>
        op.formatPair pair.1 (Percent.encode op.keepsReserved pair.2))) := by
    rw [← hencode, VariableSpec.fragment?, VariableSpec.pairsFragment?, if_neg hempty]
    rfl
  have hfragments : fragments op bindings [⟨name, some .explode⟩] =
      .ok [join op.separator (entries.map fun pair =>
        op.formatPair pair.1 (Percent.encode op.keepsReserved pair.2))] := by
    rw [fragments, hpairs, ok_bind, fragments, ok_bind, Option.bind_some, hfragment]
    rfl
  show (fragments op bindings [⟨name, some .explode⟩] >>= fun ts => pure (op.join ts)) = _
  rw [hfragments, ok_bind, Operator.join_of_ne_nil (by simp)]
  rfl

/-- Listed variables are expanded to their names and values. -/
theorem expand_listed (hne : entries ≠ [])
    (hvalues : ∀ pair ∈ entries, bindings.get? pair.1 = some (.text pair.2)) :
    (listed op (entries.map Prod.fst)).expand bindings = .ok (op.lead ++ join op.separator
      (entries.map fun pair =>
        op.formatVariable pair.1 (Percent.encode op.keepsReserved pair.2))) := by
  have hfragments : fragments op bindings ((entries.map Prod.fst).map (⟨·, none⟩)) =
      .ok (entries.map fun pair =>
        op.formatVariable pair.1 (Percent.encode op.keepsReserved pair.2)) := by
    clear hne
    induction entries with
    | nil => rfl
    | cons pair rest ih =>
        obtain ⟨hpair, hrest⟩ := List.forall_mem_cons.1 hvalues
        have hvalue : (VariableSpec.mk pair.1 none).value? bindings =
            .ok (some (.string pair.2)) := by
          rw [VariableSpec.value?, hpair]
          rfl
        rw [List.map_cons, List.map_cons, fragments, hvalue, ok_bind, ih hrest]
        rfl
  show (fragments op bindings ((entries.map Prod.fst).map (⟨·, none⟩)) >>=
    fun ts => pure (op.join ts)) = _
  rw [hfragments, ok_bind, Operator.join_of_ne_nil (by simpa using hne)]
  rfl

end

/-- For a named operator an exploded associative array with words as keys expands to the same text
as variables of these names with the same values, unless the operator is that of path parameters
and some value is empty: then the pair has an equals sign and the variable has none. -/
theorem expand_exploded_eq_listed_iff (limits : Limits) {op : Operator} (hnamed : op.isNamed = true)
    {name : Text} (hname : (VariableSpec.mk name (some .explode)).WellFormed limits)
    {entries : List (Text × Text)} (hne : entries ≠ [])
    (hkeys : ∀ pair ∈ entries, pair.1.IsDottedWord) {bindings others : Bindings}
    (hpairs : (VariableSpec.mk name (some .explode)).value? bindings = .ok (some (.pairs entries)))
    (hvalues : ∀ pair ∈ entries, others.get? pair.1 = some (.text pair.2)) :
    ∃ t u,
      expandText limits (braced (op.symbol ++ (name ++ Text.ofString "*"))) bindings = .ok t ∧
      expandText limits (braced (op.symbol ++ join [','] (entries.map Prod.fst))) others = .ok u ∧
      (t = u ↔ (op = .pathStyle → ∀ pair ∈ entries, pair.2 ≠ [])) := by
  have hexploded : (exploded op name).WellFormed limits :=
    ⟨by simp [exploded], by simpa [exploded] using hname⟩
  have hlisted : (listed op (entries.map Prod.fst)).WellFormed limits := by
    refine ⟨by simpa [listed] using hne, fun s hs => ?_⟩
    obtain ⟨key, hkey, rfl⟩ := List.mem_map.1 hs
    obtain ⟨pair, hpair, rfl⟩ := List.mem_map.1 hkey
    exact (hkeys pair hpair).well_formed
  have hfirst := @expand_text_braced limits bindings _ hexploded
  have hsecond := @expand_text_braced limits others _ hlisted
  rw [content_exploded hnamed, expand_exploded hne hkeys hpairs] at hfirst
  rw [content_listed hnamed, expand_listed hne hvalues] at hsecond
  refine ⟨_, _, hfirst, hsecond, ?_⟩
  have hempty : ∀ t, Percent.encode op.keepsReserved t = [] ↔ t = [] := fun t =>
    (Percent.encode_injective op.keepsReserved).eq_iff' rfl
  have hpair : ∀ pair : Text × Text,
      op.formatVariable pair.1 (Percent.encode op.keepsReserved pair.2) =
        op.formatPair pair.1 (Percent.encode op.keepsReserved pair.2) ↔
      (op = .pathStyle → pair.2 ≠ []) := fun pair => by
    rw [Operator.format_variable_eq_format_pair_iff hnamed, ne_eq, hempty]
  rw [List.append_right_inj]
  constructor
  · intro h hop pair hmem
    -- Texts joined alike are alike one by one, since no variable is longer than its pair.
    have hall := eq_of_join_eq (fun pair _ => Operator.length_format_variable_le hnamed _ _) h.symm
    exact (hpair pair).1 (hall pair hmem) hop
  · intro h
    exact congrArg _ (List.map_congr_left fun pair hmem =>
      ((hpair pair).2 fun hop => h hop pair hmem).symm)

/-- A query with an exploded array that has an empty value. -/
theorem expand_exploded_eq_listed_query :
    ∃ t u,
      expandText Limits.standard (braced "?p*")
        [("p", .mapping [(.text "a.b", .text ""), (.text "c", .text "x y")])] = .ok t ∧
      expandText Limits.standard (braced "?a.b,c") [("a.b", .text ""), ("c", .text "x y")] = .ok u ∧
      t = u := by
  obtain ⟨t, u, ht, hu, heq⟩ := @expand_exploded_eq_listed_iff Limits.standard .query rfl "p"
    ⟨by decide +kernel, by decide, by simp, by simp [Modifier.Fits]⟩
    [("a.b", ""), ("c", "x y")] (by simp)
    (by
      intro pair hpair
      simp only [List.mem_cons, List.not_mem_nil, or_false] at hpair
      rcases hpair with rfl | rfl <;> exact ⟨by decide, by decide⟩)
    [("p", .mapping [(.text "a.b", .text ""), (.text "c", .text "x y")])]
    [("a.b", .text ""), ("c", .text "x y")] rfl
    (by
      intro pair hpair
      simp only [List.mem_cons, List.not_mem_nil, or_false] at hpair
      rcases hpair with rfl | rfl <;> rfl)
  exact ⟨t, u, ht, hu, heq.2 fun h => absurd h (by decide)⟩

/-- A path parameter from an exploded array has an equals sign after its name even if its value is
empty, and a variable of the same name and value has none. -/
theorem expand_exploded_empty_path_parameter :
    expandText Limits.standard (braced ";p*") [("p", .mapping [(.text "a", .text "")])] =
        .ok ";a=" ∧
      expandText Limits.standard (braced ";a") [("a", .text "")] = .ok ";a" ∧
      Text.ofString ";a=" ≠ Text.ofString ";a" := by
  decide +kernel

end UriTemplate
