import UriTemplate.Proofs.Expansion.Segment
import UriTemplate.Proofs.Percent

/-!
# Values stay in their slots

Under an operator that escapes reserved code points and separates with one, the expansion of an
expression determines the values of its variables among values of the same shape. Every value is
written as encoded texts with reserved code points between them, so each of them can be cancelled
from the front of the expansion (`Text.Cancels`). `Encloses.cancels_segment` does this for one
variable, and `expand_injective` for the expression.
-/

namespace UriTemplate

open Text

/-- What is known of the value of a variable without its texts. -/
inductive Shape where
  | undefined
  | string
  | list (length : Nat)
  | pairs (length : Nat)
deriving DecidableEq

/-- `Shape.of value?` is the shape of what a variable expands as. -/
def Shape.of : Option VariableValue → Shape
  | none => undefined
  | some (.string _) => string
  | some (.list items) => list items.length
  | some (.pairs entries) => pairs entries.length

/-- `s.shape? bindings` is the shape of what the variable of `s` expands as under the bindings. -/
def VariableSpec.shape? (s : VariableSpec) (bindings : Bindings) :
    Except Decimal.LimitError Shape :=
  (s.value? bindings).map Shape.of

/-- `shape.IsEmpty` says that a value of the shape has no members. -/
def Shape.IsEmpty (shape : Shape) : Prop := shape = .list 0 ∨ shape = .pairs 0

/-- Only an undefined value has the undefined shape. -/
theorem Shape.of_eq_undefined_iff {value? : Option VariableValue} :
    Shape.of value? = .undefined ↔ value? = none := by
  cases value? with
  | none => simp [Shape.of]
  | some v => cases v <;> simp [Shape.of]

/-- Only the empty list has the shape of no items. -/
theorem Shape.of_eq_list_zero_iff {value? : Option VariableValue} :
    Shape.of value? = .list 0 ↔ value? = some (.list []) := by
  cases value? with
  | none => simp [Shape.of]
  | some v => cases v <;> simp [Shape.of]

/-- Only the empty array has the shape of no pairs. -/
theorem Shape.of_eq_pairs_zero_iff {value? : Option VariableValue} :
    Shape.of value? = .pairs 0 ↔ value? = some (.pairs []) := by
  cases value? with
  | none => simp [Shape.of]
  | some v => cases v <;> simp [Shape.of]

/-- Values without members are told apart by their shapes. -/
theorem Shape.of_inj_of_is_empty {v? w? : Option VariableValue} (h : (Shape.of v?).IsEmpty)
    (hshape : Shape.of v? = Shape.of w?) : v? = w? := by
  rcases h with hlist | hpairs
  · have hw := of_eq_list_zero_iff.1 (hshape.symm.trans hlist)
    rw [of_eq_list_zero_iff.1 hlist, hw]
  · have hw := of_eq_pairs_zero_iff.1 (hshape.symm.trans hpairs)
    rw [of_eq_pairs_zero_iff.1 hpairs, hw]

/-- The values without members are those that contribute nothing. -/
theorem VariableSpec.fragment?_eq_none_iff {s : VariableSpec} {op : Operator}
    {v : VariableValue} : s.fragment? op v = none ↔ (Shape.of (some v)).IsEmpty := by
  cases v <;> simp [fragment?, listFragment?, pairsFragment?, Shape.of, Shape.IsEmpty]

/-- A variable contributes nothing exactly when it is undefined or its value has no members. -/
theorem VariableSpec.bind_fragment?_eq_none_iff {s : VariableSpec} {op : Operator}
    {value? : Option VariableValue} :
    value?.bind (s.fragment? op) = none ↔
      Shape.of value? = .undefined ∨ (Shape.of value?).IsEmpty := by
  cases value? with
  | none => simp [Shape.of]
  | some v => simp [fragment?_eq_none_iff, Shape.of_eq_undefined_iff]

/-- `Encloses op c` says that the operator `op` escapes reserved code points and separates with one
of them, the code point `c`, which is no equals sign. -/
structure Encloses (op : Operator) (c : CodePoint) : Prop where
  keepsReserved_eq : op.keepsReserved = false
  separator_eq : op.separator = [c]
  isReserved : c.isReserved = true
  ne_equals : c ≠ CodePoint.ofChar '='

/-- Each of the five operators encloses its segments with some code point. -/
theorem exists_encloses {op : Operator}
    (h : op ∈ [Operator.simple, .path, .pathStyle, .query, .queryContinuation]) :
    ∃ c, Encloses op c := by
  simp only [List.mem_cons, List.not_mem_nil, or_false] at h
  rcases h with rfl | rfl | rfl | rfl | rfl
  · exact ⟨CodePoint.ofChar ',', rfl, rfl, by decide, by decide⟩
  · exact ⟨CodePoint.ofChar '/', rfl, rfl, by decide, by decide⟩
  · exact ⟨CodePoint.ofChar ';', rfl, rfl, by decide, by decide⟩
  · exact ⟨CodePoint.ofChar '&', rfl, rfl, by decide, by decide⟩
  · exact ⟨CodePoint.ofChar '&', rfl, rfl, by decide, by decide⟩

variable {op : Operator} {c : CodePoint} {stops : List CodePoint} {α : Type}
  {R : α → α → Prop} {f : α → Text}

/-- The equals sign as a text. -/
theorem of_string_equals : Text.ofString "=" = [CodePoint.ofChar '='] := rfl

/-- The comma as a text. -/
theorem of_string_comma : Text.ofString "," = [CodePoint.ofChar ','] := rfl

/-! ## The parts of a value -/

/-- Before reserved code points, what is encoded determines the text. -/
theorem cancels_encode (h : ∀ d ∈ stops, d.isReserved = true) :
    Cancels stops (fun _ _ => True) (Percent.encode false) := by
  intro t u rest rest' _ hrest hrest' heq
  have hfree : ∀ v, ∀ d ∈ Percent.encode false v, d ∉ stops :=
    fun v d hd hstop => Percent.not_mem_encode (h d hstop) v hd
  obtain ⟨hencoded, hsame⟩ := append_inj_of_stops (hfree t) (hfree u) hrest hrest' heq
  exact ⟨Percent.encode_injective false hencoded, hsame⟩

/-- After a name, the sign of an empty value is no start of a value that is not empty, so that what
follows the name is the value and the rest in both cases. -/
theorem append_of_empty_suffix (op : Operator) {value rest rest' : Text}
    (hrest : Stops stops rest) (hstops : CodePoint.ofChar '=' ∉ stops)
    (h : op.emptySuffix ++ rest = CodePoint.ofChar '=' :: value ++ rest') :
    rest = value ++ rest' := by
  have hsuffix : op.emptySuffix = [] ∨ op.emptySuffix = [CodePoint.ofChar '='] := by
    cases op <;> simp [Operator.emptySuffix]
  rcases hsuffix with hnone | hequals
  · rw [hnone, List.nil_append] at h
    exact absurd (stops_cons.1 (h ▸ hrest)) hstops
  · rw [hequals] at h
    exact (List.cons.inj h).2

/-- The name and the sign after it can be cancelled. -/
theorem append_of_format_variable {name value value' rest rest' : Text} (hrest : Stops stops rest)
    (hrest' : Stops stops rest') (hstops : CodePoint.ofChar '=' ∉ stops)
    (h : op.formatVariable name value ++ rest = op.formatVariable name value' ++ rest') :
    value ++ rest = value' ++ rest' := by
  cases hnamed : op.isNamed with
  | false => simpa [Operator.formatVariable, hnamed] using h
  | true =>
      cases value with
      | nil =>
          cases value' with
          | nil => simpa [Operator.formatVariable, hnamed] using h
          | cons d tail =>
              -- Here and below one value is empty and the other is not.
              simp only [Operator.formatVariable, hnamed, of_string_equals] at h
              refine append_of_empty_suffix op hrest hstops ?_
              simpa using h
      | cons d tail =>
          cases value' with
          | nil =>
              simp only [Operator.formatVariable, hnamed, of_string_equals] at h
              refine (append_of_empty_suffix op hrest' hstops ?_).symm
              simpa using h.symm
          | cons d' tail' => simpa [Operator.formatVariable, hnamed, of_string_equals] using h

/-- A name in front, with an equals sign, can be cancelled as well. -/
theorem Text.Cancels.format_variable (h : Cancels stops R f)
    (hstops : CodePoint.ofChar '=' ∉ stops) (op : Operator) (name : Text) :
    Cancels stops R fun a => op.formatVariable name (f a) :=
  fun _ _ _ _ hab hrest hrest' heq =>
    h hab hrest hrest' (append_of_format_variable hrest hrest' hstops heq)

/-! ## One variable -/

/-- Lists of the same length go together. -/
theorem forall₂_true_of_length_eq {as bs : List α} (h : as.length = bs.length) :
    List.Forall₂ (fun _ _ => True) as bs :=
  List.forall₂_iff_get.2 ⟨h, fun _ _ _ => trivial⟩

section

variable {s : VariableSpec} (hop : Encloses op c)

include hop

/-- An encoded text can be cancelled before a comma, an equals sign or a separator. -/
theorem Encloses.cancels_encode
    (hstops : stops ⊆ [CodePoint.ofChar '=', CodePoint.ofChar ',', c]) :
    Cancels stops (fun _ _ => True) (Percent.encode op.keepsReserved) := by
  rw [hop.keepsReserved_eq]
  refine UriTemplate.cancels_encode fun d hd => ?_
  have hmem := hstops hd
  simp only [List.mem_cons, List.not_mem_nil, or_false] at hmem
  rcases hmem with rfl | rfl | rfl
  · rfl
  · rfl
  · exact hop.isReserved

/-- A text after the name of its variable can be cancelled if it can without. -/
theorem Encloses.cancels_format_variable (h : Cancels [CodePoint.ofChar ',', c] R f)
    (name : Text) : Cancels [c] R fun a => op.formatVariable name (f a) := by
  have hequals : CodePoint.ofChar '=' ∉ [c] := by simpa using hop.ne_equals.symm
  exact (h.mono (by simp)).format_variable hequals op name

/-- Before the separator, a whole string is determined by what is written of it. -/
theorem Encloses.cancels_string (hs : s.length? = none) :
    Cancels [c] (fun _ _ => True) (s.stringFragment op) := by
  have hstring : s.stringFragment op =
      fun t => op.formatVariable s.name (Percent.encode op.keepsReserved t) := by
    funext t
    simp [VariableSpec.stringFragment, hs]
  rw [hstring]
  exact hop.cancels_format_variable (hop.cancels_encode (by simp)) s.name

/-- A list that is not empty can be cancelled, whether it explodes or not. -/
theorem Encloses.cancels_list {items items' : List Text} {fragment fragment' rest rest' : Text}
    (hlength : items.length = items'.length)
    (hfragment : s.listFragment? op items = some fragment)
    (hfragment' : s.listFragment? op items' = some fragment')
    (hrest : Stops [c] rest) (hrest' : Stops [c] rest')
    (heq : fragment ++ rest = fragment' ++ rest') : items = items' ∧ rest = rest' := by
  have hall := forall₂_true_of_length_eq hlength
  simp only [VariableSpec.listFragment?, Option.ite_none_left_eq_some, Option.some.injEq,
    List.map_map] at hfragment hfragment'
  obtain ⟨_, rfl⟩ := hfragment
  obtain ⟨_, rfl⟩ := hfragment'
  cases hexplodes : s.explodes with
  | true =>
      have hitem := hop.cancels_format_variable (hop.cancels_encode (by simp)) s.name
      rw [hexplodes, hop.separator_eq] at heq
      exact hitem.join (by simp) hall hrest hrest' heq
  | false =>
      have hitem : Cancels [CodePoint.ofChar ',', c] _ _ := hop.cancels_encode (by simp)
      have hcomma : CodePoint.ofChar ',' ∈ [CodePoint.ofChar ',', c] := by simp
      have hitems := hop.cancels_format_variable (hitem.join hcomma) s.name
      rw [hexplodes] at heq
      exact hitems hall hrest hrest' heq

/-- An associative array that is not empty can be cancelled, whether it explodes or not. -/
theorem Encloses.cancels_pairs {entries entries' : List (Text × Text)}
    {fragment fragment' rest rest' : Text} (hlength : entries.length = entries'.length)
    (hfragment : s.pairsFragment? op entries = some fragment)
    (hfragment' : s.pairsFragment? op entries' = some fragment')
    (hrest : Stops [c] rest) (hrest' : Stops [c] rest')
    (heq : fragment ++ rest = fragment' ++ rest') : entries = entries' ∧ rest = rest' := by
  have hall := forall₂_true_of_length_eq hlength
  simp only [VariableSpec.pairsFragment?, Option.ite_none_left_eq_some, Option.some.injEq]
    at hfragment hfragment'
  obtain ⟨_, rfl⟩ := hfragment
  obtain ⟨_, rfl⟩ := hfragment'
  have hvalue : Cancels [CodePoint.ofChar ',', c] _ _ := hop.cancels_encode (by simp)
  cases hexplodes : s.explodes with
  | true =>
      have hkey : Cancels [CodePoint.ofChar '=', c] _ _ := hop.cancels_encode (by simp)
      have hpair := hkey.pair (hvalue.mono (by simp))
      have hseparator : c ∈ [c] := by simp
      rw [hexplodes, hop.separator_eq] at heq
      refine hpair.join hseparator ?_ hrest hrest' ?_
      · simpa using hall
      · simpa [Operator.formatPair, of_string_equals] using heq
  | false =>
      have hkey : Cancels [CodePoint.ofChar ',', CodePoint.ofChar ',', c] _ _ :=
        hop.cancels_encode (by simp)
      have hcomma : CodePoint.ofChar ',' ∈ [CodePoint.ofChar ',', c] := by simp
      have hpairs := hop.cancels_format_variable ((hkey.pair hvalue).join hcomma) s.name
      rw [hexplodes] at heq
      refine hpairs ?_ hrest hrest' ?_
      · simpa using hall
      · simpa [of_string_comma] using heq

/-- A fragment can be cancelled among values of the same shape. -/
theorem Encloses.cancels_fragment (hs : s.length? = none) {v w : VariableValue}
    {fragment fragment' rest rest' : Text} (hshape : Shape.of (some v) = Shape.of (some w))
    (hfragment : s.fragment? op v = some fragment)
    (hfragment' : s.fragment? op w = some fragment')
    (hrest : Stops [c] rest) (hrest' : Stops [c] rest')
    (heq : fragment ++ rest = fragment' ++ rest') : v = w ∧ rest = rest' := by
  cases v with
  | string t =>
      cases w with
      | string u =>
          obtain rfl := Option.some.inj hfragment
          obtain rfl := Option.some.inj hfragment'
          obtain ⟨rfl, hsame⟩ := hop.cancels_string hs trivial hrest hrest' heq
          exact ⟨rfl, hsame⟩
      | list items => simp [Shape.of] at hshape
      | pairs entries => simp [Shape.of] at hshape
  | list items =>
      cases w with
      | string u => simp [Shape.of] at hshape
      | list items' =>
          have hlength : items.length = items'.length := by simpa [Shape.of] using hshape
          obtain ⟨rfl, hsame⟩ :=
            hop.cancels_list hlength hfragment hfragment' hrest hrest' heq
          exact ⟨rfl, hsame⟩
      | pairs entries => simp [Shape.of] at hshape
  | pairs entries =>
      cases w with
      | string u => simp [Shape.of] at hshape
      | list items => simp [Shape.of] at hshape
      | pairs entries' =>
          have hlength : entries.length = entries'.length := by simpa [Shape.of] using hshape
          obtain ⟨rfl, hsame⟩ :=
            hop.cancels_pairs hlength hfragment hfragment' hrest hrest' heq
          exact ⟨rfl, hsame⟩

/-- What a variable adds to an expansion can be cancelled among values of the same shape. -/
theorem Encloses.cancels_segment (hs : s.length? = none) :
    Cancels [c] (fun v w => Shape.of v = Shape.of w) (s.segment op) := by
  intro v? w? rest rest' hshape hrest hrest' heq
  cases v? with
  | none =>
      obtain rfl := Shape.of_eq_undefined_iff.1 hshape.symm
      exact ⟨rfl, heq⟩
  | some v =>
      cases w? with
      | none => exact absurd (Shape.of_eq_undefined_iff.1 hshape) (by simp)
      | some w =>
          cases hfragment : s.fragment? op v with
          | none =>
              -- A value that adds nothing is known from its shape.
              have hempty := VariableSpec.fragment?_eq_none_iff.1 hfragment
              have hfragment' : s.fragment? op w = none :=
                VariableSpec.fragment?_eq_none_iff.2 (hshape ▸ hempty)
              have hrests : rest = rest' := by
                simpa [VariableSpec.segment, hfragment, hfragment'] using heq
              exact ⟨Shape.of_inj_of_is_empty hempty hshape, hrests⟩
          | some fragment =>
              cases hfragment' : s.fragment? op w with
              | none =>
                  have hempty := VariableSpec.fragment?_eq_none_iff.1 hfragment'
                  rw [VariableSpec.fragment?_eq_none_iff.2 (hshape ▸ hempty)] at hfragment
                  exact absurd hfragment (by simp)
              | some fragment' =>
                  have hcut : fragment ++ rest = fragment' ++ rest' := by
                    simpa [VariableSpec.segment, hfragment, hfragment'] using heq
                  obtain ⟨rfl, hsame⟩ :=
                    hop.cancels_fragment hs hshape hfragment hfragment' hrest hrest' hcut
                  exact ⟨rfl, hsame⟩

/-- A segment is empty or starts with the separator. -/
theorem Encloses.stops_segment (value? : Option VariableValue) :
    Stops [c] (s.segment op value?) := by
  unfold VariableSpec.segment
  split
  · rw [hop.separator_eq]
    exact stops_cons.2 (by simp)
  · exact stops_nil

/-- What the variables add, one after the other, determines the values among those of the same
shapes. -/
theorem Encloses.segments_injective {specs : List VariableSpec}
    {first second : VariableSpec → Option VariableValue}
    (hspecs : ∀ s ∈ specs, s.length? = none)
    (hshape : ∀ s ∈ specs, Shape.of (first s) = Shape.of (second s))
    (h : specs.flatMap (fun s => s.segment op (first s)) =
      specs.flatMap fun s => s.segment op (second s)) :
    ∀ s ∈ specs, first s = second s := by
  induction specs with
  | nil => simp
  | cons s rest ih =>
      have hstops : ∀ value : VariableSpec → Option VariableValue,
          Stops [c] (rest.flatMap fun t => t.segment op (value t)) :=
        fun value => stops_flat_map (fun t => hop.stops_segment (value t)) rest
      rw [List.flatMap_cons, List.flatMap_cons] at h
      obtain ⟨hvalue, htail⟩ := hop.cancels_segment (hspecs s (by simp)) (hshape s (by simp))
        (hstops first) (hstops second) h
      have hrest := ih (fun t ht => hspecs t (by simp [ht])) (fun t ht => hshape t (by simp [ht]))
        htail
      intro t ht
      rcases List.mem_cons.1 ht with rfl | ht
      · exact hvalue
      · exact hrest t ht

end

/-! ## A whole expression -/

/-- Values of the same shapes have fragments in the same places. -/
theorem fragments_eq_nil_iff {specs : List VariableSpec}
    {first second : VariableSpec → Option VariableValue}
    (hshape : ∀ s ∈ specs, Shape.of (first s) = Shape.of (second s)) :
    (specs.filterMap fun s => (first s).bind (s.fragment? op)) = [] ↔
      (specs.filterMap fun s => (second s).bind (s.fragment? op)) = [] := by
  rw [List.filterMap_eq_nil_iff, List.filterMap_eq_nil_iff]
  refine forall₂_congr fun s hs => ?_
  rw [VariableSpec.bind_fragment?_eq_none_iff, VariableSpec.bind_fragment?_eq_none_iff,
    hshape s hs]

/-- Where the shape of a value is known, so is the value. -/
theorem VariableSpec.value?_eq {s : VariableSpec} {bindings : Bindings} {shape : Shape}
    (h : s.shape? bindings = .ok shape) :
    s.value? bindings = .ok (s.value bindings) ∧ Shape.of (s.value bindings) = shape := by
  obtain ⟨value?, hvalue, rfl⟩ := map_eq_ok_iff.1 h
  simp [value, hvalue, Except.toOption]

/-- The expansion of an expression without prefix modifiers, under an operator that escapes what it
separates with, determines the values of the variables among values of the same shapes. -/
theorem expand_injective (e : Expression) (first second : Bindings)
    (hoperator : e.operator ∈ [Operator.simple, .path, .pathStyle, .query, .queryContinuation])
    (hspecs : ∀ s ∈ e.specs, s.length? = none)
    (hshape : ∀ s ∈ e.specs, ∃ shape, s.shape? first = .ok shape ∧ s.shape? second = .ok shape)
    (h : e.expand first = e.expand second) :
    ∀ s ∈ e.specs, s.value? first = s.value? second := by
  obtain ⟨c, hop⟩ := exists_encloses hoperator
  have hfirst : ∀ s ∈ e.specs, s.value? first = .ok (s.value first) := fun s hs => by
    obtain ⟨shape, hshape, _⟩ := hshape s hs
    exact (VariableSpec.value?_eq hshape).1
  have hsecond : ∀ s ∈ e.specs, s.value? second = .ok (s.value second) := fun s hs => by
    obtain ⟨shape, _, hshape⟩ := hshape s hs
    exact (VariableSpec.value?_eq hshape).1
  have hsame : ∀ s ∈ e.specs, Shape.of (s.value first) = Shape.of (s.value second) :=
    fun s hs => by
      obtain ⟨shape, hshape, hshape'⟩ := hshape s hs
      rw [(VariableSpec.value?_eq hshape).2, (VariableSpec.value?_eq hshape').2]
  rw [Expression.expand, Expression.expand, fragments_eq hfirst, fragments_eq hsecond, ok_bind,
    ok_bind, pure_eq_ok, pure_eq_ok, Except.ok.injEq] at h
  have hsegments := Operator.flat_map_of_join (fragments_eq_nil_iff hsame) h
  rw [flat_map_fragments, flat_map_fragments] at hsegments
  intro s hs
  rw [hfirst s hs, hsecond s hs, hop.segments_injective hspecs hsame hsegments s hs]

/-- A list and a tuple that expand alike in a query hold the same texts, an empty one included. -/
theorem expand_injective_query :
    Expression.expand ⟨.query, [⟨"x", some .explode⟩, ⟨"y", none⟩]⟩
        [("x", .list [.bool true, .text ""]), ("y", .text "b")] = .ok "?x=true&x=&y=b" ∧
      VariableSpec.value? ⟨"x", some .explode⟩
          [("x", .list [.bool true, .text ""]), ("y", .text "b")] =
        VariableSpec.value? ⟨"x", some .explode⟩
          [("x", .tuple [.text "true", .text ""]), ("y", .text "b")] := by
  have hshape : ∀ s ∈ [(⟨"x", some .explode⟩ : VariableSpec), ⟨"y", none⟩], ∃ shape,
      s.shape? [("x", .list [.bool true, .text ""]), ("y", .text "b")] = .ok shape ∧
        s.shape? [("x", .tuple [.text "true", .text ""]), ("y", .text "b")] = .ok shape := by
    intro s hs
    simp only [List.mem_cons, List.not_mem_nil, or_false] at hs
    rcases hs with rfl | rfl
    · exact ⟨.list 2, by rfl, by rfl⟩
    · exact ⟨.string, by rfl, by rfl⟩
  refine ⟨by rfl, ?_⟩
  exact expand_injective ⟨.query, [⟨"x", some .explode⟩, ⟨"y", none⟩]⟩ _ _ (by decide)
    (by decide) hshape (by rfl) _ (by simp)

end UriTemplate
