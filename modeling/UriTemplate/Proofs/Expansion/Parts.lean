import UriTemplate.Proofs.Component.Content
import UriTemplate.Proofs.Expansion.Sequence
import UriTemplate.Proofs.Percent

/-!
# What an expansion is made of

An expansion without prefix modifiers is made of the parts that may stand in a URI (`IsUriPart`):
unreserved and reserved code points and whole escapes. Encoded values, operator symbols and
separators hold nothing else. A named operator also writes the names of its variables, as the
template has them, and these may hold code points above ASCII (`Expression.expand_parts`).
-/

namespace UriTemplate

/-- `IsUriPart part` says that `part` may stand in a URI: it is an unreserved or a reserved code
point, or a percent sign and two hexadecimal digits. -/
inductive IsUriPart : Text → Prop where
  | unreserved (c : CodePoint) : c.isUnreserved = true → IsUriPart [c]
  | reserved (c : CodePoint) : c.isReserved = true → IsUriPart [c]
  | escape (high low : CodePoint) : high.isHexDigit = true → low.isHexDigit = true →
      IsUriPart [CodePoint.ofChar '%', high, low]

variable {P : Text → Prop} {t : Text} {c : CodePoint} {op : Operator}

/-! ## Parts of URIs -/

/-- What may stand in a URI is ASCII. -/
theorem IsUriPart.is_ascii_of_mem (h : IsUriPart t) : ∀ c ∈ t, c.isAscii = true := by
  have hhex : ∀ d : CodePoint, d.isHexDigit = true → d.isAscii = true := by
    intro d hd
    rw [CodePoint.is_hex_digit_iff, CodePoint.is_digit_iff] at hd
    rw [CodePoint.is_ascii_iff]
    omega
  cases h with
  | unreserved c hc => simpa using (CodePoint.is_ascii_of_is_unreserved hc).1
  | reserved c hc => simpa using (CodePoint.is_ascii_of_is_reserved hc).1
  | escape high low hhigh hlow =>
      have hpercent : (CodePoint.ofChar '%').isAscii = true := rfl
      simp [hpercent, hhex high hhigh, hhex low hlow]

/-- Parts of a URI are ASCII characters. -/
theorem is_ascii_of_made_of (h : MadeOf IsUriPart t) : ∀ c ∈ t, c.isAscii = true := by
  intro c hc
  obtain ⟨part, hpart, hmem⟩ := h.exists_of_mem hc
  exact hpart.is_ascii_of_mem c hmem

/-- A token of an encoded text may stand in a URI. -/
theorem Percent.IsToken.is_uri_part {keepReserved : Bool} (h : IsToken keepReserved t) :
    IsUriPart t := by
  have hhex : ∀ d : CodePoint, d.isCapitalHexDigit = true → d.isHexDigit = true := by
    intro d hd
    simp only [CodePoint.isCapitalHexDigit, Bool.or_eq_true] at hd
    simp only [CodePoint.isHexDigit, Bool.or_eq_true]
    exact .inl hd
  cases h with
  | unreserved c hc => exact .unreserved c hc
  | reserved c _ hc => exact .reserved c hc
  | escape high low hhigh hlow => exact .escape high low (hhex high hhigh) (hhex low hlow)

section

variable (hP : ∀ part, IsUriPart part → P part)

include hP

/-- An encoded text is made of parts. -/
theorem made_of_encode (keepReserved : Bool) (t : Text) :
    MadeOf P (Percent.encode keepReserved t) :=
  ⟨Percent.tokens keepReserved t, Percent.flatten_tokens keepReserved t,
    fun part hpart => hP part (Percent.is_token_of_mem_tokens hpart).is_uri_part⟩

/-! ## Names -/

/-- A plain character of a name is a part, if the wide ones are. -/
theorem part_of_is_plain (hc : Name.isPlain c = true) (hwide : c.isAscii = false → P [c]) :
    P [c] := by
  cases hascii : c.isAscii with
  | false => exact hwide hascii
  | true =>
      refine hP [c] (.unreserved c ?_)
      simp only [CodePoint.isUnreserved, Bool.or_eq_true, decide_eq_true_eq]
      rcases (Name.is_plain_iff_of_is_ascii hascii).1 hc with hletter | hdigit | hunderscore | hdot
      · simp [hletter]
      · simp [hdigit]
      · simp [hunderscore]
      · simp [hdot]

/-- A name is made of parts of URIs and of code points above ASCII. -/
theorem made_of_is_name (h : Name.isName t = true)
    (hwide : ∀ c ∈ t, c.isAscii = false → P [c]) : MadeOf P t := by
  obtain ⟨-, ⟨-, hunits⟩ | ⟨-, hbare⟩⟩ := Name.is_name_iff.1 h
  · refine hunits.imp fun unit hsubset hunit => ?_
    obtain ⟨high, low, hhigh, hlow, rfl⟩ | ⟨c, hc, rfl⟩ := hunit.escape_or_is_plain
    · exact hP _ (.escape high low hhigh hlow)
    · exact part_of_is_plain hP hc (hwide c (hsubset (by simp)))
  · refine made_of_forall fun c hc => ?_
    rcases Name.is_bare_iff.1 (hbare c hc) with hplain | hnot
    · exact part_of_is_plain hP hplain (hwide c hc)
    · exact hwide c hc hnot

/-! ## Fragments -/

/-- Delimiters are made of parts. -/
theorem made_of_delimiters (h : ∀ c ∈ t, c.isUnreserved = true ∨ c.isReserved = true) :
    MadeOf P t := by
  refine made_of_forall fun c hc => ?_
  rcases h c hc with hunreserved | hreserved
  · exact hP [c] (.unreserved c hunreserved)
  · exact hP [c] (.reserved c hreserved)

/-- The lead of an operator is made of parts. -/
theorem Operator.made_of_lead (op : Operator) : MadeOf P op.lead :=
  made_of_delimiters hP (by cases op <;> decide)

/-- The separator of an operator is made of parts. -/
theorem Operator.made_of_separator (op : Operator) : MadeOf P op.separator :=
  made_of_delimiters hP (by cases op <;> decide)

/-- The fragment of a value is made of parts if the value is, and the name where it is written. -/
theorem Operator.made_of_format_variable {name value : Text}
    (hname : op.isNamed = true → MadeOf P name) (hvalue : MadeOf P value) :
    MadeOf P (op.formatVariable name value) := by
  have hsuffix : MadeOf P op.emptySuffix := made_of_delimiters hP (by cases op <;> decide)
  have hequals : MadeOf P (Text.ofString "=") := made_of_delimiters hP (by decide)
  unfold formatVariable
  split
  · exact hvalue
  · rename_i hnamed
    have hnamed : op.isNamed = true := by simpa using hnamed
    split
    · exact (hname hnamed).append hsuffix
    · exact ((hname hnamed).append hequals).append hvalue

/-- An expansion is made of parts if its fragments are. -/
theorem Operator.made_of_join (op : Operator) {fragments : List Text}
    (h : ∀ t ∈ fragments, MadeOf P t) : MadeOf P (op.join fragments) := by
  unfold join
  split
  · exact made_of_nil
  · exact (op.made_of_lead hP).append ((op.made_of_separator hP).join h)

namespace VariableSpec

variable {s : VariableSpec} {fragment : Text}
  (hname : op.isNamed = true → MadeOf P s.name)

include hname

/-- What a list is written as is made of parts. -/
theorem made_of_list_fragment? {items : List Text} (h : s.listFragment? op items = some fragment) :
    MadeOf P fragment := by
  have hencoded : ∀ u ∈ items.map (Percent.encode op.keepsReserved), MadeOf P u :=
    List.forall_mem_map.2 fun t _ => made_of_encode hP op.keepsReserved t
  have hcomma : MadeOf P [CodePoint.ofChar ','] := made_of_delimiters hP (by decide)
  unfold listFragment? at h
  split at h
  · exact absurd h (by simp)
  · obtain rfl := Option.some.inj h
    split
    · exact (op.made_of_separator hP).join (List.forall_mem_map.2 fun u hu =>
        op.made_of_format_variable hP hname (hencoded u hu))
    · exact op.made_of_format_variable hP hname (hcomma.join hencoded)

/-- What an array is written as is made of parts. -/
theorem made_of_pairs_fragment? {entries : List (Text × Text)}
    (h : s.pairsFragment? op entries = some fragment) : MadeOf P fragment := by
  have hencode := made_of_encode hP op.keepsReserved
  have hcomma : MadeOf P (Text.ofString ",") := made_of_delimiters hP (by decide)
  have hequals : MadeOf P (Text.ofString "=") := made_of_delimiters hP (by decide)
  unfold pairsFragment? at h
  split at h
  · exact absurd h (by simp)
  · obtain rfl := Option.some.inj h
    split
    · exact (op.made_of_separator hP).join (List.forall_mem_map.2 fun e _ =>
        ((hencode e.1).append hequals).append (hencode e.2))
    · exact op.made_of_format_variable hP hname (hcomma.join (List.forall_mem_map.2 fun e _ =>
        ((hencode e.1).append hcomma).append (hencode e.2)))

/-- Without a prefix modifier the fragment of a variable is made of parts, whatever its value. -/
theorem made_of_fragment? (hs : s.length? = none) {v : VariableValue}
    (h : s.fragment? op v = some fragment) : MadeOf P fragment := by
  cases v with
  | string t =>
      obtain rfl := Option.some.inj h
      simp only [stringFragment, hs]
      exact op.made_of_format_variable hP hname (made_of_encode hP op.keepsReserved t)
  | list items => exact made_of_list_fragment? hP hname h
  | pairs entries => exact made_of_pairs_fragment? hP hname h

end VariableSpec

end

/-! ## Expressions -/

namespace Expression

/-- `e.Writes part` says that `part` is a code point above ASCII which stands in the name of a
variable of `e`, and that the operator of `e` writes names. -/
def Writes (e : Expression) (part : Text) : Prop :=
  e.operator.isNamed = true ∧ ∃ s ∈ e.specs, ∃ c ∈ s.name, c.isAscii = false ∧ part = [c]

/-- What an expression without prefix modifiers expands to is made of parts of URIs, but that a
named operator writes the names of its variables with all their code points above ASCII. -/
theorem expand_parts {limits : Limits} {content : Text} {e : Expression}
    (hparse : Expression.parse limits content = .ok e) (hspecs : ∀ s ∈ e.specs, s.length? = none)
    {bindings : Bindings} {t : Text} (h : e.expand bindings = .ok t) :
    MadeOf (fun part => IsUriPart part ∨ e.Writes part) t := by
  obtain ⟨_, rfl⟩ := expand_eq_ok_iff.1 h
  have hwellFormed := well_formed_of_parse hparse
  have hpart : ∀ part, IsUriPart part → IsUriPart part ∨ e.Writes part := fun _ => .inl
  refine e.operator.made_of_join hpart fun fragment hfragment => ?_
  obtain ⟨s, hs, hbind⟩ := List.mem_filterMap.1 hfragment
  obtain ⟨v, _, hv⟩ := Option.bind_eq_some_iff.1 hbind
  refine VariableSpec.made_of_fragment? hpart (fun hnamed => ?_) (hspecs s hs) hv
  exact made_of_is_name hpart (hwellFormed.specs s hs).isName fun c hc hwide =>
    .inr ⟨hnamed, s, hs, c, hc, hwide, rfl⟩

/-- An escape with small digits in a name is one part of an expansion. -/
theorem expand_parts_escaped_name :
    ∃ e, Expression.parse Limits.standard "?caf%c3%a9*" = .ok e ∧
      e.expand [("caf%c3%a9", .list [.text "a b", .text ""])] =
        .ok "?caf%c3%a9=a%20b&caf%c3%a9=" ∧
      MadeOf (fun part => IsUriPart part ∨ e.Writes part) "?caf%c3%a9=a%20b&caf%c3%a9=" := by
  have hparse : Expression.parse Limits.standard "?caf%c3%a9*" =
      .ok ⟨.query, [⟨"caf%c3%a9", some .explode⟩]⟩ := by decide +kernel
  have hexpand : expand ⟨.query, [⟨"caf%c3%a9", some .explode⟩]⟩
      [("caf%c3%a9", .list [.text "a b", .text ""])] = .ok "?caf%c3%a9=a%20b&caf%c3%a9=" := by
    decide +kernel
  exact ⟨_, hparse, hexpand, expand_parts hparse (by decide) hexpand⟩

/-- A query with a name above ASCII expands to a text that holds the name as it is, and that is not
made of parts of URIs. -/
theorem expand_writes_wide_name :
    ∃ e t, Expression.parse Limits.standard "?é" = .ok e ∧ (∀ s ∈ e.specs, s.length? = none) ∧
      e.expand [("é", .text "1")] = .ok t ∧ ¬MadeOf IsUriPart t := by
  have hparse : Expression.parse Limits.standard "?é" = .ok ⟨.query, [⟨"é", none⟩]⟩ := by
    decide +kernel
  have hexpand : expand ⟨.query, [⟨"é", none⟩]⟩ [("é", .text "1")] = .ok "?é=1" := by
    decide +kernel
  refine ⟨_, _, hparse, by decide, hexpand, fun h => ?_⟩
  exact absurd (is_ascii_of_made_of h 'é' (by decide)) (by decide)

end Expression

end UriTemplate
