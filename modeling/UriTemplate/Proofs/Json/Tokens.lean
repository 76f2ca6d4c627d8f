import UriTemplate.Proofs.Json.Source
import UriTemplate.Proofs.Yaml.Reader

/-!
# The tokens of JSON texts

`Json.tokens` is the tokens of a JSON text inside brackets: a key has a key indicator only if it is
not too long. A lexer gets past a JSON text with these tokens (`Json.reaches_source`), so they are
the tokens of a document that is the JSON text of a list or mapping (`Json.of_text_source`).
-/

namespace UriTemplate.Json

open Yaml Lexer

mutual

/-- `j.tokens` is the tokens of the JSON text of `j`. -/
def tokens : Json → List Token
  | null => [.scalar (source null) true]
  | bool b => [.scalar (source (bool b)) true]
  | int n => [.scalar (source (int n)) true]
  | float negative magnitude => [.scalar (source (float negative magnitude)) true]
  | text t => [.scalar t.units false]
  | list items => .flowSequenceStart :: (itemTokens true items ++ [.flowSequenceEnd])
  | mapping entries => .flowMappingStart :: (entryTokens true entries ++ [.flowMappingEnd])

/-- `itemTokens first items` is the tokens of the items of a list. -/
def itemTokens : Bool → List Json → List Token
  | _, [] => []
  | first, item :: rest => separatorTokens first ++ tokens item ++ itemTokens false rest

/-- `entryTokens first entries` is the tokens of the entries of a mapping. -/
def entryTokens : Bool → List (Text × Json) → List Token
  | _, [] => []
  | first, (key, item) :: rest =>
      separatorTokens first ++ keyTokens key ++ [.value] ++ tokens item ++ entryTokens false rest

end

variable {l : Lexer} {rest : Text} {i depth : Nat} {allowed : Bool} {before : List Token}

/-- A plain scalar is one token. -/
theorem tokens_of_is_plain {j : Json} (h : j.isPlain = true) :
    j.tokens = [.scalar j.source true] := by
  cases j with
  | null | bool | int | float => rfl
  | text | list | mapping => exact absurd h (by simp [isPlain])

/-- A separator is read, after which a key may start. -/
theorem reaches_separator (first : Bool)
    (h : l.At i (separator first ++ rest) (depth + 1) allowed before)
    (hfirst : first = true → allowed = true) (hrest : StartsToken rest) :
    l.Reaches rest (depth + 1) true (before ++ separatorTokens first) := by
  cases first with
  | true =>
      obtain rfl := hfirst rfl
      rw [separatorTokens, if_pos rfl, List.append_nil]
      exact h.reaches
  | false => exact h.reaches_comma.trans fun m j hm => hm.reaches_space hrest

/-- The token of a plain scalar is read at the front of a flow. -/
theorem reaches_of_is_plain {j : Json} (hplain : j.isPlain = true)
    (h : l.At i (j.source ++ rest) (depth + 1) allowed before) (hrest : EndsFlow rest) :
    l.Reaches rest (depth + 1) false (before ++ j.tokens) := by
  obtain ⟨hstart, hbare⟩ := starts_bare_source hplain
  rw [tokens_of_is_plain hplain]
  exact h.reaches_plain hstart hbare hrest

/-- A member of a list ends at the next one or at the closing bracket. -/
theorem ends_flow_source_items (items : List Json) (rest : Text) :
    EndsFlow (sourceItems false items ++ CodePoint.ofChar ']' :: rest) := by
  cases items with
  | nil => exact ⟨_, _, rfl, by simp⟩
  | cons => exact ⟨CodePoint.ofChar ',', _, rfl, by simp⟩

/-- An entry of a mapping ends at the next one or at the closing bracket. -/
theorem ends_flow_source_entries (entries : List (Text × Json)) (rest : Text) :
    EndsFlow (sourceEntries false entries ++ CodePoint.ofChar '\x7d' :: rest) := by
  cases entries with
  | nil => exact ⟨_, _, rfl, by simp⟩
  | cons => exact ⟨CodePoint.ofChar ',', _, rfl, by simp⟩

/-- A lexer gets past brackets if it gets past what is in them. -/
theorem reaches_brackets {opening closing : Char} {first last : Token} {t : Text}
    {inside : List Token}
    (h : l.At i (CodePoint.ofChar opening :: (t ++ CodePoint.ofChar closing :: rest)) depth allowed
      before)
    (hfirst : (opening, first) ∈ [('[', Token.flowSequenceStart), ('\x7b', .flowMappingStart)])
    (hlast : (closing, last) ∈ [(']', Token.flowSequenceEnd), ('\x7d', .flowMappingEnd)])
    (hinside : ∀ {m : Lexer} {j : Nat},
      m.At j (t ++ CodePoint.ofChar closing :: rest) (depth + 1) true (before ++ [first]) →
        ∃ allowed, m.Reaches (CodePoint.ofChar closing :: rest) (depth + 1) allowed
          (before ++ [first] ++ inside)) :
    l.Reaches rest depth false (before ++ first :: (inside ++ [last])) := by
  refine (h.reaches_opening hfirst).trans fun m j hm => ?_
  obtain ⟨_, hreaches⟩ := hinside hm
  refine hreaches.trans fun m j hm => ?_
  have hclosed := hm.reaches_closing hlast
  simpa using hclosed

mutual

/-- A lexer inside brackets gets past a JSON text with its tokens. -/
theorem reaches_source (j : Json) {l : Lexer} {i depth : Nat} {allowed : Bool} {rest : Text}
    {before : List Token} (h : l.At i (j.source ++ rest) (depth + 1) allowed before)
    (hrest : EndsFlow rest) : l.Reaches rest (depth + 1) false (before ++ j.tokens) := by
  cases j with
  | null => exact reaches_of_is_plain rfl h hrest
  | bool b => exact reaches_of_is_plain rfl h hrest
  | int n => exact reaches_of_is_plain rfl h hrest
  | float negative magnitude => exact reaches_of_is_plain rfl h hrest
  | text t => exact h.reaches_quoted Text.val_lt_of_mem_units
  | list items =>
      rw [source, List.cons_append, List.append_assoc] at h
      exact reaches_brackets h (.head _) (.head _) fun hm =>
        reaches_source_items true items hm fun _ => rfl
  | mapping entries =>
      rw [source, List.cons_append, List.append_assoc] at h
      exact reaches_brackets h (.tail _ (.head _)) (.tail _ (.head _)) fun hm =>
        reaches_source_entries true entries hm fun _ => rfl
termination_by structural j

/-- A lexer gets past the items of a list. -/
theorem reaches_source_items (first : Bool) (items : List Json) {l : Lexer} {i depth : Nat}
    {allowed : Bool} {rest : Text} {before : List Token}
    (h : l.At i (sourceItems first items ++ CodePoint.ofChar ']' :: rest) (depth + 1) allowed
      before) (hfirst : first = true → allowed = true) :
    ∃ allowed, l.Reaches (CodePoint.ofChar ']' :: rest) (depth + 1) allowed
      (before ++ itemTokens first items) := by
  cases items with
  | nil =>
      rw [itemTokens, List.append_nil]
      exact ⟨allowed, h.reaches⟩
  | cons item items =>
      rw [sourceItems, List.append_assoc, List.append_assoc] at h
      obtain ⟨m, j, hseparator, hm⟩ := reaches_separator first h hfirst (starts_token_source item _)
      obtain ⟨n, k, hitem, hn⟩ := reaches_source item hm (ends_flow_source_items items rest)
      obtain ⟨allowed, final, last, hitems, hfinal⟩ := reaches_source_items false items hn (by simp)
      refine ⟨allowed, final, last, hseparator.trans (hitem.trans hitems), ?_⟩
      simpa [itemTokens] using hfinal
termination_by structural items

/-- A lexer gets past the entries of a mapping. -/
theorem reaches_source_entries (first : Bool) (entries : List (Text × Json)) {l : Lexer}
    {i depth : Nat} {allowed : Bool} {rest : Text} {before : List Token}
    (h : l.At i (sourceEntries first entries ++ CodePoint.ofChar '\x7d' :: rest) (depth + 1) allowed
      before) (hfirst : first = true → allowed = true) :
    ∃ allowed, l.Reaches (CodePoint.ofChar '\x7d' :: rest) (depth + 1) allowed
      (before ++ entryTokens first entries) := by
  cases entries with
  | nil =>
      rw [entryTokens, List.append_nil]
      exact ⟨allowed, h.reaches⟩
  | cons entry entries =>
      obtain ⟨key, item⟩ := entry
      have hcolon : Text.ofString ": " = [CodePoint.ofChar ':', CodePoint.ofChar ' '] := rfl
      simp only [sourceEntries, hcolon, List.append_assoc, List.cons_append, List.nil_append] at h
      obtain ⟨m, j, hseparator, hm⟩ := reaches_separator first h hfirst (starts_token_in_json key _)
      obtain ⟨n, k, hkey, hn⟩ := hm.reaches_key Text.val_lt_of_mem_units
      obtain ⟨o, p, hspace, ho⟩ := hn.reaches_space (starts_token_source item _)
      obtain ⟨q, r, hitem, hq⟩ := reaches_source item ho (ends_flow_source_entries entries rest)
      obtain ⟨allowed, final, last, hentries, hfinal⟩ :=
        reaches_source_entries false entries hq (by simp)
      refine ⟨allowed, final, last, hseparator.trans <| hkey.trans <| hspace.trans <|
        hitem.trans hentries, ?_⟩
      simpa [entryTokens] using hfinal
termination_by structural entries

end

/-! ## A document -/

/-- A scanner starts at the front of the document. -/
theorem at_start (document : Text) : (Lexer.start document).At 0 document 0 true [] :=
  ⟨rfl, rfl, rfl, rfl, by simp [Lexer.start], rfl, rfl, by simp⟩

/-- The tokens of a document that is the JSON text of a mapping. -/
theorem of_text_source (entries : List (Text × Json)) :
    TokenStream.ofText (mapping entries).source =
      ⟨(mapping entries).tokens ++ [.streamEnd], none⟩ := by
  have hstart := at_start (mapping entries).source
  have hreaches : (Lexer.start (mapping entries).source).Reaches [] 0 false
      (mapping entries).tokens := by
    rw [source] at hstart ⊢
    exact reaches_brackets hstart (.tail _ (.head _)) (.tail _ (.head _)) fun hm =>
      reaches_source_entries true entries hm fun _ => rfl
  obtain ⟨m, j, hleads, hm⟩ := hreaches
  obtain ⟨left, hleft, hrun⟩ := hleads ((mapping entries).source.length + 2)
    (Nat.lt_succ_self _)
  have hmark : (mapping entries).source.head?.any CodePoint.isByteOrderMark = false := rfl
  rw [hm.cursor] at hleft
  rw [TokenStream.ofText, hmark]
  exact hrun.trans (hm.run_end (by simpa using hleft))

end UriTemplate.Json
