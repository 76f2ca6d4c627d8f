import UriTemplate.Proofs.Json.Tokens
import UriTemplate.Proofs.Yaml.Standard

/-!
# The nodes of JSON texts

The tokens of a JSON text are read as the node `j.node` if every key in it has a key indicator
(`Json.fits`), and have no layout otherwise (`Json.read_node_tokens`). So the document that is the
JSON text of a mapping is read as a tree of nodes, or not at all (`Json.node?_source`).
-/

namespace UriTemplate.Json

open Yaml Lexer Source

mutual

/-- `j.node` is the node that the JSON text of `j` is read as. -/
def node : Json → Node
  | null => .scalar none (Tag.ofPlain (source null)) (source null)
  | bool b => .scalar none (Tag.ofPlain (source (bool b))) (source (bool b))
  | int n => .scalar none (Tag.ofPlain (source (int n))) (source (int n))
  | float negative magnitude =>
      .scalar none (Tag.ofPlain (source (float negative magnitude)))
        (source (float negative magnitude))
  | text t => .scalar none .str t.units
  | list items => .sequence none .seq (itemNodes items)
  | mapping entries => .mapping none .map (entryNodes entries)

/-- `itemNodes items` is the nodes of the items of a list. -/
def itemNodes : List Json → List Node
  | [] => []
  | item :: rest => node item :: itemNodes rest

/-- `entryNodes entries` is the nodes of the entries of a mapping. -/
def entryNodes : List (Text × Json) → List (Node × Node)
  | [] => []
  | (key, item) :: rest => (.scalar none .str key.units, node item) :: entryNodes rest

end

/-! ## Conditions on all values inside a value -/

mutual

/-- `j.all p` says that `p` holds of `j` and of every value inside it. -/
def all (p : Json → Bool) : Json → Bool
  | list items => p (list items) && allItems p items
  | mapping entries => p (mapping entries) && allEntries p entries
  | j => p j

/-- `allItems p items` says that `p` holds of every value inside the items of a list. -/
def allItems (p : Json → Bool) : List Json → Bool
  | [] => true
  | item :: rest => all p item && allItems p rest

/-- `allEntries p entries` says that `p` holds of every value inside the entries of a mapping. -/
def allEntries (p : Json → Bool) : List (Text × Json) → Bool
  | [] => true
  | (_, item) :: rest => all p item && allEntries p rest

end

/-- A condition on the keys of mappings is one on each of their entries. -/
theorem all_mapping_cons {p : Json → Bool} {q : Text → Bool}
    (hp : ∀ entries, p (mapping entries) = entries.all fun e => q e.1) (key : Text) (item : Json)
    (rest : List (Text × Json)) :
    (mapping ((key, item) :: rest)).all p =
      (q key && (item.all p && (mapping rest).all p)) := by
  simp only [all, allEntries, hp, List.all_cons, Bool.and_assoc, Bool.and_left_comm]

/-- `fitsKey key` says that the text `key` is short enough to be read as a key. -/
def fitsKey (key : Text) : Bool := key.inJson.length ≤ keyLimit

/-- `j.hasShortKeys` says that the keys of `j`, if it is a mapping, are short enough. -/
def hasShortKeys : Json → Bool
  | mapping entries => entries.all fun e => fitsKey e.1
  | _ => true

/-- `j.fits` says that every key in `j` is short enough to be read as one. -/
def fits (j : Json) : Bool := j.all hasShortKeys

/-- A mapping fits if its first entry and the others do. -/
theorem fits_cons (key : Text) (item : Json) (rest : List (Text × Json)) :
    (mapping ((key, item) :: rest)).fits =
      (fitsKey key && (item.fits && (mapping rest).fits)) :=
  all_mapping_cons (fun _ => rfl) key item rest

/-! ## Reading -/

variable {fuel : Nat} {place : Place} {s : Source}

/-- A value starts with a token that no collection ends with. -/
theorem tokens_eq_cons (j : Json) :
    ∃ token tokens, j.tokens = token :: tokens ∧ token.startsFlowNode = true := by
  cases j with
  | null | bool | int | float | text | list | mapping => exact ⟨_, _, rfl, rfl⟩

/-- A plain scalar is read as its node. -/
theorem read_node_of_is_plain {j : Json} (h : j.isPlain = true) (hfuel : 0 < fuel)
    (rest : List Token) :
    readNode fuel place (s.at (j.tokens ++ rest)) = s.gives j.fits j.node rest := by
  obtain ⟨n, rfl⟩ := Nat.exists_eq_succ_of_ne_zero hfuel.ne'
  cases j with
  | null | bool | int | float => exact read_node_scalar _ true
  | text | list | mapping => exact absurd h (by simp [isPlain])

mutual

/-- The tokens of a value are read as its node. -/
theorem read_node_tokens (j : Json) (fuel : Nat) (place : Place) (s : Source) (rest : List Token)
    (hfuel : 4 * j.tokens.length ≤ fuel) :
    readNode fuel place (s.at (j.tokens ++ rest)) = s.gives j.fits j.node rest := by
  obtain ⟨n, rfl⟩ : ∃ n, fuel = n + 1 := by
    obtain ⟨token, tokens, heq, _⟩ := tokens_eq_cons j
    rw [heq, List.length_cons] at hfuel
    exact ⟨fuel - 1, by omega⟩
  cases j with
  | null => exact read_node_of_is_plain rfl (Nat.succ_pos n) rest
  | bool b => exact read_node_of_is_plain rfl (Nat.succ_pos n) rest
  | int m => exact read_node_of_is_plain rfl (Nat.succ_pos n) rest
  | float negative magnitude => exact read_node_of_is_plain rfl (Nat.succ_pos n) rest
  | text t => exact read_node_scalar _ false
  | list items =>
      simp only [tokens, List.length_cons, List.length_append, List.length_nil] at hfuel
      rw [tokens, List.cons_append, List.append_assoc]
      exact read_node_sequence (read_flow_items_tokens true items n s rest (by omega))
  | mapping entries =>
      simp only [tokens, List.length_cons, List.length_append, List.length_nil] at hfuel
      rw [tokens, List.cons_append, List.append_assoc]
      exact read_node_mapping (read_flow_entries_tokens true entries n s rest (by omega))
termination_by structural j

/-- The tokens of the items of a list are read as their nodes. -/
theorem read_flow_items_tokens (first : Bool) (items : List Json) (fuel : Nat) (s : Source)
    (rest : List Token) (hfuel : 4 * (itemTokens first items).length < fuel) :
    readFlowItems fuel first (s.at (itemTokens first items ++ .flowSequenceEnd :: rest)) =
      s.gives (allItems hasShortKeys items) (itemNodes items) rest := by
  obtain ⟨n, rfl⟩ := Nat.exists_eq_succ_of_ne_zero (Nat.ne_zero_of_lt hfuel)
  cases items with
  | nil => exact read_flow_items_end
  | cons item items =>
      obtain ⟨token, tokens, heq, hstart⟩ := tokens_eq_cons item
      have hlength : 0 < item.tokens.length := by simp [heq]
      simp only [itemTokens, List.length_append] at hfuel
      have hitem := read_node_tokens item n .flow s
        (itemTokens false items ++ .flowSequenceEnd :: rest) (by omega)
      have hitems := read_flow_items_tokens false items n s rest (by omega)
      rw [itemTokens, List.append_assoc, List.append_assoc]
      rw [heq, List.cons_append] at hitem ⊢
      exact read_flow_items_item hstart hitem hitems
termination_by structural items

/-- The tokens of the entries of a mapping are read as their nodes. -/
theorem read_flow_entries_tokens (first : Bool) (entries : List (Text × Json)) (fuel : Nat)
    (s : Source) (rest : List Token) (hfuel : 4 * (entryTokens first entries).length < fuel) :
    readFlowEntries fuel first (s.at (entryTokens first entries ++ .flowMappingEnd :: rest)) =
      s.gives (mapping entries).fits (entryNodes entries) rest := by
  cases entries with
  | nil =>
      obtain ⟨n, rfl⟩ := Nat.exists_eq_succ_of_ne_zero (Nat.ne_zero_of_lt hfuel)
      exact read_flow_entries_end
  | cons entry entries =>
      obtain ⟨key, item⟩ := entry
      obtain ⟨token, tokens, heq, hstart⟩ := tokens_eq_cons item
      have hlength : 0 < item.tokens.length := by simp [heq]
      simp only [entryTokens, keyTokens, List.length_append, List.length_cons, List.length_nil]
        at hfuel
      obtain ⟨n, rfl⟩ : ∃ n, fuel = n + 4 := ⟨fuel - 4, by omega⟩
      have hitem := read_node_tokens item n .flow s
        (entryTokens false entries ++ .flowMappingEnd :: rest) (by omega)
      have hentries := read_flow_entries_tokens false entries (n + 3) s rest (by omega)
      simp only [entryTokens, keyTokens, List.append_assoc, List.cons_append, List.nil_append]
      rw [heq, List.cons_append] at hitem ⊢
      cases hkey : fitsKey key with
      | true =>
          rw [if_pos (of_decide_eq_true hkey)]
          rw [fits_cons, hkey, Bool.true_and]
          exact read_flow_entries_entry (read_flow_entry_at hstart hitem) hentries
      | false =>
          -- The value indicator is left where the key was read as an entry.
          rw [if_neg (of_decide_eq_false hkey)]
          rw [fits_cons, hkey, Bool.false_and]
          exact read_flow_entries_unmarked
termination_by structural entries

end

/-! ## A document -/

/-- A document of one mapping ends with it. -/
theorem only_document_tokens (entries : List (Text × Json)) (fuel : Nat) (s : Source)
    (hfuel : 4 * (mapping entries).tokens.length ≤ fuel) :
    onlyDocument fuel (s.at ((mapping entries).tokens ++ [.streamEnd])) =
      s.gives (mapping entries).fits (some (mapping entries).node) [.streamEnd] := by
  have hnode := read_node_tokens (mapping entries) fuel .item s [.streamEnd] hfuel
  have hread : onlyDocument fuel (s.at ((mapping entries).tokens ++ [.streamEnd])) =
      (readNode fuel .item (s.at ((mapping entries).tokens ++ [.streamEnd])) >>= fun (node, t) =>
        (do
          documentEnds
          if ← nextIsOneOf [.streamEnd] then return some node
          documentStart
          throw .reference : Reading (Option Node)) t) := rfl
  rw [hread, ← Bool.and_true (mapping entries).fits]
  exact bind_eq_gives hnode fun _ => rfl

/-- The JSON text of a mapping is read as a tree of nodes if its keys are short enough, and has no
layout otherwise. -/
theorem of_tokens?_source (entries : List (Text × Json)) :
    Node.ofTokens? (TokenStream.ofText (mapping entries).source) =
      if (mapping entries).fits then .ok (some (mapping entries).node) else .error .layout := by
  rw [of_text_source]
  have hread : Node.ofTokens? ⟨(mapping entries).tokens ++ [.streamEnd], none⟩ =
      (onlyDocument (4 * ((mapping entries).tokens ++ [Token.streamEnd]).length + 8)
        ((⟨[], none, standardHandles, []⟩ : Source).at
          ((mapping entries).tokens ++ [.streamEnd]))).map Prod.fst := rfl
  rw [hread, only_document_tokens entries _ _ (by simp; omega), gives]
  split <;> rfl

end UriTemplate.Json
