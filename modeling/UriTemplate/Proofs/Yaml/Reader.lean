import UriTemplate.Proofs.Outcome
import UriTemplate.Yaml.Node.Reader

/-!
# Reading flow collections

What each production for a scalar or a flow collection without properties reads from the tokens of
one. A source is left as it was but for its tokens (`Source.gives`), so that the members of a
collection may be read with anything around them. A key without a key indicator is read as an entry
of its own, after which its value indicator has no place (`read_flow_entries_unmarked`).
-/

namespace UriTemplate.Yaml

variable {α β : Type} {s : Source} {fuel : Nat} {place : Place} {first fits more : Bool}
  {tokens middle rest : List Token}

namespace Source

/-- `s.at tokens` is the source `s` with the given tokens left. -/
def «at» (s : Source) (tokens : List Token) : Source := { s with tokens := tokens }

/-- `s.gives fits a rest` is the outcome of reading `a` from `s` up to the tokens `rest`, or a fault
of the layout unless `fits`. -/
def gives (s : Source) (fits : Bool) (a : α) (rest : List Token) : Except Error (α × Source) :=
  if fits then .ok (a, s.at rest) else .error .layout

/-- Parts that are read one after the other are read together, if both fit. -/
theorem bind_eq_gives {x : Except Error (α × Source)} {f : α × Source → Except Error (β × Source)}
    {a : α} {b : β} (h : x = s.gives fits a middle)
    (hf : fits = true → f (a, s.at middle) = s.gives more b rest) :
    (x >>= f) = s.gives (fits && more) b rest := by
  cases fits with
  | false =>
      rw [h]
      rfl
  | true =>
      rw [h, Bool.true_and, ← hf rfl]
      rfl

end Source

open Source

/-! ## Nodes -/

/-- A scalar is read as one, without quotes with the tag of its text. -/
theorem read_node_scalar (content : Text) (plain : Bool) :
    readNode (fuel + 1) place (s.at (.scalar content plain :: rest)) =
      .ok (.scalar none (if plain then Tag.ofPlain content else .str) content, s.at rest) := by
  cases plain <;> rfl

/-- A flow sequence is read as one if its items are. -/
theorem read_node_sequence {items : List Node}
    (h : readFlowItems fuel true (s.at tokens) = s.gives fits items rest) :
    readNode (fuel + 1) place (s.at (.flowSequenceStart :: tokens)) =
      s.gives fits (.sequence none .seq items) rest := by
  have hnode : readNode (fuel + 1) place (s.at (.flowSequenceStart :: tokens)) =
      (readFlowItems fuel true (s.at tokens) >>=
        fun (items, t) => .ok (.sequence none .seq items, t)) := rfl
  rw [hnode, ← Bool.and_true fits]
  exact bind_eq_gives h fun _ => rfl

/-- A flow mapping is read as one if its entries are. -/
theorem read_node_mapping {entries : List (Node × Node)}
    (h : readFlowEntries fuel true (s.at tokens) = s.gives fits entries rest) :
    readNode (fuel + 1) place (s.at (.flowMappingStart :: tokens)) =
      s.gives fits (.mapping none .map entries) rest := by
  have hnode : readNode (fuel + 1) place (s.at (.flowMappingStart :: tokens)) =
      (readFlowEntries fuel true (s.at tokens) >>=
        fun (entries, t) => .ok (.mapping none .map entries, t)) := rfl
  rw [hnode, ← Bool.and_true fits]
  exact bind_eq_gives h fun _ => rfl

/-! ## Members -/

/-- `separatorTokens first` is the token before a member of a flow collection. -/
def separatorTokens (first : Bool) : List Token := if first then [] else [.flowEntry]

/-- `token.startsFlowNode` says that a scalar or a flow collection without properties starts with
the token. -/
def Token.startsFlowNode : Token → Bool
  | .scalar _ _ | .flowSequenceStart | .flowMappingStart => true
  | _ => false

/-- Items end at the closing bracket. -/
theorem read_flow_items_end :
    readFlowItems (fuel + 1) first (s.at (.flowSequenceEnd :: rest)) = s.gives true [] rest := by
  cases first <;> rfl

/-- An item is read, and then the others. -/
theorem read_flow_items_item {token : Token} {item : Node} {items : List Node}
    (hstart : token.startsFlowNode = true)
    (hitem : readNode fuel .flow (s.at (token :: tokens)) = s.gives fits item middle)
    (hitems : readFlowItems fuel false (s.at middle) = s.gives more items rest) :
    readFlowItems (fuel + 1) first (s.at (separatorTokens first ++ token :: tokens)) =
      s.gives (fits && more) (item :: items) rest := by
  have hread : readFlowItems (fuel + 1) first (s.at (separatorTokens first ++ token :: tokens)) =
      (readNode fuel .flow (s.at (token :: tokens)) >>= fun (item, t) =>
        readFlowItems fuel false t >>= fun (items, t) => .ok (item :: items, t)) := by
    cases token with
    | scalar | flowSequenceStart | flowMappingStart => cases first <;> rfl
    | _ => exact absurd hstart (by simp [Token.startsFlowNode])
  rw [hread]
  refine bind_eq_gives hitem fun _ => ?_
  rw [← Bool.and_true more]
  exact bind_eq_gives hitems fun _ => rfl

/-- Entries end at the closing brace. -/
theorem read_flow_entries_end :
    readFlowEntries (fuel + 1) first (s.at (.flowMappingEnd :: rest)) = s.gives true [] rest := by
  cases first <;> rfl

/-- An entry is read as its key and its value. -/
theorem read_flow_entry_at {key : Text} {token : Token} {item : Node}
    (hstart : token.startsFlowNode = true)
    (hitem : readNode fuel .flow (s.at (token :: tokens)) = s.gives fits item rest) :
    readFlowEntry (fuel + 3) .flowMappingEnd
        (s.at (.key :: .scalar key false :: .value :: token :: tokens)) =
      s.gives fits (.scalar none .str key, item) rest := by
  have hread : readFlowEntry (fuel + 3) .flowMappingEnd
        (s.at (.key :: .scalar key false :: .value :: token :: tokens)) =
      (readNode fuel .flow (s.at (token :: tokens)) >>= fun (item, t) =>
        .ok ((.scalar none .str key, item), t)) := by
    cases token with
    | scalar | flowSequenceStart | flowMappingStart => rfl
    | _ => exact absurd hstart (by simp [Token.startsFlowNode])
  rw [hread, ← Bool.and_true fits]
  exact bind_eq_gives hitem fun _ => rfl

/-- An entry is read, and then the others. -/
theorem read_flow_entries_entry {entry : Node × Node} {entries : List (Node × Node)}
    (hentry : readFlowEntry fuel .flowMappingEnd (s.at (.key :: tokens)) =
      s.gives fits entry middle)
    (hentries : readFlowEntries fuel false (s.at middle) = s.gives more entries rest) :
    readFlowEntries (fuel + 1) first (s.at (separatorTokens first ++ .key :: tokens)) =
      s.gives (fits && more) (entry :: entries) rest := by
  have hread : readFlowEntries (fuel + 1) first (s.at (separatorTokens first ++ .key :: tokens)) =
      (readFlowEntry fuel .flowMappingEnd (s.at (.key :: tokens)) >>= fun (entry, t) =>
        readFlowEntries fuel false t >>= fun (entries, t) => .ok (entry :: entries, t)) := by
    cases first <;> rfl
  rw [hread]
  refine bind_eq_gives hentry fun _ => ?_
  rw [← Bool.and_true more]
  exact bind_eq_gives hentries fun _ => rfl

/-- A key without a key indicator is an entry of its own, so that a value indicator cannot follow
it. -/
theorem read_flow_entries_unmarked {key : Text} :
    readFlowEntries (fuel + 2) first
      (s.at (separatorTokens first ++ .scalar key false :: .value :: tokens)) = .error .layout := by
  cases first <;> rfl

end UriTemplate.Yaml
