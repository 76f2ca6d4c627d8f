import UriTemplate.Yaml.Error
import UriTemplate.Yaml.Graph

/-!
# Merge keys

`Graph.flatten` resolves the merge keys of a mapping in place: they are replaced by the entries of
the mappings at them, which stand before the mapping's own, so that a key of the mapping itself
wins. Of a sequence of mappings the later come first. The mappings that are merged are resolved as
well, and the special key `=` becomes a text where it is met as a key.
-/

namespace UriTemplate.Yaml

/-- `tag.asKey` is the tag that a key with the given tag counts as having: the special key `=` is a
text. -/
def Tag.asKey (tag : Tag) : Tag := if tag = .value then .str else tag

namespace Cell

/-- `c.asKey` is the node `c` where it counts as a key. -/
def asKey (c : Cell) : Cell := c.withTag c.tag.asKey

/-- `c.kindName` is the name of the kind of the node `c`. -/
def kindName : Cell → Text
  | scalar _ _ => "ScalarNode"
  | sequence _ _ => "SequenceNode"
  | mapping _ _ => "MappingNode"

end Cell

namespace Graph

/-- `g.sources? value` is the nodes whose entries the value of a merge key brings in. -/
def sources? (g : Graph) (value : Nat) : Option (List Nat) :=
  match g value with
  | .mapping _ _ => some [value]
  | .sequence _ items => some items
  | .scalar _ _ => none

/-- `g.setKey key` is the graph in which the node `key` counts as a key. -/
def setKey (g : Graph) (key : Nat) : Graph :=
  if (g key).tag = .value then g.set key (g key).asKey else g

/-- `bringEach flatten g nodes` is the graph in which each of the nodes has been flattened, and the
entries that they have then, those of the last first. -/
def bringEach (flatten : Graph → Nat → Except Error Graph) (g : Graph) :
    List Nat → Except Error (Graph × List (Nat × Nat))
  | [] => .ok (g, [])
  | node :: rest =>
      match g node with
      | .mapping _ _ => do
          let next ← flatten g node
          let (last, later) ← bringEach flatten next rest
          pure (last, later ++ (next node).entries)
      | _ => .error .noValue

/-- `mergeKeys flatten n kept merged g rest` resolves the merge keys among the entries `rest` of the
mapping `n`, which come after `kept`. Those before them have brought in `merged`. If the mapping is
merged into itself, nothing is left to be resolved after that. -/
def mergeKeys (flatten : Graph → Nat → Except Error Graph) (n : Nat)
    (kept merged : List (Nat × Nat))
    (g : Graph) : List (Nat × Nat) → Except Error Graph
  | [] => .ok (g.setEntries n (merged ++ kept))
  | (key, value) :: rest =>
      if (g key).tag = .merge then
        let shortened := g.setEntries n (kept ++ rest)
        match shortened.sources? value with
        | none => .error .noValue
        | some nodes => do
            let (next, brought) ← bringEach flatten shortened nodes
            if (next n).entries = kept ++ rest then
              mergeKeys flatten n kept (merged ++ brought) next rest
            else pure (next.setEntries n (merged ++ brought ++ (next n).entries))
      else mergeKeys flatten n (kept ++ [(key, value)]) merged (g.setKey key) rest

/-- `flatten depth g n` is the graph in which the merge keys of the node `n` are resolved. Only a
mapping or a node without content can be flattened. At most `depth` nodes are merged into each
other. -/
def flatten : Nat → Graph → Nat → Except Error Graph
  | 0, _, _ => .error .endless
  | depth + 1, g, n =>
      match g n with
      | .mapping _ entries => mergeKeys (flatten depth) n [] [] g entries
      | .sequence _ [] | .scalar _ [] => .ok g
      | .sequence _ (item :: _) => .error (.value (.nodeEntry (g item).kindName))
      | .scalar _ _ => .error (.value .textEntry)

end Graph

end UriTemplate.Yaml
