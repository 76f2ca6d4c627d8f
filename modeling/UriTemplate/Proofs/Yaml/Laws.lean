import UriTemplate.Proofs.Yaml.Resolved

/-!
# What libraries of documents do

A `Library` is arbitrary; the structures here name what is known of a particular one. It loads step
by step (`LoadsInSteps`), a scalar node makes a scalar (`MakesScalars`), its value depends on its
tag and its content (`ReadsScalars`), and the nodes of a document are numbered (`NumbersNodes`). Of
merge keys, `FlattensInOrder` says where the entries that they bring in stand, whatever the
document, and `FlattensByMerging` says which these are in a document without recursion, and when
there are any.
-/

namespace UriTemplate

/-- `v.IsScalar` says that the value `v` holds no other values. -/
def Value.IsScalar : Value → Prop
  | null | bool _ | int _ | float _ | text _ | bytes _ | date _ | dateTime _ => True
  | list _ | tuple _ | set _ | mapping _ | pairs _ | object => False

namespace Yaml

namespace Graph

/-- `g.Inside n i` says that the node `i` is directly inside the node `n`. -/
def Inside (g : Graph) (n i : Nat) : Prop := i ∈ (g n).members

/-- `g.Acyclic` says that no node is inside itself. -/
def Acyclic (g : Graph) : Prop := ∀ n, ¬Relation.TransGen g.Inside n n

end Graph

/-- `d.Numbered` says that the root and all nodes inside nodes of the document have numbers below
its size. -/
structure Document.Numbered (d : Document) : Prop where
  root : d.root < d.size
  members : ∀ n < d.size, ∀ i ∈ (d.graph n).members, i < d.size

namespace Library

/-- The library makes each node once, collections in two steps, and mappings by the registered
constructor. -/
structure LoadsInSteps (lib : Library) : Prop where
  load : ∀ c text, lib.load c text = lib.toMethods.load c text

/-- What is made of a scalar node is a scalar, and a set has the members that are put into it. -/
structure MakesScalars (lib : Library) : Prop where
  scalar : ∀ d n v, lib.scalar d n = .ok v → v.IsScalar
  arrange : ∀ vs, ∀ v ∈ lib.arrange vs, v ∈ vs

/-- The nodes of a document that is composed are numbered. -/
structure NumbersNodes (lib : Library) : Prop where
  numbered : ∀ text d, lib.compose text = .ok (some d) → d.Numbered

/-- The value of a scalar node is what its tag makes of its content: `read` gives it, and `isNan`
says which are written as the one that is no number. A sequence is no scalar, and what has the tag
of a special key has no value. -/
structure ReadsScalars (lib : Library) (read : Tag → Text → Option Value)
    (isNan : Tag → Text → Bool) : Prop where
  scalar : ∀ d n tag content, d.graph n = .scalar tag content →
    (lib.scalar d n).toOption = read tag content
  sharesNan : ∀ d n tag content, d.graph n = .scalar tag content →
    lib.sharesNan d n = isNan tag content
  sequence : ∀ d n tag items v, d.graph n = .sequence tag items → lib.scalar d n ≠ .ok v
  special : ∀ d n v, (d.graph n).tag = .merge ∨ (d.graph n).tag = .value → lib.scalar d n ≠ .ok v

/-- Merge keys are resolved in place, where the entries that they bring in come before the mapping's
own and those of a sequence of mappings in reverse, and none is left in the node. -/
structure FlattensInOrder (lib : Library) : Prop where
  resolves : ∀ d n g, lib.flatten d n = .ok g →
    d.graph.Resolves g ∧ g.merging (g n).entries = []

/-- In a document without recursion, merge keys are resolved by merging, whatever has been resolved
before: then the special key is a text where it is a key of the mapping, and it stays one. Merge
keys that can be resolved are. -/
structure FlattensByMerging (lib : Library) : Prop where
  sound : ∀ (d : Document) g n tag entries g', d.Numbered → d.graph.Acyclic → d.graph.Later g →
    d.graph.Rewritten n → g n = .mapping tag entries →
      lib.flatten { d with graph := g } n = .ok g' →
      d.graph.Later g' ∧ d.graph.Merged n (g' n).entries ∧
        (∀ e ∈ (g' n).entries, (g' e.1).tag ≠ .value) ∧
          ∀ i, (g' i).tag = .value → (g i).tag = .value
  complete : ∀ (d : Document) g n es, d.Numbered → d.graph.Acyclic → d.graph.Later g →
    n < d.size → d.graph.Rewritten n → d.graph.Merged n es →
      ∃ g', lib.flatten { d with graph := g } n = .ok g'

end Library

end Yaml

end UriTemplate
