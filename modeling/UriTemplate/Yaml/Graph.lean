import UriTemplate.Yaml.Tag

/-!
# Graphs of nodes

A document is a graph: references let a node stand at several places, and also inside itself. Its
nodes are numbered, and a `Cell` gives the nodes inside a node by their numbers. A `Document` is a
graph with a root.
-/

namespace UriTemplate.Yaml

/-- A node of a graph, which gives the nodes inside it by their numbers. -/
inductive Cell where
  | scalar (tag : Tag) (content : Text)
  | sequence (tag : Tag) (items : List Nat)
  | mapping (tag : Tag) (entries : List (Nat × Nat))
deriving DecidableEq

namespace Cell

/-- `c.tag` is the tag of the node `c`. -/
def tag : Cell → Tag
  | scalar tag _ | sequence tag _ | mapping tag _ => tag

/-- `c.entries` is the entries of the node `c`, none if it is no mapping. -/
def entries : Cell → List (Nat × Nat)
  | mapping _ entries => entries
  | _ => []

/-- `c.members` is the nodes inside the node `c`. -/
def members : Cell → List Nat
  | scalar _ _ => []
  | sequence _ items => items
  | mapping _ entries => entries.flatMap fun (key, value) => [key, value]

/-- `c.withTag tag` is the node `c` with another tag. -/
def withTag (tag : Tag) : Cell → Cell
  | scalar _ content => scalar tag content
  | sequence _ items => sequence tag items
  | mapping _ entries => mapping tag entries

end Cell

/-- The nodes of a document by their numbers. -/
structure Graph where
  cell : Nat → Cell

namespace Graph

instance : CoeFun Graph fun _ => Nat → Cell := ⟨cell⟩

/-- `g.set n c` is the graph in which the node `n` is `c`. -/
def set (g : Graph) (n : Nat) (c : Cell) : Graph := ⟨fun i => if i = n then c else g i⟩

/-- `g.setEntries n entries` is the graph in which the mapping `n` has the entries. -/
def setEntries (g : Graph) (n : Nat) (entries : List (Nat × Nat)) : Graph :=
  g.set n (.mapping (g n).tag entries)

end Graph

/-- A graph with a root. The nodes have numbers below `size`, which also counts the places where
they stand. -/
structure Document where
  size : Nat
  root : Nat
  graph : Graph

end UriTemplate.Yaml
