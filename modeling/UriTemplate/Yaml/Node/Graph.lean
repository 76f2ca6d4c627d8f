import UriTemplate.Yaml.Graph
import UriTemplate.Yaml.Node

/-!
# The graph of a document

`Document.ofNode` numbers the nodes of a tree. A node has a greater number than the nodes inside it,
and a reference stands for the number of the node with its name.
-/

namespace UriTemplate.Yaml

namespace Node

mutual

/-- `n.count` is how many nodes `n` is made of. References are none. -/
def count : Node → Nat
  | scalar .. => 1
  | sequence _ _ items => countItems items + 1
  | mapping _ _ entries => countEntries entries + 1
  | reference _ => 0

/-- `countItems items` is how many nodes the items are made of. -/
def countItems : List Node → Nat
  | [] => 0
  | item :: rest => count item + countItems rest

/-- `countEntries entries` is how many nodes the entries are made of. -/
def countEntries : List (Node × Node) → Nat
  | [] => 0
  | (key, value) :: rest => count key + count value + countEntries rest

end

mutual

/-- `n.places` is how many nodes and references `n` is made of. -/
def places : Node → Nat
  | scalar .. | reference _ => 1
  | sequence _ _ items => placesOfItems items + 1
  | mapping _ _ entries => placesOfEntries entries + 1

/-- `placesOfItems items` is how many nodes and references the items are made of. -/
def placesOfItems : List Node → Nat
  | [] => 0
  | item :: rest => places item + placesOfItems rest

/-- `placesOfEntries entries` is how many nodes and references the entries are made of. -/
def placesOfEntries : List (Node × Node) → Nat
  | [] => 0
  | (key, value) :: rest => places key + places value + placesOfEntries rest

end

/-- `named name? n` is the name with the number `n`, if there is a name. -/
def named (name? : Option Text) (n : Nat) : List (Text × Nat) :=
  (name?.map fun name => (name, n)).toList

mutual

/-- `n.names start` is the names in `n` with their numbers, where the first number is `start`. -/
def names (start : Nat) : Node → List (Text × Nat)
  | scalar name? _ _ => named name? start
  | sequence name? _ items => named name? (start + countItems items) ++ namesOfItems start items
  | mapping name? _ entries =>
      named name? (start + countEntries entries) ++ namesOfEntries start entries
  | reference _ => []

/-- `namesOfItems start items` is the names in the items with their numbers. -/
def namesOfItems (start : Nat) : List Node → List (Text × Nat)
  | [] => []
  | item :: rest => names start item ++ namesOfItems (start + count item) rest

/-- `namesOfEntries start entries` is the names in the entries with their numbers. -/
def namesOfEntries (start : Nat) : List (Node × Node) → List (Text × Nat)
  | [] => []
  | (key, value) :: rest =>
      names start key ++ names (start + count key) value ++
        namesOfEntries (start + count key + count value) rest

end

/-- `n.number table start` is the number of `n`, where the first number in it is `start` and `table`
gives the numbers of names. -/
def number (table : List (Text × Nat)) (start : Nat) : Node → Nat
  | reference name => (table.lookup name).getD 0
  | n => start + n.count - 1

/-- `numbers table start items` is the numbers of the items. -/
def numbers (table : List (Text × Nat)) (start : Nat) : List Node → List Nat
  | [] => []
  | item :: rest => item.number table start :: numbers table (start + item.count) rest

/-- `numberedEntries table start entries` is the numbers of the keys and values of the entries. -/
def numberedEntries (table : List (Text × Nat)) (start : Nat) :
    List (Node × Node) → List (Nat × Nat)
  | [] => []
  | (key, value) :: rest =>
      (key.number table start, value.number table (start + key.count)) ::
        numberedEntries table (start + key.count + value.count) rest

mutual

/-- `n.cells table start` is the nodes that `n` is made of, in the order of their numbers, of which
`start` is the first. -/
def cells (table : List (Text × Nat)) (start : Nat) : Node → List Cell
  | scalar _ tag content => [.scalar tag content]
  | sequence _ tag items =>
      cellsOfItems table start items ++ [.sequence tag (numbers table start items)]
  | mapping _ tag entries =>
      cellsOfEntries table start entries ++ [.mapping tag (numberedEntries table start entries)]
  | reference _ => []

/-- `cellsOfItems table start items` is the nodes that the items are made of. -/
def cellsOfItems (table : List (Text × Nat)) (start : Nat) : List Node → List Cell
  | [] => []
  | item :: rest => cells table start item ++ cellsOfItems table (start + count item) rest

/-- `cellsOfEntries table start entries` is the nodes that the entries are made of. -/
def cellsOfEntries (table : List (Text × Nat)) (start : Nat) : List (Node × Node) → List Cell
  | [] => []
  | (key, value) :: rest =>
      cells table start key ++ cells table (start + count key) value ++
        cellsOfEntries table (start + count key + count value) rest

end

end Node

/-- `Graph.ofCells cells` is the graph with the nodes, in the order of their numbers. -/
def Graph.ofCells (cells : List Cell) : Graph :=
  let nodes := cells.toArray
  ⟨fun i => nodes.getD i (.scalar .null [])⟩

/-- `Document.ofNode n` is the document that is written as the tree `n`. -/
def Document.ofNode (n : Node) : Document :=
  let table := n.names 0
  ⟨n.places, n.number table 0, Graph.ofCells (n.cells table 0)⟩

end UriTemplate.Yaml
