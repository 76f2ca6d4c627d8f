import UriTemplate.Yaml.Object

/-!
# Loaders

A loader makes objects of the nodes of a document, one of each. A collection is made in two steps:
it is there at once, empty, and is filled when everything around it has been made, unless it is made
as a whole (`deep`). What a mapping node makes is up to a `Constructor`, which is registered with
the loader and calls on its `Services`; the calls are part of what is `Loaded`. A `Library` gives
the parts of a loader (`Methods`) and loads documents with a constructor. `Methods.load` is loading
step by step.
-/

namespace UriTemplate.Yaml

/-- How loading fails: the name of the kind of the error, and its wording. -/
structure Failure where
  kind : Text
  message : Text
deriving DecidableEq

/-- A call of the registered constructor for a node, and what there was before and after it. -/
structure Call where
  node : Nat
  before : Stage
  after : Stage

/-- What is made of a document, and the calls of the registered constructor that made its
mappings. -/
structure Loaded extends Stage where
  calls : List Call

/-- A loader at work, with the collections that are to be filled, in order. -/
structure State extends Loaded where
  pending : List Nat

/-- Work of a loader, which may fail. -/
abbrev Loading := StateT State (Except Failure)

/-- What a loader does for a constructor: it resolves the merge keys of a mapping node in place, and
makes an object of a node, with everything inside if it is `deep`. -/
structure Services where
  flatten : Nat → Loading Unit
  construct : (deep : Bool) → Nat → Loading Unit

/-- How the mapping of a node is made: its entries are found with the services of the loader. A lazy
constructor gives an empty mapping at first. -/
structure Constructor where
  isLazy : Bool
  entries : Services → Nat → Loading (List (Value × Nat))

/-- Why a loader refuses a node: it is inside itself, it is no node of its kind, it is no entry, or
it cannot be a key. -/
inductive Refusal where
  | recursive
  | kind
  | entry
  | unhashable
deriving DecidableEq

/-- The parts of a loader: it composes the graph of a text, makes the value of a scalar, and
resolves the merge keys of a mapping node in place. The members of a set come in an order of its
own. The numbers of some nodes that are no number are one and the same. -/
structure Methods where
  compose : Text → Except Failure (Option Document)
  scalar : Document → Nat → Except Failure Value
  flatten : Document → Nat → Except Failure Graph
  arrange : List Value → List Value
  sharesNan : Document → Nat → Bool
  refusal : Refusal → Document → Nat → Failure

/-- A library that loads documents with a constructor for mappings. A text without a document has
nothing to load. -/
structure Library extends Methods where
  load : Constructor → Text → Except Failure (Option Loaded)

/-- `c.mapping loader n` is the mapping that the constructor `c` makes of the node `n`. The call is
kept. -/
def Constructor.mapping (c : Constructor) (loader : Services) (n : Nat) : Loading Object := do
  let before ← get
  let entries ← c.entries loader n
  modify fun s => { s with calls := s.calls ++ [⟨n, before.toStage, s.toStage⟩] }
  return .mapping entries

/-! ## Objects -/

/-- `Tag.isCollection tag` says that a collection is made of a node with this tag. -/
def Tag.isCollection : Tag → Bool
  | seq | omap | pairs | set | map => true
  | _ => false

/-- `Object.ofTag tag` is the empty collection that is made of a node with this tag. -/
def Object.ofTag : Tag → Object
  | .seq => .list []
  | .omap | .pairs => .pairs []
  | .set => .set []
  | _ => .mapping []

/-- `cell n` is the node `n` as it is. -/
def cell (n : Nat) : Loading Cell := return (← get).document.graph n

/-- `isMade n` says that something has been made of the node `n`. -/
def isMade (n : Nat) : Loading Bool := return ((← get).objects n).isSome

/-- `put n o` makes `o` of the node `n`. -/
def put (n : Nat) (o : Object) : Loading Unit := modify fun s =>
  { s with objects := s.objects.set n o }

/-- `putOff n tag` makes the empty collection of the node `n` with the given tag, which is filled
when all others that wait have been. -/
def putOff (n : Nat) (tag : Tag) : Loading Unit := do
  put n (.ofTag tag)
  modify fun s => { s with pending := s.pending ++ [n] }

/-- `showPairs n pairs` has the collection `n` hold the pairs, if it is there. -/
def showPairs (n : Nat) (pairs : List (Nat × Nat)) : Loading Unit := do
  if ← isMade n then put n (.pairs pairs)

namespace Methods

variable (m : Methods)

/-- `m.refuse reason n` is the refusal of the node `n`. -/
def refuse {α : Type} (reason : Refusal) (n : Nat) : Loading α := do
  throw (m.refusal reason (← get).document n)

/-- `m.flattenAt n` resolves the merge keys of the node `n` in place. -/
def flattenAt (n : Nat) : Loading Unit := do
  let s ← get
  let graph ← m.flatten s.document n
  set { s with document := { s.document with graph := graph } }

/-! ## Mappings whose keys are compared as values -/

/-- `m.hashable n` is the value made of the node `n`, which may be a key. -/
def hashable (n : Nat) : Loading Value := do
  match (← get).objects n with
  | some (.scalar v) => return v
  | _ => m.refuse .unhashable n

/-- `m.sameKey d a b` says that two keys, each with its node, are the same: the same object, or
equal values. -/
def sameKey (d : Document) (a b : Nat × Value) : Bool :=
  a.1 = b.1 || a.2.same b.2 || (m.sharesNan d a.1 && m.sharesNan d b.1)

/-- `m.hashedFrom make found entries` makes the keys and the values of the entries and puts them
into the mapping `found`. -/
def hashedFrom (make : Nat → Loading Unit) (found : List ((Nat × Value) × Nat)) :
    List (Nat × Nat) → Loading (List ((Nat × Value) × Nat))
  | [] => return found
  | (key, value) :: rest => do
      make key
      let v ← m.hashable key
      make value
      let found := Entries.insert (m.sameKey (← get).document) (key, v) value found
      hashedFrom make found rest

/-- `m.hashed loader n` is the entries of the mapping node `n` by the values of their keys. -/
def hashed (loader : Services) (n : Nat) : Loading (List ((Nat × Value) × Nat)) := do
  match ← cell n with
  | .mapping _ _ =>
      loader.flatten n
      m.hashedFrom (loader.construct false) [] (← cell n).entries
  | _ => m.refuse .kind n

/-- `m.plain` is the constructor of the loader itself, which takes keys as they are. -/
def plain : Constructor where
  isLazy := true
  entries loader n := return (← m.hashed loader n).map fun ((_, key), value) => (key, value)

/-! ## Collections -/

/-- `m.pairsFrom make n found items` makes the keys and the values of the items, each a mapping of
one entry, and adds them to the pairs `found` of the node `n`. -/
def pairsFrom (make : Nat → Loading Unit) (n : Nat) (found : List (Nat × Nat)) :
    List Nat → Loading (List (Nat × Nat))
  | [] => return found
  | item :: rest => do
      match ← cell item with
      | .mapping _ [(key, value)] =>
          make key
          make value
          showPairs n (found ++ [(key, value)])
          pairsFrom make n (found ++ [(key, value)]) rest
      | _ => m.refuse .entry item

/-- `m.content c loader n` is what the collection `n` holds. -/
def content (c : Constructor) (loader : Services) (n : Nat) : Loading Object := do
  let node ← cell n
  match node.tag, node with
  | .seq, .sequence _ items =>
      items.forM (loader.construct false)
      return .list items
  | .omap, .sequence _ items | .pairs, .sequence _ items =>
      return .pairs (← m.pairsFrom (loader.construct false) n [] items)
  | .set, .mapping _ _ => return .set (m.arrange ((← m.hashed loader n).map (·.1.2)))
  | .map, _ => c.mapping loader n
  | _, _ => m.refuse .kind n

/-- `m.construct c depth around deep n` makes an object of the node `n`, unless there is one. The
nodes `around` are those of which an object is being made at the moment; at most `depth` more may
be. -/
def construct (c : Constructor) : Nat → List Nat → (deep : Bool) → Nat → Loading Unit
  | 0, _, _, n => m.refuse .recursive n
  | depth + 1, around, deep, n => do
      if ← isMade n then return
      else if around.contains n then m.refuse .recursive n
      else
        let tag := (← cell n).tag
        if !tag.isCollection then put n (.scalar (← m.scalar (← get).document n))
        else if deep || (tag = .map && !c.isLazy) then
          let inside := fun more => construct c depth (n :: around) (deep || more)
          put n (← m.content c ⟨m.flattenAt, inside⟩ n)
        else putOff n tag

/-- `m.fillPending c size rounds` fills the collections that are to be filled, and those that are
then. There may be no more than `rounds` of them. -/
def fillPending (c : Constructor) (size : Nat) : Nat → Loading Unit
  | 0 => do
      match (← get).pending with
      | [] => return
      | n :: _ => m.refuse .recursive n
  | rounds + 1 => do
      match (← get).pending with
      | [] => return
      | n :: rest =>
          modify fun s => { s with pending := rest }
          put n (← m.content c ⟨m.flattenAt, m.construct c size []⟩ n)
          fillPending c size rounds

/-- `m.loadDocument c d` is what is made of the document. -/
def loadDocument (c : Constructor) (d : Document) : Except Failure Loaded := do
  let work : Loading Unit := do
    m.construct c (d.size + 1) [] false d.root
    m.fillPending c (d.size + 1) (d.size + 1)
  let (_, s) ← work.run { document := d, objects := fun _ => none, calls := [], pending := [] }
  return s.toLoaded

/-- `m.load c text` loads the document that the text composes. -/
def load (c : Constructor) (text : Text) : Except Failure (Option Loaded) := do
  match ← m.compose text with
  | none => return none
  | some d => return some (← m.loadDocument c d)

end Methods

end UriTemplate.Yaml
