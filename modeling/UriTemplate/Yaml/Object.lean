import UriTemplate.Value.Display
import UriTemplate.Yaml.Graph

/-!
# Objects

An `Object` is what is made of a node. A scalar stands for itself; a collection is known by the
number of its node, so that what stands at several places is one object. `Objects.display` writes an
object as it is at the time, and `Objects.value` takes it apart into a `Value`. A `Stage` is a
document on the way, with what has been made of its nodes so far.
-/

namespace UriTemplate.Yaml

/-- What has been made of a node. Collections hold other objects by the numbers of their nodes. -/
inductive Object where
  | scalar (v : Value)
  | list (items : List Nat)
  | pairs (entries : List (Nat × Nat))
  | set (members : List Value)
  | mapping (entries : List (Value × Nat))

namespace Object

/-- `o.members` is the objects inside the object `o`. -/
def members : Object → List Nat
  | scalar _ | set _ => []
  | list items => items
  | pairs entries => entries.flatMap fun (key, value) => [key, value]
  | mapping entries => entries.map (·.2)

end Object

/-- What has been made of each node, if anything has. -/
abbrev Objects := Nat → Option Object

namespace Objects

/-- `objects.set n o` is the objects with `o` made of the node `n`. -/
def set (objects : Objects) (n : Nat) (o : Object) : Objects := fun i =>
  if i = n then some o else objects i

/-- `objects.display depth around n` is the text of the object `n` inside the objects `around`, of
which it may be one. At most `depth` objects are inside each other. -/
def display (objects : Objects) : Nat → List Nat → Nat → Except Decimal.LimitError Text
  | 0, _, _ => .ok []
  | depth + 1, around, n =>
      let inner := display objects depth (n :: around)
      let isInside := around.contains n
      match objects n with
      | none => .ok []
      | some (.scalar v) => v.display
      | some (.set members) => (Value.set members).display
      | some (.list items) =>
          if isInside then .ok "[...]" else return Value.enclosed "[" (← items.mapM inner) "]"
      | some (.pairs entries) =>
          if isInside then .ok "[...]"
          else
            return Value.enclosed "[" (← entries.mapM fun (key, value) =>
              return Value.tupleText [← inner key, ← inner value]) "]"
      | some (.mapping entries) =>
          if isInside then .ok "\x7b...\x7d"
          else
            return Value.enclosed "\x7b" (← entries.mapM fun (key, value) =>
              return (← key.display) ++ Text.ofString ": " ++ (← inner value)) "\x7d"

/-- `objects.value depth around n` is the value of the object `n` inside the objects `around`. At
most `depth` objects are inside each other; one that is inside itself is empty there. -/
def value (objects : Objects) : Nat → List Nat → Nat → Value
  | 0, _, _ => .null
  | depth + 1, around, n =>
      let inner := value objects depth (n :: around)
      let isInside := around.contains n
      match objects n with
      | none => .null
      | some (.scalar v) => v
      | some (.set members) => .set members
      | some (.list items) => .list (if isInside then [] else items.map inner)
      | some (.pairs entries) =>
          .list (if isInside then []
            else entries.map fun (key, value) => .tuple [inner key, inner value])
      | some (.mapping entries) =>
          .mapping (if isInside then [] else entries.map fun (key, value) => (key, inner value))

end Objects

/-- A document on the way, and what has been made of its nodes. -/
structure Stage where
  document : Document
  objects : Objects

namespace Stage

/-- `s.keyText n` is the text of the object `n` as a key. -/
def keyText (s : Stage) (n : Nat) : Except Decimal.LimitError Text :=
  match s.objects n with
  | some (.scalar v) => v.keyText
  | _ => s.objects.display (s.document.size + 1) [] n

/-- `s.value` is the value of the document. -/
def value (s : Stage) : Value := s.objects.value (s.document.size + 1) [] s.document.root

end Stage

end UriTemplate.Yaml
