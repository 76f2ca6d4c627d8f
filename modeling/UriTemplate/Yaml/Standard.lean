import UriTemplate.Yaml.Flatten
import UriTemplate.Yaml.Loader
import UriTemplate.Yaml.Node.Graph
import UriTemplate.Yaml.Node.Reader
import UriTemplate.Yaml.Scalar
import UriTemplate.Yaml.Token.Lexer

/-!
# The standard library of documents

`Library.standard` loads documents step by step. The code points of a text must be allowed, its
tokens make up at most one tree of nodes, and the content of a scalar gives its value by its tag.
-/

namespace UriTemplate.Yaml

/-- The failure that the error `e` is. -/
def Error.failure (e : Error) : Failure := ⟨e.kind, e.message⟩

namespace Standard

/-- `compose text` is the document that the text composes, if it holds one. -/
def compose (text : Text) : Except Error (Option Document) := do
  if text.all CodePoint.isAllowed then
    return (← Node.ofTokens? (TokenStream.ofText text)).map Document.ofNode
  else throw .character

/-- `content g depth n` is the content of the node `n` as a scalar: that of a mapping is the content
of the value at its special key `=`. -/
def content (g : Graph) : Nat → Nat → Except Error Text
  | 0, _ => .error .endless
  | depth + 1, n =>
      match g n with
      | .scalar _ text => .ok text
      | .sequence _ _ => .error .noValue
      | .mapping _ entries =>
          match entries.find? fun (key, _) => (g key).tag = .value with
          | some (_, value) => content g depth value
          | none => .error .noValue

/-- `valueOf tag text` is the value of a scalar with the tag and the content `text`. -/
def valueOf (tag : Tag) (text : Text) : Except Error Value :=
  match tag with
  | .null => .ok .null
  | .bool => (Scalar.bool text).mapError .value
  | .int => (Scalar.int text).mapError .value
  | .float => (Scalar.float text).mapError .value
  | .timestamp => (Scalar.timestamp text).mapError .value
  | .str => .ok (.text text)
  | .binary =>
      match Scalar.binary? text with
      | some v => .ok v
      | none => .error .noValue
  | _ => .error .noValue

/-- `scalar d n` is the value of the node `n` of the document as a scalar. The form of a timestamp
is looked for in the node itself. -/
def scalar (d : Document) (n : Nat) : Except Error Value := do
  let node := d.graph n
  let text ← content d.graph (d.size + 1) n
  match node with
  | .mapping .timestamp _ => throw (.value .timestampEntries)
  | _ => valueOf node.tag text

/-- `sharesNan d n` says that the node `n` is written as `.nan`. -/
def sharesNan (d : Document) (n : Nat) : Bool :=
  match (d.graph n).tag, content d.graph (d.size + 1) n with
  | .float, .ok text =>
      (Decimal.signed (Scalar.dropUnderscores text).lower).2 = Text.ofString ".nan"
  | _, _ => false

/-- The parts of the standard library. Sets keep the order of the document. -/
def methods : Methods where
  compose text := (compose text).mapError Error.failure
  scalar d n := (scalar d n).mapError Error.failure
  flatten d n := (d.graph.flatten (d.size + 1) n).mapError Error.failure
  arrange := id
  sharesNan := sharesNan
  refusal _ _ _ := Error.noValue.failure

end Standard

/-- The standard library of documents. -/
def Library.standard : Library := { Standard.methods with load := Standard.methods.load }

end UriTemplate.Yaml
