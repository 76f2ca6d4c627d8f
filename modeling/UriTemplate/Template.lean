import UriTemplate.Component.Parse
import UriTemplate.Expansion

/-!
# Templates

A `Template` is a text together with the components that it was parsed into. `Template.parse` reads
one, `Template.expand` expands it, and `Template.names` lists the names it refers to. Two
templates are `Template.same` if their texts are equal, whatever limits were in force when each was
parsed, and `Template.hash` is that of the text.

A caller gives a `Call`: a mapping of its own, which is kept among `Mappings`, and keywords, which
win. `Template.expandCall` puts the keywords into a copy of the mapping and expands with that.
-/

namespace UriTemplate

/-- A parsed template: its text and its components. -/
structure Template where
  text : Text
  components : List Component
deriving DecidableEq

namespace Template

/-- `parse limits text` is the template with the given text. -/
def parse (limits : Limits) (text : Text) : Except ParseError Template :=
  return ⟨text, ← Component.parseAll limits text⟩

/-- `t.specs` is the references of the template to variables, in order. -/
def specs (t : Template) : List VariableSpec := t.components.flatMap Component.specs

/-- `t.names` is the names that the template refers to, in order and with repetitions. -/
def names (t : Template) : List Text := t.specs.map (·.name)

/-- `t.expand bindings` is the expansion of the template. Literal texts stay as they are. -/
def expand (t : Template) (bindings : Bindings) : Except Decimal.LimitError Text :=
  Component.expandAll bindings t.components

/-- `same t u` says that the templates have the same text. -/
def same (t u : Template) : Bool := t.text = u.text

/-- `t.hash hashText` is the hash of the template, where `hashText` gives those of texts. -/
def hash (hashText : Text → Nat) (t : Template) : Nat := hashText t.text

/-- `t.display` is the text of the template in quotes, with a mark of what it is. -/
def display (t : Template) : Text := "Template(" ++ t.text.quoted ++ ")"

/-- `isValid limits text` says whether the text is that of a template. It fails where a prefix
length has more digits than may be read. -/
def isValid (limits : Limits) (text : Text) : Except Decimal.LimitError Bool :=
  match parse limits text with
  | .ok _ => .ok true
  | .error (.digitLimit e) => .error e
  | .error _ => .ok false

end Template

/-! ## Calls -/

/-- What a template is expanded with: a mapping and keywords, neither of which binds a name
twice. -/
structure Call where
  mapping : Bindings
  keywords : Bindings
  mapping_distinct : mapping.Distinct
  keywords_distinct : keywords.Distinct

/-- `mapping.merged keywords` is the mapping with the keywords, which win. Without keywords it is
the mapping itself. -/
def Bindings.merged (mapping keywords : Bindings) : Bindings :=
  if keywords.isEmpty then mapping else mapping.update keywords

/-- `call.bindings` is the bindings in force: those of the mapping, in which the keywords win. -/
def Call.bindings (call : Call) : Bindings := call.mapping.merged call.keywords

/-- The mappings that are kept, each at its place. They may be changed where they are. -/
abbrev Mappings := List Bindings

namespace Mappings

/-- `ms.get place?` is the mapping at the place. Where there is none, nothing is bound. -/
def get (ms : Mappings) (place? : Option Nat) : Bindings := (place?.bind (ms[·]?)).getD []

/-- `copy place?` keeps a copy of the mapping at the place, and gives the place of the copy. -/
def copy (place? : Option Nat) : StateM Mappings Nat := do
  let ms ← MonadState.get
  set (ms ++ [ms.get place?] : Mappings)
  return ms.length

/-- `update place more` puts the bindings of `more` into the mapping at the place. -/
def update (place : Nat) (more : Bindings) : StateM Mappings Unit :=
  modify fun ms => ms.modify place (·.update more)

/-- `dropLast` gives up the mapping at the last place. -/
def dropLast : StateM Mappings Unit := modify fun ms => List.dropLast ms

end Mappings

/-- `t.expandCall place? keywords` is the expansion of the template with the mapping at the place
and the keywords. Only a copy of the mapping takes up keywords, and it is given up afterwards. -/
def Template.expandCall (t : Template) (place? : Option Nat) (keywords : Bindings) :
    StateM Mappings (Except Decimal.LimitError Text) := do
  if keywords.isEmpty then return t.expand ((← get).get place?)
  let copy ← Mappings.copy place?
  Mappings.update copy keywords
  let result := t.expand ((← get).get (some copy))
  Mappings.dropLast
  return result

/-- Why a text does not expand: it is no template, or a bound integer cannot be written. -/
inductive ExpandError where
  | parse (e : ParseError)
  | digitLimit (e : Decimal.LimitError)
deriving DecidableEq

/-- `expandText limits text bindings` parses the text as a template and expands it. -/
def expandText (limits : Limits) (text : Text) (bindings : Bindings) : Except ExpandError Text :=
  match Template.parse limits text with
  | .error e => .error (.parse e)
  | .ok template => (template.expand bindings).mapError .digitLimit

end UriTemplate
