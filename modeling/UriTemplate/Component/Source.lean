import UriTemplate.Component
import UriTemplate.Decimal

/-!
# Writing components

`Component.sourceAll` writes components as the text of a template. A literal stands as it is. An
expression stands in braces: its operator symbol, then its references separated by commas. The
symbol of the simple operator is empty, so a simple expression whose first name starts with a full
stop, the symbol of labels, has a space in front of that name.
-/

namespace UriTemplate

/-- `Modifier.source m` is the text of the modifier `m`. -/
def Modifier.source : Modifier → Text
  | explode => ['*']
  | first length => Text.ofString ":" ++ Decimal.ofInt length

/-- `s.source` is the text of the reference `s`. -/
def VariableSpec.source (s : VariableSpec) : Text :=
  match s.modifier with
  | none => s.name
  | some m => s.name ++ m.source

namespace Expression

/-- `e.looksLikeLabel` says that the references of the simple expression `e` start with the symbol
of labels. -/
def looksLikeLabel (e : Expression) : Bool :=
  e.operator = .simple &&
    (e.specs.head?.bind fun s => s.name.head?) = some (CodePoint.ofChar '.')

/-- `e.content` is the text between the braces of the expression `e`. -/
def content (e : Expression) : Text :=
  let gap : Text := if e.looksLikeLabel then [' '] else []
  e.operator.symbol ++ gap ++ Text.join [','] (e.specs.map VariableSpec.source)

/-- `e.source` is the text of the expression `e`. -/
def source (e : Expression) : Text := CodePoint.ofChar '{' :: e.content ++ [CodePoint.ofChar '}']

end Expression

namespace Component

/-- `source c` is the text of the component `c`. -/
def source : Component → Text
  | literal t => t
  | expression e => e.source

/-- `sourceAll cs` is the text of a template with the components `cs`. -/
def sourceAll (cs : List Component) : Text := cs.flatMap source

end Component

end UriTemplate
