import UriTemplate.Component
import UriTemplate.Component.Error
import UriTemplate.Limits
import UriTemplate.Name

/-!
# Reading a variable reference

`VariableSpec.parse` reads one entry of an expression: a name, a name and `*`, or a name, a colon
and a length. Blanks around the entry are ignored. The name is checked before the length.
-/

namespace UriTemplate

/-- `parseName t` is `t` if it names a variable. -/
def parseName (t : Text) : Except ParseError Text :=
  if Name.isName t then .ok t else .error (.invalidName t)

/-- `parseLength limits t` is the length that `t` writes in decimal digits. -/
def parseLength (limits : Limits) (t : Text) : Except ParseError Int :=
  if t.isEmpty || !t.all CodePoint.isDigit then .error (.invalidModifier t)
  else
    match Decimal.ofDigits? t with
    | .error e => .error (.digitLimit e)
    | .ok length => if limits.accepts length then .ok length else .error (.invalidModifier t)

/-- `VariableSpec.parse limits entry` is the reference that `entry` writes. -/
def VariableSpec.parse (limits : Limits) (entry : Text) : Except ParseError VariableSpec :=
  let trimmed := entry.trim
  if trimmed.getLast? = some (CodePoint.ofChar '*') then do
    let name ← parseName trimmed.dropLast
    pure ⟨name, some .explode⟩
  else
    match Text.splitLast ':' trimmed with
    | some (before, after) => do
        let name ← parseName before
        let length ← parseLength limits after
        pure ⟨name, some (.first length)⟩
    | none => do
        let name ← parseName trimmed
        pure ⟨name, none⟩

end UriTemplate
