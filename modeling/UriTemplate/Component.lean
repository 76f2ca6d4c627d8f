import UriTemplate.Operator

/-!
# Template components

A template is a sequence of components, each a literal text or an expression. An `Expression` holds
an operator and the references to its variables; a `VariableSpec` is one such reference, with an
optional modifier.
-/

namespace UriTemplate

/-- How a reference changes the value of its variable: keep the first `length` code points of the
encoded value, or expand every item of a list or pair of an associative array on its own. -/
inductive Modifier where
  | first (length : Int)
  | explode
deriving DecidableEq

/-- A reference to a variable. -/
structure VariableSpec where
  name : Text
  modifier : Option Modifier
deriving DecidableEq

/-- An expression: an operator and references to variables, in order. -/
structure Expression where
  operator : Operator
  specs : List VariableSpec
deriving DecidableEq

/-- A component of a template. -/
inductive Component where
  | literal (text : Text)
  | expression (e : Expression)
deriving DecidableEq

/-- `s.explodes` says that the reference `s` has the modifier that explodes. -/
def VariableSpec.explodes (s : VariableSpec) : Bool := s.modifier = some .explode

/-- `s.length?` is the number of code points to which the reference `s` cuts a string. -/
def VariableSpec.length? (s : VariableSpec) : Option Int :=
  match s.modifier with
  | some (.first length) => some length
  | _ => none

/-- `c.specs` is the references of the component `c`, in order. -/
def Component.specs : Component → List VariableSpec
  | literal _ => []
  | expression e => e.specs

end UriTemplate
