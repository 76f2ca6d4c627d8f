import UriTemplate.Coercion
import UriTemplate.Component
import UriTemplate.Percent

/-!
# Expansion of expressions

`VariableSpec.fragment?` formats one defined variable, and `Expression.expand` joins the fragments
of the variables of an expression. A variable that is unbound or undefined contributes nothing, nor
does an empty list or associative array; an empty string does. `Expression.expand` fails only where
a bound integer has more digits than may be written.
-/

namespace UriTemplate

/-- `firstPart length t` is the first `length` code points of `t`. A negative length counts from
the end. -/
def firstPart (length : Int) (t : Text) : Text :=
  if 0 ≤ length then t.take length.toNat else t.take (t.length - length.natAbs)

namespace VariableSpec

/-- `s.stringFragment op t` is the fragment of a variable that is the string `t`. -/
def stringFragment (s : VariableSpec) (op : Operator) (t : Text) : Text :=
  let encoded := Percent.encode op.keepsReserved t
  op.formatVariable s.name <| match s.length? with
    | some length => firstPart length encoded
    | none => encoded

/-- `s.listFragment? op items` is the fragment of a variable that is a list. -/
def listFragment? (s : VariableSpec) (op : Operator) (items : List Text) : Option Text :=
  if items.isEmpty then none
  else
    let encoded := items.map (Percent.encode op.keepsReserved)
    some <|
      if s.explodes then Text.join op.separator (encoded.map (op.formatVariable s.name))
      else op.formatVariable s.name (Text.join [','] encoded)

/-- `s.pairsFragment? op entries` is the fragment of a variable that is an associative array. -/
def pairsFragment? (s : VariableSpec) (op : Operator) (entries : List (Text × Text)) :
    Option Text :=
  if entries.isEmpty then none
  else
    let encode := Percent.encode op.keepsReserved
    some <|
      if s.explodes then
        Text.join op.separator (entries.map fun (k, v) => op.formatPair (encode k) (encode v))
      else
        op.formatVariable s.name
          (Text.join [','] (entries.map fun (k, v) => encode k ++ Text.ofString "," ++ encode v))

/-- `s.fragment? op v` is the fragment of a variable whose value is `v`, or `none` when the value
contributes nothing. -/
def fragment? (s : VariableSpec) (op : Operator) : VariableValue → Option Text
  | .string t => some (s.stringFragment op t)
  | .list items => s.listFragment? op items
  | .pairs entries => s.pairsFragment? op entries

/-- `s.value? bindings` is what the variable of `s` expands as under the bindings. -/
def value? (s : VariableSpec) (bindings : Bindings) :
    Except Decimal.LimitError (Option VariableValue) :=
  match bindings.get? s.name with
  | some v => v.coerce
  | none => .ok none

end VariableSpec

/-- `fragments op bindings specs` is the fragments of the references, in order. -/
def fragments (op : Operator) (bindings : Bindings) :
    List VariableSpec → Except Decimal.LimitError (List Text)
  | [] => .ok []
  | s :: rest => do
      let value? ← s.value? bindings
      let following ← fragments op bindings rest
      match value?.bind (s.fragment? op) with
      | some fragment => pure (fragment :: following)
      | none => pure following

/-- `e.expand bindings` is the expansion of the expression `e` under the bindings. -/
def Expression.expand (e : Expression) (bindings : Bindings) : Except Decimal.LimitError Text :=
  return e.operator.join (← fragments e.operator bindings e.specs)

/-- `c.expand bindings` is the expansion of the component `c` under the bindings. -/
def Component.expand (c : Component) (bindings : Bindings) : Except Decimal.LimitError Text :=
  match c with
  | literal text => .ok text
  | expression e => e.expand bindings

/-- `Component.expandAll bindings components` is the expansions of the components, one after the
other. -/
def Component.expandAll (bindings : Bindings) (components : List Component) :
    Except Decimal.LimitError Text :=
  return (← components.mapM (·.expand bindings)).flatten

/-- `ignoredShapes bindings specs` is the shapes of the bound values that leave the variables of the
references undefined although they are not null, in order, up to the first reference whose value
cannot be written. -/
def ignoredShapes (bindings : Bindings) : List VariableSpec → List Text
  | [] => []
  | s :: rest =>
      match bindings.get? s.name with
      | none => ignoredShapes bindings rest
      | some .null => ignoredShapes bindings rest
      | some v =>
          match v.coerce with
          | .error _ => []
          | .ok none => v.shapeName :: ignoredShapes bindings rest
          | .ok (some _) => ignoredShapes bindings rest

end UriTemplate
