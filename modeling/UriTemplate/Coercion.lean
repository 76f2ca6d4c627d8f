import UriTemplate.Value

/-!
# Values that expand

A variable expands as a string, a list of strings or an associative array of strings: a
`VariableValue`. `Value.coerce` gives the one that a value stands for, `none` for a value of any
other shape, which leaves its variable undefined. It fails only where an integer has more digits
than may be written, and what it meets first decides: a list or mapping is given up at the first
member that is no scalar.
-/

namespace UriTemplate

/-- What a variable expands as. -/
inductive VariableValue where
  | string (t : Text)
  | list (items : List Text)
  | pairs (entries : List (Text × Text))
deriving DecidableEq

namespace Value

/-- `v.scalar?` is the text of the scalar `v`, or `none` when `v` is no scalar. -/
def scalar? : Value → Except Decimal.LimitError (Option Text)
  | bool b => .ok (some (if b then "true" else "false"))
  | text t => .ok (some t)
  | int n => (Decimal.ofInt? n).map some
  | float x => .ok (some x.text)
  | _ => .ok none

/-- `scalars? items` is the texts of the items, or `none` when one of them is no scalar. -/
def scalars? : List Value → Except Decimal.LimitError (Option (List Text))
  | [] => .ok (some [])
  | v :: rest => do
      let some t ← v.scalar? | pure none
      let ts ← scalars? rest
      pure (ts.map (t :: ·))

/-- `scalarPairs? entries` is the texts of the keys and values, or `none` when one of them is no
scalar. -/
def scalarPairs? : List (Value × Value) → Except Decimal.LimitError (Option (List (Text × Text)))
  | [] => .ok (some [])
  | (k, v) :: rest => do
      let key? ← k.scalar?
      let value? ← v.scalar?
      match key?, value? with
      | some key, some value =>
          let ts ← scalarPairs? rest
          pure (ts.map ((key, value) :: ·))
      | _, _ => pure none

/-- `v.coerce` is what a variable bound to `v` expands as, or `none` when it is undefined. -/
def coerce : Value → Except Decimal.LimitError (Option VariableValue)
  | list items | tuple items => return (← scalars? items).map .list
  | mapping entries | pairs entries => return (← scalarPairs? entries).map .pairs
  | v => return (← v.scalar?).map .string

end Value

namespace VariableValue

/-- `v.value` is the variable's value as a value that may be bound again. -/
def value : VariableValue → Value
  | string t => .text t
  | list items => .list (items.map .text)
  | pairs entries => .pairs (entries.map fun (k, v) => (.text k, .text v))

end VariableValue

end UriTemplate
