import UriTemplate.Value

/-!
# Schemas

A `Schema` is a condition on values, and `Schema.accepts` says which values meet it. Conditions on
members or entries bind only values that have some: `Schema.both` adds that a value is of a kind
that has. `Schema.binding` is what a bindings document may bind a variable to: null, a scalar, a
list of scalars, or a mapping of scalars.
-/

namespace UriTemplate

/-- The kinds of values that schemas tell apart. A value may be of none of them. -/
inductive Kind where
  | null
  | string
  | number
  | boolean
  | array
  | object
deriving DecidableEq

/-- `k.includes v` says that the value `v` is of the kind `k`. -/
def Kind.includes : Kind → Value → Bool
  | null, .null => true
  | string, .text _ => true
  | number, .int _ => true
  | number, .float _ => true
  | boolean, .bool _ => true
  | array, .list _ => true
  | object, .mapping _ => true
  | _, _ => false

/-- A condition on values. -/
inductive Schema where
  | kinds (kinds : List Kind)
  | members (condition : Schema)
  | entries (condition : Schema)
  | both (first second : Schema)
  | either (first second : Schema)

namespace Schema

/-- `s.accepts v` says that the value `v` meets the schema `s`: it is of one of the kinds, all its
members or the values of all its entries meet a condition, or it meets both or either of two
conditions. -/
def accepts : Schema → Value → Bool
  | kinds ks, v => ks.any fun k => k.includes v
  | members condition, v =>
      match v with
      | .list items => items.all condition.accepts
      | _ => true
  | entries condition, v =>
      match v with
      | .mapping pairs => pairs.all fun (_, w) => condition.accepts w
      | _ => true
  | both first second, v => first.accepts v && second.accepts v
  | either first second, v => first.accepts v || second.accepts v

/-- The scalars: texts, numbers and truth values. -/
def scalar : Schema := kinds [.string, .number, .boolean]

/-- What a variable may be bound to: null, a scalar, a list of scalars, or a mapping of scalars. -/
def binding : Schema :=
  either (kinds [.null]) <| either scalar <|
    either (both (kinds [.array]) (members scalar)) (both (kinds [.object]) (entries scalar))

end Schema

end UriTemplate
