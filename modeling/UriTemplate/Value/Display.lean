import UriTemplate.Value
import UriTemplate.Text.Quoted

/-!
# The text of a value

`Value.display` writes a value with brackets and quotes, and `Value.keyText` writes it as the key
of a document, where a text stands for itself. Both fail on an integer of more digits than may be
written.
-/

namespace UriTemplate

namespace Value

/-- `enclosed opening parts closing` is the parts with commas between them inside brackets. -/
def enclosed (opening : String) (parts : List Text) (closing : String) : Text :=
  opening ++ Text.join (Text.ofString ", ") parts ++ closing

/-- `tupleText parts` is the parts in parentheses. A single part is followed by a comma. -/
def tupleText (parts : List Text) : Text :=
  match parts with
  | [part] => "(" ++ part ++ ",)"
  | _ => enclosed "(" parts ")"

mutual

/-- `v.display` is the text of the value `v`. -/
def display : Value → Except Decimal.LimitError Text
  | null => .ok "None"
  | bool b => .ok (if b then "True" else "False")
  | int n => Decimal.ofInt? n
  | float x => .ok x.text
  | text t => .ok t.quoted
  | bytes bs => .ok (Byte.quoted bs)
  | date d => .ok d.constructorText
  | dateTime t => .ok t.constructorText
  | list items => return enclosed "[" (← displayAll items) "]"
  | tuple items => return tupleText (← displayAll items)
  | set members => do
      let parts ← displayAll members
      pure (if parts.isEmpty then "set()" else enclosed "\x7b" parts "\x7d")
  | mapping entries => return enclosed "\x7b" (← displayEntries entries) "\x7d"
  | pairs entries => return "AssociativeArray(pairs=" ++ tupleText (← displayPairs entries) ++ ")"
  | object => .ok "<object object>"

/-- `displayAll items` is the texts of the items of a container. -/
def displayAll : List Value → Except Decimal.LimitError (List Text)
  | [] => .ok []
  | v :: rest => do
      let t ← display v
      let ts ← displayAll rest
      pure (t :: ts)

/-- `displayEntries entries` is the texts of the entries of a mapping. -/
def displayEntries : List (Value × Value) → Except Decimal.LimitError (List Text)
  | [] => .ok []
  | (k, v) :: rest => do
      let key ← display k
      let t ← display v
      let ts ← displayEntries rest
      pure ((key ++ Text.ofString ": " ++ t) :: ts)

/-- `displayPairs entries` is the texts of the pairs of an associative array. -/
def displayPairs : List (Value × Value) → Except Decimal.LimitError (List Text)
  | [] => .ok []
  | (k, v) :: rest => do
      let key ← display k
      let t ← display v
      let ts ← displayPairs rest
      pure (tupleText [key, t] :: ts)

end

/-- `v.keyText` is the text of `v` as the key of a document. -/
def keyText : Value → Except Decimal.LimitError Text
  | bool b => .ok (if b then "true" else "false")
  | text t => .ok t
  | date d => .ok d.isoText
  | dateTime t => .ok (t.isoText ' ')
  | v => v.display

end Value

end UriTemplate
