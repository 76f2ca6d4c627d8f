import UriTemplate.Value

/-!
# JSON texts

A `Json` is a value that has a JSON text: null, a truth value, an integer, a finite floating-point
number, a text, or a list or mapping of such values. `Json.source` writes it in ASCII and on one
line, with a space after every comma and colon. In a text each code unit of 16 bits is written by
itself, so that a code point that takes two of them is written as a pair of surrogates.
-/

namespace UriTemplate

/-- A value with a JSON text. The keys of a mapping are texts. -/
inductive Json where
  | null
  | bool (b : Bool)
  | int (n : Int)
  | float (negative : Bool) (magnitude : Magnitude)
  | text (t : Text)
  | list (items : List Json)
  | mapping (entries : List (Text × Json))

namespace CodePoint

/-- `c.units` is the code units of 16 bits of `c`: `c` itself, or two surrogates. -/
def units (c : CodePoint) : Text :=
  if c.val < 0x10000 then [c]
  else
    let n := c.val - 0x10000
    [ofNat (0xD800 + n / 0x400), ofNat (0xDC00 + n % 0x400)]

/-- The code units that are written as a backslash and a character, and the characters. -/
def jsonEscapes : List (Nat × Char) :=
  [(0x22, '"'), (0x5C, '\\'), (0x0A, 'n'), (0x0D, 'r'), (0x09, 't'), (0x0C, 'f'), (0x08, 'b')]

/-- `u.inJson` is how a JSON text writes the code unit `u`: as an escape unless it is a printable
character of ASCII other than a quote or a backslash. -/
def inJson (u : CodePoint) : Text :=
  match jsonEscapes.lookup u.val with
  | some letter => [CodePoint.ofChar '\\', CodePoint.ofChar letter]
  | none =>
      if 0x20 ≤ u.val && u.val ≤ 0x7E then [u]
      else CodePoint.ofChar '\\' :: CodePoint.ofChar 'u' :: Text.hex Text.lowerHex 4 u.val

end CodePoint

/-- `Text.units t` is the code units of `t`. -/
def Text.units (t : Text) : Text := t.flatMap CodePoint.units

/-- `Text.inJson t` is the JSON text of the text `t`. -/
def Text.inJson (t : Text) : Text :=
  CodePoint.ofChar '"' :: t.units.flatMap CodePoint.inJson ++ [CodePoint.ofChar '"']

namespace Json

/-- `separator first` is what stands before a member of a list or mapping. -/
def separator (first : Bool) : Text := if first then [] else ", "

mutual

/-- `j.source` is the JSON text of `j`. -/
def source : Json → Text
  | null => "null"
  | bool b => if b then "true" else "false"
  | int n => Decimal.ofInt n
  | float negative magnitude => (Binary64.finite negative magnitude).text
  | text t => t.inJson
  | list items => CodePoint.ofChar '[' :: (sourceItems true items ++ [CodePoint.ofChar ']'])
  | mapping entries =>
      CodePoint.ofChar '\x7b' :: (sourceEntries true entries ++ [CodePoint.ofChar '\x7d'])

/-- `sourceItems first items` is the items of a list, of which all but the first follow a comma. -/
def sourceItems : Bool → List Json → Text
  | _, [] => []
  | first, item :: rest => separator first ++ source item ++ sourceItems false rest

/-- `sourceEntries first entries` is the entries of a mapping, of which all but the first follow a
comma. -/
def sourceEntries : Bool → List (Text × Json) → Text
  | _, [] => []
  | first, (key, item) :: rest =>
      separator first ++ key.inJson ++ ": " ++ source item ++ sourceEntries false rest

end

mutual

/-- `j.value` is the value with the JSON text. -/
def value : Json → Value
  | null => .null
  | bool b => .bool b
  | int n => .int n
  | float negative magnitude => .float (.finite negative magnitude)
  | text t => .text t
  | list items => .list (values items)
  | mapping entries => .mapping (valueEntries entries)

/-- `values items` is the values of the items. -/
def values : List Json → List Value
  | [] => []
  | item :: rest => value item :: values rest

/-- `valueEntries entries` is the entries with their values. -/
def valueEntries : List (Text × Json) → List (Value × Value)
  | [] => []
  | (key, item) :: rest => (.text key, value item) :: valueEntries rest

end

/-- `bindings entries` is the bindings with the given names and values. -/
def bindings (entries : List (Text × Json)) : Bindings :=
  entries.map fun (name, item) => (name, item.value)

end Json

end UriTemplate
