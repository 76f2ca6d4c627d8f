import UriTemplate.Text

/-!
# Tags

A `Tag` names the type of a node. `Tag.ofText` gives the tag with a given full text, and
`Tag.ofPlain` the tag that the form of a plain scalar implies: booleans, numbers, nulls, timestamps
and the two special keys have forms of their own, and every other scalar is a text.
-/

namespace UriTemplate.Yaml

/-- The type of a node. `merge` and `value` are the types of the special keys `<<` and `=`. -/
inductive Tag where
  | null
  | bool
  | int
  | float
  | binary
  | timestamp
  | omap
  | pairs
  | set
  | str
  | seq
  | map
  | merge
  | value
  | other (text : Text)
deriving DecidableEq

namespace Tag

/-- The tags of the standard types and their names. -/
def names : List (String × Tag) :=
  [("null", null), ("bool", bool), ("int", int), ("float", float), ("binary", binary),
   ("timestamp", timestamp), ("omap", omap), ("pairs", pairs), ("set", set), ("str", str),
   ("seq", seq), ("map", map), ("merge", merge), ("value", value)]

/-- The text before the names of the standard types. -/
def standardLead : Text := Text.ofString "tag:yaml.org,2002:"

/-- `ofText t` is the tag with the full text `t`. -/
def ofText (t : Text) : Tag :=
  match names.find? fun (name, _) => standardLead ++ Text.ofString name = t with
  | some (_, tag) => tag
  | none => other t

/-! ## The forms of plain scalars -/

/-- `isWord words t` says that `t` is one of the words. -/
def isWord (words : List String) (t : Text) : Bool := words.any fun w => Text.ofString w = t

/-- `isBool t` says that `t` has the form of a boolean. -/
def isBool (t : Text) : Bool :=
  isWord ["yes", "Yes", "YES", "no", "No", "NO", "true", "True", "TRUE", "false", "False",
    "FALSE", "on", "On", "ON", "off", "Off", "OFF"] t

/-- `isNull t` says that `t` has the form of a null. -/
def isNull (t : Text) : Bool := isWord ["", "~", "null", "Null", "NULL"] t

/-- `dropSign t` is `t` without a sign at its start. -/
def dropSign : Text → Text
  | [] => []
  | c :: rest => if c = '+' || c = '-' then rest else c :: rest

/-- `isFilled p t` says that `t` is not empty and that `p` or being an underscore holds of its code
points. -/
def isFilled (p : CodePoint → Bool) (t : Text) : Bool :=
  !t.isEmpty && t.all fun c => p c || c = '_'

/-- `isNumeral first t` says that `t` starts with a digit that satisfies `first` and goes on with
digits and underscores. -/
def isNumeral (first : CodePoint → Bool) : Text → Bool
  | [] => false
  | c :: rest => c.isDigit && first c && rest.all fun c => c.isDigit || c = '_'

/-- `isSixtieth t` says that `t` is one digit, or two of which the first is less than six. -/
def isSixtieth (t : Text) : Bool :=
  match t with
  | [c] => c.isDigit
  | [tens, c] => tens.within '0' '5' && c.isDigit
  | _ => false

/-- `isSexagesimal first t` says that `t` is a numeral followed by one or more sixtieths, with
colons between them. -/
def isSexagesimal (first : CodePoint → Bool) (t : Text) : Bool :=
  match Text.splitOn ':' t with
  | head :: next :: more => isNumeral first head && (next :: more).all isSixtieth
  | _ => false

/-- `hasRadix letter p t` says that `t` is a zero, the letter, and one or more digits that satisfy
`p` or underscores. -/
def hasRadix (letter : Char) (p : CodePoint → Bool) : Text → Bool
  | c :: mark :: rest => c = '0' && mark = letter && isFilled p rest
  | _ => false

/-- `isOctal t` says that `t` is a zero followed by octal digits or underscores. -/
def isOctal : Text → Bool
  | c :: rest => c = '0' && isFilled (·.within '0' '7') rest
  | [] => false

/-- `isNonZero c` says that the digit `c` is not zero. -/
def isNonZero (c : CodePoint) : Bool := c ≠ '0'

/-- `isInt t` says that `t` has the form of an integer. -/
def isInt (t : Text) : Bool :=
  let digits := dropSign t
  hasRadix 'b' (·.within '0' '1') digits || isOctal digits || isWord ["0"] digits ||
    isNumeral isNonZero digits || hasRadix 'x' CodePoint.isHexDigit digits ||
    isSexagesimal isNonZero digits

/-- `isExponent t` says that `t` is empty, or the letter `e` in either case, a sign and digits. -/
def isExponent : Text → Bool
  | [] => true
  | e :: sign :: digits =>
      (e = 'e' || e = 'E') && (sign = '+' || sign = '-') && !digits.isEmpty &&
        digits.all CodePoint.isDigit
  | _ => false

/-- `dropDigits t` is `t` without digits and underscores at its start. -/
def dropDigits (t : Text) : Text := t.dropWhile fun c : CodePoint => c.isDigit || c = '_'

/-- `isPointed t` says that `t` is a numeral, a point, digits, and an exponent if there is one. -/
def isPointed (t : Text) : Bool :=
  match Text.splitFirst '.' t with
  | some (whole, rest) => isNumeral (fun _ => true) whole && isExponent (dropDigits rest)
  | none => false

/-- `isFraction t` says that `t` is a point, a numeral, and an exponent if there is one. -/
def isFraction (t : Text) : Bool :=
  match t with
  | point :: first :: rest => point = '.' && first.isDigit && isExponent (dropDigits rest)
  | _ => false

/-- `isPointedSexagesimal t` says that `t` is a numeral, sixtieths, a point and digits. -/
def isPointedSexagesimal (t : Text) : Bool :=
  match Text.splitFirst '.' t with
  | some (whole, rest) => isSexagesimal (fun _ => true) whole && (dropDigits rest).isEmpty
  | none => false

/-- `isFloat t` says that `t` has the form of a floating-point number. -/
def isFloat (t : Text) : Bool :=
  isPointed (dropSign t) || isFraction t || isPointedSexagesimal (dropSign t) ||
    isWord [".inf", ".Inf", ".INF"] (dropSign t) || isWord [".nan", ".NaN", ".NAN"] t

end Tag

end UriTemplate.Yaml
