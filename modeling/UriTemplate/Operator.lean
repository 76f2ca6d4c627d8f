import UriTemplate.Text

/-!
# Expression operators

An `Operator` is selected by the first code point inside the braces of an expression. It fixes what
an expansion starts with (`Operator.lead`), what separates its fragments (`Operator.separator`),
whether reserved code points stay as they are (`Operator.keepsReserved`), and whether values come
with their variable's name (`Operator.isNamed`), also when they are empty (`Operator.emptySuffix`).
-/

namespace UriTemplate

/-- The operators of an expression. -/
inductive Operator where
  | simple
  | reserved
  | fragment
  | label
  | path
  | pathStyle
  | query
  | queryContinuation
deriving DecidableEq

namespace Operator

/-- `all` lists the operators in the order of their numbers. -/
def all : List Operator :=
  [simple, reserved, fragment, label, path, pathStyle, query, queryContinuation]

/-- `op.number` is the number of the operator `op`, from one. -/
def number : Operator → Nat
  | simple => 1
  | reserved => 2
  | fragment => 3
  | label => 4
  | path => 5
  | pathStyle => 6
  | query => 7
  | queryContinuation => 8

/-- `op.symbol` is the text that selects `op`. It is empty for the simple operator. -/
def symbol : Operator → Text
  | simple => []
  | reserved => ['+']
  | fragment => ['#']
  | label => ['.']
  | path => ['/']
  | pathStyle => [';']
  | query => ['?']
  | queryContinuation => ['&']

/-- `ofSymbol? c` is the operator that `c` selects, or `none` when `c` selects none and the
expression is a simple one. -/
def ofSymbol? (c : CodePoint) : Option Operator := all.find? fun op => op.symbol = [c]

/-- `op.lead` is the text before the fragments of a non-empty expansion. -/
def lead : Operator → Text
  | simple | reserved => []
  | op => op.symbol

/-- `op.separator` is the text between two fragments of an expansion. -/
def separator : Operator → Text
  | simple | reserved | fragment => [',']
  | label => ['.']
  | path => ['/']
  | pathStyle => [';']
  | query | queryContinuation => ['&']

/-- `op.keepsReserved` says that reserved code points of a value are not escaped. -/
def keepsReserved : Operator → Bool
  | reserved | fragment => true
  | _ => false

/-- `op.isNamed` says that a value is written after the name of its variable. -/
def isNamed : Operator → Bool
  | pathStyle | query | queryContinuation => true
  | _ => false

/-- `op.emptySuffix` is what follows the name of a variable whose value is empty. -/
def emptySuffix : Operator → Text
  | query | queryContinuation => ['=']
  | _ => []

/-- `op.formatVariable name value` is the fragment for one encoded value of a variable. -/
def formatVariable (op : Operator) (name value : Text) : Text :=
  if !op.isNamed then value
  else if value.isEmpty then name ++ op.emptySuffix
  else name ++ Text.ofString "=" ++ value

/-- `op.formatPair key value` is the fragment for one encoded pair of an exploded associative
array. It does not depend on the operator. -/
def formatPair (_op : Operator) (key value : Text) : Text := key ++ Text.ofString "=" ++ value

/-- `op.join fragments` is the expansion that consists of the given fragments, empty if there are
none. -/
def join (op : Operator) (fragments : List Text) : Text :=
  if fragments.isEmpty then [] else op.lead ++ Text.join op.separator fragments

end Operator

end UriTemplate
