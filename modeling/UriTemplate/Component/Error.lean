import UriTemplate.Decimal

/-!
# Parse errors

A `ParseError` is the first fault found in a template, and `ParseError.message` words it. All but
the last kind are faults of the template; `digitLimit` stands for a prefix length of more digits
than a number may have. `ParseError.shift` moves the positions that an error carries.
-/

namespace UriTemplate

/-- What is wrong with the structure of an expression. Positions count from the start of the
template. -/
inductive Malformation where
  | emptyExpression
  | invalidOperator
  | repeatedOperator
  | emptyVariableList
  | emptyVariableName (variableList : Text)
  | nestedBrace (position : Nat)
  | unclosed (position : Nat)
deriving DecidableEq

/-- `m.detail` is the wording of the malformation `m`. -/
def Malformation.detail : Malformation → Text
  | emptyExpression => "empty expression"
  | invalidOperator => "invalid operator '@'"
  | repeatedOperator => "invalid operator sequence '++'"
  | emptyVariableList => "empty variable list"
  | emptyVariableName variableList => "empty variable name in '" ++ variableList ++ "'"
  | nestedBrace position => "nested '\x7b' at position " ++ Decimal.ofNat position
  | unclosed position => "unclosed expression starting at position " ++ Decimal.ofNat position

/-- The first fault found in a template. -/
inductive ParseError where
  | malformed (cause : Malformation)
  | invalidName (name : Text)
  | invalidModifier (modifier : Text)
  | unexpectedCharacter (character : CodePoint) (position : Nat)
  | digitLimit (cause : Decimal.LimitError)
deriving DecidableEq

namespace ParseError

/-- `e.isTemplateError` says that the error `e` is a fault of the template. -/
def isTemplateError : ParseError → Bool
  | digitLimit _ => false
  | _ => true

/-- `e.detail` is the offending text, or a short description of the problem. -/
def detail : ParseError → Text
  | malformed cause => cause.detail
  | invalidName name => name
  | invalidModifier modifier => modifier
  | unexpectedCharacter character _ => [character]
  | digitLimit cause => cause.message

/-- `e.message` is the wording of the error `e`. -/
def message : ParseError → Text
  | malformed cause => "Malformed expression: " ++ cause.detail
  | invalidName name => "Invalid variable name: '" ++ name ++ "'"
  | invalidModifier modifier => "Invalid prefix modifier: '" ++ modifier ++ "'"
  | unexpectedCharacter character position =>
      "Unexpected character '" ++ [character] ++ "' at position " ++ Decimal.ofNat position
  | digitLimit cause => cause.message

/-- `shift n e` is the error `e` with the positions that it carries moved by `n`. -/
def shift (n : Nat) : ParseError → ParseError
  | malformed (.nestedBrace position) => malformed (.nestedBrace (n + position))
  | malformed (.unclosed position) => malformed (.unclosed (n + position))
  | unexpectedCharacter character position => unexpectedCharacter character (n + position)
  | e => e

end ParseError

end UriTemplate
