import UriTemplate.Component.Variable

/-!
# Reading the inside of an expression

`Expression.parse` reads the text between the braces of an expression: an optional operator symbol
and entries separated by commas. Faults of the operator and of the list as a whole are reported
before faults of an entry, and of the entries the leftmost faulty one is reported.
-/

namespace UriTemplate

/-- `parseOperator content` is the operator of an expression and what follows its symbol. -/
def parseOperator (content : Text) : Except ParseError (Operator × Text) :=
  match content with
  | [] => .error (.malformed .emptyExpression)
  | c :: rest =>
      if c = '@' then .error (.malformed .invalidOperator)
      else
        match Operator.ofSymbol? c with
        | none => .ok (.simple, content)
        | some op =>
            if op = .reserved && rest.head? = some (CodePoint.ofChar '+') then
              .error (.malformed .repeatedOperator)
            else .ok (op, rest)

/-- `parseVariables limits variableList` is the references that the entries of `variableList`
write. -/
def parseVariables (limits : Limits) (variableList : Text) :
    Except ParseError (List VariableSpec) :=
  let entries := Text.splitOn ',' variableList
  if variableList.trim.isEmpty then .error (.malformed .emptyVariableList)
  else if entries.any fun entry => entry.trim.isEmpty then
    .error (.malformed (.emptyVariableName variableList))
  else entries.mapM (VariableSpec.parse limits)

/-- `Expression.parse limits content` is the expression whose braces enclose `content`. -/
def Expression.parse (limits : Limits) (content : Text) : Except ParseError Expression := do
  let (operator, variableList) ← parseOperator content
  let specs ← parseVariables limits variableList
  pure ⟨operator, specs⟩

end UriTemplate
