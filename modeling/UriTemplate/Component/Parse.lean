import UriTemplate.Component.Expression

/-!
# Reading a template

`Component.parseAll` cuts a text into literal runs and expressions. A brace directly after a
backslash of the same run belongs to the run, and the backslash stays. Every other opening brace
starts an expression, which reaches to the next brace, and every other closing brace is an error.
-/

namespace UriTemplate

/-- `untilBrace t` is the part of `t` before its first brace, and the rest of `t` from there. -/
def untilBrace (t : Text) : Text × Text :=
  (t.takeWhile fun c => !c.isBrace, t.dropWhile fun c => !c.isBrace)

/-- What is left of a text after its first brace is shorter than the text. -/
theorem length_until_brace {t content rest : Text} {c : CodePoint}
    (h : untilBrace t = (content, c :: rest)) : rest.length < t.length := by
  have parts : content ++ c :: rest = t := by
    have whole := List.takeWhile_append_dropWhile (p := fun c : CodePoint => !c.isBrace) (l := t)
    simp only [untilBrace, Prod.mk.injEq] at h
    rwa [h.1, h.2] at whole
  simp only [← parts, List.length_append, List.length_cons]
  omega

namespace Component

/-- `literals run` is the literal component for the run that `run` holds in reverse, if any. -/
def literals (run : Text) : List Component :=
  if run.isEmpty then [] else [literal run.reverse]

/-- `parseFrom limits position run text` is the components of a template from `position` on, where
`text` is what is left of the template and `run` is the literal run before it, in reverse. -/
def parseFrom (limits : Limits) (position : Nat) (run text : Text) :
    Except ParseError (List Component) :=
  match text with
  | [] => .ok (literals run)
  | c :: rest =>
      if c.isBrace && run.head? = some (CodePoint.ofChar '\\') then
        parseFrom limits (position + 1) (c :: run) rest
      else if c = '{' then
        match _h : untilBrace rest with
        | (_, []) => .error (.malformed (.unclosed position))
        | (content, closing :: rest') =>
            if closing = '{' then
              .error (.malformed (.nestedBrace (position + 1 + content.length)))
            else do
              let e ← Expression.parse limits content
              let following ← parseFrom limits (position + content.length + 2) [] rest'
              pure (literals run ++ expression e :: following)
      else if c = '}' then .error (.unexpectedCharacter c position)
      else parseFrom limits (position + 1) (c :: run) rest
termination_by text.length
decreasing_by
  · simp
  · have := length_until_brace _h
    simp only [List.length_cons]
    omega
  · simp

/-- `parseAll limits text` is the components of the template `text`, in order. -/
def parseAll (limits : Limits) (text : Text) : Except ParseError (List Component) :=
  parseFrom limits 0 [] text

end Component

end UriTemplate
