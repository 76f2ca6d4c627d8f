import UriTemplate.Log.Placeholder

/-!
# Formats of log lines

A format is a text with placeholders for the parts of a record; two percent signs stand for one.
`Format.isValid` asks for one thing that looks like a placeholder of a field, and `Format.line?`
fills in the record. What looks like a placeholder need not be one: a format without a line for
some record, or for any, may be valid.
-/

namespace UriTemplate.Log.Format

/-- The format in use unless another is asked for. -/
def standard : Text := "%(asctime)s - %(name)s - %(levelname)s - %(message)s"

/-! ## Validity -/

/-- `isFieldLetter c` says that `c` may stand in the name of a field. -/
def isFieldLetter (c : CodePoint) : Bool := c.isAlphanumeric || c = '_'

/-- `dropSize t` is `t` without a star, or the digits of any script, at its start. -/
def dropSize : Text → Text
  | [] => []
  | c :: rest =>
      if c = '*' then rest else (c :: rest).dropWhile fun c => c.decimalValue.isSome

/-- `dropPrecision t` is `t` without a point at its start that a size follows, and without that
size. -/
def dropPrecision : Text → Text
  | [] => []
  | c :: rest =>
      if c = '.' && (dropSize rest).length < rest.length then dropSize rest else c :: rest

/-- The letters that may end a placeholder, and the percent sign. -/
def endings : List Char := "diouxefgcrsaDIOUXEFGCRSA%\u0130\u0131\u017f".toList

/-- `looksFilled t` says that `t`, the text after a percent sign and an opening parenthesis, goes on
like a placeholder. -/
def looksFilled (t : Text) : Bool :=
  match t.dropWhile isFieldLetter with
  | [] => false
  | close :: rest =>
      t.head?.any isFieldLetter && close = ')' &&
        (dropPrecision (dropSize (rest.dropWhile isFlag))).head?.any fun c =>
          endings.any fun e => c = CodePoint.ofChar e

/-- `isValid format` says that something in the format looks like a placeholder. -/
def isValid : Text → Bool
  | percent :: opening :: rest =>
      (percent = '%' && opening = '(' && looksFilled rest) || isValid (opening :: rest)
  | _ => false

/-! ## Lines -/

/-- `lineFrom? time record fresh format` is the line that the format makes of the record written at
the given time. The record is `fresh` while no placeholder came before. -/
def lineFrom? (time : Text) (record : Record) (fresh : Bool) (format : Text) : Option Text :=
  match format with
  | [] => some []
  | c :: rest =>
      if c ≠ '%' then (lineFrom? time record fresh rest).map (c :: ·)
      else if rest.head? = some (CodePoint.ofChar '%') then
        (lineFrom? time record fresh (rest.drop 1)).map (c :: ·)
      else
        match _h : Placeholder.read? rest with
        | none => none
        | some (p, following) => do
            let filled ← p.fill? time fresh record
            let others ← lineFrom? time record false following
            pure (filled ++ others)
termination_by format.length
decreasing_by
  · simp
  · simp only [List.length_drop, List.length_cons]
    omega
  · have shorter := Placeholder.length_read _h
    simp only [List.length_cons]
    omega

/-- `line? time record format` is the line that the format makes of the record written at the given
time. -/
def line? (time : Text) (record : Record) (format : Text) : Option Text :=
  lineFrom? time record true format

end UriTemplate.Log.Format
