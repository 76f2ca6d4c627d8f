import UriTemplate.Yaml.Cursor

/-!
# Plain scalars

`Cursor.plainScalar` reads a scalar without quotes. It ends at a blank followed by a comment, at a
colon that ends a key, at an indicator of the surrounding brackets, or at a line that is not
indented far enough. Line breaks inside it are folded as in quoted scalars.
-/

namespace UriTemplate.Yaml

/-- `startsPlain inFlow c` says that a plain scalar may start here. -/
def startsPlain (inFlow : Bool) (c : Cursor) : Bool :=
  match c.peek with
  | none => false
  | some p =>
      !(p.isBreak || p.isOneOf " \t-?:,[]\x7b\x7d#&*!|>'\"%@`") ||
        (!endsWord (c.peekAt 1) && (p = '-' || (!inFlow && (p = '?' || p = ':'))))

/-- `plainRun inFlow t` is the part of `t` that belongs to a plain scalar without blanks. -/
def plainRun (inFlow : Bool) : Text → Text
  | [] => []
  | p :: rest =>
      let next := rest.head?
      let endsKey := p = ':' &&
        (endsWord next || (inFlow && next.any (·.isOneOf ",[]\x7b\x7d")))
      if endsWord (some p) || endsKey || (inFlow && p.isOneOf ",?[]\x7b\x7d") then []
      else p :: plainRun inFlow rest

/-- What stands between two runs of a plain scalar: the folded blanks, unless the mark of a
document's start or end comes next, and whether a line break was among them. -/
structure PlainBlanks where
  content : Option Text
  broken : Bool
  after : Cursor

namespace Cursor

/-- `c.plainBreaks fuel` is the line breaks from here on with the spaces around them dropped, or
`none` for them when the mark of a document's start or end comes next. -/
def plainBreaks : Nat → Cursor → Option Text × Cursor
  | 0, c => (none, c)
  | fuel + 1, c =>
      if c.atMarker then (none, c)
      else
        let afterSpaces := c.skipSpaces
        match afterSpaces.lineBreak? with
        | none => (some [], afterSpaces)
        | some (kept, after) =>
            let (more, final) := after.plainBreaks fuel
            (more.map (kept ++ ·), final)

/-- `c.plainBlanks` is what stands between the run of a plain scalar that ends here and the
next. -/
def plainBlanks (c : Cursor) : PlainBlanks :=
  let (spaces, after) := c.span fun p => p = ' '
  match after.lineBreak? with
  | none => ⟨some spaces, false, after⟩
  | some (kept, afterBreak) =>
      let (breaks?, final) := afterBreak.plainBreaks (afterBreak.rest.length + 1)
      let content := breaks?.map fun breaks =>
        if kept ≠ lineFeed then kept ++ breaks
        else if breaks.isEmpty then singleSpace
        else breaks
      ⟨content, true, final⟩

/-- `c.plainFrom inFlow indent fuel blanks broken` is the plain scalar from here on, where `blanks`
stands before it if it goes on, and `broken` says whether they hold a line break. The answer says
the same of the blanks after the scalar. -/
def plainFrom (inFlow : Bool) (indent : Int) : Nat → Text → Bool → Cursor → Text × Bool × Cursor
  | 0, _, broken, c => ([], broken, c)
  | fuel + 1, blanks, broken, c =>
      let run := if c.isAt '#' then [] else plainRun inFlow c.rest
      if run.isEmpty then ([], broken, c)
      else
        let between := (c.advance run.length).plainBlanks
        match between.content with
        | none => (blanks ++ run, between.broken, between.after)
        | some content =>
            if content.isEmpty || (!inFlow && (between.after.column : Int) < indent) then
              (blanks ++ run, between.broken, between.after)
            else
              let (more, endBroken, final) :=
                between.after.plainFrom inFlow indent fuel content between.broken
              (blanks ++ run ++ more, endBroken, final)

/-- `c.plainScalar inFlow indent` is the plain scalar that starts here, whether a line break
follows it, and the cursor after it and the blanks behind it. Outside brackets its lines are
indented by at least `indent`. -/
def plainScalar (inFlow : Bool) (indent : Int) (c : Cursor) : Text × Bool × Cursor :=
  c.plainFrom inFlow indent (c.rest.length + 1) [] false

end Cursor

end UriTemplate.Yaml
