import UriTemplate.Yaml.Cursor
import UriTemplate.Yaml.Error

/-!
# Block scalars

`Cursor.blockScalar` reads a literal or a folded block: a header with indicators of chomping and
indentation, and the lines that are indented as far as the first. A folded block joins neighbouring
lines that start with no blank. Chomping decides about the line breaks at the end.
-/

namespace UriTemplate.Yaml

/-- What becomes of the line breaks at the end of a block: all are dropped, the first is kept, or
all are kept. -/
inductive Chomping where
  | strip
  | clip
  | keep
deriving DecidableEq

namespace Cursor

/-- `c.chompingMark?` is the indicator of chomping that stands here. -/
def chompingMark? (c : Cursor) : Option Chomping :=
  if c.isAt '+' then some .keep else if c.isAt '-' then some .strip else none

/-- `c.indentationMark?` is the indicator of indentation that stands here. -/
def indentationMark? (c : Cursor) : Option Nat :=
  match c.peek with
  | some p => if p.isDigit then p.digitValue else none
  | none => none

/-- `c.blockHeader` is the indicators of a block in either order, and the cursor on the line after
them. -/
def blockHeader (c : Cursor) : Except Error (Chomping × Option Nat × Cursor) := do
  let (chomping?, afterChomping) := match c.chompingMark? with
    | some chomping => (some chomping, c.next)
    | none => (none, c)
  let (increment?, afterIncrement) := match afterChomping.indentationMark? with
    | some increment => (some increment, afterChomping.next)
    | none => (none, afterChomping)
  let (chomping?, afterMarks) :=
    if chomping?.isNone && increment?.isSome then
      match afterIncrement.chompingMark? with
      | some chomping => (some chomping, afterIncrement.next)
      | none => (none, afterIncrement)
    else (chomping?, afterIncrement)
  if increment? = some 0 || !endsToken afterMarks.peek then throw .token
  let afterComment := afterMarks.skipSpaces.skipComment
  if !endsLine afterComment.peek then throw .token
  pure (chomping?.getD .clip, increment?, afterComment.skipBreak)

/-- `c.leadingBreaks fuel deepest` is the line breaks before the first line of a block, and the
greatest column that is reached before or on that line. -/
def leadingBreaks : Nat → Nat → Cursor → Text × Nat × Cursor
  | 0, deepest, c => ([], deepest, c)
  | fuel + 1, deepest, c =>
      let afterSpaces := c.skipSpaces
      let reached := max deepest afterSpaces.column
      match afterSpaces.lineBreak? with
      | none => ([], reached, afterSpaces)
      | some (kept, after) =>
          let (more, greatest, final) := after.leadingBreaks fuel reached
          (kept ++ more, greatest, final)

/-- `c.skipIndent indent` is the cursor after spaces up to the column `indent`. -/
def skipIndent (indent : Nat) (c : Cursor) : Cursor :=
  let spaces := c.rest.takeWhile fun p : CodePoint => p = ' '
  c.advance (min spaces.length (indent - c.column))

/-- `c.blockBreaks indent fuel` is the line breaks from here on, with the indentation after them
dropped. -/
def blockBreaks (indent : Nat) : Nat → Cursor → Text × Cursor
  | 0, c => ([], c)
  | fuel + 1, c =>
      let afterIndent := c.skipIndent indent
      match afterIndent.lineBreak? with
      | none => ([], afterIndent)
      | some (kept, after) =>
          let (more, final) := after.blockBreaks indent fuel
          (kept ++ more, final)

/-- `startsWithBlank c` says that a blank comes next. -/
def startsWithBlank (c : Cursor) : Bool := c.isAt ' ' || c.isAt '\t'

/-- `c.blockLines folded indent fuel breaks` is the content of a block from here on, where `breaks`
stands before its first line, with the line break and the further breaks after its last line. -/
def blockLines (folded : Bool) (indent : Nat) :
    Nat → Text → Cursor → Text × Text × Text × Cursor
  | 0, breaks, c => ([], [], breaks, c)
  | fuel + 1, breaks, c =>
      if c.column = indent && c.peek.isSome then
        let (line, afterLine) := c.span fun p => !p.isBreak
        let (kept, afterBreak) := afterLine.lineBreak?.getD ([], afterLine)
        let (following, next) := afterBreak.blockBreaks indent (afterBreak.rest.length + 1)
        if next.column = indent && next.peek.isSome then
          let joint :=
            if folded && kept = lineFeed && !c.startsWithBlank && !next.startsWithBlank then
              if following.isEmpty then singleSpace else []
            else kept
          let (more, lastBreak, lastBreaks, final) := next.blockLines folded indent fuel following
          (breaks ++ line ++ joint ++ more, lastBreak, lastBreaks, final)
        else (breaks ++ line, kept, following, next)
      else ([], [], breaks, c)

/-- `c.blockScalar folded indent` is the content of the block that starts here, inside a collection
of the given indentation, and the cursor after it. -/
def blockScalar (folded : Bool) (indent : Int) (c : Cursor) : Except Error (Text × Cursor) := do
  let (chomping, increment?, afterHeader) ← c.next.blockHeader
  let fuel := c.rest.length + 1
  let least := (max (indent + 1) 1).toNat
  let (breaks, width, first) := match increment? with
    | none =>
        let (breaks, deepest, first) := afterHeader.leadingBreaks fuel 0
        (breaks, max least deepest, first)
    | some increment =>
        let width := least + increment - 1
        let (breaks, first) := afterHeader.blockBreaks width fuel
        (breaks, width, first)
  let (content, lastBreak, lastBreaks, final) := first.blockLines folded width fuel breaks
  pure <| match chomping with
    | .strip => (content, final)
    | .clip => (content ++ lastBreak, final)
    | .keep => (content ++ lastBreak ++ lastBreaks, final)

end Cursor

end UriTemplate.Yaml
