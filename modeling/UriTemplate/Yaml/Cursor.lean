import UriTemplate.Text.Blank

/-!
# Positions in a document

A `Cursor` is what is left of a document, together with the number of code points before it and the
line and column it starts at. `Cursor.advance` moves it forward, and `Cursor.lineBreak` reads one
line break. The functions `endsWord`, `endsToken` and `endsLine` classify what comes next; the end
of the document satisfies all three.
-/

namespace UriTemplate

namespace CodePoint

/-- `c.isAllowed` says that `c` may stand in a document. -/
def isAllowed (c : CodePoint) : Bool :=
  c.val = 0x09 || c.val = 0x0A || c.val = 0x0D || (0x20 ≤ c.val && c.val ≤ 0x7E) ||
    c.val = 0x85 || (0xA0 ≤ c.val && c.val ≤ 0xD7FF) || (0xE000 ≤ c.val && c.val ≤ 0xFFFD) ||
    0x10000 ≤ c.val

/-- `c.isBreak` says that `c` ends a line. -/
def isBreak (c : CodePoint) : Bool :=
  c = '\n' || c = '\r' || c.val = 0x85 || c.val = 0x2028 || c.val = 0x2029

/-- `c.isByteOrderMark` says that `c` is the mark that may start a document. -/
def isByteOrderMark (c : CodePoint) : Bool := c.val = 0xFEFF

/-- `c.isIdentifier` says that `c` may stand in the name of an anchor, a directive or a tag
handle. -/
def isIdentifier (c : CodePoint) : Bool := c.isLetter || c.isDigit || c = '-' || c = '_'

/-- `c.isOneOf s` says that `c` is a character of the string `s`. -/
def isOneOf (c : CodePoint) (s : String) : Bool := (Text.ofString s).contains c

end CodePoint

namespace Yaml

/-- What is left of a document, and where it starts. -/
structure Cursor where
  rest : Text
  index : Nat
  line : Nat
  column : Nat
deriving DecidableEq

/-- `endsLine next` says that `next` is a line break or the end of the document. -/
def endsLine (next : Option CodePoint) : Bool := next.all CodePoint.isBreak

/-- `endsToken next` says that `next` is a space, a line break or the end of the document. -/
def endsToken (next : Option CodePoint) : Bool := next.all fun c : CodePoint => c = ' ' || c.isBreak

/-- `endsWord next` says that `next` is a space, a tab, a line break or the end of the
document. -/
def endsWord (next : Option CodePoint) : Bool :=
  next.all fun c : CodePoint => c = ' ' || c = '\t' || c.isBreak

/-- A line feed, as which most line breaks are kept. -/
def lineFeed : Text := [CodePoint.ofChar '\n']

/-- A single space, as which one folded line break is kept. -/
def singleSpace : Text := [CodePoint.ofChar ' ']

namespace Cursor

/-- The cursor at the start of a document. -/
def start (document : Text) : Cursor := ⟨document, 0, 0, 0⟩

/-- `c.peek` is the next code point, if the document does not end here. -/
def peek (c : Cursor) : Option CodePoint := c.rest.head?

/-- `c.peekAt n` is the code point after `n` others. -/
def peekAt (c : Cursor) (n : Nat) : Option CodePoint := c.rest[n]?

/-- `c.startsWith s` says that the characters of `s` come next. -/
def startsWith (c : Cursor) (s : String) : Bool := (Text.ofString s).isPrefixOf c.rest

/-- `c.isAt character` says that the character comes next. -/
def isAt (c : Cursor) (character : Char) : Bool := c.peek = some (CodePoint.ofChar character)

/-- `c.next` is the cursor after one code point. A carriage return before a line feed is no line
break of its own, and a byte order mark takes no column. -/
def next (c : Cursor) : Cursor :=
  match c.rest with
  | [] => c
  | p :: rest =>
      if p.isBreak && !(p = '\r' && rest.head? = some (CodePoint.ofChar '\n')) then
        ⟨rest, c.index + 1, c.line + 1, 0⟩
      else if p.isByteOrderMark then ⟨rest, c.index + 1, c.line, c.column⟩
      else ⟨rest, c.index + 1, c.line, c.column + 1⟩

/-- `c.advance n` is the cursor after `n` code points. -/
def advance (c : Cursor) : Nat → Cursor
  | 0 => c
  | n + 1 => c.next.advance n

/-- `c.span p` is the code points from here on that satisfy `p`, and the cursor after them. -/
def span (p : CodePoint → Bool) (c : Cursor) : Text × Cursor :=
  let run := c.rest.takeWhile p
  (run, c.advance run.length)

/-- `c.skip p` is the cursor after the code points from here on that satisfy `p`. -/
def skip (p : CodePoint → Bool) (c : Cursor) : Cursor := (c.span p).2

/-- `c.skipSpaces` is the cursor after the spaces from here on. -/
def skipSpaces (c : Cursor) : Cursor := c.skip fun p => p = ' '

/-- `c.skipComment` is the cursor after a comment, if one starts here. -/
def skipComment (c : Cursor) : Cursor := if c.isAt '#' then c.skip fun p => !p.isBreak else c

/-- `c.lineBreak?` is the line break that starts here as it is kept, and the cursor after it. The
breaks of one line feed, carriage return or next line are kept as a line feed. -/
def lineBreak? (c : Cursor) : Option (Text × Cursor) :=
  match c.rest with
  | p :: rest =>
      if p = '\r' && rest.head? = some (CodePoint.ofChar '\n') then some (lineFeed, c.advance 2)
      else if p = '\n' || p = '\r' || p.val = 0x85 then some (lineFeed, c.next)
      else if p.isBreak then some ([p], c.next)
      else none
  | [] => none

/-- `c.skipBreak` is the cursor after the line break that starts here, if any. -/
def skipBreak (c : Cursor) : Cursor :=
  match c.lineBreak? with
  | some (_, after) => after
  | none => c

/-- `c.atMarker` says that the mark of the start or the end of a document comes next, whatever the
column. -/
def atMarker (c : Cursor) : Bool :=
  (c.startsWith "---" || c.startsWith "...") && endsWord (c.peekAt 3)

end Cursor

end Yaml

end UriTemplate
