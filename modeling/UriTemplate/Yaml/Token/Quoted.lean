import UriTemplate.Yaml.Cursor
import UriTemplate.Yaml.Error

/-!
# Quoted scalars

`Cursor.quotedScalar` reads a scalar between single or double quotes. Line breaks inside it are
folded: one break is a space, and of several the first is dropped. In double quotes a backslash
starts an escape; in single quotes a quote is written twice.
-/

namespace UriTemplate.Yaml

/-- The escapes of one character and what they stand for. -/
def simpleEscapes : List (Char × Nat) :=
  [('0', 0x00), ('a', 0x07), ('b', 0x08), ('t', 0x09), ('\t', 0x09), ('n', 0x0A), ('v', 0x0B),
   ('f', 0x0C), ('r', 0x0D), ('e', 0x1B), (' ', 0x20), ('"', 0x22), ('\\', 0x5C), ('/', 0x2F),
   ('N', 0x85), ('_', 0xA0), ('L', 0x2028), ('P', 0x2029)]

/-- The escapes of a code point and how many hexadecimal digits they have. -/
def hexEscapes : List (Char × Nat) := [('x', 2), ('u', 4), ('U', 8)]

/-- `escape? table c` is what the table has for the character `c`. -/
def escape? (table : List (Char × Nat)) (c : CodePoint) : Option Nat :=
  (table.find? fun (letter, _) => c = letter).map (·.2)

/-- `hexValue? t` is the number that the hexadecimal digits of `t` write. -/
def hexValue? (t : Text) : Option Nat :=
  if t.all CodePoint.isHexDigit then
    some (t.foldl (fun n c => n * 16 + c.digitValue.getD 0) 0)
  else none

namespace Cursor

/-- `c.foldedBreaks fuel` is the line breaks from here on, with blanks around them dropped. The
mark of a document's start or end is refused. -/
def foldedBreaks : Nat → Cursor → Except Error (Text × Cursor)
  | 0, _ => .error .token
  | fuel + 1, c =>
      if c.atMarker then .error .token
      else
        let afterBlanks := c.skip fun p => p = ' ' || p = '\t'
        match afterBlanks.lineBreak? with
        | none => .ok ([], afterBlanks)
        | some (kept, after) => do
            let (more, final) ← after.foldedBreaks fuel
            pure (kept ++ more, final)

/-- `c.quotedBlanks` is the blanks or folded line breaks from here on inside quotes. -/
def quotedBlanks (c : Cursor) : Except Error (Text × Cursor) :=
  let (blanks, after) := c.span fun p => p = ' ' || p = '\t'
  match after.peek, after.lineBreak? with
  | none, _ => .error .token
  | some _, none => .ok (blanks, after)
  | some _, some (kept, afterBreak) => do
      let (breaks, final) ← afterBreak.foldedBreaks (afterBreak.rest.length + 1)
      if kept ≠ lineFeed then pure (kept ++ breaks, final)
      else if breaks.isEmpty then pure (singleSpace, final)
      else pure (breaks, final)

/-- `c.escapeSequence` is what the escape from here on, after its backslash, stands for. -/
def escapeSequence (c : Cursor) : Except Error (Text × Cursor) :=
  match c.peek with
  | none => .error .token
  | some letter =>
      match escape? simpleEscapes letter, escape? hexEscapes letter with
      | some n, _ => .ok ([CodePoint.ofNat n], c.next)
      | none, some width =>
          let digits := c.next.rest.take width
          match hexValue? digits with
          | some n =>
              if digits.length < width then .error .token
              else if n < 0x110000 then .ok ([CodePoint.ofNat n], c.next.advance width)
              else .error (.value (.codePoint n))
          | none => .error .token
      | none, none =>
          if letter.isBreak then c.skipBreak.foldedBreaks (c.rest.length + 1)
          else .error .token

/-- `c.quotedWord double fuel` is the content from here on up to a blank, a line break or the
closing quote. -/
def quotedWord (double : Bool) : Nat → Cursor → Except Error (Text × Cursor)
  | 0, _ => .error .token
  | fuel + 1, c =>
      let (run, after) := c.span fun p => !(p.isOneOf "'\"\\ \t" || p.isBreak)
      let continued := fun (part : Text) (c : Cursor) => do
        let (more, final) ← c.quotedWord double fuel
        pure (run ++ part ++ more, final)
      match after.peek with
      | none => .ok (run, after)
      | some p =>
          if !double && after.startsWith "''" then continued ['\''] (after.advance 2)
          else if (double && p = '\'') || (!double && p.isOneOf "\"\\") then
            continued [p] after.next
          else if double && p = '\\' then do
            let (part, final) ← after.next.escapeSequence
            continued part final
          else .ok (run, after)

/-- `c.quotedRest double fuel` is the content from here on up to the closing quote, and the cursor
after the quote. -/
def quotedRest (double : Bool) : Nat → Cursor → Except Error (Text × Cursor)
  | 0, _ => .error .token
  | fuel + 1, c => do
      if c.isAt (if double then '"' else '\'') then pure ([], c.next)
      else
        let (blanks, afterBlanks) ← c.quotedBlanks
        let (word, afterWord) ← afterBlanks.quotedWord double (afterBlanks.rest.length + 1)
        let (more, final) ← afterWord.quotedRest double fuel
        pure (blanks ++ word ++ more, final)

/-- `c.quotedScalar double` is the content of the quoted scalar that starts here, and the cursor
after it. -/
def quotedScalar (double : Bool) (c : Cursor) : Except Error (Text × Cursor) := do
  let (word, after) ← c.next.quotedWord double (c.rest.length + 1)
  let (more, final) ← after.quotedRest double (c.rest.length + 1)
  pure (word ++ more, final)

end Cursor

end UriTemplate.Yaml
