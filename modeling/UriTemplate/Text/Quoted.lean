import UriTemplate.Text.Printable

/-!
# Quoted text

`Text.quoted` writes a text between quotes with escapes for what cannot be shown, and `Byte.quoted`
does the same for a byte string. Single quotes are used unless the text holds a single quote and no
double quote.
-/

namespace UriTemplate

/-- A byte. -/
abbrev Byte := Fin 256

/-- `Byte.ofNat n` is the byte `n`, modulo 256. -/
def Byte.ofNat (n : Nat) : Byte := Fin.ofNat 256 n

/-- `quoteMark hasSingle hasDouble` is the quote used for a text that holds single or double
quotes. -/
def quoteMark (hasSingle hasDouble : Bool) : Char :=
  if hasSingle && !hasDouble then '"' else '\''

namespace CodePoint

/-- `c.numbered` is the escape that gives the number of `c`, in two, four or eight hexadecimal
digits. -/
def numbered (c : CodePoint) : Text :=
  if c.val < 0x100 then CodePoint.ofChar '\\' :: 'x' :: Text.hex Text.lowerHex 2 c.val
  else if c.val < 0x10000 then CodePoint.ofChar '\\' :: 'u' :: Text.hex Text.lowerHex 4 c.val
  else CodePoint.ofChar '\\' :: 'U' :: Text.hex Text.lowerHex 8 c.val

/-- `c.escaped mark` is how `c` is written inside a text quoted with `mark`. -/
def escaped (mark : Char) (c : CodePoint) : Text :=
  if c = mark || c = '\\' then ['\\', c]
  else if c = '\t' then ['\\', 't']
  else if c = '\n' then ['\\', 'n']
  else if c = '\r' then ['\\', 'r']
  else if c.isPrintable then [c]
  else c.numbered

end CodePoint

/-- `Text.quoted t` is `t` between quotes, with escapes for what cannot be shown. -/
def Text.quoted (t : Text) : Text :=
  let mark := quoteMark (t.any (· = '\'')) (t.any (· = '"'))
  CodePoint.ofChar mark :: t.flatMap (CodePoint.escaped mark) ++ [CodePoint.ofChar mark]

/-- `Text.inAscii t` is `t` with escapes for what is not ASCII. -/
def Text.inAscii (t : Text) : Text := t.flatMap fun c => if c.isAscii then [c] else c.numbered

/-- `Byte.quoted bytes` is the byte string `bytes` between quotes after the letter `b`. Bytes above
ASCII are written as escapes. -/
def Byte.quoted (bytes : List Byte) : Text :=
  let codePoints := bytes.map fun b => CodePoint.ofNat b.val
  let mark := quoteMark (codePoints.any (· = '\'')) (codePoints.any (· = '"'))
  let escape := fun c : CodePoint => if c.isAscii then c.escaped mark else c.numbered
  CodePoint.ofChar 'b' :: mark :: codePoints.flatMap escape ++ [CodePoint.ofChar mark]

end UriTemplate
