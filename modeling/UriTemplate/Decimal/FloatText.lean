import UriTemplate.Decimal.Shortest

/-!
# Floating-point numbers as text

`Binary64.text` writes a number with the fewest digits that read back: positional between 10^-4 and
10^16, always with a point, and otherwise with an exponent of at least two digits. `Binary64.read`
reads a number in either form, with underscores between digits, digits of any script and the names
of infinity and of what is no number.
-/

namespace UriTemplate.Binary64

/-! ## Writing -/

/-- `dropTrailingZeros t` is `t` without zeros at its end, except a first one. -/
def dropTrailingZeros (t : Text) : Text :=
  t.take 1 ++ ((t.drop 1).reverse.dropWhile fun c : CodePoint => c = '0').reverse

/-- `exponentText e` is the exponent `e` with its sign and at least two digits. -/
def exponentText (e : Int) : Text :=
  CodePoint.ofChar (if e < 0 then '-' else '+') :: Decimal.padded 2 e.natAbs

/-- `layout digits exponent` is the decimal with the given digits, the first of which counts ten to
the power `exponent`. -/
def layout (digits : Text) (exponent : Int) : Text :=
  let zeros := fun n : Nat => List.replicate n (CodePoint.ofChar '0')
  if -4 ≤ exponent && exponent < 0 then
    "0." ++ zeros (-exponent - 1).toNat ++ digits
  else if 0 ≤ exponent && exponent < 16 then
    let whole := exponent.toNat + 1
    if digits.length ≤ whole then digits ++ zeros (whole - digits.length) ++ Text.ofString ".0"
    else digits.take whole ++ Text.ofString "." ++ digits.drop whole
  else
    let mantissa := if digits.length ≤ 1 then digits
      else digits.take 1 ++ Text.ofString "." ++ digits.drop 1
    mantissa ++ Text.ofString "e" ++ exponentText exponent

/-- `magnitudeText m` is the shortest decimal of `m`. -/
def magnitudeText (m : Magnitude) : Text :=
  if m.units = 0 then "0.0"
  else
    let (digits, power) := m.shortest
    let written := Decimal.ofNat digits
    layout (dropTrailingZeros written) (power + written.length - 1)

/-- `x.text` is the text of the number `x`. -/
def text : Binary64 → Text
  | nan => "nan"
  | infinity negative => if negative then "-inf" else "inf"
  | finite negative m =>
      if negative then CodePoint.ofChar '-' :: magnitudeText m else magnitudeText m

/-! ## Reading -/

/-- `digitRun t` is the digits at the start of `t`, without the underscores between them, and what
follows. -/
def digitRun (t : Text) : Text × Text :=
  let run := t.takeWhile fun c : CodePoint => c.isDigit || c = '_'
  (run.filter CodePoint.isDigit, t.drop run.length)

/-- `readExponent t` is the power of ten that `t` writes after a decimal: nothing, or the letter
`e`, a sign and digits. -/
def readExponent : Text → Option Int
  | [] => some 0
  | c :: rest =>
      if c.toLower = 'e' then
        let (negative, unsigned) := Decimal.signed rest
        let (digits, after) := digitRun unsigned
        if digits.isEmpty || !after.isEmpty then none
        else some (signed negative (Decimal.value digits))
      else none

/-- `readDecimal negative t` is the number that the unsigned decimal `t` writes. -/
def readDecimal (negative : Bool) (t : Text) : Option Binary64 :=
  let (whole, afterWhole) := digitRun t
  let (fraction, afterFraction) :=
    match afterWhole with
    | c :: rest => if c = '.' then digitRun rest else ([], afterWhole)
    | [] => ([], [])
  if whole.isEmpty && fraction.isEmpty then none
  else (readExponent afterFraction).map fun exponent =>
    ofDecimal negative (Decimal.value (whole ++ fraction)) (exponent - fraction.length)

/-- `underscoresBetweenDigits t` says that every underscore in `t` has a digit on both sides. -/
def underscoresBetweenDigits (t : Text) : Bool :=
  let neighbours := (none :: t.map some).zip (t.zip ((t.drop 1).map some ++ [none]))
  let isDigit := fun c : Option CodePoint => c.any CodePoint.isDigit
  neighbours.all fun (before, c, after) => c ≠ '_' || (isDigit before && isDigit after)

/-- `read t` is the number that `t` writes, with whitespace around it allowed, or `none` when it
writes no number. -/
def read (t : Text) : Option Binary64 :=
  let stripped := Decimal.stripped t
  let (negative, unsigned) := Decimal.signed stripped
  let name := unsigned.map CodePoint.toLower
  if name = Text.ofString "inf" || name = Text.ofString "infinity" then some (infinity negative)
  else if name = Text.ofString "nan" then some nan
  else if underscoresBetweenDigits stripped then readDecimal negative unsigned
  else none

end UriTemplate.Binary64
