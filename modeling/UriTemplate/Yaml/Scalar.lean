import UriTemplate.Text.Lower
import UriTemplate.Value
import UriTemplate.Yaml.Error
import UriTemplate.Yaml.Timestamp

/-!
# Values of scalars

The functions here give the value that the content of a scalar has under a tag: `Scalar.bool`,
`Scalar.int`, `Scalar.float`, `Scalar.timestamp` and `Scalar.binary?`. Content whose form does not
fit the tag is a `ValueError`, or no value at all for a byte string. Integers and floating-point
numbers may be written in base sixty, with colons between the digits.
-/

namespace UriTemplate.Yaml.Scalar

/-- `bool t` is the boolean that the word `t` stands for, in any case. -/
def bool (t : Text) : Except ValueError Value :=
  let word := t.lower
  if [Text.ofString "yes", Text.ofString "true", Text.ofString "on"].contains word then
    .ok (.bool true)
  else if [Text.ofString "no", Text.ofString "false", Text.ofString "off"].contains word then
    .ok (.bool false)
  else .error (.boolean word)

/-- `dropUnderscores t` is `t` without underscores. -/
def dropUnderscores (t : Text) : Text := t.filter (· ≠ '_')

/-- `signed t` is whether the number `t` is negative, and `t` without its sign. A number is not
empty. -/
def signed (t : Text) : Except ValueError (Bool × Text) :=
  if t.isEmpty then .error .emptyNumber else .ok (Decimal.signed t)

/-- `readInt base t` is the integer that `t` writes in the base. -/
def readInt (base : Nat) (t : Text) : Except ValueError Int :=
  (Decimal.readInteger base t).mapError .integer

/-- `sexagesimal digits` is the number with the given digits in base sixty. -/
def sexagesimal (digits : List Int) : Int := digits.foldl (fun n d => n * 60 + d) 0

/-- `magnitude t` is the integer that `t` writes without a sign. Its first characters select the
base. -/
def magnitude (t : Text) : Except ValueError Int :=
  match t with
  | [] => .error .emptyNumber
  | first :: _ =>
      if t = Text.ofString "0" then .ok 0
      else if (Text.ofString "0b").isPrefixOf t then readInt 2 (t.drop 2)
      else if (Text.ofString "0x").isPrefixOf t then readInt 16 (t.drop 2)
      else if first = '0' then readInt 8 t
      else if t.contains (CodePoint.ofChar ':') then
        return sexagesimal (← (Text.splitOn ':' t).mapM (readInt 10))
      else readInt 10 t

/-- `int t` is the integer that `t` writes. Underscores do not count. -/
def int (t : Text) : Except ValueError Value := do
  let (negative, unsigned) ← signed (dropUnderscores t)
  let n ← magnitude unsigned
  pure (.int (if negative then -n else n))

/-- `readFloat t` is the floating-point number that `t` writes. -/
def readFloat (t : Text) : Except ValueError Binary64 :=
  match Binary64.read t with
  | some x => .ok x
  | none => .error (.number t)

/-- `weighted weight digits` is the sum of the digits, the first times `weight` and each further one
times sixty times as much as the one before. A weight must be a finite number of the format. -/
def weighted (weight : Nat) (sum : Binary64) : List Binary64 → Except ValueError Binary64
  | [] => .ok sum
  | digit :: rest =>
      match Binary64.ofInt weight with
      | .infinity _ => .error .hugeNumber
      | w => weighted (weight * 60) (sum.add (digit.mul w)) rest

/-- `float t` is the floating-point number that `t` writes. Underscores do not count, and infinity
and what is no number have names. -/
def float (t : Text) : Except ValueError Value := do
  let (negative, unsigned) ← signed (dropUnderscores t).lower
  let withSign := fun x : Binary64 => Value.float (if negative then x.neg else x)
  if unsigned = Text.ofString ".inf" then pure (withSign (.infinity false))
  else if unsigned = Text.ofString ".nan" then pure (.float .nan)
  else if unsigned.contains (CodePoint.ofChar ':') then
    let digits ← (Text.splitOn ':' unsigned).mapM readFloat
    return withSign (← weighted 1 (Binary64.ofInt 0) digits.reverse)
  else return withSign (← readFloat unsigned)

/-- `timestamp t` is the day or the time that `t` writes. -/
def timestamp (t : Text) : Except ValueError Value := do
  let content := if t.getLast? = some (CodePoint.ofChar '\n') then t.dropLast else t
  match Timestamp.read? content with
  | none => .error .timestamp
  | some ⟨year, month, day, none⟩ =>
      return .date (← (Date.make? year month day).mapError .calendar)
  | some ⟨year, month, day, some clock⟩ =>
      let time ← (DateTime.make? year month day clock.hour clock.minute clock.second
        (Timestamp.microseconds clock.fraction) clock.offset?).mapError .calendar
      return .dateTime time

/-! ## Bytes in base 64 -/

/-- `base64Value? c` is the value of `c` as a digit of base 64. -/
def base64Value? (c : CodePoint) : Option Nat :=
  if c.within 'A' 'Z' then some (c.val - 'A'.toNat)
  else if c.within 'a' 'z' then some (c.val - 'a'.toNat + 26)
  else if c.isDigit then some (c.val - '0'.toNat + 52)
  else if c = '+' then some 62
  else if c = '/' then some 63
  else none

/-- `base64 place held pads t` is the bytes that `t` encodes, where `place` digits of a group of
four have been read, `held` are the bits of them that belong to the next byte, and `pads` padding
marks came after them. Other characters are ignored, and the text ends at the padding of a
group. -/
def base64 (place held pads : Nat) : Text → Option (List Byte)
  | [] => if place = 0 then some [] else none
  | c :: rest =>
      if c = '=' then
        if 2 ≤ place && 4 ≤ place + pads + 1 then some []
        else base64 place held (if 2 ≤ place then pads + 1 else pads) rest
      else
        match base64Value? c with
        | none => base64 place held pads rest
        | some digit =>
            match place with
            | 0 => base64 1 digit 0 rest
            | 1 => (base64 2 (digit % 16) 0 rest).map (Byte.ofNat (held * 4 + digit / 16) :: ·)
            | 2 => (base64 3 (digit % 4) 0 rest).map (Byte.ofNat (held * 16 + digit / 4) :: ·)
            | _ => (base64 0 0 0 rest).map (Byte.ofNat (held * 64 + digit) :: ·)

/-- `binary? t` is the byte string that `t` encodes, if `t` is ASCII text in base 64. -/
def binary? (t : Text) : Option Value :=
  if t.all CodePoint.isAscii then (base64 0 0 0 t).map .bytes else none

end UriTemplate.Yaml.Scalar
