import UriTemplate.Text.Blank
import UriTemplate.Text.Alphanumeric
import UriTemplate.Text.Quoted

/-!
# Integers as text

`Decimal.ofNat` and `Decimal.ofInt` write an integer in base ten, and `Decimal.value` reads decimal
digits. Both directions are subject to a limit of `Decimal.digitLimit` digits, kept by
`Decimal.ofInt?` and by `Decimal.readInteger`; a `Decimal.LimitError` says which direction
exceeded it. `Decimal.readInteger` reads the integers of a document: a sign, a radix mark, digits
of any script and underscores between digits.
-/

namespace UriTemplate.Decimal

/-- The greatest number of digits of an integer that is read or written. -/
def digitLimit : Nat := 4300

/-- `digit n` is the decimal digit for `n`, modulo ten. -/
def digit (n : Nat) : CodePoint := CodePoint.ofNat ('0'.toNat + n % 10)

/-- `digitsOnto n tail` is the decimal digits of `n` followed by `tail`. -/
def digitsOnto (n : Nat) (tail : Text) : Text :=
  if n < 10 then digit n :: tail else digitsOnto (n / 10) (digit n :: tail)
termination_by n

/-- `ofNat n` is the decimal digits of `n`, without leading zeros. -/
def ofNat (n : Nat) : Text := digitsOnto n []

/-- `ofInt n` is the decimal digits of `n`, after a minus sign if `n` is negative. -/
def ofInt (n : Int) : Text :=
  if n < 0 then CodePoint.ofChar '-' :: ofNat n.natAbs else ofNat n.natAbs

/-- `padded width n` is the decimal digits of `n` with zeros in front up to `width` places. -/
def padded (width n : Nat) : Text :=
  let digits := ofNat n
  List.replicate (width - digits.length) (digit 0) ++ digits

/-- `value t` is the number whose decimal digits are the code points of `t`. -/
def value (t : Text) : Nat := t.foldl (fun n c => n * 10 + (c.val - '0'.toNat)) 0

/-- An integer has more than `digitLimit` digits: one to be read, with that many digits, or one to
be written. -/
inductive LimitError where
  | reading (digits : Nat)
  | writing
deriving DecidableEq

namespace LimitError

/-- `e.message` is the wording of the error `e`. -/
def message : LimitError → Text
  | reading digits =>
      "Exceeds the limit (4300 digits) for integer string conversion: value has " ++ ofNat digits ++
        " digits; use sys.set_int_max_str_digits() to increase the limit"
  | writing =>
      "Exceeds the limit (4300 digits) for integer string conversion; " ++
        Text.ofString "use sys.set_int_max_str_digits() to increase the limit"

end LimitError

/-- `exceedsLimit n` says that `n` has more than `digitLimit` decimal digits. -/
def exceedsLimit (n : Int) : Bool := Nat.pow 10 digitLimit ≤ n.natAbs

/-- `ofInt? n` is the decimal text of `n`, unless `n` has too many digits. -/
def ofInt? (n : Int) : Except LimitError Text :=
  if exceedsLimit n then .error .writing else .ok (ofInt n)

/-- `ofDigits? t` is the number whose decimal digits are the code points of `t`, unless there are
too many. Leading zeros count. -/
def ofDigits? (t : Text) : Except LimitError Nat :=
  if digitLimit < t.length then .error (.reading t.length) else .ok (value t)

/-! ## Integers of a document -/

/-- Why a text is no integer of a document: it has another form, or too many digits. -/
inductive IntegerError where
  | malformed (base : Nat) (t : Text)
  | limit (e : LimitError)
deriving DecidableEq

/-- `e.message` is the wording of the error `e`. At most 200 code points of the quoted text are
shown. -/
def IntegerError.message : IntegerError → Text
  | malformed base t =>
      "invalid literal for int() with base " ++ ofNat base ++ ": " ++ t.quoted.take 200
  | limit e => e.message

/-- `asciiForm t` is `t` with digits of other scripts in ASCII and other separators as spaces. What
is ASCII is left as it is. -/
def asciiForm (t : Text) : Text :=
  t.map fun c =>
    if c.isAscii then c
    else match c.decimalValue with
      | some n => digit n
      | none => if c.isWhitespace then CodePoint.ofChar ' ' else c

/-- `stripped t` is the ASCII form of `t` without whitespace at its two ends. -/
def stripped (t : Text) : Text := (asciiForm t).stripEnds CodePoint.isAsciiWhitespace

/-- `underscoresSeparate t` says that every underscore in `t` stands between two other code
points that are no underscores. -/
def underscoresSeparate (t : Text) : Bool :=
  (Text.splitOn '_' t).all fun run => !run.isEmpty

/-- `signed t` is whether `t` starts with a minus sign, and the rest of `t` after its sign. -/
def signed : Text → Bool × Text
  | [] => (false, [])
  | c :: rest =>
      if c = '-' then (true, rest) else if c = '+' then (false, rest) else (false, c :: rest)

/-- `radixMark base` is the letter that may stand, after a zero, before digits of the base. -/
def radixMark : Nat → Option Char
  | 2 => some 'b'
  | 8 => some 'o'
  | 16 => some 'x'
  | _ => none

/-- `dropRadixMark base t` is `t` without a leading radix mark of `base` and one underscore after
it. -/
def dropRadixMark (base : Nat) (t : Text) : Text :=
  match t, radixMark base with
  | zero :: mark :: rest, some letter =>
      if zero = '0' && mark.toLower = letter then
        match rest with
        | u :: rest' => if u = '_' then rest' else rest
        | [] => rest
      else t
  | _, _ => t

/-- `isDigitOf base c` says that `c` is a digit of the base. -/
def isDigitOf (base : Nat) (c : CodePoint) : Bool :=
  match c.digitValue with
  | some d => d < base
  | none => false

/-- `readInteger base t` is the integer that `t` writes in the given base: whitespace around it, a
sign, a radix mark and underscores between digits are allowed, and decimal digits may be of any
script. Only bases that are no power of two are subject to the digit limit. -/
def readInteger (base : Nat) (t : Text) : Except IntegerError Int :=
  let (negative, unsigned) := signed (stripped t)
  let digits := dropRadixMark base unsigned
  let run := digits.takeWhile fun c => isDigitOf base c || c = '_'
  let count := run.countP (isDigitOf base)
  if !underscoresSeparate run then .error (.malformed base t)
  else if base = 10 && digitLimit < count then .error (.limit (.reading count))
  else if run.length ≠ digits.length then .error (.malformed base t)
  else
    let magnitude := run.foldl (fun n c => match c.digitValue with
      | some d => n * base + d
      | none => n) 0
    .ok (if negative then -(magnitude : Int) else magnitude)

end UriTemplate.Decimal
