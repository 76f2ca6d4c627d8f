import UriTemplate.Decimal.Numeral
import UriTemplate.Log.Record

/-!
# Placeholders

A placeholder of a log line stands for a field of a record, or for the record as a whole. After the
percent sign come the name of the field in parentheses, flags, a least width, a precision, a length
mark without meaning, and the letter of a conversion. `Placeholder.read?` reads one, and
`Placeholder.fill?` is what stands in its place. A value that its conversion does not take has no
text.
-/

namespace UriTemplate.Log

/-- How a placeholder writes a value: as a text, as it is displayed, displayed in ASCII, as a whole
number in base ten, eight or sixteen, as a number with a point, or as one code point. -/
inductive Conversion where
  | plain
  | display
  | asciiDisplay
  | decimal
  | octal
  | hexadecimal
  | fixed
  | scientific
  | general
  | character
deriving DecidableEq

/-- The letters of the conversions. -/
def Conversion.letters : List (Char × Conversion) :=
  [('s', plain), ('r', display), ('a', asciiDisplay), ('d', decimal), ('i', decimal),
   ('u', decimal), ('o', octal), ('x', hexadecimal), ('X', hexadecimal), ('f', fixed),
   ('F', fixed), ('e', scientific), ('E', scientific), ('g', general), ('G', general),
   ('c', character)]

/-- A placeholder: the field that it stands for, if it names one, and how its text is laid out. -/
structure Placeholder where
  field? : Option Text
  flags : Text
  width : Nat
  precision? : Option Nat
  conversion : Conversion
  capitals : Bool
deriving DecidableEq

/-! ## Reading -/

/-- `upToClosing depth t` is the part of `t` before the parenthesis that closes the one before `t`,
and the rest after it. `depth` parentheses are open inside. -/
def upToClosing (depth : Nat) : Text → Option (Text × Text)
  | [] => none
  | c :: rest =>
      if c = ')' then
        match depth with
        | 0 => some ([], rest)
        | depth + 1 => (upToClosing depth rest).map fun (name, after) => (c :: name, after)
      else
        (upToClosing (if c = '(' then depth + 1 else depth) rest).map fun (name, after) =>
          (c :: name, after)

/-- `readField t` is the name in parentheses at the start of `t`, if there is one, and what follows
it. -/
def readField : Text → Option (Option Text × Text)
  | [] => some (none, [])
  | c :: rest =>
      if c = '(' then (upToClosing 0 rest).map fun (name, after) => (some name, after)
      else some (none, c :: rest)

/-- `isFlag c` says that `c` is one of the signs between the field and the width. -/
def isFlag (c : CodePoint) : Bool := c = '#' || c = '0' || c = '+' || c = ' ' || c = '-'

/-- The greatest width and the greatest precision. -/
def sizeLimit : Nat := 2147483647

/-- `readSize t` is the number at the start of `t`, zero if there is none, and what follows it. -/
def readSize (t : Text) : Option (Nat × Text) :=
  let size := Decimal.value (t.takeWhile CodePoint.isDigit)
  if size ≤ sizeLimit then some (size, t.dropWhile CodePoint.isDigit) else none

/-- `readPrecision t` is the number after a point at the start of `t`, if there is a point, and what
follows it. -/
def readPrecision : Text → Option (Option Nat × Text)
  | [] => some (none, [])
  | c :: rest =>
      if c = '.' then (readSize rest).map fun (size, after) => (some size, after)
      else some (none, c :: rest)

/-- `dropLengthMark t` is `t` without a length mark at its start. -/
def dropLengthMark : Text → Text
  | [] => []
  | c :: rest => if c = 'h' || c = 'l' || c = 'L' then rest else c :: rest

/-- `Conversion.ofLetter? c` is the conversion with the letter `c`, and whether it writes capital
letters. -/
def Conversion.ofLetter? (c : CodePoint) : Option (Conversion × Bool) :=
  (letters.find? fun (letter, _) => c = CodePoint.ofChar letter).map fun (letter, conversion) =>
    (conversion, letter.isUpper)

namespace Placeholder

/-- `read? t` is the placeholder of which `t` is the text after the percent sign, and what follows
it. -/
def read? (t : Text) : Option (Placeholder × Text) := do
  let (field?, afterField) ← readField t
  let (width, afterWidth) ← readSize (afterField.dropWhile isFlag)
  let (precision?, afterPrecision) ← readPrecision afterWidth
  match dropLengthMark afterPrecision with
  | [] => none
  | letter :: rest =>
      let (conversion, capitals) ← Conversion.ofLetter? letter
      pure (⟨field?, afterField.takeWhile isFlag, width, precision?, conversion, capitals⟩, rest)

/-! ## Filling -/

/-- `p.hasFlag c` says that `c` is among the flags of `p`. -/
def hasFlag (p : Placeholder) (c : Char) : Bool := p.flags.any (· = CodePoint.ofChar c)

/-- `p.filler taken c` is as many times `c` as a text of `taken` code points is too short for the
width of `p`. -/
def filler (p : Placeholder) (taken : Nat) (c : Char) : Text :=
  List.replicate (p.width - taken) (CodePoint.ofChar c)

/-- `p.layText t` is `t` in the width of `p`, on the left of it if there is a minus sign among the
flags. -/
def layText (p : Placeholder) (t : Text) : Text :=
  if p.hasFlag '-' then t ++ p.filler t.length ' ' else p.filler t.length ' ' ++ t

/-- `p.layShown t` is the first code points of `t`, as many as the precision of `p` says, in the
width of `p`. -/
def layShown (p : Placeholder) (t : Text) : Text :=
  p.layText (match p.precision? with
    | some places => t.take places
    | none => t)

/-- `p.layNumber negative mark digits` is the number with the given digits after a mark of their
base, in the width of `p`. Zeros fill the width between the mark and the digits. -/
def layNumber (p : Placeholder) (negative : Bool) (mark digits : Text) : Text :=
  let sign : Text :=
    if negative then "-" else if p.hasFlag '+' then "+" else if p.hasFlag ' ' then " " else []
  let taken := (sign ++ mark ++ digits).length
  if p.hasFlag '0' && !p.hasFlag '-' then sign ++ mark ++ p.filler taken '0' ++ digits
  else p.layText (sign ++ mark ++ digits)

/-- `capitalsOf t` is `t` with ASCII letters as capitals. -/
def capitalsOf (t : Text) : Text :=
  t.map fun c => if c.within 'a' 'z' then CodePoint.ofNat (c.val - 32) else c

/-- `p.inCapitals t` is `t`, with capital letters if the conversion of `p` writes them. -/
def inCapitals (p : Placeholder) (t : Text) : Text := if p.capitals then capitalsOf t else t

/-- `p.wholeNumber mark digits n` is the integer `n`, which has the given digits: at least as many
as the precision of `p` says, after the mark of their base if the flags ask for it. -/
def wholeNumber (p : Placeholder) (mark digits : Text) (n : Int) : Text :=
  let padded := Numeral.zeros ((p.precision?.getD 0) - digits.length) ++ digits
  let mark := if p.hasFlag '#' then mark else []
  p.layNumber (n < 0) (p.inCapitals mark) (p.inCapitals padded)

/-- `p.pointedNumber? numeral n` is the floating-point number nearest to the integer `n` as the
given numeral, or `none` if there is no such number. -/
def pointedNumber? (p : Placeholder) (numeral : Bool → Nat → Nat → Text) (n : Int) : Option Text :=
  match Binary64.ofInt n with
  | .finite negative magnitude =>
      some (p.layNumber negative [] (p.inCapitals
        (numeral (p.hasFlag '#') (p.precision?.getD 6) (magnitude.units / Binary64.one))))
  | _ => none

/-- `p.number? n` is the integer `n` in the place of `p`, whose conversion writes numbers. -/
def number? (p : Placeholder) (n : Int) : Option Text :=
  match p.conversion with
  | .decimal =>
      if Decimal.exceedsLimit n then none
      else some (p.wholeNumber [] (Decimal.ofNat n.natAbs) n)
  | .octal => some (p.wholeNumber "0o" (Numeral.inBase 8 n.natAbs) n)
  | .hexadecimal => some (p.wholeNumber "0x" (Numeral.inBase 16 n.natAbs) n)
  | .fixed => p.pointedNumber? Numeral.fixed n
  | .scientific => p.pointedNumber? Numeral.scientific n
  | .general => p.pointedNumber? Numeral.general n
  | .character =>
      if n < 0 || 0x110000 ≤ n then none else some (p.layText [CodePoint.ofNat n.toNat])
  | .plain | .display | .asciiDisplay => none

/-- `p.value? v` is the value `v` in the place of `p`. -/
def value? (p : Placeholder) (v : Value) : Option Text :=
  match p.conversion, v with
  | .plain, .text t => some (p.layShown t)
  | .plain, v | .display, v => v.display.toOption.map p.layShown
  | .asciiDisplay, v => v.display.toOption.map fun t => p.layShown t.inAscii
  | .character, .text [c] => some (p.layText [c])
  | _, .int n => p.number? n
  | _, _ => none

/-- `p.whole? record` is the record as a whole in the place of `p`, if it is cut where its text is
known. -/
def whole? (p : Placeholder) (record : Record) : Option Text := do
  let opening ← record.opening.toOption
  let shown ← match p.conversion with
    | .plain | .display => some opening
    | .asciiDisplay => some opening.inAscii
    | _ => none
  if (← p.precision?) ≤ shown.length then pure (p.layShown shown) else none

/-- `p.fill? time fresh record` is what stands for the record in the place of `p`. Only a `fresh`
record, of which nothing has been shown yet, can stand as a whole. -/
def fill? (p : Placeholder) (time : Text) (fresh : Bool) (record : Record) : Option Text :=
  match p.field? with
  | some field => record.field? time field >>= p.value?
  | none => if fresh then p.whole? record else none

/-! ## Lemmas -/

/-- What follows the closing of a name is shorter than what the name is read from. -/
theorem length_up_to_closing {depth : Nat} {t name rest : Text}
    (h : upToClosing depth t = some (name, rest)) : rest.length < t.length := by
  induction t generalizing depth name with
  | nil => simp [upToClosing] at h
  | cons c tail ih =>
      simp only [upToClosing] at h
      have step : ∀ {d : Nat} {result : Option (Text × Text)}, upToClosing d tail = result →
          (result.map fun x => (c :: x.1, x.2)) = some (name, rest) →
          rest.length < (c :: tail).length := by
        intro d result hd hr
        simp only [Option.map_eq_some_iff, Prod.mk.injEq, Prod.exists] at hr
        obtain ⟨inner, after, hresult, -, rfl⟩ := hr
        have := ih (hd.trans hresult)
        simp only [List.length_cons]
        omega
      split at h
      · split at h
        · simp only [Option.some.injEq, Prod.mk.injEq] at h
          simp [← h.2]
        · exact step rfl h
      · exact step rfl h

/-- Reading the name of a placeholder makes nothing longer. -/
theorem length_read_field {t rest : Text} {field? : Option Text}
    (h : readField t = some (field?, rest)) : rest.length ≤ t.length := by
  cases t with
  | nil =>
      simp only [readField, Option.some.injEq, Prod.mk.injEq] at h
      simp [← h.2]
  | cons c tail =>
      simp only [readField] at h
      split at h
      · simp only [Option.map_eq_some_iff, Prod.mk.injEq, Prod.exists] at h
        obtain ⟨name, after, hname, -, rfl⟩ := h
        have := length_up_to_closing hname
        simp only [List.length_cons]
        omega
      · simp only [Option.some.injEq, Prod.mk.injEq] at h
        simp [← h.2]

/-- Reading a size makes nothing longer. -/
theorem length_read_size {t rest : Text} {size : Nat} (h : readSize t = some (size, rest)) :
    rest.length ≤ t.length := by
  simp only [readSize] at h
  split at h
  · simp only [Option.some.injEq, Prod.mk.injEq] at h
    rw [← h.2]
    exact (List.dropWhile_suffix _).length_le
  · simp at h

/-- Reading a precision makes nothing longer. -/
theorem length_read_precision {t rest : Text} {precision? : Option Nat}
    (h : readPrecision t = some (precision?, rest)) : rest.length ≤ t.length := by
  cases t with
  | nil =>
      simp only [readPrecision, Option.some.injEq, Prod.mk.injEq] at h
      simp [← h.2]
  | cons c tail =>
      simp only [readPrecision] at h
      split at h
      · simp only [Option.map_eq_some_iff, Prod.mk.injEq, Prod.exists] at h
        obtain ⟨size, after, hsize, -, rfl⟩ := h
        have := length_read_size hsize
        simp only [List.length_cons]
        omega
      · simp only [Option.some.injEq, Prod.mk.injEq] at h
        simp [← h.2]

/-- Dropping a length mark makes nothing longer. -/
theorem length_drop_length_mark (t : Text) : (dropLengthMark t).length ≤ t.length := by
  cases t with
  | nil => simp [dropLengthMark]
  | cons c rest =>
      simp only [dropLengthMark]
      split <;> simp

/-- Reading a placeholder leaves less text than there was. -/
theorem length_read {t rest : Text} {p : Placeholder} (h : read? t = some (p, rest)) :
    rest.length < t.length := by
  simp only [read?, Option.bind_eq_bind, Option.bind_eq_some_iff, Prod.exists] at h
  obtain ⟨field?, afterField, hField, width, afterWidth, hWidth, precision?, afterPrecision,
    hPrecision, hRest⟩ := h
  have fieldLength := length_read_field hField
  have flagsLength := (List.dropWhile_suffix (l := afterField) isFlag).length_le
  have widthLength := length_read_size hWidth
  have precisionLength := length_read_precision hPrecision
  have markLength := length_drop_length_mark afterPrecision
  split at hRest
  · simp at hRest
  · rename_i letter following hMark
    simp only [Option.bind_eq_some_iff, Prod.exists, Option.pure_def, Option.some.injEq,
      Prod.mk.injEq] at hRest
    obtain ⟨conversion, capitals, -, -, rfl⟩ := hRest
    rw [hMark] at markLength
    simp only [List.length_cons] at markLength
    omega

end Placeholder

end UriTemplate.Log
