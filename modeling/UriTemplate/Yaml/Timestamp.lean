import UriTemplate.Value.Calendar

/-!
# Timestamps

A `Timestamp` is the fields of a written date or time. `Timestamp.read?` takes it apart, whether or
not the fields make a date, and `Timestamp.isImplied` says which written forms are dates or times
without a tag: a lone date has two digits for month and day.
-/

namespace UriTemplate.Yaml

/-- The time of day of a timestamp as it is written. -/
structure ClockReading where
  hour : Nat
  minute : Nat
  second : Nat
  fraction : Text
  offset? : Option Int
deriving DecidableEq

/-- The fields of a timestamp as they are written. -/
structure Timestamp where
  year : Nat
  month : Nat
  day : Nat
  clock? : Option ClockReading
deriving DecidableEq

namespace Timestamp

/-- `digits? least greatest t` is the number at the start of `t`, of at least and at most that many
digits and as many as there are, with what follows. -/
def digits? (least greatest : Nat) (t : Text) : Option (Nat × Text) :=
  let run := (t.takeWhile CodePoint.isDigit).take greatest
  if run.length < least then none else some (Decimal.value run, t.drop run.length)

/-- `after? c t` is `t` without the character `c` at its start. -/
def after? (c : Char) : Text → Option Text
  | [] => none
  | d :: rest => if d = c then some rest else none

/-- `isBlankOrTab c` says that `c` may stand between the parts of a timestamp. -/
def isBlankOrTab (c : CodePoint) : Bool := c = ' ' || c = '\t'

/-- `offset? t` is the offset in minutes that the whole of `t` writes after blanks: the letter `Z`,
or a sign, hours, and minutes if there are any. -/
def offset? (t : Text) : Option Int :=
  match t.dropWhile isBlankOrTab with
  | [] => none
  | c :: rest =>
      if c = 'Z' then if rest.isEmpty then some 0 else none
      else if c = '+' || c = '-' then do
        let (hours, afterHours) ← digits? 1 2 rest
        let minutes ←
          if afterHours.isEmpty then some 0
          else do
            let (minutes, final) ← digits? 2 2 (← after? ':' afterHours)
            if final.isEmpty then some minutes else none
        let total : Int := hours * 60 + minutes
        some (if c = '-' then -total else total)
      else none

/-- `clockReading? t` is the time of day that the whole of `t` writes after the letter `T` or
blanks. -/
def clockReading? (t : Text) : Option ClockReading := do
  let time ←
    match t with
    | [] => none
    | c :: rest =>
        if c = 'T' || c = 't' then some rest
        else if isBlankOrTab c then some (rest.dropWhile isBlankOrTab)
        else none
  let (hour, afterHour) ← digits? 1 2 time
  let (minute, afterMinute) ← digits? 2 2 (← after? ':' afterHour)
  let (second, afterSecond) ← digits? 2 2 (← after? ':' afterMinute)
  let (fraction, rest) :=
    match after? '.' afterSecond with
    | some fraction =>
        (fraction.takeWhile CodePoint.isDigit, fraction.dropWhile CodePoint.isDigit)
    | none => ([], afterSecond)
  if rest.isEmpty then some ⟨hour, minute, second, fraction, none⟩
  else
    let offset ← offset? rest
    some ⟨hour, minute, second, fraction, some offset⟩

/-- `read? t` is the timestamp that the whole of `t` writes. -/
def read? (t : Text) : Option Timestamp := do
  let (year, afterYear) ← digits? 4 4 t
  let (month, afterMonth) ← digits? 1 2 (← after? '-' afterYear)
  let (day, rest) ← digits? 1 2 (← after? '-' afterMonth)
  if rest.isEmpty then some ⟨year, month, day, none⟩
  else
    let clock ← clockReading? rest
    some ⟨year, month, day, some clock⟩

/-- `isImplied t` says that `t` is a timestamp without a tag. -/
def isImplied (t : Text) : Bool :=
  match read? t with
  | some ⟨_, _, _, none⟩ => t.length = 10
  | some _ => true
  | none => false

/-- `microseconds fraction` is the first six digits of a fraction of a second as a number. -/
def microseconds (fraction : Text) : Nat :=
  let shown := fraction.take 6
  Decimal.value shown * Nat.pow 10 (6 - shown.length)

end Timestamp

end UriTemplate.Yaml
