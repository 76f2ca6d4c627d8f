import UriTemplate.Decimal

/-!
# Dates and times

A `Date` is a day of the Gregorian calendar, and a `DateTime` adds a time of day and, if known, its
offset from universal time in minutes. `Date.make?` and `DateTime.make?` refuse what is no such day
or time with a `CalendarError`. Both types have an ISO text and a constructor text.
-/

namespace UriTemplate

/-- A day of the calendar. -/
structure Date where
  year : Nat
  month : Nat
  day : Nat
deriving DecidableEq

/-- A time of a day. `offset?` is how many minutes its clock is ahead of universal time, or `none`
when that is not known. -/
structure DateTime where
  date : Date
  hour : Nat
  minute : Nat
  second : Nat
  microsecond : Nat
  offset? : Option Int
deriving DecidableEq

/-- Which part of a date or time is out of its range. -/
inductive CalendarError where
  | year (year : Nat)
  | month
  | day
  | hour
  | minute
  | second
  | offset (minutes : Int)
deriving DecidableEq

namespace Calendar

/-- `isLeap year` says that February has 29 days in the year. -/
def isLeap (year : Nat) : Bool :=
  year % 4 = 0 && (year % 100 ≠ 0 || year % 400 = 0)

/-- `daysInMonth year month` is the number of days of the month. -/
def daysInMonth (year month : Nat) : Nat :=
  if month = 2 then if isLeap year then 29 else 28
  else if month = 4 || month = 6 || month = 9 || month = 11 then 30
  else 31

/-- `daysBefore year` is the number of days of the years from one up to the year before `year`. -/
def daysBefore (year : Nat) : Nat :=
  let past := year - 1
  past * 365 + past / 4 - past / 100 + past / 400

/-- `durationText minutes` is the constructor of a duration of whole minutes. A negative one is
written as a negative number of days and a positive number of seconds. -/
def durationText (minutes : Int) : Text :=
  let days := minutes.fdiv 1440
  let seconds := (minutes.fmod 1440) * 60
  let parts := (if days = 0 then [] else [Text.ofString "days=" ++ Decimal.ofInt days]) ++
    (if seconds = 0 then [] else [Text.ofString "seconds=" ++ Decimal.ofInt seconds])
  let inside := if parts.isEmpty then Text.ofString "0" else Text.join (Text.ofString ", ") parts
  "datetime.timedelta(" ++ inside ++ ")"

end Calendar

namespace CalendarError

/-- `e.message` is the wording of the error `e`. -/
def message : CalendarError → Text
  | year n => "year " ++ Decimal.ofNat n ++ " is out of range"
  | month => "month must be in 1..12"
  | day => "day is out of range for month"
  | hour => "hour must be in 0..23"
  | minute => "minute must be in 0..59"
  | second => "second must be in 0..59"
  | offset minutes =>
      "offset must be a timedelta strictly between -timedelta(hours=24) and " ++
        Text.ofString "timedelta(hours=24), not " ++ Calendar.durationText minutes ++
        Text.ofString "."

end CalendarError

namespace Date

/-- `make? year month day` is that day, if there is one. -/
def make? (year month day : Nat) : Except CalendarError Date :=
  if year < 1 || 9999 < year then .error (.year year)
  else if month < 1 || 12 < month then .error .month
  else if day < 1 || Calendar.daysInMonth year month < day then .error .day
  else .ok ⟨year, month, day⟩

/-- `d.isoText` is the day `d` as year, month and day. -/
def isoText (d : Date) : Text :=
  Decimal.padded 4 d.year ++ Text.ofString "-" ++ Decimal.padded 2 d.month ++ Text.ofString "-" ++
    Decimal.padded 2 d.day

/-- `d.fields` is the year, the month and the day of `d`. -/
def fields (d : Date) : List Nat := [d.year, d.month, d.day]

/-- `d.constructorText` is the constructor of the day `d`. -/
def constructorText (d : Date) : Text :=
  "datetime.date(" ++ Text.join (Text.ofString ", ") (d.fields.map Decimal.ofNat) ++ ")"

/-- `d.ordinal` is the number of days up to `d` from the first day of year one. -/
def ordinal (d : Date) : Nat :=
  let daysOfMonths := (List.range (d.month - 1)).foldl (fun days passed =>
    days + Calendar.daysInMonth d.year (passed + 1)) 0
  Calendar.daysBefore d.year + daysOfMonths + d.day

end Date

namespace DateTime

/-- `make? …` is that time of that day, if there is one. The offset is less than a day. -/
def make? (year month day hour minute second microsecond : Nat) (offset? : Option Int) :
    Except CalendarError DateTime :=
  match offset? with
  | some offset =>
      if 1440 ≤ offset.natAbs then .error (.offset offset) else checked offset?
  | none => checked none
where
  checked (offset? : Option Int) : Except CalendarError DateTime := do
    let date ← Date.make? year month day
    if 23 < hour then .error .hour
    else if 59 < minute then .error .minute
    else if 59 < second then .error .second
    else pure ⟨date, hour, minute, second, microsecond, offset?⟩

/-- `offsetText minutes` is the offset as sign, hours and minutes. -/
def offsetText (minutes : Int) : Text :=
  CodePoint.ofChar (if minutes < 0 then '-' else '+') :: Decimal.padded 2 (minutes.natAbs / 60) ++
    Text.ofString ":" ++ Decimal.padded 2 (minutes.natAbs % 60)

/-- `t.isoText separator` is the time `t` with `separator` between day and time of day.
Microseconds are written unless there are none. -/
def isoText (separator : Char) (t : DateTime) : Text :=
  let colon := Text.ofString ":"
  t.date.isoText ++ [CodePoint.ofChar separator] ++ Decimal.padded 2 t.hour ++ colon ++
    Decimal.padded 2 t.minute ++ colon ++ Decimal.padded 2 t.second ++
    (if t.microsecond = 0 then [] else Text.ofString "." ++ Decimal.padded 6 t.microsecond) ++
    (match t.offset? with
    | some minutes => offsetText minutes
    | none => [])

/-- `t.constructorText` is the constructor of the time `t`. Seconds and microseconds are left out
where they are zero. -/
def constructorText (t : DateTime) : Text :=
  let fraction :=
    if t.microsecond = 0 then if t.second = 0 then [] else [t.second]
    else [t.second, t.microsecond]
  let zone := match t.offset? with
    | none => []
    | some 0 => [Text.ofString "tzinfo=datetime.timezone.utc"]
    | some minutes =>
        [Text.ofString "tzinfo=datetime.timezone(" ++ Calendar.durationText minutes ++
          Text.ofString ")"]
  let fields := t.date.fields ++ [t.hour, t.minute] ++ fraction
  "datetime.datetime(" ++ Text.join (Text.ofString ", ") (fields.map Decimal.ofNat ++ zone) ++ ")"

/-- `t.clock` counts the microseconds of `t` by its own clock from the first day of year one. -/
def clock (t : DateTime) : Int :=
  (((t.date.ordinal * 24 + t.hour) * 60 + t.minute) * 60 + t.second) * 1000000 + t.microsecond

/-- `same t u` says that `t` and `u` are the same time: the same instant if both offsets are known,
the same reading of the clock if neither is. -/
def same (t u : DateTime) : Bool :=
  match t.offset?, u.offset? with
  | some a, some b => t.clock - a * 60000000 = u.clock - b * 60000000
  | none, none => t = u
  | _, _ => false

end DateTime

end UriTemplate
