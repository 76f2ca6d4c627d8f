import UriTemplate.Value.Display

/-!
# Records of the log

A record is a message together with its level, the name of the logger that it goes through and, if
known, its origin. `Log.Level.name` words a level: five levels have names of their own.
`Record.fields` is what a line of the log may show of a record.
-/

namespace UriTemplate.Log

/-- How severe a record is. Level zero stands for a level that is not set. -/
abbrev Level := Int

namespace Level

/-- The level that is not set. -/
def unset : Level := 0

/-- The level of details. -/
def debug : Level := 10

/-- The level of what is worth knowing. -/
def info : Level := 20

/-- The level of what may be wrong. -/
def warning : Level := 30

/-- The level of failures. -/
def error : Level := 40

/-- The level of failures that end everything. -/
def critical : Level := 50

/-- `name level` is the word for the level. -/
def name (level : Level) : Text :=
  if level = unset then "NOTSET"
  else if level = debug then "DEBUG"
  else if level = info then "INFO"
  else if level = warning then "WARNING"
  else if level = error then "ERROR"
  else if level = critical then "CRITICAL"
  else "Level " ++ Decimal.ofInt level

end Level

/-- Where in the program a record is made: a function of the module that owns the logger, and a
line. -/
structure Origin where
  function : Text
  line : Nat
deriving DecidableEq

/-- A message on its way to the handlers. -/
structure Record where
  logger : Text
  level : Level
  message : Text
  origin? : Option Origin
deriving DecidableEq

namespace Record

/-- `record.module` is the name of the module that owns the logger of the record. -/
def module (record : Record) : Text := ((Text.splitOn '.' record.logger).getLast?).getD []

/-- `record.leadingFields` is the fields of the record before those that tell of its origin. -/
def leadingFields (record : Record) : List (String × Value) :=
  [("name", .text record.logger), ("msg", .text record.message), ("args", .tuple []),
   ("levelname", .text (Level.name record.level)), ("levelno", .int record.level)]

/-- `record.originFields` is the fields of the record that tell of its origin. -/
def originFields (record : Record) : List (String × Value) :=
  match record.origin? with
  | none => []
  | some origin =>
      [("filename", .text (record.module ++ Text.ofString ".py")),
       ("module", .text record.module), ("lineno", .int origin.line),
       ("funcName", .text origin.function)]

/-- `record.fields time` is the known fields of the record, when it is written at the given time. No
record tells of an exception. -/
def fields (time : Text) (record : Record) : List (String × Value) :=
  record.leadingFields ++ record.originFields ++
    [("exc_info", .null), ("exc_text", .null), ("stack_info", .null),
     ("threadName", .text "MainThread"), ("processName", .text "MainProcess"),
     ("message", .text record.message), ("asctime", .text time)]

/-- `record.field? time name` is the field of the given name, when the record is written at the
given time. -/
def field? (time : Text) (record : Record) (name : Text) : Option Value :=
  ((record.fields time).find? fun (known, _) => name = Text.ofString known).map (·.2)

/-- `record.opening` is how the text of all fields of the record starts. Where the files of the
program lie is not known. -/
def opening (record : Record) : Except Decimal.LimitError Text := do
  let shown ← (Value.mapping (record.leadingFields.map fun (name, v) => (.text name, v))).display
  pure (shown.dropLast ++ Text.ofString ", 'pathname': '")

end Record

end UriTemplate.Log
