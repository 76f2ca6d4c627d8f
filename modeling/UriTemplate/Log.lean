import UriTemplate.Log.Format
import UriTemplate.Log.Notice

/-!
# The log

A `Log` is the state of logging: the level of the package, its handlers, and the level of whatever
lies outside. `Log.setup` configures it once, `Log.setLevel` moves the level of the package and of
its handlers together, and `Log.write` is what a record leaves on the error stream. A record is
written if its level reaches the effective level of its logger and that of a handler.
-/

namespace UriTemplate

namespace Log

/-- A handler writes the records that reach its level, in its format. -/
structure Handler where
  level : Level
  format : Text
deriving DecidableEq

end Log

/-- The state of logging. The loggers below that of the package have no level of their own. -/
structure Log where
  configured : Bool
  level : Log.Level
  handlers : List Log.Handler
  outerLevel : Log.Level
deriving DecidableEq

namespace Log

/-- A format without a placeholder. -/
structure FormatError where
  format : Text
deriving DecidableEq

/-- `e.message` is the wording of the error `e`. -/
def FormatError.message (e : FormatError) : Text :=
  "Invalid format '" ++ e.format ++ "' for '%' style"

/-- The state in which nothing is configured. -/
def bare : Log := ⟨false, Level.unset, [], Level.warning⟩

/-- `log.reset` is the state after the handlers and the level of the package are dropped. -/
def reset (log : Log) : Log :=
  { log with configured := false, level := Level.unset, handlers := [] }

/-- `log.setup level format` is the state after the package is given a level and one handler with
the format, or with the standard one if the format is empty. A configured log stays as it is. -/
def setup (log : Log) (level : Level) (format : Text) : Log × Except FormatError Unit :=
  let format := if format.isEmpty then Format.standard else format
  if log.configured then (log, .ok ())
  else if Format.isValid format then
    ({ log with configured := true, level := level, handlers := [⟨Level.unset, format⟩] }, .ok ())
  else ({ log with level := level, handlers := [] }, .error ⟨format⟩)

/-- `log.ensure` is the state after the log is configured in the standard way, unless it is
already. -/
def ensure (log : Log) : Log := (log.setup Level.warning Format.standard).1

/-- The state in which logging is configured in the standard way. -/
def standard : Log := bare.ensure

/-- `log.setLevel level` is the state after the level of the package and of its handlers is set. -/
def setLevel (log : Log) (level : Level) : Log :=
  let log := log.ensure
  { log with level := level, handlers := log.handlers.map fun h => { h with level := level } }

/-- `log.enableDebug` is the state after details are asked for. -/
def enableDebug (log : Log) : Log := log.setLevel Level.debug

/-- `log.disableDebug` is the state after the standard level is asked for. -/
def disableDebug (log : Log) : Log := log.setLevel Level.warning

/-! ## Loggers -/

/-- The name of the logger of the package. -/
def packageLogger : Text := "uritpl"

/-- `isPackaged logger` says that the logger is that of the package or lies below it. -/
def isPackaged (logger : Text) : Bool :=
  logger = packageLogger || (packageLogger ++ Text.ofString ".").isPrefixOf logger

/-- `isOutermost logger` says that the logger lies above all others. -/
def isOutermost (logger : Text) : Bool := logger.isEmpty || logger = Text.ofString "root"

/-- `log.inherit logger` is the state after the logger gives up a level of its own. -/
def inherit (log : Log) (logger : Text) : Log :=
  let log := log.ensure
  if logger = packageLogger then { log with level := Level.unset }
  else if isOutermost logger then { log with outerLevel := Level.unset }
  else log

/-- `log.levelOf logger` is the level of the logger itself. -/
def levelOf (log : Log) (logger : Text) : Level :=
  if logger = packageLogger then log.level
  else if isOutermost logger then log.outerLevel
  else Level.unset

/-- `log.effectiveLevel logger` is the first level that is set, from the logger outwards. -/
def effectiveLevel (log : Log) (logger : Text) : Level :=
  if isPackaged logger && log.level ≠ Level.unset then log.level else log.outerLevel

/-! ## Writing -/

/-- `log.isEnabled record` says that the record reaches the effective level of its logger. -/
def isEnabled (log : Log) (record : Record) : Bool :=
  Level.unset < record.level && log.effectiveLevel record.logger ≤ record.level

/-- `h.write time record` is what the handler writes of a record. -/
def Handler.write (h : Handler) (time : Text) (record : Record) : Text :=
  if h.level ≤ record.level then
    match Format.line? time record h.format with
    | some line => line ++ Text.ofString "\n"
    | none => []
  else []

/-- `writeBare record` is what is written of a record for which there is no handler: the message of
a record that warns. -/
def writeBare (record : Record) : Text :=
  if Level.warning ≤ record.level then record.message ++ Text.ofString "\n" else []

/-- `log.write time record` is what is written of the record at the given time. -/
def write (log : Log) (time : Text) (record : Record) : Text :=
  if log.isEnabled record then
    match if isPackaged record.logger then log.handlers else [] with
    | [] => writeBare record
    | handlers => handlers.flatMap (·.write time record)
  else []

/-- `log.writeAll time notices` is what is written of the notices, in order. -/
def writeAll (log : Log) (time : Text) (notices : List Notice) : Text :=
  notices.flatMap fun n => log.write time n.record

end Log

end UriTemplate
