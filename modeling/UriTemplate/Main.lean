import Std.Time.DateTime
import UriTemplate.Bindings.Standard
import UriTemplate.Command.Run

/-!
# The command line

The program reads its command line, the file that it names, and the clock, and hands them to
`Command.run`. What that leaves behind goes to the two streams and into the exit status.
-/

namespace UriTemplate.Command

/-- `printed t` is the text `t` as a string. A surrogate is shown as the replacement character. -/
def printed (t : Text) : String :=
  String.ofList (t.map fun c => if c.isSurrogate then '\uFFFD' else Char.ofNat c.val)

/-- `timeText` is the time of day and its day, in universal time and to the millisecond. -/
def timeText : IO Text := do
  let now := (Std.Time.DateTime.ofTimestamp (← Std.Time.Timestamp.now)
    Std.Time.TimeZone.ZoneRules.UTC).toPlainDateTime
  let date : Date := ⟨now.date.year.toInt.toNat, now.date.month.val.toNat, now.date.day.val.toNat⟩
  let two := fun n : Int => Decimal.padded 2 n.toNat
  let milliseconds := Decimal.padded 3 (now.time.nanosecond.val.toNat / 1000000)
  return date.isoText ++ " " ++ two now.time.hour.val ++ ":" ++ two now.time.minute.val ++ ":" ++
    two now.time.second.val ++ "," ++ milliseconds

/-- `fileError e` is why a file could not be read. -/
def fileError : IO.Error → FileError
  | .noFileOrDirectory .. => .missing
  | .inappropriateType _ code _ => if code = 21 then .directory else .notDirectory
  | .invalidArgument _ code _ => if code = 22 then .nullByte else .nameTooLong
  | _ => .denied

/-- `readFile line` reads the file that the command line names, if it names one. -/
def readFile (line : List Text) : IO ReadFile := do
  match Request.ofLine line with
  | .ok ⟨_, .expand _ (some path) _⟩ =>
      try
        let bytes ← IO.FS.readBinFile (printed (normalPath path))
        return fun _ => .ok (bytes.toList.map fun b => Byte.ofNat b.toNat)
      catch e => return fun _ => .error (fileError e)
  | _ => return fun _ => .error .missing

/-- `program words` runs the command line made of the words, and gives the exit status. -/
def program (words : List String) : IO UInt32 := do
  let line := words.map Text.ofString
  match run Libraries.standard (← readFile line) (← timeText) line with
  | .ok outcome =>
      (← IO.getStdout).putStr (printed outcome.output)
      (← IO.getStderr).putStr (printed outcome.errors)
      return UInt32.ofNat outcome.status
  | .error e =>
      (← IO.getStderr).putStrLn (printed e.message)
      return 1

end UriTemplate.Command

/-- The program. -/
def main (words : List String) : IO UInt32 := UriTemplate.Command.program words
