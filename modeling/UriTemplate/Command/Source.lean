import UriTemplate.Bindings.Document
import UriTemplate.Text.Utf8

/-!
# Sources of bindings

A command takes its bindings from a document in a file and from assignments on the command line.
`Bindings.ofBytes?` reads the document from the bytes of the file, `Bindings.ofAssignments` reads
assignments, and a `SourceError` says what is wrong with either.
-/

namespace UriTemplate

/-- `e.message` is the wording of the error `e`: the bytes at fault, where they are, and why they
cannot be read. -/
def Utf8.Error.message (e : Utf8.Error) : Text :=
  let reason : Text := match e.fault with
    | .start => "invalid start byte"
    | .continuation => "invalid continuation byte"
    | .truncated => "unexpected end of data"
  let place : Text := match e.bytes with
    | [b] =>
        "byte 0x" ++ Text.hex Text.lowerHex 2 b.val ++ " in position " ++ Decimal.ofNat e.position
    | bytes =>
        "bytes in position " ++ Decimal.ofNat e.position ++ "-" ++
          Decimal.ofNat (e.position + bytes.length - 1)
  "'utf-8' codec can't decode " ++ place ++ ": " ++ reason

namespace Command

/-! ## Paths -/

/-- `pathRoot path` is the slashes that make a path start at a root: two of them stay two, any
other number becomes one. -/
def pathRoot (path : Text) : Text :=
  match (path.takeWhile fun c : CodePoint => c = '/').length with
  | 0 => []
  | 2 => "//"
  | _ => "/"

/-- `normalPath path` is the path without empty parts and without parts that stay in place. -/
def normalPath (path : Text) : Text :=
  let parts := (Text.splitOn '/' path).filter fun part =>
    !part.isEmpty && part ≠ Text.ofString "."
  match pathRoot path ++ Text.join (Text.ofString "/") parts with
  | [] => "."
  | normal => normal

/-! ## Errors -/

/-- Why a file cannot be read. A path is `unencodable` from its first surrogate that stands for no
byte. -/
inductive FileError where
  | missing
  | notDirectory
  | directory
  | denied
  | nameTooLong
  | nullByte
  | unencodable (surrogates : Text) (position : Nat)
deriving DecidableEq

/-- Why bindings cannot be taken from their sources. -/
inductive SourceError where
  | file (path : Text) (e : FileError)
  | encoding (e : Utf8.Error)
  | document (e : Bindings.DocumentError)
  | assignment (item : Text)
deriving DecidableEq

namespace FileError

/-- `e.kind` is the name of the kind of the error `e`. -/
def kind : FileError → Text
  | missing => "FileNotFoundError"
  | notDirectory => "NotADirectoryError"
  | directory => "IsADirectoryError"
  | denied => "PermissionError"
  | nameTooLong => "OSError"
  | nullByte => "ValueError"
  | unencodable .. => "UnicodeEncodeError"

/-- `e.message path` is the wording of the error `e` at the given path. -/
def message (e : FileError) (path : Text) : Text :=
  match e with
  | missing => "[Errno 2] No such file or directory: " ++ path.quoted
  | notDirectory => "[Errno 20] Not a directory: " ++ path.quoted
  | directory => "[Errno 21] Is a directory: " ++ path.quoted
  | denied => "[Errno 13] Permission denied: " ++ path.quoted
  | nameTooLong => "[Errno 36] File name too long: " ++ path.quoted
  | nullByte => "embedded null byte"
  | unencodable surrogates position =>
      let place : Text := match surrogates with
        | [c] => "character '" ++ c.numbered ++ "' in position " ++ Decimal.ofNat position
        | _ => "characters in position " ++ Decimal.ofNat position ++ "-" ++
            Decimal.ofNat (position + surrogates.length - 1)
      "'utf-8' codec can't encode " ++ place ++ ": surrogates not allowed"

end FileError

/-- `standsForByte c` says that the surrogate `c` stands for a byte above ASCII in a path. -/
def standsForByte (c : CodePoint) : Bool := 0xDC80 ≤ c.val && c.val ≤ 0xDCFF

/-- `surrogateFault? position path` is the fault of a surrogate in the path, of which the first code
point has the given position. -/
def surrogateFault? (position : Nat) : Text → Option FileError
  | [] => none
  | c :: rest =>
      if c.isSurrogate && !standsForByte c then
        some (.unencodable ((c :: rest).takeWhile CodePoint.isSurrogate) position)
      else surrogateFault? (position + 1) rest

/-- `pathFault? path` is why no file has the given path, whatever files there are. -/
def pathFault? (path : Text) : Option FileError :=
  (surrogateFault? 0 path).or
    (if path.any fun c => c.val = 0 then some .nullByte else none)

namespace SourceError

/-- `e.kind` is the name of the kind of the error `e`. -/
def kind : SourceError → Text
  | file _ e => e.kind
  | encoding _ => "UnicodeDecodeError"
  | document e => e.kind
  | assignment _ => "ValueError"

/-- `e.message` is the wording of the error `e`. -/
def message : SourceError → Text
  | file path e => e.message path
  | encoding e => e.message
  | document e => e.message
  | assignment item => "Expected NAME=VALUE, got '" ++ item ++ "'"

/-- `e.report` is how a command reports the error `e`. -/
def report : SourceError → Text
  | file path .missing => "Bindings file not found: " ++ path
  | e => "Failed to load bindings: " ++ e.kind ++ ": " ++ e.message

end SourceError

end Command

/-! ## Bindings -/

namespace Bindings

/-- `unifyLineEnds t` is `t` with every line end as a line feed. -/
def unifyLineEnds : Text → Text
  | [] => []
  | c :: rest =>
      if c = '\r' then
        match rest with
        | [] => [CodePoint.ofChar '\n']
        | d :: rest' =>
            if d = '\n' then CodePoint.ofChar '\n' :: unifyLineEnds rest'
            else CodePoint.ofChar '\n' :: unifyLineEnds (d :: rest')
      else c :: unifyLineEnds rest

/-- `ofBytes? libs bytes` is the bindings of the document that the bytes stand for, or `none` when
it is empty. -/
def ofBytes? (libs : Libraries) (bytes : List Byte) :
    Except Command.SourceError (Option Bindings) := do
  let document ← (Utf8.decode false bytes).mapError .encoding
  (ofDocument? libs (unifyLineEnds document)).mapError .document

/-- `assignment? item` is the name and the value that an assignment gives it. The first equals sign
comes between them. -/
def assignment? (item : Text) : Option (Text × Text) :=
  match Text.splitFirst '=' item with
  | some (name, value) => if name.isEmpty then none else some (name, value)
  | none => none

/-- `ofAssignments items` is the bindings that the assignments make in order. -/
def ofAssignments (items : List Text) : Except Command.SourceError Bindings := do
  let entries ← items.mapM fun item =>
    match assignment? item with
    | some (name, value) => .ok (name, Value.text value)
    | none => .error (.assignment item)
  pure (ofList entries)

end Bindings

end UriTemplate
