import UriTemplate.Value.Calendar

/-!
# Errors of a document

A `Yaml.Error` says at which stage the reading of a document fails: on a forbidden character, on a
token, on the structure of the tokens, on a reference between nodes, on a node that needs itself
without end, or on the value of a node. A `Yaml.ValueError` is a scalar or an entry that has no
value although its form is that of its tag.
-/

namespace UriTemplate.Yaml

/-- Why a node has no value. -/
inductive ValueError where
  | integer (e : Decimal.IntegerError)
  | number (t : Text)
  | emptyNumber
  | hugeNumber
  | boolean (t : Text)
  | timestamp
  | timestampEntries
  | calendar (e : CalendarError)
  | codePoint (n : Nat)
  | textEntry
  | nodeEntry (kind : Text)
deriving DecidableEq

namespace ValueError

/-- `e.kind` is the name of the kind of the error `e`. -/
def kind : ValueError → Text
  | integer _ | number _ | calendar _ | textEntry => "ValueError"
  | emptyNumber => "IndexError"
  | hugeNumber => "OverflowError"
  | boolean _ => "KeyError"
  | timestamp => "AttributeError"
  | codePoint n => if n < 0x80000000 then "ValueError" else "OverflowError"
  | nodeEntry _ | timestampEntries => "TypeError"

/-- `e.message` is the wording of the error `e`. -/
def message : ValueError → Text
  | integer e => e.message
  | number t => "could not convert string to float: " ++ t.quoted
  | emptyNumber => "string index out of range"
  | hugeNumber => "int too large to convert to float"
  | boolean t => t.quoted
  | timestamp => "'NoneType' object has no attribute 'groupdict'"
  | timestampEntries => "expected string or bytes-like object, got 'list'"
  | calendar e => e.message
  | codePoint n =>
      if n < 0x80000000 then "chr() arg not in range(0x110000)"
      else "Python int too large to convert to C int"
  | textEntry => "not enough values to unpack (expected 2, got 1)"
  | nodeEntry kind => "cannot unpack non-iterable " ++ kind ++ " object"

end ValueError

/-- At which stage the reading of a document fails. -/
inductive Error where
  | character
  | token
  | layout
  | reference
  | noValue
  | endless
  | value (e : ValueError)
deriving DecidableEq

namespace Error

/-- `e.kind` is the name of the kind of the error `e`. -/
def kind : Error → Text
  | character => "ReaderError"
  | token => "ScannerError"
  | layout => "ParserError"
  | reference => "ComposerError"
  | noValue => "ConstructorError"
  | endless => "RecursionError"
  | value e => e.kind

/-- `e.message` is the wording of the error `e`. -/
def message : Error → Text
  | character => "a character is not allowed"
  | token => "a token cannot be read"
  | layout => "the structure is not that of a document"
  | reference => "a reference or a further document is out of place"
  | noValue => "a node has no value"
  | endless => "maximum recursion depth exceeded"
  | value e => e.message

end Error

end UriTemplate.Yaml
