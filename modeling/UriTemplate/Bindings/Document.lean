import UriTemplate.Bindings.Schema
import UriTemplate.Value.Display
import UriTemplate.Yaml.TextKeys

/-!
# Bindings documents

A bindings document maps names to values, each of which meets `Schema.binding`.
`Bindings.ofDocument?` reads a document with given `Libraries`, and tells an empty one from one
without entries; `Bindings.ofDocument` does not. Before any value is judged, each must be one that
can be written.
-/

namespace UriTemplate

/-- What documents are read with: a library that loads them, and how bindings are refused that do
not meet the schema. -/
structure Libraries where
  yaml : Yaml.Library
  rejection : Bindings → Text

namespace Bindings

/-- Why a document binds no variables. -/
inductive DocumentError where
  | yaml (e : Yaml.Failure)
  | notMapping
  | digitLimit (e : Decimal.LimitError)
  | unsupported (name : Text) (message : Text)
deriving DecidableEq

namespace DocumentError

/-- `e.kind` is the name of the kind of the error `e`. -/
def kind : DocumentError → Text
  | yaml e => e.kind
  | notMapping | digitLimit _ => "ValueError"
  | unsupported _ _ => "ValidationError"

/-- `e.message` is the wording of the error `e`. -/
def message : DocumentError → Text
  | yaml e => e.message
  | notMapping => "The provided bindings must map to a dictionary at top-level."
  | digitLimit e => e.message
  | unsupported _ message => message

end DocumentError

/-- `ofEntries entries` is the bindings that the entries of a mapping make up. The keys of a
document are texts. -/
def ofEntries (entries : List (Value × Value)) : Bindings :=
  entries.filterMap fun (key, value) =>
    match key with
    | .text name => some (name, value)
    | _ => none

/-- `checkWritable bindings` fails if a bound value holds an integer that cannot be written. -/
def checkWritable : Bindings → Except Decimal.LimitError Unit
  | [] => .ok ()
  | (_, value) :: rest => do
      let _ ← value.display
      checkWritable rest

/-- `check libs bindings` is the bindings, all of whose values may be bound by a document. -/
def check (libs : Libraries) (bindings : Bindings) : Except DocumentError Bindings := do
  (checkWritable bindings).mapError .digitLimit
  match bindings.find? fun (_, value) => !Schema.binding.accepts value with
  | some (name, _) => throw (.unsupported name (libs.rejection bindings))
  | none => pure bindings

/-- `ofValue? libs v` is the bindings that the value `v` of a document stands for, or `none` when it
is null. -/
def ofValue? (libs : Libraries) : Value → Except DocumentError (Option Bindings)
  | .null => .ok none
  | .mapping entries => return some (← check libs (ofEntries entries))
  | _ => .error .notMapping

/-- `ofDocument? libs document` is the bindings of the document, or `none` when it is empty. -/
def ofDocument? (libs : Libraries) (document : Text) : Except DocumentError (Option Bindings) := do
  ofValue? libs (← (libs.yaml.read document).mapError .yaml)

/-- `ofDocument libs document` is the bindings of the document. An empty document binds nothing. -/
def ofDocument (libs : Libraries) (document : Text) : Except DocumentError Bindings :=
  return (← ofDocument? libs document).getD []

end Bindings

end UriTemplate
