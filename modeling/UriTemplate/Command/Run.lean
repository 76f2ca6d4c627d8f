import UriTemplate.Command.Request
import UriTemplate.Command.Source
import UriTemplate.Log.Session

/-!
# Running a command

`Task.report` does what a task asks for: it gives notices and either a text to print or the reason
why there is none. `run` takes a whole command line to its `Outcome`, that is, the exit status and
what is written to the two streams. Files are read through a function from normal paths to bytes,
and the documents in them with given libraries.
-/

namespace UriTemplate.Command

/-- Why a task fails. -/
inductive Failure where
  | template (e : ParseError)
  | source (e : SourceError)
deriving DecidableEq

/-- `f.message` is how a command reports the failure `f`. -/
def Failure.message : Failure → Text
  | .template e => "Invalid template: " ++ e.message
  | .source e => e.report

/-- What ends a task: a failure, which is reported, or an integer with too many digits, which
is not. -/
inductive Abort where
  | failure (f : Failure)
  | digitLimit (e : Decimal.LimitError)
deriving DecidableEq

/-- What a task reports on its way, and its result: the text to print, or why there is none. -/
structure Report where
  notices : List Notice
  result : Except Abort Text

namespace Report

/-- `r.after notices` is the report `r` with notices before its own. -/
def after (r : Report) (notices : List Notice) : Report :=
  { r with notices := notices ++ r.notices }

/-- `failed e` is the report of a source that gives no bindings. -/
def failed (e : SourceError) : Report := ⟨[], .error (.failure (.source e))⟩

end Report

/-- How a command reads the file at a normal path. -/
abbrev ReadFile := Text → Except FileError (List Byte)

/-- `fileBytes read path` is the content of the file at the path. -/
def fileBytes (read : ReadFile) (path : Text) : Except FileError (List Byte) :=
  match pathFault? path with
  | some e => .error e
  | none => read path

/-- `loadFile libs read path` is the bindings in the file at the path, or `none` when it is
empty. -/
def loadFile (libs : Libraries) (read : ReadFile) (path : Text) :
    Except SourceError (Option Bindings) := do
  Bindings.ofBytes? libs (← (fileBytes read path).mapError (.file path))

/-- `withTemplate text use` is what `use` reports of the template with the given text. -/
def withTemplate (text : Text) (use : Template → Report) : Report :=
  match Template.parse Limits.standard text with
  | .ok template => (use template).after [template.notice]
  | .error (.digitLimit e) => ⟨[], .error (.digitLimit e)⟩
  | .error e => ⟨[], .error (.failure (.template e))⟩

/-- `undefinedNotices template bindings` reports the names in the template that are not bound. -/
def undefinedNotices (template : Template) (bindings : Bindings) : List Notice :=
  match template.names.filter fun name => (bindings.get? name).isNone with
  | [] => []
  | names => [.undefined names]

/-- `printExpansion template bindings` reports the expansion of the template. -/
def printExpansion (template : Template) (bindings : Bindings) : Report where
  notices := undefinedNotices template bindings ++ template.notices bindings
  result :=
    match template.expand bindings with
    | .ok expansion => .ok (expansion ++ Text.ofString "\n")
    | .error e => .error (.digitLimit e)

/-- `assignAndExpand template bindings assignments` reports the expansion of the template under the
bindings and the assignments, which prevail. -/
def assignAndExpand (template : Template) (bindings : Bindings) (assignments : List Text) :
    Report :=
  match Bindings.ofAssignments assignments with
  | .error e => Report.failed e
  | .ok assigned => printExpansion template (bindings.update assigned)

/-- `expand libs read template path? assignments` reports the expansion of the template under the
bindings of a file, if there is one, and the assignments. -/
def expand (libs : Libraries) (read : ReadFile) (template : Template) (path? : Option Text)
    (assignments : List Text) : Report :=
  match path? with
  | none => assignAndExpand template [] assignments
  | some written =>
      let path := normalPath written
      let report := match loadFile libs read path with
        | .error e => Report.failed e
        | .ok bindings? =>
            (assignAndExpand template (bindings?.getD []) assignments).after
              (Bindings.notices bindings?)
      report.after [.loading path]

/-- `task.report libs read` is what the task reports. -/
def Task.report (libs : Libraries) (read : ReadFile) : Task → Report
  | .expand text path? assignments =>
      withTemplate text fun template => Command.expand libs read template path? assignments
  | .names text =>
      withTemplate text fun template =>
        ⟨[], .ok (template.names.flatMap fun name => name ++ Text.ofString "\n")⟩
  | .validate text =>
      withTemplate text fun template =>
        ⟨[], .ok ("✅ Template is valid (" ++ Decimal.ofNat template.names.length ++
          Text.ofString " variable reference(s))\n")⟩

/-- `v.level` is the level of the log that `v` asks for. -/
def Verbosity.level : Verbosity → Log.Level
  | verbose => Log.Level.debug
  | quiet => Log.Level.error
  | normal => Log.Level.warning

/-- `r.report libs read` is what the request reports. -/
def Request.report (libs : Libraries) (read : ReadFile) (r : Request) : Report :=
  (r.task.report libs read).after (if r.verbosity = .verbose then [.debugEnabled] else [])

/-- What a command leaves behind: its exit status, what it wrote to the two streams, and the failure
if there was one. -/
structure Outcome where
  status : Nat
  output : Text
  errors : Text
  failure? : Option Failure
deriving DecidableEq

/-- `r.outcome log time` is the outcome of a task with the report `r`, under the given log. A
failure is reported on both streams. -/
def Report.outcome (r : Report) (log : Log) (time : Text) : Except Decimal.LimitError Outcome :=
  match r.result with
  | .ok text => .ok ⟨0, text, log.writeAll time r.notices, none⟩
  | .error (.failure f) =>
      .ok ⟨1, "❌ ERROR: " ++ f.message ++ "\n",
        log.writeAll time (r.notices ++ [.failed f.message]), some f⟩
  | .error (.digitLimit e) => .error e

/-- `r.outcome` is the outcome of a command line that is refused. -/
def Refusal.outcome : Refusal → Outcome
  | help g => ⟨0, g.help, [], none⟩
  | misuse g e => ⟨2, [], g.usage ++ g.program ++ ": error: " ++ e.message ++ "\n", none⟩

/-- `run libs read time line` is the outcome of the command line, with the given time in the log. -/
def run (libs : Libraries) (read : ReadFile) (time : Text) (line : List Text) :
    Except Decimal.LimitError Outcome :=
  match Request.ofLine line with
  | .error refusal => .ok refusal.outcome
  | .ok request =>
      (request.report libs read).outcome (Log.standard.setLevel request.verbosity.level) time

end UriTemplate.Command
