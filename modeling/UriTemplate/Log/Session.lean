import UriTemplate.Bindings.Document
import UriTemplate.Log
import UriTemplate.Template

/-!
# Logged sessions

`Log.step` carries out one step: a change of the log, a record of somebody else, or work of the
library, whose notices go through the log. Its outcome holds what the step answers and what it
wrote. `Log.run` carries out the steps in order. Documents are loaded with given libraries.
-/

namespace UriTemplate

/-! ## Notices of the library's work -/

/-- `t.notice` reports that the template was parsed. -/
def Template.notice (t : Template) : Notice := .parsed t.text t.components.length

/-- `t.notices bindings` reports the bound values that the expansion of the template ignores. -/
def Template.notices (t : Template) (bindings : Bindings) : List Notice :=
  (ignoredShapes bindings t.specs).map .ignored

/-- `Bindings.notices bindings?` reports that a document was loaded, unless it is empty. -/
def Bindings.notices (bindings? : Option Bindings) : List Notice :=
  (bindings?.map fun bindings => Notice.loaded bindings.length).toList

namespace Log

/-- What can be asked of a log and of the library that writes to it. -/
inductive Step where
  | reset
  | setup (level : Level) (format : Text)
  | enableDebug
  | disableDebug
  | setLevel (level : Level)
  | inherit (logger : Text)
  | write (record : Record)
  | parse (text : Text)
  | expand (text : Text) (bindings : Bindings)
  | load (document : Text)

/-- The answer of a step that succeeds. -/
inductive Reply where
  | done
  | logger (name : Text) (level effective : Level)
  | expansion (text : Text)
  | bindings (bindings : Bindings)

/-- Why a step fails. -/
inductive StepError where
  | format (e : FormatError)
  | expand (e : ExpandError)
  | document (e : Bindings.DocumentError)
deriving DecidableEq

/-- What a step answers, and what it writes. -/
structure Outcome where
  reply : Except StepError Reply
  output : Text

/-- `log.report time notices reply` is the outcome of work of the library with the given notices. -/
def report (log : Log) (time : Text) (notices : List Notice) (reply : Except StepError Reply) :
    Outcome :=
  ⟨reply, log.writeAll time notices⟩

/-- `log.expandText time text bindings` is the outcome of the expansion of the text. -/
def expandText (log : Log) (time text : Text) (bindings : Bindings) : Outcome :=
  match Template.parse Limits.standard text with
  | .error e => log.report time [] (.error (.expand (.parse e)))
  | .ok template =>
      log.report time (template.notice :: template.notices bindings) <|
        match template.expand bindings with
        | .ok expansion => .ok (.expansion expansion)
        | .error e => .error (.expand (.digitLimit e))

/-- `log.loggerReply name` is the answer about the logger of the given name. -/
def loggerReply (log : Log) (name : Text) : Reply :=
  .logger (if name.isEmpty then "root" else name) (log.levelOf name) (log.effectiveLevel name)

/-- `log.step libs time step` is the state after the step, and the outcome of the step. -/
def step (libs : Libraries) (log : Log) (time : Text) : Step → Log × Outcome
  | .reset => (log.reset, ⟨.ok .done, []⟩)
  | .setup level format =>
      let (next, result) := log.setup level format
      (next, ⟨(result.mapError .format).map fun _ => .done, []⟩)
  | .enableDebug => (log.enableDebug, ⟨.ok .done, []⟩)
  | .disableDebug => (log.disableDebug, ⟨.ok .done, []⟩)
  | .setLevel level => (log.setLevel level, ⟨.ok .done, []⟩)
  | .inherit logger =>
      let next := log.inherit logger
      (next, ⟨.ok (next.loggerReply logger), []⟩)
  | .write record => (log, ⟨.ok .done, log.write time record⟩)
  | .parse text =>
      (log, match Template.parse Limits.standard text with
        | .ok template => log.report time [template.notice] (.ok .done)
        | .error e => log.report time [] (.error (.expand (.parse e))))
  | .expand text bindings => (log, log.expandText time text bindings)
  | .load document =>
      (log, match Bindings.ofDocument? libs document with
        | .ok bindings? =>
            log.report time (Bindings.notices bindings?) (.ok (.bindings (bindings?.getD [])))
        | .error e => log.report time [] (.error (.document e)))

/-- `log.run libs time steps` is the outcomes of the steps in order, each with the state after
it. -/
def run (libs : Libraries) (log : Log) (time : Text) : List Step → List (Log × Outcome)
  | [] => []
  | first :: rest =>
      let (next, outcome) := log.step libs time first
      (next, outcome) :: run libs next time rest

end Log

end UriTemplate
