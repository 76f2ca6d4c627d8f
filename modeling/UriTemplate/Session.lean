import UriTemplate.Template

/-!
# Sessions

A `Session` keeps templates in named slots, together with the limits for templates that are built
without limits of their own, and the mappings that its caller has made. `Session.step` carries out
one step and gives its outcome.
-/

namespace UriTemplate

/-- Templates in named slots, the limits in force, and the mappings of the caller. -/
structure Session where
  limits : Limits
  slots : List (Text × Template)
  mappings : Mappings

namespace Session

/-- The session that holds no template. -/
def initial : Session := ⟨Limits.standard, [], []⟩

/-- What can be asked of a session. `construct` parses a text into a slot, under the given limits
or those in force, and `keep` makes a mapping at the next place. `expand` takes the mapping at a
place, if one is given, and keywords. -/
inductive Step where
  | construct (slot text : Text) (limits? : Option Limits)
  | setMaxLength (length : Int)
  | keep (mapping : Bindings)
  | holds (slot : Text)
  | compare (slot other : Text)
  | compareText (slot text : Text)
  | expand (slot : Text) (place? : Option Nat) (keywords : Bindings)
  | names (slot : Text)
  | texts (slot : Text)
  | components (slot : Text)

/-- The outcome of a step that succeeds. -/
inductive Reply where
  | done
  | holds (answer : Bool)
  | same (answer : Bool)
  | expansion (text : Text)
  | texts (texts : List Text)
  | components (components : List Component)
deriving DecidableEq

/-- Why a step fails: its text is no template, an integer cannot be written, or a slot is
empty. -/
inductive Error where
  | parse (e : ParseError)
  | digitLimit (e : Decimal.LimitError)
  | emptySlot (slot : Text)
deriving DecidableEq

/-- `s.get slot` is the template in the slot. -/
def get (s : Session) (slot : Text) : Except Error Template :=
  match s.slots.lookup slot with
  | some template => .ok template
  | none => .error (.emptySlot slot)

/-- `s.put slot template` is the session with the template in the slot. -/
def put (s : Session) (slot : Text) (template : Template) : Session :=
  { s with slots := Entries.insert (· == ·) slot template s.slots }

/-- `s.ask step` is the outcome of a step that only asks about the session. -/
def ask (s : Session) : Step → Except Error Reply
  | .construct .. | .setMaxLength _ | .keep _ | .expand .. => .ok .done
  | .holds slot => .ok (.holds (s.slots.lookup slot).isSome)
  | .compare slot other => return .same (Template.same (← s.get slot) (← s.get other))
  | .compareText slot _ => do
      let _ ← s.get slot
      pure (.holds false)
  | .names slot => return .texts (← s.get slot).names
  | .texts slot => do
      let template ← s.get slot
      pure (.texts [template.text, template.text, template.display])
  | .components slot => return .components (← s.get slot).components

/-- `s.step step` is the session after the step, and the outcome of the step. -/
def step (s : Session) (step : Step) : Session × Except Error Reply :=
  match step with
  | .construct slot text limits? =>
      match Template.parse (limits?.getD s.limits) text with
      | .ok template => (s.put slot template, .ok .done)
      | .error e => (s, .error (.parse e))
  | .setMaxLength length => ({ s with limits := ⟨length⟩ }, .ok .done)
  | .keep mapping => ({ s with mappings := s.mappings ++ [mapping] }, .ok .done)
  | .expand slot place? keywords =>
      match s.get slot with
      | .ok template =>
          let (result, mappings) := (template.expandCall place? keywords).run s.mappings
          ({ s with mappings := mappings }, (result.mapError .digitLimit).map .expansion)
      | .error e => (s, .error e)
  | other => (s, s.ask other)

/-- `s.run steps` is the session after the steps, and the outcome of each. -/
def run (s : Session) : List Step → Session × List (Except Error Reply)
  | [] => (s, [])
  | first :: rest =>
      let (next, outcome) := s.step first
      let (final, outcomes) := run next rest
      (final, outcome :: outcomes)

end Session

end UriTemplate
