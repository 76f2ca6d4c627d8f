import UriTemplate.Bindings.Standard
import UriTemplate.Log.Session

/-!
# The level of the log over a run

The level of the log is kept in two places, the package and its handler, and any step may be the one
that configures it. `Request` looks at the steps alone: which level was last asked for, in which
format, and whether the logger of the package was made to inherit since. `Tracks` says how a log
stands to a request, and every step keeps it. Then a record is written, once, if it reaches the
level asked for (`Log.output_run`); but a package that inherits has forgotten that level, and what
lies outside decides.
-/

namespace UriTemplate

namespace Log

/-- `log.after libs time steps` is the state after the steps. -/
def after (libs : Libraries) (log : Log) (time : Text) (steps : List Step) : Log :=
  steps.foldl (fun log step => (log.step libs time step).1) log

/-- `lineOf time format record` is the line that a record makes in a format, nothing if the format
has no line for it. -/
def lineOf (time format : Text) (record : Record) : Text :=
  match Format.line? time record format with
  | some line => line ++ Text.ofString "\n"
  | none => []

/-- `step.IsPositive` says that the step asks for no level but a positive one. -/
def Step.IsPositive : Step → Prop
  | .setup level _ | .setLevel level => Level.unset < level
  | _ => True

/-- What is asked of a configured log: the records from a level on, in a format. The level is
`forgotten` if the logger of the package was made to inherit since. -/
structure Request where
  level : Level
  format : Text
  forgotten : Bool
deriving DecidableEq

namespace Request

/-- The request of a log that is configured in the standard way. -/
def standard : Request := ⟨Level.warning, Format.standard, false⟩

/-- `first? level format` is the request of a log that is set up with the level and the format, if
the format is valid. -/
def first? (level : Level) (format : Text) : Option Request :=
  let format := if format.isEmpty then Format.standard else format
  if Format.isValid format then some ⟨level, format, false⟩ else none

/-- `request.ask level` is the request after another level is asked for. -/
def ask (request : Request) (level : Level) : Request :=
  { request with level := level, forgotten := false }

/-- `request.inherit logger` is the request after the logger is made to inherit. -/
def inherit (request : Request) (logger : Text) : Request :=
  { request with forgotten := request.forgotten || logger = packageLogger }

/-- `next? request? step` is the request after the step. There is none while the log is not
configured. -/
def next? (request? : Option Request) : Step → Option Request
  | .reset => none
  | .setup level format => request?.or (first? level format)
  | .enableDebug => some ((request?.getD standard).ask Level.debug)
  | .disableDebug => some ((request?.getD standard).ask Level.warning)
  | .setLevel level => some ((request?.getD standard).ask level)
  | .inherit logger => some ((request?.getD standard).inherit logger)
  | .write _ | .parse _ | .expand .. | .load _ => request?

/-- `last? steps` is the request that the steps leave. -/
def last? (steps : List Step) : Option Request := steps.foldl next? none

end Request

/-- `Meets log request` says that the log is configured as the request asks. The handler has the
level of the request, or none while the request is that of the setup. -/
structure Meets (log : Log) (request : Request) : Prop where
  configured : log.configured = true
  level : log.level = if request.forgotten then Level.unset else request.level
  handlers : log.handlers = [⟨Level.unset, request.format⟩] ∨
    log.handlers = [⟨request.level, request.format⟩]
  positive : Level.unset < request.level

/-- `Tracks log request?` says that the log is configured as the request asks, or not at all if
there is none. -/
def Tracks (log : Log) : Option Request → Prop
  | some request => Meets log request
  | none => log.configured = false ∧ log.handlers = []

variable {libs : Libraries} {log : Log} {request : Request} {request? : Option Request}
  {steps : List Step} {time format : Text} {level : Level}

/-! ## One step -/

/-- A log that meets a request is left as it is by a further setup. -/
theorem Meets.setup (h : Meets log request) (level : Level) (format : Text) :
    log.setup level format = (log, .ok ()) := by
  simp [Log.setup, h.configured]

/-- A setup makes the first request. -/
theorem Tracks.setup (h : Tracks log request?) (hlevel : Level.unset < level) :
    Tracks (log.setup level format).1 (request?.or (Request.first? level format)) := by
  cases request? with
  | some request =>
      rw [Meets.setup h]
      exact h
  | none =>
      have hbare : ¬log.configured = true := by simp [h.1]
      rw [Log.setup, if_neg hbare, Option.none_or, Request.first?]
      by_cases hvalid : Format.isValid (if format.isEmpty then Format.standard else format) = true
      · rw [if_pos hvalid, if_pos hvalid]
        exact ⟨rfl, rfl, .inl rfl, hlevel⟩
      · rw [if_neg hvalid, if_neg hvalid]
        exact ⟨h.1, rfl⟩

/-- Every step that needs a configured log finds one. -/
theorem Tracks.ensure (h : Tracks log request?) :
    Meets log.ensure (request?.getD Request.standard) := by
  have hfirst : Request.first? Level.warning Format.standard = some Request.standard := by
    decide +kernel
  have hsetup : Tracks log.ensure (request?.or (Request.first? Level.warning Format.standard)) :=
    h.setup (by decide)
  rw [hfirst] at hsetup
  cases request? <;> exact hsetup

/-- A level that is set is asked for. -/
theorem Tracks.set_level (h : Tracks log request?) (hlevel : Level.unset < level) :
    Meets (log.setLevel level) ((request?.getD Request.standard).ask level) := by
  have hensure := h.ensure
  refine ⟨hensure.configured, rfl, .inr ?_, hlevel⟩
  show log.ensure.handlers.map (fun h => { h with level := level }) = _
  rcases hensure.handlers with hhandlers | hhandlers <;> rw [hhandlers] <;> rfl

/-- Where a logger is made to inherit its level, only the package logger loses what was asked of
it. -/
theorem Tracks.inherit (h : Tracks log request?) (logger : Text) :
    Meets (log.inherit logger) ((request?.getD Request.standard).inherit logger) := by
  have hensure := h.ensure
  by_cases hpackage : logger = packageLogger
  · rw [Log.inherit, if_pos hpackage]
    exact ⟨hensure.configured, by simp [Request.inherit, hpackage], hensure.handlers,
      hensure.positive⟩
  · have hrequest : ∀ request : Request, request.inherit logger = request := fun request => by
      simp [Request.inherit, hpackage]
    rw [Log.inherit, if_neg hpackage, hrequest]
    split
    · exact ⟨hensure.configured, hensure.level, hensure.handlers, hensure.positive⟩
    · exact hensure

/-- Every step takes the log to what is then asked of it. -/
theorem Tracks.step (h : Tracks log request?) {step : Step} (hstep : step.IsPositive) :
    Tracks (log.step libs time step).1 (Request.next? request? step) := by
  cases step with
  | reset => exact ⟨rfl, rfl⟩
  | setup level format => exact h.setup hstep
  | enableDebug | disableDebug => exact h.set_level (by decide)
  | setLevel level => exact h.set_level hstep
  | inherit logger => exact h.inherit logger
  | write | parse | expand | load => exact h

/-! ## Runs -/

/-- After some steps a log follows the request that they make. -/
theorem Tracks.after (h : Tracks log request?) (hsteps : ∀ step ∈ steps, step.IsPositive) :
    Tracks (log.after libs time steps) (steps.foldl Request.next? request?) := by
  induction steps generalizing log request? with
  | nil => exact h
  | cons step rest ih =>
      obtain ⟨hstep, hrest⟩ := List.forall_mem_cons.1 hsteps
      exact ih (h.step hstep) hrest

/-- After a reset it does not matter what the log was before. -/
theorem tracks_after_reset (libs : Libraries) (log : Log) (time : Text)
    (hsteps : ∀ step ∈ steps, step.IsPositive) :
    Tracks (log.after libs time (.reset :: steps)) (Request.last? steps) :=
  @Tracks.after libs log.reset none steps time ⟨rfl, rfl⟩ hsteps

/-- The last outcome of a run is that of its last step, taken from where the others lead. -/
theorem get_last?_run (libs : Libraries) (log : Log) (time : Text) (steps : List Step)
    (last : Step) : (log.run libs time (steps ++ [last])).getLast? =
      some ((log.after libs time steps).step libs time last) := by
  induction steps generalizing log with
  | nil => rfl
  | cons step rest ih =>
      rw [List.cons_append, run, List.getLast?_cons, ih]
      rfl

/-! ## What is written -/

/-- A log with one handler writes what the condition `p` lets pass, if it is that of the logger and
of the handler together. -/
theorem write_eq_ite {h : Handler} (hhandlers : log.handlers = [h]) {record : Record}
    (hlogger : isPackaged record.logger = true) {p : Prop} [Decidable p]
    (hp : log.isEnabled record = true ∧ h.level ≤ record.level ↔ p) :
    log.write time record = if p then lineOf time h.format record else [] := by
  by_cases hpass : p
  · obtain ⟨henabled, hreaches⟩ := hp.2 hpass
    simp only [Log.write, henabled, hlogger, hhandlers, Handler.write, hreaches, if_pos hpass,
      if_true, List.flatMap_cons, List.flatMap_nil, List.append_nil]
    rfl
  · rw [if_neg hpass, Log.write]
    split
    · rename_i henabled
      have hreaches : ¬h.level ≤ record.level := fun hreaches => hpass (hp.1 ⟨henabled, hreaches⟩)
      simp [hhandlers, Handler.write, hreaches]
    · rfl

/-- A log that has not forgotten the level asked for writes the records that reach it. -/
theorem Meets.write (h : Meets log request) (hforgotten : request.forgotten = false)
    {record : Record} (hlogger : isPackaged record.logger = true) : log.write time record =
      if request.level ≤ record.level then lineOf time request.format record else [] := by
  have hpositive : 0 < request.level := h.positive
  have hlevel : log.level = request.level := by simp [h.level, hforgotten]
  have henabled : log.isEnabled record = true ↔ request.level ≤ record.level := by
    have hset : (request.level ≠ Level.unset) := (Int.ne_of_lt hpositive).symm
    simp only [isEnabled, effectiveLevel, hlogger, hlevel, hset, ne_eq, not_false_eq_true,
      decide_true, Bool.and_self, if_true, Bool.and_eq_true, decide_eq_true_eq]
    exact ⟨And.right, fun hreaches => ⟨Int.lt_of_lt_of_le hpositive hreaches, hreaches⟩⟩
  rcases h.handlers with hhandlers | hhandlers
  · refine write_eq_ite hhandlers hlogger ?_
    rw [henabled]
    exact ⟨And.left, fun hreaches =>
      ⟨hreaches, Int.le_trans (Int.le_of_lt hpositive) hreaches⟩⟩
  · refine write_eq_ite hhandlers hlogger ?_
    rw [henabled, and_self]

/-- A log that has forgotten the level asked for leaves the decision to what lies outside and to its
handler. -/
theorem Meets.write_of_forgotten (h : Meets log request) (hforgotten : request.forgotten = true)
    {handler : Handler} (hhandlers : log.handlers = [handler]) {record : Record}
    (hlogger : isPackaged record.logger = true) : log.write time record =
      if (Level.unset < record.level ∧ log.outerLevel ≤ record.level) ∧
          handler.level ≤ record.level then lineOf time request.format record else [] := by
  have hformat : handler.format = request.format := by
    rcases h.handlers with hother | hother <;> rw [hhandlers] at hother <;> cases hother <;> rfl
  have hlevel : log.level = Level.unset := by simp [h.level, hforgotten]
  rw [← hformat]
  refine write_eq_ite hhandlers hlogger (and_congr_left' ?_)
  simp [isEnabled, effectiveLevel, hlevel]

/-- Whatever steps follow a reset, a log that is configured has one handler, and the handler writes
a record of the package once if the record reaches the level last asked for, and else not at all. If
the logger of the package itself was made to inherit since, the level of what lies outside takes the
place of the level asked for. -/
theorem output_run (libs : Libraries) (log : Log) (time : Text) {steps : List Step}
    (hsteps : ∀ step ∈ steps, step.IsPositive)
    (hconfigured : (log.after libs time (.reset :: steps)).configured = true) :
    ∃ request handler, Request.last? steps = some request ∧
      (log.after libs time (.reset :: steps)).handlers = [handler] ∧
      ∀ record, isPackaged record.logger = true → ∃ final outcome,
        (log.run libs time (.reset :: steps ++ [.write record])).getLast? = some (final, outcome) ∧
        (request.forgotten = false → outcome.output =
          if request.level ≤ record.level then lineOf time request.format record else []) ∧
        (request.forgotten = true → outcome.output =
          if (Level.unset < record.level ∧ final.outerLevel ≤ record.level) ∧
              handler.level ≤ record.level then lineOf time request.format record else []) := by
  have htracks := tracks_after_reset libs log time hsteps
  cases hrequest : Request.last? steps with
  | none =>
      rw [hrequest] at htracks
      exact absurd hconfigured (by simp [htracks.1])
  | some request =>
      rw [hrequest] at htracks
      have hmeets : Meets (log.after libs time (.reset :: steps)) request := htracks
      obtain ⟨handler, hhandlers⟩ :
          ∃ handler, (log.after libs time (.reset :: steps)).handlers = [handler] :=
        hmeets.handlers.elim (fun h => ⟨_, h⟩) fun h => ⟨_, h⟩
      refine ⟨request, handler, rfl, hhandlers, fun record hlogger =>
        ⟨_, _, get_last?_run libs log time (.reset :: steps) (.write record), ?_, ?_⟩⟩
      · exact fun hforgotten => hmeets.write hforgotten hlogger
      · exact fun hforgotten => hmeets.write_of_forgotten hforgotten hhandlers hlogger

/-- The level of failures is asked for, and the logger of a module is made to inherit. -/
theorem output_run_of_module_logger :
    (∀ step ∈ [Step.setLevel Level.error, .inherit "uritpl.test"], step.IsPositive) ∧
      ∃ final outcome, (bare.run .standard "TIME" [.reset, .setLevel Level.error,
        .inherit "uritpl.test", .write ⟨"uritpl.test", Level.error, "hello", none⟩]).getLast? =
          some (final, outcome) ∧
      outcome.output = Text.ofString "TIME - uritpl.test - ERROR - hello\n" := by
  have hsteps : ∀ step ∈ [Step.setLevel Level.error, .inherit "uritpl.test"],
      step.IsPositive := by
    intro step hstep
    simp only [List.mem_cons, List.not_mem_nil, or_false] at hstep
    rcases hstep with rfl | rfl
    · show (0 : Int) < 40
      decide
    · trivial
  obtain ⟨request, handler, hrequest, -, hwritten⟩ :=
    output_run .standard bare "TIME" hsteps (by decide +kernel)
  obtain ⟨final, outcome, hrun, hkept, -⟩ :=
    hwritten ⟨"uritpl.test", Level.error, "hello", none⟩ (by decide +kernel)
  obtain rfl : (⟨Level.error, Format.standard, false⟩ : Request) = request :=
    Option.some.inj hrequest
  refine ⟨hsteps, final, outcome, hrun, (hkept rfl).trans ?_⟩
  decide +kernel

/-- Details are asked for and the logger of the package is made to inherit. The request is still for
details, and a record of that level, which has a line, is not written. -/
theorem output_run_of_package_logger :
    (bare.after .standard "TIME" [.reset, .enableDebug, .inherit "uritpl"]).configured = true ∧
      (Request.last? [.enableDebug, .inherit "uritpl"]).map (·.level) = some Level.debug ∧
      lineOf "TIME" Format.standard ⟨"uritpl.test", Level.debug, "hello", none⟩ =
        Text.ofString "TIME - uritpl.test - DEBUG - hello\n" ∧
      (bare.run .standard "TIME" [.reset, .enableDebug, .inherit "uritpl",
        .write ⟨"uritpl.test", Level.debug, "hello", none⟩]).getLast?.map (·.2.output) =
          some [] := by
  decide +kernel

end Log

end UriTemplate
