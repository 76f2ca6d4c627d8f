import UriTemplate.Proofs.Bindings.Document
import UriTemplate.Proofs.Command.Run
import UriTemplate.Proofs.Text.Split
import UriTemplate.Proofs.Value.Entries

/-!
# The command that expands

`Expands libs read text path? assignments result` says what comes of expanding a template under the
bindings of a file and of assignments, or which failure there is, without reference to the run of
the command. `Command.expand_outcome` says that this determines one result, and that it is what the
command prints or reports.
-/

namespace UriTemplate.Command

/-! ## Sources of bindings -/

/-- `Loads libs read path? bindings` says that the bindings are those of the document in the file at
the path, or none where no path is given. -/
inductive Loads (libs : Libraries) (read : ReadFile) : Option Text → Bindings → Prop where
  | noFile : Loads libs read none []
  | file (path bytes document bindings) : fileBytes read (normalPath path) = .ok bytes →
      Utf8.decode false bytes = .ok document →
      Bindings.ofDocument libs (Bindings.unifyLineEnds document) = .ok bindings →
      Loads libs read (some path) bindings

/-- `FailsToLoad libs read path? e` says that a path is given, and that it is for the reason `e`
that no bindings can be read from the file there. -/
inductive FailsToLoad (libs : Libraries) (read : ReadFile) : Option Text → SourceError → Prop where
  | file (path e) : fileBytes read (normalPath path) = .error e →
      FailsToLoad libs read (some path) (.file (normalPath path) e)
  | encoding (path bytes e) : fileBytes read (normalPath path) = .ok bytes →
      Utf8.decode false bytes = .error e → FailsToLoad libs read (some path) (.encoding e)
  | document (path bytes document e) : fileBytes read (normalPath path) = .ok bytes →
      Utf8.decode false bytes = .ok document →
      Bindings.ofDocument libs (Bindings.unifyLineEnds document) = .error e →
      FailsToLoad libs read (some path) (.document e)

/-- `Assigns item entry` says that the item is a name, an equals sign and a text, which are those of
the entry. The name is not empty, and it is the first equals sign that follows it. -/
structure Assigns (item : Text) (entry : Text × Text) : Prop where
  split : item = entry.1 ++ CodePoint.ofChar '=' :: entry.2
  nonempty : entry.1 ≠ []
  first : CodePoint.ofChar '=' ∉ entry.1

/-- `Overrides bindings loaded assigned` says that a name is bound to the last text assigned to it,
or else to what it was loaded with. -/
def Overrides (bindings loaded : Bindings) (assigned : List (Text × Text)) : Prop :=
  ∀ name, bindings.get? name =
    ((assigned.reverse.lookup name).map Value.text).or (loaded.get? name)

/-- `Expands libs read text path? assignments result` says that `result` is the expansion of the
template with the given text, under the bindings of the file and those of the assignments, which
prevail. Or it is the first failure: that of the template, of the file, or of the leftmost bad
assignment. -/
inductive Expands (libs : Libraries) (read : ReadFile) (text : Text) (path? : Option Text)
    (assignments : List Text) :
    Except Failure Text → Prop where
  | badTemplate (e) : Template.parse Limits.standard text = .error e →
      e.isTemplateError = true → Expands libs read text path? assignments (.error (.template e))
  | badFile (template e) : Template.parse Limits.standard text = .ok template →
      FailsToLoad libs read path? e → Expands libs read text path? assignments (.error (.source e))
  | badAssignment (template loaded before item after) :
      Template.parse Limits.standard text = .ok template → Loads libs read path? loaded →
      assignments = before ++ item :: after →
      (∀ other ∈ before, ∃ entry, Assigns other entry) → (∀ entry, ¬Assigns item entry) →
      Expands libs read text path? assignments (.error (.source (.assignment item)))
  | expanded (template loaded assigned bindings expansion) :
      Template.parse Limits.standard text = .ok template → Loads libs read path? loaded →
      List.Forall₂ Assigns assignments assigned →
      Overrides bindings loaded assigned → template.expand bindings = .ok expansion →
      Expands libs read text path? assignments (.ok expansion)

variable {libs : Libraries} {read : ReadFile} {text : Text} {path? : Option Text}
  {assignments : List Text}
  {template : Template} {bindings loaded : Bindings} {assigned : List (Text × Text)}
  {e : SourceError} {item : Text} {entry : Text × Text} {result : Except Failure Text}

/-! ## Files -/

/-- The bindings of a file are loaded, or loading them fails. -/
theorem exists_loads (libs : Libraries) (read : ReadFile) (path? : Option Text) :
    (∃ bindings, Loads libs read path? bindings) ∨ ∃ e, FailsToLoad libs read path? e := by
  cases path? with
  | none => exact .inl ⟨[], .noFile⟩
  | some path =>
      cases hbytes : fileBytes read (normalPath path) with
      | error e => exact .inr ⟨_, .file path e hbytes⟩
      | ok bytes =>
          cases hdocument : Utf8.decode false bytes with
          | error e => exact .inr ⟨_, .encoding path bytes e hbytes hdocument⟩
          | ok document =>
              cases hbindings : Bindings.ofDocument libs (Bindings.unifyLineEnds document) with
              | error e =>
                  exact .inr ⟨_, .document path bytes document e hbytes hdocument hbindings⟩
              | ok bindings =>
                  exact .inl ⟨_, .file path bytes document bindings hbytes hdocument hbindings⟩

/-- The command goes on with the bindings that are loaded. -/
theorem Loads.result_expand (h : Loads libs read path? loaded) :
    (expand libs read template path? assignments).result =
      (assignAndExpand template loaded assignments).result := by
  cases h with
  | noFile => rfl
  | file path bytes document bindings hbytes hdocument hbindings =>
      obtain ⟨bindings?, hread, hgetD⟩ := bind_eq_ok_iff.1 hbindings
      -- The command itself takes an empty document for one that binds nothing.
      cases hgetD
      have hload : loadFile libs read (normalPath path) = .ok bindings? := by
        simp [loadFile, Bindings.ofBytes?, hbytes, hdocument, hread, Except.mapError]
      simp only [expand, hload]
      rfl

/-- Where the file cannot be loaded, that is the result. -/
theorem result_expand_of_error {path : Text} (h : loadFile libs read (normalPath path) = .error e) :
    (expand libs read template (some path) assignments).result = .error (.failure (.source e)) := by
  simp only [expand, h]
  rfl

/-- The command fails as the file does. -/
theorem FailsToLoad.result_expand (h : FailsToLoad libs read path? e) :
    (expand libs read template path? assignments).result = .error (.failure (.source e)) := by
  cases h with
  | file path e hbytes =>
      refine result_expand_of_error ?_
      simp [loadFile, hbytes, Except.mapError]
  | encoding path bytes e hbytes hdocument =>
      refine result_expand_of_error ?_
      simp [loadFile, Bindings.ofBytes?, hbytes, hdocument, Except.mapError]
  | document path bytes document e hbytes hdocument hbindings =>
      have hread := (bind_eq_error_iff.1 hbindings).resolve_right (by simp)
      refine result_expand_of_error ?_
      simp [loadFile, Bindings.ofBytes?, hbytes, hdocument, hread, Except.mapError]

/-! ## Assignments -/

/-- An assignment is read exactly from the texts that are one. -/
theorem assignment?_eq_some_iff : Bindings.assignment? item = some entry ↔ Assigns item entry := by
  constructor
  · intro h
    unfold Bindings.assignment? at h
    split at h
    · next name value hsplit =>
        split at h
        · exact absurd h (by simp)
        · next hne =>
            cases h
            obtain ⟨hitem, hfirst⟩ := Text.split_first_eq_some_iff.1 hsplit
            exact ⟨hitem, by simpa using hne, hfirst⟩
    · exact absurd h (by simp)
  · rintro ⟨rfl, hne, hfirst⟩
    simp [Bindings.assignment?, Text.split_first_append_cons hfirst, hne]

/-- No assignment is read from any other text. -/
theorem assignment?_eq_none (h : ∀ entry, ¬Assigns item entry) :
    Bindings.assignment? item = none :=
  Option.eq_none_iff_forall_ne_some.2 fun entry hentry => h entry (assignment?_eq_some_iff.1 hentry)

/-- Assignments are put together in their order, each value as a text. -/
theorem of_assignments_of_assigns
    (h : List.Forall₂ Assigns assignments assigned) :
    Bindings.ofAssignments assignments =
      .ok (Bindings.ofList (assigned.map fun entry => (entry.1, .text entry.2))) := by
  refine bind_eq_ok_iff.2 ⟨_, mapm_eq_ok_iff.2 ?_, rfl⟩
  rw [List.forall₂_map_right_iff]
  refine h.imp fun item entry hassigns => ?_
  rw [assignment?_eq_some_iff.2 hassigns]

/-- The leftmost bad assignment is the one that is reported. -/
theorem of_assignments_of_bad {before after : List Text}
    (hbefore : ∀ other ∈ before, ∃ entry, Assigns other entry)
    (hitem : ∀ entry, ¬Assigns item entry) :
    Bindings.ofAssignments (before ++ item :: after) = .error (.assignment item) := by
  refine bind_eq_error_iff.2 (.inl (mapm_eq_error_iff.2 ⟨before, item, after, rfl, ?_, ?_⟩))
  · intro other hother
    obtain ⟨entry, hassigns⟩ := hbefore other hother
    exact ⟨(entry.1, .text entry.2), by rw [assignment?_eq_some_iff.2 hassigns]⟩
  · simp only [assignment?_eq_none hitem]

/-! ## Bindings that prevail -/

/-- The command puts the assignments over what it loaded. -/
theorem overrides_update (loaded : Bindings) (assigned : List (Text × Text)) :
    Overrides (loaded.update
      (Bindings.ofList (assigned.map fun entry => (entry.1, .text entry.2)))) loaded assigned := by
  intro name
  rw [Bindings.get?_update loaded (Bindings.distinct_of_list _), Bindings.get?_of_list,
    ← List.map_reverse, Entries.lookup_map_value]

/-- All that counts of the bindings is what is assigned and what is loaded. -/
theorem Overrides.expand_eq {others : Bindings} (h : Overrides bindings loaded assigned)
    (hothers : Overrides others loaded assigned) (template : Template) :
    template.expand bindings = template.expand others :=
  Template.expand_congr fun s _ =>
    VariableSpec.value?_eq_of_get? ((h s.name).trans (hothers s.name).symm)

/-- What is loaded and what is assigned never make an expansion fail. -/
theorem Overrides.exists_expand (h : Overrides bindings loaded assigned)
    (hloaded : Loads libs read path? loaded) (template : Template) :
    ∃ expansion, template.expand bindings = .ok expansion := by
  refine Template.exists_expand fun s _ => ?_
  rw [VariableSpec.value?, h s.name]
  -- An assigned text can always be written, and what a document binds was checked as it was read.
  cases hassigned : assigned.reverse.lookup s.name with
  | some t => exact ⟨_, rfl⟩
  | none =>
      cases hloaded with
      | noFile => exact ⟨none, rfl⟩
      | file path bytes document bindings hbytes hdocument hbindings =>
          cases hname : loaded.get? s.name with
          | none => exact ⟨none, rfl⟩
          | some v =>
              exact Bindings.exists_coerce_of_document hbindings hname

/-! ## The run of the command -/

/-- The report on a template that can be parsed is that of its expansion. -/
theorem result_report_of_parse (h : Template.parse Limits.standard text = .ok template) :
    ((Task.expand text path? assignments).report libs read).result =
      (expand libs read template path? assignments).result := by
  simp only [Task.report, withTemplate, h]
  rfl

/-- What comes of the expansion is the result of the command, with a line feed after a text. -/
theorem Expands.result_report (h : Expands libs read text path? assignments result) :
    ((Task.expand text path? assignments).report libs read).result =
      (result.map (· ++ Text.ofString "\n")).mapError .failure := by
  cases h with
  | badTemplate e hparse he =>
      have htemplate : Template.parse Limits.standard
          (Task.expand text path? assignments).template = .error e := hparse
      rw [Task.report_of_error he htemplate]
      rfl
  | badFile template e hparse hload =>
      exact (result_report_of_parse hparse).trans hload.result_expand
  | badAssignment template loaded before item after hparse hload hsplit hbefore hitem =>
      rw [result_report_of_parse hparse, hload.result_expand, hsplit, assignAndExpand,
        of_assignments_of_bad hbefore hitem]
      rfl
  | expanded template loaded assigned bindings expansion hparse hload hassigned hbindings
      hexpansion =>
      rw [result_report_of_parse hparse, hload.result_expand, assignAndExpand,
        of_assignments_of_assigns hassigned]
      simp only [printExpansion]
      rw [(overrides_update loaded assigned).expand_eq hbindings template, hexpansion]
      rfl

/-- There is a result, unless a text that is no template fails for a reason that is none of the
template. -/
theorem exists_expands (libs : Libraries) (read : ReadFile) (path? : Option Text)
    (assignments : List Text)
    (h : ∀ e, Template.parse Limits.standard text = .error e → e.isTemplateError = true) :
    ∃ result, Expands libs read text path? assignments result := by
  cases hparse : Template.parse Limits.standard text with
  | error e => exact ⟨_, .badTemplate e hparse (h e hparse)⟩
  | ok template =>
      rcases exists_loads libs read path? with ⟨loaded, hload⟩ | ⟨e, hload⟩
      · rcases exists_forall₂_or_reaches Assigns assignments with
          ⟨assigned, hassigned⟩ | ⟨before, item, after, hsplit, hbefore, hitem⟩
        · have hbindings := overrides_update loaded assigned
          obtain ⟨expansion, hexpansion⟩ := hbindings.exists_expand hload template
          exact ⟨_, .expanded template loaded assigned _ expansion hparse hload hassigned hbindings
            hexpansion⟩
        · exact ⟨_, .badAssignment template loaded before item after hparse hload hsplit hbefore
            hitem⟩
      · exact ⟨_, .badFile template e hparse hload⟩

/-- There is one result at most. -/
theorem Expands.unique {other : Except Failure Text}
    (h : Expands libs read text path? assignments result)
    (hother : Expands libs read text path? assignments other) : result = other := by
  have heq := h.result_report.symm.trans hother.result_report
  cases result <;> cases other <;> simp_all [Except.mapError]

/-- `Outcome.ofResult errors result` is the outcome of a command that prints a text and a line feed,
or that fails and says so, after it wrote `errors` to the stream of errors. -/
def Outcome.ofResult (errors : Text) : Except Failure Text → Outcome
  | .ok expansion => ⟨0, expansion ++ Text.ofString "\n", errors, none⟩
  | .error f => ⟨1, "❌ ERROR: " ++ f.message ++ "\n", errors, some f⟩

/-- The outcome of a report that prints a line is that of the line. -/
theorem exists_outcome_eq {r : Report}
    (h : r.result = (result.map (· ++ Text.ofString "\n")).mapError .failure) (log : Log)
    (time : Text) : ∃ errors, r.outcome log time = .ok (Outcome.ofResult errors result) := by
  unfold Report.outcome
  rw [h]
  cases result <;> exact ⟨_, rfl⟩

/-- The command that expands has one outcome. It prints the expansion of the template and a line
feed, and its exit status is 0, where the text is that of a template, the file can be loaded and
every assignment is one; the assignments prevail over the file, and later ones over earlier ones.
Otherwise its exit status is 1, and all that it prints is the first failure. -/
theorem expand_outcome (libs : Libraries) (read : ReadFile) (text : Text) (path? : Option Text)
    (assignments : List Text)
    (h : ∀ e, Template.parse Limits.standard text = .error e → e.isTemplateError = true) :
    ∃ result, (∀ other, Expands libs read text path? assignments other ↔ other = result) ∧
      (∀ log time, ∃ errors,
        ((Task.expand text path? assignments).report libs read).outcome log time =
          .ok (Outcome.ofResult errors result)) ∧
      ∀ line time verbosity,
        Request.ofLine line = .ok ⟨verbosity, .expand text path? assignments⟩ →
          ∃ errors, run libs read time line = .ok (Outcome.ofResult errors result) := by
  obtain ⟨result, hresult⟩ := exists_expands libs read path? assignments h
  refine ⟨result, fun other => ⟨fun hother => hother.unique hresult, ?_⟩, ?_, ?_⟩
  · rintro rfl
    exact hresult
  · exact fun log time => exists_outcome_eq hresult.result_report log time
  · intro line time verbosity hline
    simp only [run, hline]
    -- What else the request reports does not change the result.
    exact exists_outcome_eq
      (r := Request.report libs read ⟨verbosity, .expand text path? assignments⟩)
      hresult.result_report _ time

/-- The last assignment prevails over the file and is split at its first equals sign, a variable
without an assignment has the value of the file, and a missing file is reported before a bad
assignment. -/
theorem expand_outcome_file :
    (Request.ofLine ["expand", "\x7bx,y\x7d", "--vars", "f", "--set", "x=a", "--set", "x=b=c"] =
        .ok ⟨.normal, .expand "\x7bx,y\x7d" (some "f") ["x=a", "x=b=c"]⟩ ∧
      Request.ofLine ["expand", "\x7bx,y\x7d", "--vars", "f", "--set", "x"] =
        .ok ⟨.normal, .expand "\x7bx,y\x7d" (some "f") ["x"]⟩) ∧
    (∀ e, Template.parse Limits.standard "\x7bx,y\x7d" = .error e → e.isTemplateError = true) ∧
    (∃ errors, run .standard (fun _ => .ok (Text.utf8 "x: 0\ny: [1, two]\n")) []
        ["expand", "\x7bx,y\x7d", "--vars", "f", "--set", "x=a", "--set", "x=b=c"] =
      .ok ⟨0, "b%3Dc,1,two\n", errors, none⟩) ∧
    ∃ errors, run .standard (fun _ => .error .missing) []
        ["expand", "\x7bx,y\x7d", "--vars", "f", "--set", "x"] =
      .ok ⟨1, "❌ ERROR: Bindings file not found: f\n", errors,
        some (.source (.file "f" .missing))⟩ := by
  have hprints : Request.ofLine
      ["expand", "\x7bx,y\x7d", "--vars", "f", "--set", "x=a", "--set", "x=b=c"] =
        .ok ⟨.normal, .expand "\x7bx,y\x7d" (some "f") ["x=a", "x=b=c"]⟩ := by decide +kernel
  have hfails : Request.ofLine ["expand", "\x7bx,y\x7d", "--vars", "f", "--set", "x"] =
      .ok ⟨.normal, .expand "\x7bx,y\x7d" (some "f") ["x"]⟩ := by decide +kernel
  have hparse : Template.parse Limits.standard "\x7bx,y\x7d" =
      .ok ⟨"\x7bx,y\x7d", [.expression ⟨.simple, [⟨"x", none⟩, ⟨"y", none⟩]⟩]⟩ := by decide +kernel
  have htemplate : ∀ e, Template.parse Limits.standard "\x7bx,y\x7d" = .error e →
      e.isTemplateError = true := fun e he => absurd (hparse.symm.trans he) (by simp)
  refine ⟨⟨hprints, hfails⟩, htemplate, ?_, ?_⟩
  · let assigned : List (Text × Text) := [("x", "a"), ("x", "b=c")]
    have hread : ((Bindings.ofDocument Libraries.standard "x: 0\ny: [1, two]\n").toOption.map
        fun loaded => Template.expand ⟨"\x7bx,y\x7d", [.expression
          ⟨.simple, [⟨"x", none⟩, ⟨"y", none⟩]⟩]⟩ (loaded.update
            (Bindings.ofList (assigned.map fun entry => (entry.1, .text entry.2))))) =
          some (.ok "b%3Dc,1,two") := by decide +kernel
    obtain ⟨loaded, hloaded, hexpansion⟩ := Option.map_eq_some_iff.1 hread
    obtain ⟨result, hresult, _, hrun⟩ := expand_outcome .standard
      (fun _ => .ok (Text.utf8 "x: 0\ny: [1, two]\n")) "\x7bx,y\x7d" (some "f") ["x=a", "x=b=c"]
      htemplate
    have hends : Bindings.unifyLineEnds "x: 0\ny: [1, two]\n" =
        Text.ofString "x: 0\ny: [1, two]\n" := by decide +kernel
    have hload : Loads .standard (fun _ => .ok (Text.utf8 "x: 0\ny: [1, two]\n")) (some "f")
        loaded := by
      refine .file "f" (Text.utf8 "x: 0\ny: [1, two]\n") "x: 0\ny: [1, two]\n" loaded
        (by decide +kernel) (by decide +kernel) ?_
      rw [hends]
      exact to_option_eq_some_iff.1 hloaded
    have hassigned : List.Forall₂ Assigns ["x=a", "x=b=c"] assigned :=
      .cons ⟨rfl, by decide, by decide⟩ (.cons ⟨rfl, by decide, by decide⟩ .nil)
    obtain rfl := (hresult _).1 (.expanded _ loaded assigned _ _ hparse hload hassigned
      (overrides_update loaded assigned) hexpansion)
    exact hrun _ [] _ hprints
  · obtain ⟨result, hresult, _, hrun⟩ := expand_outcome .standard (fun _ => .error .missing)
      "\x7bx,y\x7d" (some "f") ["x"] htemplate
    have hexpands : Expands .standard (fun _ => .error .missing) "\x7bx,y\x7d" (some "f") ["x"]
        (.error (.source (.file "f" .missing))) :=
      .badFile _ _ hparse (.file "f" .missing (by decide +kernel))
    have hprinted : "❌ ERROR: " ++ (Failure.source (.file "f" .missing)).message ++ "\n" =
        Text.ofString "❌ ERROR: Bindings file not found: f\n" := by decide +kernel
    obtain rfl := (hresult _).1 hexpands
    obtain ⟨errors, herrors⟩ := hrun _ [] _ hfails
    rw [Outcome.ofResult, hprinted] at herrors
    exact ⟨errors, herrors⟩

end UriTemplate.Command
