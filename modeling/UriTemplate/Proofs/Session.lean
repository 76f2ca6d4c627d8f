import UriTemplate.Session
import UriTemplate.Proofs.Component.Limits
import UriTemplate.Proofs.Expansion.Call

/-!
# Runs of a session

Whatever steps a session takes, a slot holds the template that was last constructed in it, and the
mappings of the caller are as it made them (`Session.Tracks`). `LastBuilt` says which template that
is, by looking back at the steps alone. The limits in force matter only to later constructions
without limits of their own (`Session.run_of_limits`), and templates of the same text answer alike.
-/

namespace UriTemplate

namespace Session

/-- `after steps` is the session that the steps leave. -/
def after (steps : List Step) : Session := (initial.run steps).1

/-- `newLimits? step` is the limits that the step puts in force, if it does so. -/
def newLimits? : Step → Option Limits
  | .setMaxLength length => some ⟨length⟩
  | _ => none

/-- `kept? step` is the mapping that the step makes, if it makes one. -/
def kept? : Step → Option Bindings
  | .keep mapping => some mapping
  | _ => none

/-- `limitsAfter steps` is the limits in force after the steps: the last that were put in force, or
the standard ones. -/
def limitsAfter (steps : List Step) : Limits :=
  (steps.reverse.findSome? newLimits?).getD Limits.standard

/-- `Builds before step slot template` says that the step, after the steps `before`, constructs the
template in the slot. -/
def Builds (before : List Step) (step : Step) (slot : Text) (template : Template) : Prop :=
  ∃ text limits?, step = .construct slot text limits? ∧
    Template.parse (limits?.getD (limitsAfter before)) text = .ok template

/-- `LastBuilt steps slot template` says that of the steps the last one that constructs a template
in the slot constructs this one. -/
def LastBuilt (steps : List Step) (slot : Text) (template : Template) : Prop :=
  ∃ before step after, steps = before ++ step :: after ∧ Builds before step slot template ∧
    ∀ middle later rest, after = middle ++ later :: rest →
      ∀ other, ¬Builds (before ++ step :: middle) later slot other

/-- `Tracks steps s` says that the session `s` is what the steps make of one without templates: the
limits are those last put in force, each slot holds what was last constructed in it, and the
mappings are those that were made. -/
structure Tracks (steps : List Step) (s : Session) : Prop where
  limits : s.limits = limitsAfter steps
  slots : ∀ slot template, s.slots.lookup slot = some template ↔ LastBuilt steps slot template
  mappings : s.mappings = steps.filterMap kept?

/-- `AnswerAlike s slot u other` says that the session `s` gives the same answers about its slot as
the session `u` about the slot `other`: the same components and names, and the same expansion with
the same mapping and keywords. -/
structure AnswerAlike (s : Session) (slot : Text) (u : Session) (other : Text) : Prop where
  components : (s.step (.components slot)).2 = (u.step (.components other)).2
  names : (s.step (.names slot)).2 = (u.step (.names other)).2
  expand : ∀ place? otherPlace? keywords, s.mappings.get place? = u.mappings.get otherPlace? →
    (s.step (.expand slot place? keywords)).2 = (u.step (.expand other otherPlace? keywords)).2

variable {s : Session} {steps before : List Step} {step : Step} {slot other : Text}
  {template t u : Template}

/-! ## The last construction -/

/-- The limits after one more step. -/
theorem limits_after_concat (steps : List Step) (step : Step) :
    limitsAfter (steps ++ [step]) = (newLimits? step).getD (limitsAfter steps) := by
  rw [limitsAfter, List.reverse_append, List.reverse_singleton, List.singleton_append,
    List.findSome?_cons]
  cases newLimits? step <;> rfl

/-- Without steps there is no template. -/
theorem not_last_built_nil : ¬LastBuilt [] slot template := by
  rintro ⟨before, step, after, h, _⟩
  exact absurd h (by simp)

/-- The last construction is that of the last step, or else the last one before it. -/
theorem last_built_concat : LastBuilt (steps ++ [step]) slot template ↔
    Builds steps step slot template ∨
      (∀ other, ¬Builds steps step slot other) ∧ LastBuilt steps slot template := by
  constructor
  · rintro ⟨before, first, after, hsteps, hbuilds, hlast⟩
    rcases List.eq_nil_or_concat after with rfl | ⟨inner, final, rfl⟩
    · obtain ⟨rfl, hfinal⟩ := List.append_inj' hsteps rfl
      obtain rfl : step = first := by simpa using hfinal
      exact .inl hbuilds
    · rw [List.concat_eq_append, ← List.cons_append, ← List.append_assoc] at hsteps
      obtain ⟨rfl, hfinal⟩ := List.append_inj' hsteps rfl
      obtain rfl : step = final := by simpa using hfinal
      refine .inr ⟨hlast inner step [] (by simp), before, first, inner, rfl, hbuilds, ?_⟩
      rintro middle later rest rfl
      exact hlast middle later (rest ++ [step]) (by simp)
  · rintro (hbuilds | ⟨hnot, before, first, after, rfl, hbuilds, hlast⟩)
    · exact ⟨steps, step, [], rfl, hbuilds, by simp⟩
    · refine ⟨before, first, after ++ [step], by simp, hbuilds, ?_⟩
      intro middle later rest hafter
      rcases List.eq_nil_or_concat rest with rfl | ⟨inner, final, rfl⟩
      · obtain ⟨rfl, hfinal⟩ := List.append_inj' hafter rfl
        obtain rfl : step = later := by simpa using hfinal
        exact hnot
      · rw [List.concat_eq_append, ← List.cons_append, ← List.append_assoc] at hafter
        exact hlast middle later inner (List.append_inj' hafter rfl).1

/-! ## One step -/

/-- An expansion leaves the session as it was, the mappings of the caller included. -/
theorem step_expand (s : Session) (slot : Text) (place? : Option Nat) (keywords : Bindings) :
    s.step (.expand slot place? keywords) = (s, (s.get slot).bind fun template =>
      ((template.expand ((s.mappings.get place?).merged keywords)).mapError .digitLimit).map
        .expansion) := by
  simp only [Session.step]
  cases s.get slot with
  | error e => rfl
  | ok template =>
      simp only [template.expand_call_run]
      rfl

/-- What a step does to the session: it constructs a template, it puts limits in force, it makes a
mapping, or it leaves everything as it was. -/
theorem step_cases (s : Session) (step : Step) :
    (∃ slot text limits? template, step = .construct slot text limits? ∧
        Template.parse (limits?.getD s.limits) text = .ok template ∧
        s.step step = (s.put slot template, .ok .done)) ∨
      (∃ slot text limits? e, step = .construct slot text limits? ∧
        Template.parse (limits?.getD s.limits) text = .error e ∧
        s.step step = (s, .error (.parse e))) ∨
      (∃ length, step = .setMaxLength length ∧
        s.step step = ({ s with limits := ⟨length⟩ }, .ok .done)) ∨
      (∃ mapping, step = .keep mapping ∧
        s.step step = ({ s with mappings := s.mappings ++ [mapping] }, .ok .done)) ∨
      (∀ slot text limits?, step ≠ .construct slot text limits?) ∧ newLimits? step = none ∧
        kept? step = none ∧ ∃ outcome, s.step step = (s, outcome) := by
  -- A construction is the only step that changes something and may fail.
  cases step with
  | construct slot text limits? =>
      cases hparse : Template.parse (limits?.getD s.limits) text with
      | ok template =>
          exact .inl ⟨slot, text, limits?, template, rfl, hparse, by simp [Session.step, hparse]⟩
      | error e =>
          exact .inr (.inl ⟨slot, text, limits?, e, rfl, hparse, by simp [Session.step, hparse]⟩)
  | setMaxLength length => exact .inr (.inr (.inl ⟨length, rfl, rfl⟩))
  | keep mapping => exact .inr (.inr (.inr (.inl ⟨mapping, rfl, rfl⟩)))
  | expand slot place? keywords =>
      exact .inr (.inr (.inr (.inr
        ⟨by simp, rfl, rfl, _, s.step_expand slot place? keywords⟩)))
  | holds | compare | compareText | names | texts | components =>
      exact .inr (.inr (.inr (.inr ⟨by simp, rfl, rfl, _, rfl⟩)))

/-- A step puts its own limits in force, if it has any. -/
theorem limits_step (s : Session) (step : Step) :
    (s.step step).1.limits = (newLimits? step).getD s.limits := by
  rcases s.step_cases step with ⟨slot, text, limits?, template, rfl, _, hstep⟩ |
    ⟨slot, text, limits?, e, rfl, _, hstep⟩ | ⟨length, rfl, hstep⟩ | ⟨mapping, rfl, hstep⟩ |
    ⟨_, hnone, _, _, hstep⟩
  · rw [hstep]
    rfl
  · rw [hstep]
    rfl
  · rw [hstep]
    rfl
  · rw [hstep]
    rfl
  · rw [hstep, hnone]
    rfl

/-- A step adds the mapping that it makes, if it makes one, and leaves the others as they were. -/
theorem mappings_step (s : Session) (step : Step) :
    (s.step step).1.mappings = s.mappings ++ (kept? step).toList := by
  rcases s.step_cases step with ⟨slot, text, limits?, template, rfl, _, hstep⟩ |
    ⟨slot, text, limits?, e, rfl, _, hstep⟩ | ⟨length, rfl, hstep⟩ | ⟨mapping, rfl, hstep⟩ |
    ⟨_, _, hnone, _, hstep⟩
  · rw [hstep]
    exact (List.append_nil _).symm
  · rw [hstep]
    exact (List.append_nil _).symm
  · rw [hstep]
    exact (List.append_nil _).symm
  · rw [hstep]
    rfl
  · rw [hstep, hnone]
    exact (List.append_nil _).symm

/-- A slot holds what the step constructs in it, or else what it held before. -/
theorem Tracks.lookup_step (h : Tracks steps s) :
    (s.step step).1.slots.lookup slot = some template ↔
    Builds steps step slot template ∨
      (∀ other, ¬Builds steps step slot other) ∧ s.slots.lookup slot = some template := by
  rcases s.step_cases step with ⟨target, text, limits?, built, rfl, hparse, hstep⟩ |
    ⟨target, text, limits?, e, rfl, hparse, hstep⟩ | ⟨length, rfl, hstep⟩ |
    ⟨mapping, rfl, hstep⟩ | ⟨hnot, _, _, _, hstep⟩
  · rw [h.limits] at hparse
    rw [hstep]
    show (Entries.insert (· == ·) target built s.slots).lookup slot = some template ↔ _
    rw [Entries.lookup_insert]
    by_cases hslot : slot = target
    · subst hslot
      simp only [BEq.rfl, if_true, Option.some.injEq]
      constructor
      · rintro rfl
        exact .inl ⟨text, limits?, rfl, hparse⟩
      · rintro (⟨_, _, hconstruct, hbuilt⟩ | ⟨hnot, _⟩)
        · cases hconstruct
          exact Except.ok.inj (hparse.symm.trans hbuilt)
        · exact absurd ⟨text, limits?, rfl, hparse⟩ (hnot built)
    · have hnot : ∀ other, ¬Builds steps (.construct target text limits?) slot other := by
        rintro other ⟨_, _, hconstruct, _⟩
        cases hconstruct
        exact hslot rfl
      simp [hslot, hnot]
  · rw [h.limits] at hparse
    have hnot : ∀ other, ¬Builds steps (.construct target text limits?) slot other := by
      rintro other ⟨_, _, hconstruct, hbuilt⟩
      cases hconstruct
      exact absurd (hparse.symm.trans hbuilt) (by simp)
    simp [hstep, hnot]
  · have hnot : ∀ other, ¬Builds steps (.setMaxLength length) slot other := by
      rintro other ⟨_, _, hconstruct, _⟩
      exact absurd hconstruct (by simp)
    simp [hstep, hnot]
  · have hnot : ∀ other, ¬Builds steps (.keep mapping) slot other := by
      rintro other ⟨_, _, hconstruct, _⟩
      exact absurd hconstruct (by simp)
    simp [hstep, hnot]
  · have hbuilds : ∀ other, ¬Builds steps step slot other := by
      rintro other ⟨text, limits?, hconstruct, _⟩
      exact hnot slot text limits? hconstruct
    simp [hstep, hbuilds]

/-- A step that fails, or that constructs nothing, sets no limits and makes no mapping, leaves the
session as it was. -/
theorem step_eq_self (h : (∃ e, (s.step step).2 = .error e) ∨
    (∀ slot text limits?, step ≠ .construct slot text limits?) ∧ newLimits? step = none ∧
      kept? step = none) :
    (s.step step).1 = s := by
  rcases s.step_cases step with ⟨slot, text, limits?, template, rfl, _, hstep⟩ |
    ⟨slot, text, limits?, e, rfl, _, hstep⟩ | ⟨length, rfl, hstep⟩ | ⟨mapping, rfl, hstep⟩ |
    ⟨_, _, _, _, hstep⟩
  · rcases h with ⟨e, he⟩ | ⟨hnot, _⟩
    · rw [hstep] at he
      exact absurd he (by simp)
    · exact absurd rfl (hnot slot text limits?)
  · rw [hstep]
  · rcases h with ⟨e, he⟩ | ⟨_, hnone, _⟩
    · rw [hstep] at he
      exact absurd he (by simp)
    · exact absurd hnone (by simp [newLimits?])
  · rcases h with ⟨e, he⟩ | ⟨_, _, hnone⟩
    · rw [hstep] at he
      exact absurd he (by simp)
    · exact absurd hnone (by simp [kept?])
  · rw [hstep]

/-- A step that is no successful construction leaves the slots as they were. -/
theorem slots_step_of_not_built (h : ∀ slot text limits?, step = .construct slot text limits? →
    ∃ e, (s.step step).2 = .error e) : (s.step step).1.slots = s.slots := by
  rcases s.step_cases step with ⟨slot, text, limits?, template, rfl, _, hstep⟩ |
    ⟨slot, text, limits?, e, rfl, _, hstep⟩ | ⟨length, rfl, hstep⟩ | ⟨mapping, rfl, hstep⟩ |
    ⟨_, _, _, _, hstep⟩
  · obtain ⟨e, he⟩ := h slot text limits? rfl
    rw [hstep] at he
    exact absurd he (by simp)
  · rw [hstep]
  · rw [hstep]
  · rw [hstep]
  · rw [hstep]

/-- A construction leaves the other slots as they were. -/
theorem lookup_step_of_ne {text : Text} {limits? : Option Limits} (hne : other ≠ slot) :
    (s.step (.construct slot text limits?)).1.slots.lookup other = s.slots.lookup other := by
  simp only [Session.step]
  cases Template.parse (limits?.getD s.limits) text with
  | error e => rfl
  | ok template =>
      show (Entries.insert (· == ·) slot template s.slots).lookup other = _
      rw [Entries.lookup_insert]
      simp [hne]

/-- One more step keeps track of what the slots hold and which mappings there are. -/
theorem Tracks.concat (h : Tracks steps s) (step : Step) :
    Tracks (steps ++ [step]) (s.step step).1 where
  limits := by rw [limits_step, limits_after_concat, h.limits]
  slots := fun slot template => by rw [h.lookup_step, last_built_concat, h.slots]
  mappings := by
    rw [mappings_step, List.filterMap_append, h.mappings, List.filterMap_cons, List.filterMap_nil]
    cases kept? step <;> rfl

/-! ## Runs -/

/-- The first session is that of no steps. -/
theorem tracks_initial : Tracks [] initial :=
  ⟨rfl, fun _ _ => iff_of_false (by simp [initial]) not_last_built_nil, rfl⟩

/-- Steps are run one after the other. -/
theorem run_append (s : Session) (first second : List Step) :
    s.run (first ++ second) = (((s.run first).1.run second).1,
      (s.run first).2 ++ ((s.run first).1.run second).2) := by
  induction first generalizing s with
  | nil => rfl
  | cons step rest ih => simp only [List.cons_append, run, ih]

/-- Each step has an answer. -/
theorem length_run (s : Session) (steps : List Step) : (s.run steps).2.length = steps.length := by
  induction steps generalizing s with
  | nil => rfl
  | cons step rest ih => simp only [run, List.length_cons, ih]

/-- The session after one more step. -/
theorem after_concat (steps : List Step) (step : Step) :
    after (steps ++ [step]) = ((after steps).step step).1 := by
  rw [after, run_append]
  rfl

/-- After any run every slot holds what was last constructed in it. -/
theorem tracks_after (steps : List Step) : Tracks steps (after steps) := by
  induction steps using List.reverseRecOn with
  | nil => exact tracks_initial
  | append_singleton steps step ih =>
      rw [after_concat]
      exact ih.concat step

/-- A step in a run is answered from the session that the steps before it leave. -/
theorem get_elem?_run (s : Session) (before : List Step) (step : Step) (after : List Step) :
    (s.run (before ++ step :: after)).2[before.length]? =
      some ((s.run before).1.step step).2 := by
  rw [run_append, ← length_run s before, List.getElem?_append_right (Nat.le_refl _), Nat.sub_self]
  rfl

/-! ## The limits in force -/

/-- The limits in force make no difference to a step other than a construction without limits of its
own. -/
theorem step_of_limits (limits : Limits) (s : Session)
    (h : ∀ slot text, step ≠ .construct slot text none) :
    ∃ limits', ({ s with limits := limits } : Session).step step =
      ({ (s.step step).1 with limits := limits' }, (s.step step).2) := by
  cases step with
  | construct slot text limits? =>
      cases limits? with
      | none => exact absurd rfl (h slot text)
      | some own =>
          simp only [Session.step, Option.getD_some]
          cases Template.parse own text <;> exact ⟨limits, rfl⟩
  | setMaxLength length => exact ⟨⟨length⟩, rfl⟩
  | keep => exact ⟨limits, rfl⟩
  | expand =>
      rw [step_expand, step_expand]
      exact ⟨limits, rfl⟩
  | holds | compare | compareText | names | texts | components => exact ⟨limits, rfl⟩

/-- The limits in force make no difference to a run without constructions that have no limits of
their own. -/
theorem run_of_limits (limits : Limits) (s : Session)
    (h : ∀ slot text, Step.construct slot text none ∉ steps) :
    ∃ limits', ({ s with limits := limits } : Session).run steps =
      ({ (s.run steps).1 with limits := limits' }, (s.run steps).2) := by
  induction steps generalizing limits s with
  | nil => exact ⟨limits, rfl⟩
  | cons step rest ih =>
      have hstep : ∀ slot text, step ≠ .construct slot text none := by
        rintro slot text rfl
        exact h slot text (by simp)
      have hrest : ∀ slot text, Step.construct slot text none ∉ rest := fun slot text hmem =>
        h slot text (by simp [hmem])
      obtain ⟨next, hnext⟩ := step_of_limits limits s hstep
      obtain ⟨last, hlast⟩ := ih next (s.step step).1 hrest
      exact ⟨last, by simp only [run, hnext, hlast]⟩

/-! ## Answers -/

/-- What a session answers about a slot is what the template in it says. -/
theorem answers_of_lookup (h : s.slots.lookup slot = some t) :
    (s.step (.components slot)).2 = .ok (.components t.components) ∧
      (s.step (.names slot)).2 = .ok (.texts t.names) ∧
      ∀ place? keywords, (s.step (.expand slot place? keywords)).2 =
        ((t.expand ((s.mappings.get place?).merged keywords)).mapError .digitLimit).map
          .expansion := by
  have hget : s.get slot = .ok t := by simp [get, h]
  refine ⟨?_, ?_, fun place? keywords => ?_⟩
  · simp [Session.step, ask, hget]
  · simp [Session.step, ask, hget]
  · rw [step_expand, hget]
    rfl

/-- Slots that hold the same template are answered alike. -/
theorem answer_alike_of_lookup {u : Session} (h : s.slots.lookup slot = some t)
    (hother : u.slots.lookup other = some t) : AnswerAlike s slot u other := by
  obtain ⟨hcomponents, hnames, hexpand⟩ := answers_of_lookup h
  obtain ⟨hcomponents', hnames', hexpand'⟩ := answers_of_lookup hother
  refine ⟨hcomponents.trans hcomponents'.symm, hnames.trans hnames'.symm,
    fun place? otherPlace? keywords hmapping => ?_⟩
  rw [hexpand, hexpand', hmapping]

/-- Templates of the same text that two runs leave are the same. -/
theorem eq_of_last_built {others : List Step} (ht : LastBuilt steps slot t)
    (hu : LastBuilt others other u) (htext : t.text = u.text) : t = u := by
  obtain ⟨_, _, _, _, ⟨text, _, _, hparse⟩, _⟩ := ht
  obtain ⟨_, _, _, _, ⟨text', _, _, hparse'⟩, _⟩ := hu
  obtain ⟨components, hcomponents, ht⟩ := bind_eq_ok_iff.1 hparse
  obtain ⟨components', hcomponents', hu⟩ := bind_eq_ok_iff.1 hparse'
  cases ht
  cases hu
  obtain rfl : text = text' := htext
  rw [parse_all_eq_of_parse_all hcomponents hcomponents']

/-- Templates that are the same have the same hash, whatever the hashes of texts are. -/
theorem hash_eq_of_same (hashText : Text → Nat) (h : t.same u = true) :
    t.hash hashText = u.hash hashText :=
  congrArg hashText (of_decide_eq_true h)

/-- After any run every slot holds the template that was last constructed in it, the mappings of the
caller are as it made them, and from this session the next step of the run is answered. A step that
is no successful construction leaves all slots as they are, one that fails, expands or asks leaves
everything as it is, and none touches a mapping; a construction leaves the other slots. The limits
in force make a difference only to later constructions without limits of their own. Templates of
the same text are answered alike, whatever the runs that left them, and expand to what their
components make of the mapping and the keywords. -/
theorem run_keeps_templates (steps : List Step) :
    ((after steps).limits = limitsAfter steps ∧
      (∀ slot t, (after steps).slots.lookup slot = some t ↔ LastBuilt steps slot t) ∧
      (after steps).mappings = steps.filterMap kept? ∧
      ∀ step rest, (initial.run (steps ++ step :: rest)).2[steps.length]? =
        some ((after steps).step step).2) ∧
    ((∀ step, (∀ slot text limits?, step = .construct slot text limits? →
          ∃ e, ((after steps).step step).2 = .error e) →
        (after (steps ++ [step])).slots = (after steps).slots) ∧
      (∀ step, ((∃ e, ((after steps).step step).2 = .error e) ∨
          (∀ slot text limits?, step ≠ .construct slot text limits?) ∧ newLimits? step = none ∧
            kept? step = none) →
        after (steps ++ [step]) = after steps) ∧
      (∀ step, (after steps).mappings <+: (after (steps ++ [step])).mappings) ∧
      ∀ slot text limits? other, other ≠ slot →
        (after (steps ++ [.construct slot text limits?])).slots.lookup other =
          (after steps).slots.lookup other) ∧
    (∀ length rest, (∀ slot text, Step.construct slot text none ∉ rest) →
      ((after (steps ++ [.setMaxLength length])).run rest).1.slots =
          ((after steps).run rest).1.slots ∧
        ((after (steps ++ [.setMaxLength length])).run rest).1.mappings =
          ((after steps).run rest).1.mappings ∧
        ((after (steps ++ [.setMaxLength length])).run rest).2 = ((after steps).run rest).2) ∧
    (∀ slot t place? keywords, (after steps).slots.lookup slot = some t →
      ((after steps).step (.expand slot place? keywords)).2 =
        ((t.expand (((after steps).mappings.get place?).merged keywords)).mapError
          .digitLimit).map .expansion) ∧
    ∀ others slot other t u, (after steps).slots.lookup slot = some t →
      (after others).slots.lookup other = some u → t.text = u.text →
        AnswerAlike (after steps) slot (after others) other := by
  have htracks := tracks_after steps
  refine ⟨⟨htracks.limits, htracks.slots, htracks.mappings,
      fun step rest => get_elem?_run initial steps step rest⟩,
    ⟨fun step h => ?_, fun step h => ?_, fun step => ?_, fun slot text limits? other hne => ?_⟩,
    fun length rest h => ?_, fun slot t place? keywords ht => ?_, ?_⟩
  · rw [after_concat]
    exact slots_step_of_not_built h
  · rw [after_concat]
    exact step_eq_self h
  · rw [after_concat, mappings_step]
    exact List.prefix_append _ _
  · rw [after_concat]
    exact lookup_step_of_ne hne
  · obtain ⟨limits', hrun⟩ := run_of_limits ⟨length⟩ (after steps) h
    rw [after_concat]
    show (Session.run { after steps with limits := ⟨length⟩ } rest).1.slots = _ ∧ _ = _ ∧
      (Session.run { after steps with limits := ⟨length⟩ } rest).2 = _
    rw [hrun]
    refine ⟨rfl, ?_, rfl⟩
    show (Session.run { after steps with limits := ⟨length⟩ } rest).1.mappings = _
    rw [hrun]
  · exact (answers_of_lookup ht).2.2 place? keywords
  · intro others slot other t u ht hu htext
    -- Templates of one text have the same components, whatever the limits of each.
    obtain rfl := eq_of_last_built ((htracks.slots slot t).1 ht)
      (((tracks_after others).slots other u).1 hu) htext
    exact answer_alike_of_lookup ht hu

/-- Of two slots with one text the first was filled under limits of its own and the second under
those in force. Neither a construction that failed nor other limits have changed them since, and an
expansion with keywords has left the mapping of the caller without them. -/
theorem run_keeps_templates_two_limits :
    let steps : List Step := [.setMaxLength 3, .construct "a" "\x7bx:5\x7d" none,
      .construct "a" "\x7bx:5\x7d" (some ⟨9⟩), .setMaxLength 100, .construct "b" "\x7bx:5\x7d" none,
      .keep [("x", .text "abcdefg")], .expand "a" (some 0) [("x", .text "uvwxyz")], .setMaxLength 1]
    (∃ t u, (after steps).slots.lookup (Text.ofString "a") = some t ∧
      (after steps).slots.lookup (Text.ofString "b") = some u ∧
      t.text = u.text ∧ LastBuilt steps "a" t ∧ LastBuilt steps "b" u ∧
      AnswerAlike (after steps) "a" (after steps) "b") ∧
    (after steps).mappings = [([("x", .text "abcdefg")] : Bindings)] ∧
    ((after steps).step (.expand "a" (some 0) [("x", .text "uvwxyz")])).2 =
      .ok (.expansion "uvwxy") ∧
    (∃ e, ((after steps).step (.construct "a" "\x7bx:5\x7d" none)).2 = .error e) ∧
    after (steps ++ [.construct "a" "\x7bx:5\x7d" none]) = after steps := by
  intro steps
  obtain ⟨⟨_, hslots, hmappings, _⟩, ⟨_, hfailed, _⟩, _, hexpand, hanswers⟩ :=
    run_keeps_templates steps
  have ha : (after steps).slots.lookup (Text.ofString "a") =
      some ⟨"\x7bx:5\x7d", [.expression ⟨.simple, [⟨"x", some (.first 5)⟩]⟩]⟩ := by
    decide +kernel
  have hb : (after steps).slots.lookup (Text.ofString "b") =
      some ⟨"\x7bx:5\x7d", [.expression ⟨.simple, [⟨"x", some (.first 5)⟩]⟩]⟩ := by
    decide +kernel
  have he : ((after steps).step (.construct "a" "\x7bx:5\x7d" none)).2 =
      .error (.parse (.invalidModifier "5")) := by
    decide +kernel
  refine ⟨⟨_, _, ha, hb, rfl, (hslots _ _).1 ha, (hslots _ _).1 hb, hanswers _ _ _ _ _ ha hb rfl⟩,
    hmappings, ?_, ⟨_, he⟩, hfailed _ (.inl ⟨_, he⟩)⟩
  rw [hexpand _ _ (some 0) [("x", .text "uvwxyz")] ha, hmappings]
  rfl

end Session

end UriTemplate
