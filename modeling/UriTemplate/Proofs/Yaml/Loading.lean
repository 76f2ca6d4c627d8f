import UriTemplate.Proofs.Outcome
import UriTemplate.Yaml.TextKeys

/-!
# The work of a loader

`Yields x s E Q` says what the work `x` of a loader comes to in the state `s`: a result and a state
of which `Q` holds, or a failure, which is only possible if `E` holds. The rules take work apart
into its steps. `Steps A n s t` says what a loader may have done on its way from the state `s` to
the state `t`, where it fills the collection `n` at most: what has been made stays, and nothing is
made of the nodes in `A`, of which an object is being made.
-/

namespace UriTemplate.Yaml

/-! ## What work comes to -/

/-- `Yields x s E Q` says that the work `x` ends in the state `s` with a result and a state of which
`Q` holds, or fails, which implies `E`. -/
def Yields {α : Type} (x : Loading α) (s : State) (E : Prop) (Q : α → State → Prop) : Prop :=
  match x.run s with
  | .ok (a, t) => Q a t
  | .error _ => E

section

variable {α β : Type} {x : Loading α} {f : α → Loading β} {s t : State} {E : Prop}
  {Q R : α → State → Prop}

/-- What work that succeeds comes to. -/
theorem Yields.of_run (h : Yields x s E Q) {a : α} (hrun : x.run s = .ok (a, t)) : Q a t := by
  rwa [Yields, hrun] at h

/-- Work that cannot fail succeeds. -/
theorem Yields.exists_run (h : Yields x s E Q) (hE : ¬E) : ∃ a t, x.run s = .ok (a, t) ∧ Q a t := by
  unfold Yields at h
  split at h
  · next a t hrun => exact ⟨a, t, hrun, h⟩
  · exact absurd h hE

/-- What work comes to implies what follows from it. -/
theorem Yields.mono (h : Yields x s E Q) (hQ : ∀ a t, Q a t → R a t) : Yields x s E R := by
  unfold Yields at h ⊢
  split at h
  · exact hQ _ _ h
  · exact h

/-- To return a value is to yield it. -/
@[simp] theorem yields_pure {a : α} : Yields (pure a) s E Q ↔ Q a s := Iff.rfl

/-- What comes next starts from what is yielded. -/
@[simp] theorem yields_bind {Q : β → State → Prop} :
    Yields (x >>= f) s E Q ↔ Yields x s E fun a t => Yields (f a) t E Q := by
  unfold Yields
  rw [StateT.run_bind]
  cases x.run s <;> rfl

/-- A function is applied to what is yielded. -/
@[simp] theorem yields_map {g : α → β} {Q : β → State → Prop} :
    Yields (g <$> x) s E Q ↔ Yields x s E fun a t => Q (g a) t := by
  rw [← bind_pure_comp, yields_bind]
  rfl

/-- Only one branch has to yield. -/
@[simp] theorem yields_ite {p : Prop} [Decidable p] {y : Loading α} :
    Yields (if p then x else y) s E Q ↔ (p → Yields x s E Q) ∧ (¬p → Yields y s E Q) := by
  split <;> simp [*]

/-- A failure is allowed only where `E` holds. -/
@[simp] theorem yields_throw {e : Failure} : Yields (throw e : Loading α) s E Q ↔ E := Iff.rfl

end

section

variable {s : State} {E : Prop} {n : Nat} {m : Methods}

/-- The state may be read. -/
@[simp] theorem yields_get {Q : State → State → Prop} : Yields get s E Q ↔ Q s s := Iff.rfl

/-- The state may be replaced. -/
@[simp] theorem yields_set {t : State} {Q : Unit → State → Prop} :
    Yields (set t : Loading Unit) s E Q ↔ Q () t := Iff.rfl

/-- The state may be changed. -/
@[simp] theorem yields_modify {f : State → State} {Q : Unit → State → Prop} :
    Yields (modify f : Loading Unit) s E Q ↔ Q () (f s) := Iff.rfl

/-- A result is yielded, or it is a failure. -/
@[simp] theorem yields_lift {α : Type} {x : Except Failure α} {Q : α → State → Prop} :
    Yields (liftM x : Loading α) s E Q ↔
      match x with
      | .ok a => Q a s
      | .error _ => E := by
  cases x <;> rfl

/-- The cell of a node is that of the document. -/
@[simp] theorem yields_cell {Q : Cell → State → Prop} :
    Yields (cell n) s E Q ↔ Q (s.document.graph n) s := Iff.rfl

/-- An object has been made if there is one. -/
@[simp] theorem yields_is_made {Q : Bool → State → Prop} :
    Yields (isMade n) s E Q ↔ Q (s.objects n).isSome s := Iff.rfl

/-- An object is put under its node. -/
@[simp] theorem yields_put {o : Object} {Q : Unit → State → Prop} :
    Yields (put n o) s E Q ↔ Q () { s with objects := s.objects.set n o } := Iff.rfl

/-- A collection that is put off is empty and waits. -/
@[simp] theorem yields_put_off {tag : Tag} {Q : Unit → State → Prop} :
    Yields (putOff n tag) s E Q ↔
      Q () { s with objects := s.objects.set n (.ofTag tag), pending := s.pending ++ [n] } :=
  Iff.rfl

/-- A refusal is a failure. -/
@[simp] theorem yields_refuse {α : Type} {reason : Refusal} {Q : α → State → Prop} :
    Yields (m.refuse reason n) s E Q ↔ E := Iff.rfl

/-- Resolving merge keys changes the graph and nothing else. -/
theorem yields_flatten_at {Q : Unit → State → Prop} :
    Yields (m.flattenAt n) s E Q ↔
      match m.flatten s.document n with
      | .ok g => Q () { s with document := { s.document with graph := g } }
      | .error _ => E := by
  unfold Methods.flattenAt
  simp only [yields_bind, yields_get, yields_lift]
  cases m.flatten s.document n <;> rfl

end

/-! ## Loads -/

section

variable {m : Methods} {c : Constructor} {d : Document} {text : Text} {l : Loaded}

/-- What is loaded is what is made of the document that the text composes. -/
theorem Methods.load_eq_some_iff : m.load c text = .ok (some l) ↔
    ∃ d, m.compose text = .ok (some d) ∧ m.loadDocument c d = .ok l := by
  unfold Methods.load
  constructor
  · intro h
    obtain ⟨d?, hcompose, h⟩ := bind_eq_ok_iff.1 h
    cases d? with
    | none => exact absurd h (by simp)
    | some d =>
        obtain ⟨_, hload, h⟩ := bind_eq_ok_iff.1 h
        cases h
        exact ⟨d, hcompose, hload⟩
  · rintro ⟨d, hcompose, hload⟩
    rw [hcompose, ok_bind]
    show (m.loadDocument c d >>= fun loaded => pure (some loaded)) = _
    rw [hload]
    rfl

/-- `d.start` is the state in which nothing has been made of the document `d`. -/
def Document.start (d : Document) : State := ⟨⟨⟨d, fun _ => none⟩, []⟩, []⟩

/-- What the work on a document comes to is what is made of it. -/
theorem Methods.load_document_of_yields {E : Prop} {Q : State → Prop}
    (h : Yields (m.construct c (d.size + 1) [] false d.root) d.start E fun _ t =>
      Yields (m.fillPending c (d.size + 1) (d.size + 1)) t E fun _ u => Q u) :
    (∀ l, m.loadDocument c d = .ok l → ∃ t, Q t ∧ l = t.toLoaded) ∧
      (¬E → ∃ t, Q t ∧ m.loadDocument c d = .ok t.toLoaded) := by
  have hwork : Yields (do
      m.construct c (d.size + 1) [] false d.root
      m.fillPending c (d.size + 1) (d.size + 1)) d.start E fun _ t => Q t := yields_bind.2 h
  constructor
  · intro l hload
    obtain ⟨⟨_, t⟩, hrun, hl⟩ := bind_eq_ok_iff.1 hload
    cases hl
    exact ⟨t, hwork.of_run hrun, rfl⟩
  · intro hE
    obtain ⟨_, t, hrun, ht⟩ := hwork.exists_run hE
    exact ⟨t, ht, bind_eq_ok_iff.2 ⟨_, hrun, rfl⟩⟩

end

/-! ## What is made stays -/

/-- What is inside pairs is their keys and values. -/
theorem Object.forall_mem_pairs {p : Nat → Prop} {pairs : List (Nat × Nat)} :
    (∀ i ∈ (Object.pairs pairs).members, p i) ↔ ∀ e ∈ pairs, p e.1 ∧ p e.2 := by
  rw [Object.members, List.forall_mem_flatMap]
  simp

/-- `objects.Closed` says that something has been made of everything inside the objects. -/
def Objects.Closed (objects : Objects) : Prop :=
  ∀ n o, objects n = some o → ∀ i ∈ o.members, (objects i).isSome = true

/-- `Steps A filled? s t` says that a loader may get from the state `s` to the state `t` without
making anything of the nodes in `A`. Only the collection `filled?` changes. -/
structure Steps (A : List Nat) (filled? : Option Nat) (s t : State) : Prop where
  objects : ∀ i o, filled? ≠ some i → s.objects i = some o → t.objects i = some o
  isSome : ∀ i, (s.objects i).isSome = true → (t.objects i).isSome = true
  unmade : ∀ i ∈ A, s.objects i = none → t.objects i = none
  calls : s.calls <+: t.calls
  root : t.document.root = s.document.root
  size : t.document.size = s.document.size

/-- `Fills A filled? n s` says that the collection `n` may be filled in the state `s`: it is there,
or nothing has been made of it. -/
def Fills (A : List Nat) (filled? : Option Nat) (n : Nat) (s : State) : Prop :=
  filled? = some n ∨ n ∈ A ∧ s.objects n = none

/-- A collection may still be filled where nothing has been made of the nodes in `A`. -/
theorem Fills.mono {A : List Nat} {filled? : Option Nat} {n : Nat} {s t : State}
    (h : Fills A filled? n s) (hunmade : ∀ i ∈ A, s.objects i = none → t.objects i = none) :
    Fills A filled? n t := by
  rcases h with hfilled | ⟨hn, hnone⟩
  · exact .inl hfilled
  · exact .inr ⟨hn, hunmade n hn hnone⟩

namespace Steps

variable {A : List Nat} {filled? : Option Nat} {s t u : State} {n : Nat} {o : Object}

/-- A loader may stay where it is. -/
theorem refl (A : List Nat) (filled? : Option Nat) (s : State) : Steps A filled? s s :=
  ⟨fun _ _ _ h => h, fun _ h => h, fun _ _ h => h, List.prefix_rfl, rfl, rfl⟩

/-- Steps may be taken one after the other. -/
theorem trans (h : Steps A filled? s t) (h' : Steps A filled? t u) : Steps A filled? s u where
  objects i o hi ho := h'.objects i o hi (h.objects i o hi ho)
  isSome i hi := h'.isSome i (h.isSome i hi)
  unmade i hi hnone := h'.unmade i hi (h.unmade i hi hnone)
  calls := h.calls.trans h'.calls
  root := h'.root.trans h.root
  size := h'.size.trans h.size

/-- Where nothing changes, a collection may be filled. -/
theorem filling (h : Steps A none s t) : Steps A filled? s t :=
  { h with objects := fun i o _ => h.objects i o (by simp) }

/-- Fewer nodes may be kept free. -/
theorem subset {B : List Nat} (h : Steps A filled? s t) (hB : B ⊆ A) : Steps B filled? s t :=
  { h with unmade := fun i hi => h.unmade i (hB hi) }

/-- Something may be made of a node of which nothing has been made. -/
theorem put (hn : s.objects n = none) (hA : n ∉ A) :
    Steps A none s { s with objects := s.objects.set n o } where
  objects i p _ hp := by
    have hi : i ≠ n := fun heq => absurd (heq ▸ hp) (by simp [hn])
    simp [Objects.set, hi, hp]
  isSome i hi := by
    by_cases h : i = n <;> simp [Objects.set, h, hi]
  unmade i hi hnone := by
    have hne : i ≠ n := fun heq => hA (heq ▸ hi)
    simp [Objects.set, hne, hnone]
  calls := List.prefix_rfl
  root := rfl
  size := rfl

/-- The collection that is filled may be replaced. -/
theorem fill (hn : (s.objects n).isSome = true) :
    Steps A (some n) s { s with objects := s.objects.set n o } where
  objects i p hi hp := by
    have hne : i ≠ n := fun heq => hi (by rw [heq])
    simp [Objects.set, hne, hp]
  isSome i hi := by
    by_cases h : i = n <;> simp [Objects.set, h, hi]
  unmade i _ hnone := by
    have hne : i ≠ n := fun heq => absurd (heq ▸ hn) (by simp [hnone])
    simp [Objects.set, hne, hnone]
  calls := List.prefix_rfl
  root := rfl
  size := rfl

end Steps

/-- Objects stay closed when one more is made of a node. -/
theorem Objects.Closed.set {objects : Objects} (h : objects.Closed) {n : Nat} {o : Object}
    (ho : ∀ i ∈ o.members, (objects i).isSome = true) : (objects.set n o).Closed := by
  have hmade : ∀ i, (objects i).isSome = true → ((objects.set n o) i).isSome = true := by
    intro i hi
    by_cases hn : i = n <;> simp [Objects.set, hn, hi]
  intro i p hp j hj
  by_cases hn : i = n
  · obtain rfl : o = p := by simpa [Objects.set, hn] using hp
    exact hmade j (ho j hj)
  · exact hmade j (h i p (by simpa [Objects.set, hn] using hp) j hj)

/-- The text of an object does not change when more objects are made. -/
theorem Objects.Closed.display_eq {objects more : Objects} (h : objects.Closed)
    (hmore : ∀ i o, objects i = some o → more i = some o) (depth : Nat) (around : List Nat)
    (n : Nat)
    (hn : (objects n).isSome = true) :
    more.display depth around n = objects.display depth around n := by
  induction depth generalizing around n with
  | zero => rfl
  | succ depth ih =>
      obtain ⟨o, ho⟩ := Option.isSome_iff_exists.1 hn
      -- What is inside an object has been made, so it is the same in both.
      have hinside : ∀ i ∈ o.members, ∀ around,
          more.display depth around i = objects.display depth around i :=
        fun i hi around => ih around i (h n o ho i hi)
      rw [Objects.display, Objects.display, ho, hmore n o ho]
      cases o with
      | scalar v => rfl
      | set members => rfl
      | list items =>
          have hitems : items.mapM (more.display depth (n :: around)) =
              items.mapM (objects.display depth (n :: around)) :=
            mapm_eq_mapm fun i hi => hinside i hi (n :: around)
          simp only [hitems]
      | pairs entries =>
          have hentries : ∀ e ∈ entries,
              (do return Value.tupleText [← more.display depth (n :: around) e.1,
                ← more.display depth (n :: around) e.2] : Except Decimal.LimitError Text) =
              do return Value.tupleText [← objects.display depth (n :: around) e.1,
                ← objects.display depth (n :: around) e.2] := by
            intro e he
            rw [hinside e.1 (List.mem_flatMap.2 ⟨e, he, by simp⟩),
              hinside e.2 (List.mem_flatMap.2 ⟨e, he, by simp⟩)]
          simp only [mapm_eq_mapm hentries]
      | mapping entries =>
          have hentries : ∀ e ∈ entries,
              (do return (← e.1.display) ++ Text.ofString ": " ++
                (← more.display depth (n :: around) e.2) : Except Decimal.LimitError Text) =
              do return (← e.1.display) ++ Text.ofString ": " ++
                (← objects.display depth (n :: around) e.2) := by
            intro e he
            rw [hinside e.2 (List.mem_map_of_mem he)]
          simp only [mapm_eq_mapm hentries]

/-- The text of a key does not change when more objects are made. -/
theorem Steps.key_text {A : List Nat} {s t : State} (h : Steps A none s t)
    (hclosed : s.objects.Closed) {n : Nat} (hn : (s.objects n).isSome = true) :
    t.keyText n = s.keyText n := by
  obtain ⟨o, ho⟩ := Option.isSome_iff_exists.1 hn
  have hmore : ∀ i o, s.objects i = some o → t.objects i = some o :=
    fun i o => h.objects i o (by simp)
  have hdisplay := hclosed.display_eq hmore (s.document.size + 1) [] n hn
  unfold Stage.keyText
  rw [hmore n o ho, ho, h.size]
  cases o with
  | scalar v => rfl
  | list | pairs | set | mapping => exact hdisplay

end UriTemplate.Yaml
