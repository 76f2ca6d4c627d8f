import UriTemplate.Proofs.Yaml.Plan

/-!
# Objects on the way

A loader fills some collections after it has made them. `Drawn` says how far it has got: something
has been made of certain nodes, and what does not wait to be filled is right. Which nodes these are
and what is right is a matter of the constructor; all that has to be known of it is that scalars are
what their nodes give (`Library.Judges`).
-/

namespace UriTemplate.Yaml

/-- `Waits filled? pending i` says that the collection `i` is being filled or is to be. -/
def Waits (filled? : Option Nat) (pending : List Nat) (i : Nat) : Prop :=
  filled? = some i ∨ i ∈ pending

/-- `Drawn d known right filled? s` says that in the state `s` something has been made of known
nodes, and that it is right for them, but for the collections that wait. -/
structure Drawn (d : Document) (known : Nat → Prop) (right : Objects → Nat → Object → Prop)
    (filled? : Option Nat) (s : State) : Prop where
  later : d.graph.Later s.document.graph
  document_eq : s.document = { d with graph := s.document.graph }
  differ : ∀ i v, s.objects i = some (.scalar v) → (s.document.graph i).tag ≠ .value
  closed : s.objects.Closed
  known : ∀ i o, s.objects i = some o → known i
  waiting : ∀ i, Waits filled? s.pending i → (d.graph i).tag.isCollection = true ∧
    ∃ o, s.objects i = some o ∧ ∀ v, o ≠ .scalar v
  right : ∀ i o, s.objects i = some o → ¬Waits filled? s.pending i → right s.objects i o

/-- `lib.Judges d right` says that what is right stays so while more is made, and that scalars are
right if they are what their nodes give. -/
structure Library.Judges (lib : Library) (d : Document) (right : Objects → Nat → Object → Prop) :
    Prop where
  mono : ∀ {objects more : Objects} {n o}, right objects n o →
    (∀ i v, objects i = some (.scalar v) → more i = some (.scalar v)) →
      (∀ i, (objects i).isSome = true → (more i).isSome = true) → right more n o
  gives : ∀ {objects n v}, right objects n (.scalar v) → lib.Gives d objects n (.scalar v)

variable {lib : Library} {d : Document} {known : Nat → Prop} {right : Objects → Nat → Object → Prop}
  {s : State} {filled? : Option Nat} {n : Nat} {o : Object}

namespace Drawn

/-- A scalar does not wait. -/
theorem not_waits (hs : Drawn d known right filled? s) {i : Nat} {v : Value}
    (hv : s.objects i = some (.scalar v)) : ¬Waits filled? s.pending i := fun hwaits => by
  obtain ⟨-, o, ho, hno⟩ := hs.waiting i hwaits
  exact hno v (Option.some.inj (ho.symm.trans hv))

/-- The invariant says what it has to of documents and scalars. -/
theorem tracks (hjudges : lib.Judges d right) (filled? : Option Nat) :
    lib.Tracks d (Drawn d known right filled?) where
  later hs := ⟨hs.later, hs.document_eq⟩
  scalar hs i _ hv := hjudges.gives (hs.right i _ hv (hs.not_waits hv))
  flatten g hs hg hspecial := by
    refine ⟨hg, ?_, fun i v hv hvalue => hs.differ i v hv (hspecial i hvalue), hs.closed, hs.known,
      hs.waiting, hs.right⟩
    rw [hs.document_eq]

/-- The calls do not matter. -/
theorem with_calls (hs : Drawn d known right filled? s) (calls : List Call) :
    Drawn d known right filled? { s with calls := calls } :=
  ⟨hs.later, hs.document_eq, hs.differ, hs.closed, hs.known, hs.waiting, hs.right⟩

/-- An object may be made of a node, or be put in the place of one that is no scalar, if all inside
it has been made and it is right, or waits to be filled. -/
theorem put (hjudges : lib.Judges d right) (hs : Drawn d known right filled? s) (hn : known n)
    (hmembers : ∀ i ∈ o.members, (s.objects i).isSome = true)
    (hold : ∀ v, s.objects n ≠ some (.scalar v)) {filled'? : Option Nat} {pending : List Nat}
    (hothers : ∀ i, i ≠ n → (Waits filled'? pending i ↔ Waits filled? s.pending i))
    (hscalar : ∀ v, o = .scalar v →
      (s.document.graph n).tag ≠ .value ∧ ¬Waits filled'? pending n)
    (hcollection : Waits filled'? pending n → (d.graph n).tag.isCollection = true)
    (hright : ¬Waits filled'? pending n → right s.objects n o) :
    Drawn d known right filled'? { s with objects := s.objects.set n o, pending := pending } := by
  have hgrows := Grows.put hold o
  have hset : ∀ i p, i ≠ n → ((s.objects.set n o) i = some p ↔ s.objects i = some p) :=
    fun i p hi => by simp [Objects.set, hi]
  have hself : ∀ p, (s.objects.set n o) n = some p → o = p := fun p hp => by
    simpa [Objects.set] using hp
  -- Each part of the invariant is about the node or about another one, which keeps its object.
  refine ⟨hs.later, hs.document_eq, fun i v hv => ?_, hs.closed.set hmembers, fun i p hp => ?_,
    fun i hi => ?_, fun i p hp hi => ?_⟩
  · by_cases hin : i = n
    · subst hin
      exact (hscalar v (hself _ hv)).1
    · exact hs.differ i v ((hset i _ hin).1 hv)
  · by_cases hin : i = n
    · rwa [hin]
    · exact hs.known i p ((hset i p hin).1 hp)
  · by_cases hin : i = n
    · subst hin
      exact ⟨hcollection hi, o, by simp [Objects.set], fun v hv => (hscalar v hv).2 hi⟩
    · obtain ⟨htag, p, hp, hno⟩ := hs.waiting i ((hothers i hin).1 hi)
      exact ⟨htag, p, (hset i p hin).2 hp, hno⟩
  · by_cases hin : i = n
    · subst hin
      obtain rfl := hself p hp
      exact hjudges.mono (hright hi) hgrows.scalar hgrows.isSome
    · exact hjudges.mono (hs.right i p ((hset i p hin).1 hp) (mt (hothers i hin).2 hi))
        hgrows.scalar hgrows.isSome

/-- Nothing is made yet of a node that does not wait. -/
theorem not_waits_of_none (hs : Drawn d known right filled? s) (hnone : s.objects n = none) :
    ¬Waits filled? s.pending n := fun hwaits => by
  obtain ⟨-, o, ho, -⟩ := hs.waiting n hwaits
  simp [hnone] at ho

/-- A scalar is made of a node. -/
theorem put_scalar (hjudges : lib.Judges d right) (hs : Drawn d known right filled? s)
    (hn : known n)
    (hnone : s.objects n = none) (hvalue : (s.document.graph n).tag ≠ .value) {v : Value}
    (hright : right s.objects n (.scalar v)) :
    Drawn d known right filled? { s with objects := s.objects.set n (.scalar v) } := by
  have hfree := hs.not_waits_of_none hnone
  exact hs.put hjudges hn (by simp [Object.members]) (by simp [hnone]) (fun _ _ => Iff.rfl)
    (fun _ _ => ⟨hvalue, hfree⟩) (fun hwaits => absurd hwaits hfree) fun _ => hright

/-- A collection is put off. -/
theorem put_off (hjudges : lib.Judges d right) (hs : Drawn d known right filled? s) (hn : known n)
    (hnone : s.objects n = none) (htag : (d.graph n).tag.isCollection = true) (tag : Tag) :
    Drawn d known right filled?
      { s with objects := s.objects.set n (.ofTag tag), pending := s.pending ++ [n] } := by
  have hofTag : (Object.ofTag tag).members = [] ∧ ∀ v, Object.ofTag tag ≠ .scalar v := by
    cases tag <;> exact ⟨rfl, fun _ => nofun⟩
  refine hs.put hjudges hn (by simp [hofTag.1]) (by simp [hnone]) (fun i hi => ?_)
    (fun v hv => absurd hv (hofTag.2 v)) (fun _ => htag) fun hnot => ?_
  · simp [Waits, hi]
  · exact absurd (Or.inr (by simp)) hnot

/-- The collection that is taken out waits as the one that is filled. -/
theorem pop (hs : Drawn d known right none s) {rest : List Nat} (hpending : s.pending = n :: rest) :
    Drawn d known right (some n) { s with pending := rest } := by
  have hwaits : ∀ i, Waits (some n) rest i ↔ Waits none s.pending i := fun i => by
    simp [Waits, hpending, eq_comm]
  exact ⟨hs.later, hs.document_eq, hs.differ, hs.closed, hs.known,
    fun i hi => hs.waiting i ((hwaits i).1 hi),
    fun i o ho hi => hs.right i o ho (mt (hwaits i).2 hi)⟩

/-- The collection that is filled is no scalar. -/
theorem ne_scalar (hs : Drawn d known right (some n) s) (v : Value) :
    s.objects n ≠ some (.scalar v) := fun hv => by
  obtain ⟨-, o, ho, hno⟩ := hs.waiting n (.inl rfl)
  exact hno v (Option.some.inj (ho.symm.trans hv))

/-- The collection that is filled may show what it holds so far. -/
theorem put_pairs (hjudges : lib.Judges d right) (hs : Drawn d known right (some n) s)
    {pairs : List (Nat × Nat)}
    (hpairs : ∀ p ∈ pairs, (s.objects p.1).isSome = true ∧ (s.objects p.2).isSome = true) :
    Drawn d known right (some n) { s with objects := s.objects.set n (.pairs pairs) } := by
  obtain ⟨hcollection, o, ho, -⟩ := hs.waiting n (.inl rfl)
  exact hs.put hjudges (hs.known n o ho) (Object.forall_mem_pairs.2 hpairs) hs.ne_scalar
    (fun _ _ => Iff.rfl) (fun _ => nofun) (fun _ => hcollection) fun hnot => absurd (.inl rfl) hnot

/-- The collection that is filled gets what it holds. -/
theorem fill (hjudges : lib.Judges d right) (hs : Drawn d known right (some n) s)
    (hmembers : ∀ i ∈ o.members, (s.objects i).isSome = true) (hno : ∀ v, o ≠ .scalar v)
    (hright : right s.objects n o) :
    Drawn d known right none { s with objects := s.objects.set n o } := by
  obtain ⟨hcollection, p, hp, -⟩ := hs.waiting n (.inl rfl)
  refine hs.put hjudges (hs.known n p hp) hmembers hs.ne_scalar (fun i hi => ?_)
    (fun v hv => absurd hv (hno v)) (fun _ => hcollection) fun _ => hright
  simp [Waits, hi.symm]

end Drawn

/-- What is known of a library and a document, so that objects are what nodes give. -/
structure Library.Known (lib : Library) (d : Document) (read : Tag → Text → Option Value)
    (isNan : Tag → Text → Bool) : Prop where
  reads : lib.ReadsScalars read isNan
  merging : lib.FlattensByMerging
  numbered : d.Numbered
  acyclic : d.graph.Acyclic
  steady : lib.Steady d

variable {read : Tag → Text → Option Value} {isNan : Tag → Text → Bool}

/-- A scalar that is read on the way is what its node gives. -/
theorem Drawn.gives_scalar (hknown : lib.Known d read isNan) (hs : Drawn d known right filled? s)
    (htag : (s.document.graph n).tag.isCollection = false) {v : Value}
    (hv : lib.scalar s.document n = .ok v) :
    (s.document.graph n).tag ≠ .value ∧ lib.Gives d s.objects n (.scalar v) := by
  have hwritten : (d.graph n).tag.isCollection = false := by
    rwa [← (hs.later.becomes n).tag.is_collection_eq]
  rw [hs.document_eq] at hv
  have hvalue : (s.document.graph n).tag ≠ .value := fun hvalue =>
    hknown.reads.special { d with graph := s.document.graph } n v (.inr hvalue) hv
  exact ⟨hvalue, hwritten, (hknown.reads.ok_iff hknown.steady hs.later hwritten hvalue).1.1 hv⟩

/-- Nothing has been made of a document at the start. -/
theorem Drawn.start (d : Document) (known : Nat → Prop)
    (right : Objects → Nat → Object → Prop) : Drawn d known right none d.start where
  later := .refl _
  document_eq := rfl
  differ _ _ hv := absurd hv (by simp [Document.start])
  closed _ _ ho := absurd ho (by simp [Document.start])
  known _ _ ho := absurd ho (by simp [Document.start])
  waiting _ hi := absurd hi (by simp [Waits, Document.start])
  right _ _ ho := absurd ho (by simp [Document.start])

end UriTemplate.Yaml
