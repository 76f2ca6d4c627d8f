import Mathlib.Data.List.Forall2

/-!
# Computations that succeed or fail

How a computation made of parts succeeds or fails: `bind_eq_ok_iff` and `bind_eq_error_iff` take a
sequence apart, and `mapm_eq_ok_iff` a traversal, of which `forall_mem_left` and `forall_mem_right`
read off what holds of every member. A traversal fails at the first member at which it does
(`mapm_eq_error_iff`): `Reaches` says that a list has such a member, and what holds before it.
-/

namespace UriTemplate

variable {ε α β : Type}

/-- To return is to succeed. -/
@[simp] theorem pure_eq_ok (a : α) : (pure a : Except ε α) = .ok a := rfl

/-- After a success its value is used. -/
@[simp] theorem ok_bind (a : α) (f : α → Except ε β) : (Except.ok a >>= f) = f a := rfl

/-- After a failure nothing is run. -/
@[simp] theorem error_bind (e : ε) (f : α → Except ε β) :
    (Except.error e >>= f) = .error e := rfl

/-- A success is mapped. -/
@[simp] theorem map_ok (f : α → β) (a : α) : (Except.ok a : Except ε α).map f = .ok (f a) := rfl

/-- A failure is kept. -/
@[simp] theorem map_error (f : α → β) (e : ε) :
    (Except.error e : Except ε α).map f = .error e := rfl

/-- A sequence succeeds exactly when both of its parts do. -/
theorem bind_eq_ok_iff {x : Except ε α} {f : α → Except ε β} {b : β} :
    (x >>= f) = .ok b ↔ ∃ a, x = .ok a ∧ f a = .ok b := by
  cases x <;> simp

/-- A sequence fails exactly when its first part does, or its second part after the first. -/
theorem bind_eq_error_iff {x : Except ε α} {f : α → Except ε β} {e : ε} :
    (x >>= f) = .error e ↔ x = .error e ∨ ∃ a, x = .ok a ∧ f a = .error e := by
  cases x <;> simp

/-- A mapped result is a success exactly of a success. -/
theorem map_eq_ok_iff {x : Except ε α} {f : α → β} {b : β} :
    x.map f = .ok b ↔ ∃ a, x = .ok a ∧ f a = b := by
  cases x <;> simp

/-- A mapped result is a failure exactly of the same one. -/
theorem map_eq_error_iff {x : Except ε α} {f : α → β} {e : ε} :
    x.map f = .error e ↔ x = .error e := by
  cases x <;> simp

/-- Another error does not change what succeeds. -/
theorem map_error_eq_ok_iff {δ : Type} {x : Except ε α} {f : ε → δ} {a : α} :
    x.mapError f = .ok a ↔ x = .ok a := by
  cases x <;> simp [Except.mapError]

/-- What succeeds gives something. -/
theorem to_option_eq_some_iff {x : Except ε α} {a : α} : x.toOption = some a ↔ x = .ok a := by
  cases x <;> simp [Except.toOption]

/-- A traversal succeeds exactly when it does at every member. -/
theorem mapm_eq_ok_iff {f : α → Except ε β} {as : List α} {bs : List β} :
    as.mapM f = .ok bs ↔ List.Forall₂ (fun a b => f a = .ok b) as bs := by
  induction as generalizing bs with
  | nil => cases bs <;> simp
  | cons a as ih =>
      rw [List.mapM_cons, bind_eq_ok_iff, List.forall₂_cons_left_iff]
      constructor
      · rintro ⟨b, ha, hrest⟩
        obtain ⟨bs, has, hbs⟩ := bind_eq_ok_iff.1 hrest
        exact ⟨b, bs, ha, ih.1 has, by simpa using hbs.symm⟩
      · rintro ⟨b, bs, ha, has, rfl⟩
        exact ⟨b, ha, bind_eq_ok_iff.2 ⟨bs, ih.2 has, rfl⟩⟩

/-- Traversals are the same that are the same at every member. -/
theorem mapm_eq_mapm {f g : α → Except ε β} {as : List α} (h : ∀ a ∈ as, f a = g a) :
    as.mapM f = as.mapM g := by
  induction as with
  | nil => rfl
  | cons a as ih =>
      obtain ⟨ha, has⟩ := List.forall_mem_cons.1 h
      rw [List.mapM_cons, List.mapM_cons, ha, ih has]

/-! ## The first member of a kind -/

section

variable {p q : α → Prop} {a : α} {as : List α}

/-- `Reaches p q as` says that a member of `as` satisfies `q`, and every member before it `p`. -/
def Reaches (p q : α → Prop) (as : List α) : Prop :=
  ∃ before a after, as = before ++ a :: after ∧ (∀ b ∈ before, p b) ∧ q a

/-- Nothing is reached in an empty list. -/
theorem not_reaches_nil : ¬Reaches p q [] := by
  rintro ⟨before, a, after, h, _⟩
  simp at h

/-- An element is reached at the front, or in the rest if the first one lets it through. -/
theorem reaches_cons : Reaches p q (a :: as) ↔ q a ∨ p a ∧ Reaches p q as := by
  constructor
  · rintro ⟨before, b, after, hsplit, hbefore, hb⟩
    cases before with
    | nil =>
        obtain ⟨rfl, rfl⟩ := List.cons.inj hsplit
        exact .inl hb
    | cons c before =>
        obtain ⟨rfl, rfl⟩ := List.cons.inj hsplit
        obtain ⟨ha, hbefore⟩ := List.forall_mem_cons.1 hbefore
        exact .inr ⟨ha, before, b, after, rfl, hbefore, hb⟩
  · rintro (ha | ⟨ha, before, b, after, rfl, hbefore, hb⟩)
    · exact ⟨[], a, as, rfl, by simp, ha⟩
    · exact ⟨a :: before, b, after, rfl, List.forall_mem_cons.2 ⟨ha, hbefore⟩, hb⟩

end

/-- A traversal fails exactly where it succeeds at some members and fails at the next. -/
theorem mapm_eq_error_iff {f : α → Except ε β} {as : List α} {e : ε} :
    as.mapM f = .error e ↔ Reaches (fun a => ∃ b, f a = .ok b) (fun a => f a = .error e) as := by
  induction as with
  | nil => simp [not_reaches_nil]
  | cons a as ih =>
      rw [List.mapM_cons, bind_eq_error_iff, reaches_cons, ← ih]
      simp [bind_eq_error_iff]

/-- A traversal fails only where it does so at a member. -/
theorem exists_mem_of_mapm_eq_error {f : α → Except ε β} {as : List α} {e : ε}
    (h : as.mapM f = .error e) : ∃ a ∈ as, f a = .error e := by
  obtain ⟨before, a, after, rfl, _, ha⟩ := mapm_eq_error_iff.1 h
  exact ⟨a, by simp, ha⟩

/-- Either every member of a list is related to something, or there is a first one that is not. -/
theorem exists_forall₂_or_reaches (R : α → β → Prop) (as : List α) :
    (∃ bs, List.Forall₂ R as bs) ∨ Reaches (fun a => ∃ b, R a b) (fun a => ∀ b, ¬R a b) as := by
  induction as with
  | nil => exact .inl ⟨[], .nil⟩
  | cons a as ih =>
      by_cases ha : ∃ b, R a b
      · rcases ih with ⟨bs, hbs⟩ | hreaches
        · obtain ⟨b, hb⟩ := ha
          exact .inl ⟨b :: bs, .cons hb hbs⟩
        · exact .inr (reaches_cons.2 (.inr ⟨ha, hreaches⟩))
      · exact .inr (reaches_cons.2 (.inl (not_exists.1 ha)))

/-! ## Members of related lists -/

/-- What follows for one member of related lists holds of every member of the first. -/
theorem forall_mem_left {R : α → β → Prop} {p : α → Prop} {as : List α} {bs : List β}
    (h : List.Forall₂ R as bs) (hp : ∀ a b, R a b → p a) : ∀ a ∈ as, p a := by
  have hboth : List.Forall₂ (fun a b => p a ∧ R a b) as bs :=
    h.imp fun a b hab => ⟨hp a b hab, hab⟩
  exact ((List.forall₂_and_left as bs).1 hboth).1

/-- What follows for one member of related lists holds of every member of the second. -/
theorem forall_mem_right {R : α → β → Prop} {p : β → Prop} {as : List α} {bs : List β}
    (h : List.Forall₂ R as bs) (hp : ∀ a b, R a b → p b) : ∀ b ∈ bs, p b :=
  forall_mem_left h.flip fun b a hab => hp a b hab

/-- Every member of the second of related lists is related to one of the first. -/
theorem exists_mem_left {R : α → β → Prop} {as : List α} {bs : List β}
    (h : List.Forall₂ R as bs) : ∀ b ∈ bs, ∃ a ∈ as, R a b :=
  forall_mem_right ((List.forall₂_and_left as bs).2 ⟨fun _ ha => ha, h⟩)
    fun a _ hab => ⟨a, hab⟩

/-- What follows for one member of related lists relates the members. -/
theorem forall₂_imp_of_mem {R S : α → β → Prop} {as : List α} {bs : List β}
    (h : List.Forall₂ R as bs) (hS : ∀ a ∈ as, ∀ b ∈ bs, R a b → S a b) :
    List.Forall₂ S as bs := by
  induction h with
  | nil => exact .nil
  | cons hab _ ih =>
      exact .cons (hS _ List.mem_cons_self _ List.mem_cons_self hab)
        (ih fun a ha b hb => hS a (List.mem_cons_of_mem _ ha) b (List.mem_cons_of_mem _ hb))

/-- What is related to the members of a list is related by way of these. -/
theorem forall₂_of_common {γ : Type} {R : α → β → Prop} {S : α → γ → Prop} {as : List α}
    {bs : List β} {cs : List γ} (hbs : List.Forall₂ R as bs) (hcs : List.Forall₂ S as cs) :
    List.Forall₂ (fun b c => ∃ a ∈ as, R a b ∧ S a c) bs cs := by
  induction hbs generalizing cs with
  | nil =>
      cases hcs
      exact .nil
  | cons hab _ ih =>
      cases hcs with
      | cons hac hrest =>
          exact .cons ⟨_, List.mem_cons_self, hab, hac⟩
            ((ih hrest).imp fun b c ⟨a, ha, h⟩ => ⟨a, List.mem_cons_of_mem _ ha, h⟩)

/-- What is related to lists put together is put together of what is related to each. -/
theorem exists_of_forall₂_append {R : α → β → Prop} {as more : List α} {bs : List β}
    (h : List.Forall₂ R (as ++ more) bs) :
    ∃ cs ds, List.Forall₂ R as cs ∧ List.Forall₂ R more ds ∧ bs = cs ++ ds := by
  have hfirst := List.forall₂_take as.length h
  have hrest := List.forall₂_drop as.length h
  rw [List.take_left] at hfirst
  rw [List.drop_left] at hrest
  exact ⟨_, _, hfirst, hrest, (List.take_append_drop _ _).symm⟩

/-- What is related to lists one after the other is made of lists as well. -/
theorem exists_of_forall₂_flatten {R : α → β → Prop} {ass : List (List α)} {bs : List β}
    (h : List.Forall₂ R ass.flatten bs) :
    ∃ bss, List.Forall₂ (List.Forall₂ R) ass bss ∧ bs = bss.flatten := by
  induction ass generalizing bs with
  | nil =>
      obtain rfl := List.forall₂_nil_left_iff.1 h
      exact ⟨[], .nil, rfl⟩
  | cons as rest ih =>
      obtain ⟨cs, ds, hcs, hds, rfl⟩ := exists_of_forall₂_append h
      obtain ⟨bss, hbss, rfl⟩ := ih hds
      exact ⟨cs :: bss, .cons hcs hbss, rfl⟩

end UriTemplate
