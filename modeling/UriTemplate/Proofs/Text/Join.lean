import Mathlib.Data.List.Flatten
import Mathlib.Data.List.Forall2
import UriTemplate.Text

/-!
# Joined texts

`Text.join` puts a separator between texts. `Text.append_join` writes the same text with the
separator in front of every part. `Text.Cancels` says when what a function writes can be cancelled
from the front of a text; it passes from the parts of a text to their sequence, so that parts that
hold no separator can be told apart however they are nested. `MadeOf` says that a text is parts of
one kind, with nothing between them.
-/

namespace UriTemplate

namespace Text

/-- With one more separator in front, each part of a join comes after one. -/
theorem append_join {ts : List Text} (hne : ts ≠ []) (separator : Text) :
    separator ++ join separator ts = ts.flatMap (separator ++ ·) := by
  induction ts with
  | nil => exact absurd rfl hne
  | cons t rest ih =>
      cases rest with
      | nil => simp [join]
      | cons u rest =>
          have hrest := ih (by simp)
          rw [join, List.flatMap_cons, ← hrest]
          simp

/-- A join of more parts goes on with one more separator before each of them. -/
theorem join_append {ts : List Text} (hne : ts ≠ []) (separator : Text) (more : List Text) :
    join separator (ts ++ more) = join separator ts ++ more.flatMap (separator ++ ·) := by
  have hne' : ts ++ more ≠ [] := by simp [hne]
  apply (List.append_right_inj separator).1
  rw [append_join hne', List.flatMap_append, ← append_join hne, List.append_assoc]

/-- Parts that are pairs with a separator between them are joined as the members of the pairs. -/
theorem join_pairs {α : Type} (separator : Text) (f g : α → Text) (as : List α) :
    join separator (as.map fun a => f a ++ separator ++ g a) =
      join separator (as.flatMap fun a => [f a, g a]) := by
  cases as with
  | nil => rfl
  | cons a rest =>
      -- With one more separator in front both are sequences of separators and parts.
      apply (List.append_right_inj separator).1
      rw [append_join (by simp), append_join (by simp), List.flatMap_map, List.flatMap_assoc]
      simp

/-- With a separator in front, each text has one. -/
theorem cons_join_map {α : Type} {as : List α} (hne : as ≠ []) (f : α → Text) (c : CodePoint) :
    c :: join [c] (as.map f) = as.flatMap fun a => c :: f a := by
  have hmap : as.map f ≠ [] := by simpa using hne
  simpa [List.flatMap_map] using append_join hmap [c]

/-- A join of some of the parts is what is left of the join when code points are deleted. -/
theorem join_sublist {ts us : List Text} (h : ts.Sublist us) (separator : Text) :
    (join separator ts).Sublist (join separator us) := by
  by_cases hne : ts = []
  · rw [hne]
    exact List.nil_sublist _
  · have hne' : us ≠ [] := fun hnil => hne (List.sublist_nil.1 (hnil ▸ h))
    -- With one more separator in front both are sequences of parts.
    rw [← List.append_sublist_append_left separator, append_join hne, append_join hne']
    exact h.flatMap _

/-- What a join holds is in the separator or in one of the parts. -/
theorem mem_or_mem_of_mem_join {ts : List Text} {separator : Text} {c : CodePoint}
    (h : c ∈ join separator ts) : c ∈ separator ∨ ∃ t ∈ ts, c ∈ t := by
  induction ts with
  | nil => simp [join] at h
  | cons t rest ih =>
      cases rest with
      | nil => exact .inr ⟨t, by simp, h⟩
      | cons u rest =>
          simp only [join, List.append_assoc, List.mem_append] at h
          rcases h with ht | hseparator | hrest
          · exact .inr ⟨t, by simp, ht⟩
          · exact .inl hseparator
          · rcases ih hrest with hseparator | ⟨v, hv, hc⟩
            · exact .inl hseparator
            · exact .inr ⟨v, by simp [hv], hc⟩

/-- A join starts as its first part does, if that is not empty. -/
theorem head?_join {t : Text} (hne : t ≠ []) (separator : Text) (rest : List Text) :
    (join separator (t :: rest)).head? = t.head? := by
  cases rest with
  | nil => rfl
  | cons u rest => rw [join, List.append_assoc, List.head?_append_of_ne_nil _ hne]

/-- `Stops stops t` says that the text `t` is empty or starts with one of the `stops`. -/
def Stops (stops : List CodePoint) (t : Text) : Prop := ∀ c ∈ t.head?, c ∈ stops

variable {stops : List CodePoint} {t u rest rest' : Text} {c : CodePoint}

/-- The empty text stops. -/
theorem stops_nil : Stops stops [] := by simp [Stops]

/-- A text stops by its first character. -/
theorem stops_cons : Stops stops (c :: t) ↔ c ∈ stops := by simp [Stops]

/-- More characters may stop. -/
theorem Stops.mono {more : List CodePoint} (h : Stops stops t) (hmore : stops ⊆ more) :
    Stops more t :=
  fun d hd => hmore (h d hd)

/-- Texts that stop do so one after the other. -/
theorem Stops.append (ht : Stops stops t) (hrest : Stops stops rest) :
    Stops stops (t ++ rest) := by
  cases t with
  | nil => exact hrest
  | cons d tail => exact stops_cons.2 (stops_cons.1 ht)

/-- Texts without stops, each before a stop or the end, are the same part of the same text. -/
theorem append_inj_of_stops (ht : ∀ d ∈ t, d ∉ stops) (hu : ∀ d ∈ u, d ∉ stops)
    (hrest : Stops stops rest) (hrest' : Stops stops rest') (h : t ++ rest = u ++ rest') :
    t = u ∧ rest = rest' := by
  -- If one of the texts were longer it would hold the stop that the other is followed by.
  rcases List.append_eq_append_iff.1 h with ⟨more, rfl, hmore⟩ | ⟨more, rfl, hmore⟩
  · cases more with
    | nil => simpa using hmore
    | cons d tail => exact absurd (stops_cons.1 (hmore ▸ hrest)) (hu d (by simp))
  · cases more with
    | nil => simpa using hmore.symm
    | cons d tail => exact absurd (stops_cons.1 (hmore ▸ hrest')) (ht d (by simp))

variable {α β : Type} {R : α → α → Prop} {S : β → β → Prop} {f : α → Text} {g : β → Text}

/-- `Cancels stops R f` says that, before the end or one of the `stops`, the text that `f` writes
of a value determines the value among those related to it, and can be cancelled. -/
def Cancels (stops : List CodePoint) (R : α → α → Prop) (f : α → Text) : Prop :=
  ∀ ⦃a b rest rest'⦄, R a b → Stops stops rest → Stops stops rest' →
    f a ++ rest = f b ++ rest' → a = b ∧ rest = rest'

/-- Fewer characters may stop. -/
theorem Cancels.mono {more : List CodePoint} (h : Cancels more R f) (hmore : stops ⊆ more) :
    Cancels stops R f :=
  fun _ _ _ _ hab hrest hrest' heq => h hab (hrest.mono hmore) (hrest'.mono hmore) heq

/-- A character in front can be cancelled as well. -/
theorem Cancels.cons (h : Cancels stops R f) (c : CodePoint) :
    Cancels stops R fun a => c :: f a :=
  fun _ _ _ _ hab hrest hrest' heq => h hab hrest hrest' (List.cons.inj heq).2

/-- Two values with a stop between them can be cancelled if each of them can. -/
theorem Cancels.pair (hf : Cancels (c :: stops) R f) (hg : Cancels stops S g) :
    Cancels stops (fun a b : α × β => R a.1 b.1 ∧ S a.2 b.2) fun a => f a.1 ++ c :: g a.2 := by
  rintro ⟨a, x⟩ ⟨b, y⟩ rest rest' ⟨hab, hxy⟩ hrest hrest' heq
  have hcut : f a ++ (c :: g x ++ rest) = f b ++ (c :: g y ++ rest') := by simpa using heq
  obtain ⟨rfl, htail⟩ := hf hab (stops_cons.2 (by simp)) (stops_cons.2 (by simp)) hcut
  obtain ⟨rfl, hsame⟩ := hg hxy hrest hrest' (List.cons.inj htail).2
  exact ⟨rfl, hsame⟩

/-- Texts that stop do so any number of times. -/
theorem stops_flat_map (h : ∀ a, Stops stops (f a)) (as : List α) :
    Stops stops (as.flatMap f) := by
  induction as with
  | nil => exact stops_nil
  | cons a as ih => exact (h a).append ih

/-- A sequence can be cancelled if each of its values can, and starts with a stop or is not
written. -/
theorem Cancels.flat_map (h : Cancels stops R f) (hstops : ∀ a, Stops stops (f a)) :
    Cancels stops (List.Forall₂ R) fun as => as.flatMap f := by
  intro as bs rest rest' hrel hrest hrest' heq
  have hall := stops_flat_map hstops
  induction hrel with
  | nil => exact ⟨rfl, heq⟩
  | @cons a b as bs hab _ ih =>
      simp only [List.flatMap_cons, List.append_assoc] at heq
      obtain ⟨rfl, htail⟩ := h hab ((hall as).append hrest) ((hall bs).append hrest') heq
      obtain ⟨rfl, hsame⟩ := ih htail
      exact ⟨rfl, hsame⟩

/-- Values joined by a stop can be cancelled, where as many stand on both sides, if each of them
can. -/
theorem Cancels.join (h : Cancels stops R f) (hc : c ∈ stops) :
    Cancels stops (List.Forall₂ R) fun as => Text.join [c] (as.map f) := by
  intro as bs rest rest' hrel hrest hrest' heq
  have hsequence := (h.cons c).flat_map fun a => stops_cons.2 hc
  cases hrel with
  | nil => exact ⟨rfl, heq⟩
  | @cons a b as bs hab hrel =>
      -- A separator in front makes the join a sequence of parts that all start with one.
      refine hsequence (.cons hab hrel) hrest hrest' ?_
      change (a :: as).flatMap (fun a => c :: f a) ++ rest =
        (b :: bs).flatMap (fun a => c :: f a) ++ rest'
      rw [← cons_join_map (by simp), ← cons_join_map (by simp), List.cons_append,
        List.cons_append, heq]

/-! ## Joins of texts of other lengths -/

section Length

variable {α : Type} {as : List α} {f g : α → Text} {separator : Text}

/-- Longer texts are joined to a longer one. -/
theorem length_join_le (hle : ∀ a ∈ as, (f a).length ≤ (g a).length) :
    (join separator (as.map f)).length ≤ (join separator (as.map g)).length := by
  induction as with
  | nil => exact Nat.le_refl _
  | cons a rest ih =>
      obtain ⟨ha, hrest⟩ := List.forall_mem_cons.1 hle
      cases rest with
      | nil => exact ha
      | cons b rest =>
          have htail := ih hrest
          simp only [List.map_cons, join, List.length_append] at htail ⊢
          omega

/-- Joins of texts that are each no longer than the other one at their place are equal only if all
texts are. -/
theorem eq_of_join_eq (hle : ∀ a ∈ as, (f a).length ≤ (g a).length)
    (h : join separator (as.map f) = join separator (as.map g)) : ∀ a ∈ as, f a = g a := by
  induction as with
  | nil => simp
  | cons a rest ih =>
      obtain ⟨ha, hrest⟩ := List.forall_mem_cons.1 hle
      cases rest with
      | nil => simpa [join] using h
      | cons b rest =>
          -- What follows is no longer either, so that the first texts end at the same place.
          have htail : (join separator ((b :: rest).map f)).length ≤
              (join separator ((b :: rest).map g)).length := length_join_le hrest
          simp only [List.map_cons, join, List.append_assoc] at h htail
          have hlength := congrArg List.length h
          simp only [List.length_append] at hlength
          obtain ⟨hfirst, hmore⟩ := List.append_inj h (by omega)
          refine List.forall_mem_cons.2 ⟨hfirst, ih hrest ?_⟩
          exact (List.append_cancel_left hmore)

end Length

end Text

/-! ## Texts made of parts -/

/-- `MadeOf P t` says that `t` is the parts of some list, all of which satisfy `P`, one after the
other. -/
def MadeOf (P : Text → Prop) (t : Text) : Prop :=
  ∃ parts : List Text, parts.flatten = t ∧ ∀ part ∈ parts, P part

section Parts

variable {P Q : Text → Prop} {t u : Text} {c : CodePoint}

/-- The empty text is made of nothing. -/
theorem made_of_nil : MadeOf P [] := ⟨[], rfl, by simp⟩

/-- A part is made of itself. -/
theorem made_of_part (h : P t) : MadeOf P t := ⟨[t], by simp, by simpa using h⟩

/-- Texts made of parts are so one after the other. -/
theorem MadeOf.append (ht : MadeOf P t) (hu : MadeOf P u) : MadeOf P (t ++ u) := by
  obtain ⟨parts, rfl, hparts⟩ := ht
  obtain ⟨others, rfl, hothers⟩ := hu
  exact ⟨parts ++ others, by simp, List.forall_mem_append.2 ⟨hparts, hothers⟩⟩

/-- A text is made of its characters. -/
theorem made_of_forall (h : ∀ c ∈ t, P [c]) : MadeOf P t := by
  induction t with
  | nil => exact made_of_nil
  | cons c rest ih =>
      obtain ⟨hc, hrest⟩ := List.forall_mem_cons.1 h
      exact (made_of_part hc).append (ih hrest)

/-- Joined texts are made of the parts of these and of the separator. -/
theorem MadeOf.join {separator : Text} (hseparator : MadeOf P separator) {ts : List Text}
    (h : ∀ t ∈ ts, MadeOf P t) : MadeOf P (Text.join separator ts) := by
  induction ts with
  | nil => exact made_of_nil
  | cons t rest ih =>
      obtain ⟨ht, hrest⟩ := List.forall_mem_cons.1 h
      cases rest with
      | nil => exact ht
      | cons u rest => exact (ht.append hseparator).append (ih hrest)

/-- Each character is in a part. -/
theorem MadeOf.exists_of_mem (h : MadeOf P t) (hc : c ∈ t) : ∃ part, P part ∧ c ∈ part := by
  obtain ⟨parts, rfl, hparts⟩ := h
  obtain ⟨part, hpart, hmem⟩ := List.mem_flatten.1 hc
  exact ⟨part, hparts part hpart, hmem⟩

/-- Parts may be of a wider kind. -/
theorem MadeOf.imp (h : MadeOf P t) (hpart : ∀ part, part ⊆ t → P part → Q part) :
    MadeOf Q t := by
  obtain ⟨parts, rfl, hparts⟩ := h
  exact ⟨parts, rfl, fun part hmem =>
    hpart part (List.sublist_flatten_of_mem hmem).subset (hparts part hmem)⟩

end Parts

end UriTemplate
