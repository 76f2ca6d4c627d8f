import Mathlib.Data.List.TakeWhile
import UriTemplate.Proofs.Text.Join
import UriTemplate.Text.Blank

/-!
# Cutting and trimming texts

A text is cut at a separator into parts without it, and joining such parts is undone by the cut
(`Text.split_on_join`), so that the cut is the only list of such parts (`Text.split_on_eq_iff`).
`Text.Trimmed` says that a text starts and ends in no blank: these are the texts that `Text.trim`
gives, and it leaves them as they are. `Text.TrimsTo` says what is left of a text.
-/

namespace UriTemplate.Text

variable {separator c : CodePoint} {t before after : Text}

/-! ## Cutting at every separator -/

/-- A text has at least one part. -/
theorem split_on_ne_nil (separator : CodePoint) (t : Text) : splitOn separator t ≠ [] := by
  cases t with
  | nil => simp [splitOn]
  | cons c rest =>
      unfold splitOn
      split
      · simp
      · split <;> simp

/-- A character that is no separator belongs to the first part. -/
theorem split_on_cons_of_ne (hc : c ≠ separator) {part : Text} {parts : List Text}
    (h : splitOn separator t = part :: parts) :
    splitOn separator (c :: t) = (c :: part) :: parts := by
  simp [splitOn, h, hc]

/-- A text without separator is one part. -/
theorem split_on_of_not_mem (h : separator ∉ t) : splitOn separator t = [t] := by
  induction t with
  | nil => rfl
  | cons c rest ih =>
      simp only [List.mem_cons, not_or] at h
      exact split_on_cons_of_ne (Ne.symm h.1) (ih h.2)

/-- The first separator ends the first part. -/
theorem split_on_append_cons (h : separator ∉ t) (rest : Text) :
    splitOn separator (t ++ separator :: rest) = t :: splitOn separator rest := by
  induction t with
  | nil =>
      rw [List.nil_append, splitOn]
      split
      · next hnil => exact absurd hnil (split_on_ne_nil separator rest)
      · next hcons => simp [hcons]
  | cons c tail ih =>
      simp only [List.mem_cons, not_or] at h
      exact split_on_cons_of_ne (Ne.symm h.1) (ih h.2)

/-- Parts without the separator are found again in their join. -/
theorem split_on_join {parts : List Text} (hne : parts ≠ [])
    (h : ∀ part ∈ parts, separator ∉ part) :
    splitOn separator (join [separator] parts) = parts := by
  induction parts with
  | nil => exact absurd rfl hne
  | cons part rest ih =>
      have hpart := h part (by simp)
      cases rest with
      | nil => exact split_on_of_not_mem hpart
      | cons next rest =>
          have hrest := ih (by simp) fun other hother => h other (by simp [hother])
          rw [join, List.append_assoc, List.singleton_append, split_on_append_cons hpart, hrest]

/-- The first part starts the text. -/
theorem is_prefix_of_split_on {part : Text} {parts : List Text}
    (h : splitOn separator t = part :: parts) : part <+: t := by
  induction t generalizing part parts with
  | nil =>
      obtain rfl : part = [] := by
        rw [splitOn, List.cons.injEq] at h
        exact h.1.symm
      exact List.prefix_refl _
  | cons c rest ih =>
      cases hrest : splitOn separator rest with
      | nil => exact absurd hrest (split_on_ne_nil _ _)
      | cons first others =>
          simp only [splitOn, hrest] at h
          split at h
          · cases h
            exact List.nil_prefix
          · cases h
            exact List.cons_prefix_cons.2 ⟨rfl, ih hrest⟩

/-- Every part stands in the text. -/
theorem infix_of_mem_split_on {part : Text} (h : part ∈ splitOn separator t) : part <:+: t := by
  induction t with
  | nil =>
      obtain rfl : part = [] := by simpa [splitOn] using h
      exact List.infix_refl _
  | cons c rest ih =>
      cases hrest : splitOn separator rest with
      | nil => exact absurd hrest (split_on_ne_nil _ _)
      | cons first others =>
          rw [hrest] at ih
          by_cases hc : c = separator
          · rw [splitOn, hrest] at h
            simp only [hc, if_true] at h
            rcases List.mem_cons.1 h with rfl | h
            · exact List.nil_infix
            · exact List.infix_cons (ih h)
          · have hsplit := split_on_cons_of_ne hc hrest
            rw [hsplit] at h
            rcases List.mem_cons.1 h with rfl | h
            · exact (is_prefix_of_split_on hsplit).isInfix
            · exact List.infix_cons (ih (by simp [h]))

/-- No part holds the separator. -/
theorem not_mem_of_mem_split_on {part : Text} (h : part ∈ splitOn separator t) :
    separator ∉ part := by
  induction t generalizing part with
  | nil =>
      obtain rfl : part = [] := by simpa [splitOn] using h
      exact List.not_mem_nil
  | cons c rest ih =>
      cases hrest : splitOn separator rest with
      | nil => exact absurd hrest (split_on_ne_nil _ _)
      | cons first others =>
          rw [hrest] at ih
          by_cases hc : c = separator
          · rw [splitOn, hrest] at h
            simp only [hc, if_true] at h
            rcases List.mem_cons.1 h with rfl | h
            · exact List.not_mem_nil
            · exact ih h
          · rw [split_on_cons_of_ne hc hrest] at h
            rcases List.mem_cons.1 h with rfl | h
            · exact List.not_mem_cons_of_ne_of_not_mem (Ne.symm hc) (ih (by simp))
            · exact ih (by simp [h])

/-- The parts, joined again, are the text. -/
theorem join_split_on (separator : CodePoint) (t : Text) :
    join [separator] (splitOn separator t) = t := by
  induction t with
  | nil => rfl
  | cons c rest ih =>
      cases hrest : splitOn separator rest with
      | nil => exact absurd hrest (split_on_ne_nil _ _)
      | cons first others =>
          rw [hrest] at ih
          by_cases hc : c = separator
          · rw [splitOn, hrest]
            simp only [hc, if_true]
            show separator :: join [separator] (first :: others) = _
            rw [ih]
          · rw [split_on_cons_of_ne hc hrest]
            cases others with
            | nil => exact congrArg (c :: ·) ih
            | cons second others => exact congrArg (c :: ·) ih

/-- The cut of a text is the list of parts without the separator of which the text is the join. -/
theorem split_on_eq_iff {parts : List Text} : splitOn separator t = parts ↔
    parts ≠ [] ∧ (∀ part ∈ parts, separator ∉ part) ∧ join [separator] parts = t := by
  constructor
  · rintro rfl
    exact ⟨split_on_ne_nil _ _, fun _ => not_mem_of_mem_split_on, join_split_on separator t⟩
  · rintro ⟨hne, hparts, rfl⟩
    exact split_on_join hne hparts

/-! ## Cutting at the last separator -/

/-- Only a text without separator is not cut at the last one. -/
theorem split_last_eq_none_iff : splitLast separator t = none ↔ separator ∉ t := by
  induction t with
  | nil => simp [splitLast]
  | cons c rest ih =>
      cases hrest : splitLast separator rest with
      | none =>
          have habsent := ih.1 hrest
          by_cases hc : c = separator
          · simp [splitLast, hrest, hc]
          · simp [splitLast, hrest, hc, habsent, Ne.symm hc]
      | some pair =>
          have hmem : separator ∈ rest := by
            rw [split_last_eq_some hrest]
            simp
          simp [splitLast, hrest, hmem]

/-- The last separator is the one after which there is none. -/
theorem split_last_append_cons (h : separator ∉ after) (before : Text) :
    splitLast separator (before ++ separator :: after) = some (before, after) := by
  induction before with
  | nil =>
      have hnone := split_last_eq_none_iff.2 h
      simp [splitLast, hnone]
  | cons c rest ih => simp [splitLast, ih]

/-- The last separator has none after it. -/
theorem not_mem_of_split_last (h : splitLast separator t = some (before, after)) :
    separator ∉ after := by
  induction t generalizing before with
  | nil => simp [splitLast] at h
  | cons c rest ih =>
      cases hrest : splitLast separator rest with
      | some parts =>
          obtain ⟨inner, tail⟩ := parts
          simp only [splitLast, hrest, Option.some.injEq, Prod.mk.injEq] at h
          exact ih (h.2 ▸ hrest)
      | none =>
          by_cases hc : c = separator
          · simp only [splitLast, hrest, hc, if_true, Option.some.injEq, Prod.mk.injEq] at h
            exact h.2 ▸ split_last_eq_none_iff.1 hrest
          · simp [splitLast, hrest, hc] at h

/-! ## Cutting at the first separator -/

/-- A text without separator is not cut. -/
theorem split_first_of_not_mem (h : separator ∉ t) : splitFirst separator t = none := by
  cases hsplit : splitFirst separator t with
  | none => rfl
  | some parts =>
      rw [split_first_eq_some hsplit] at h
      exact absurd (by simp) h

/-- The first separator is the one before which there is none. -/
theorem split_first_append_cons {before : Text} (h : separator ∉ before) (after : Text) :
    splitFirst separator (before ++ separator :: after) = some (before, after) := by
  induction before with
  | nil => simp [splitFirst]
  | cons c rest ih =>
      obtain ⟨hc, hrest⟩ := List.ne_and_not_mem_of_not_mem_cons h
      simp [splitFirst, Ne.symm hc, ih hrest]

/-- The first separator has none before it. -/
theorem not_mem_of_split_first {before : Text} (h : splitFirst separator t = some (before, after)) :
    separator ∉ before := by
  induction t generalizing before with
  | nil => simp [splitFirst] at h
  | cons c rest ih =>
      by_cases hc : c = separator
      · simp only [splitFirst, hc, if_true, Option.some.injEq, Prod.mk.injEq] at h
        simp [← h.1]
      · simp only [splitFirst, hc, if_false, Option.map_eq_some_iff, Prod.mk.injEq,
          Prod.exists] at h
        obtain ⟨inner, tail, hrest, rfl, rfl⟩ := h
        simp [Ne.symm hc, ih hrest]

/-- A text is cut at the first separator exactly if there is none before it. -/
theorem split_first_eq_some_iff {before : Text} :
    splitFirst separator t = some (before, after) ↔
      t = before ++ separator :: after ∧ separator ∉ before := by
  refine ⟨fun h => ⟨split_first_eq_some h, not_mem_of_split_first h⟩, ?_⟩
  rintro ⟨rfl, h⟩
  exact split_first_append_cons h after

/-! ## Blanks at the ends -/

/-- `Trimmed t` says that `t` neither starts nor ends in a blank. -/
structure Trimmed (t : Text) : Prop where
  head : ∀ c ∈ t.head?, c.isBlank = false
  last : ∀ c ∈ t.getLast?, c.isBlank = false

/-- What is left when characters are dropped does not start with such a character. -/
theorem head?_drop_while {p : CodePoint → Bool} (t : Text) :
    ∀ c ∈ (t.dropWhile p).head?, p c = false := by
  intro c hc
  have hnot := List.head?_dropWhile_not p t
  rw [Option.mem_def.1 hc] at hnot
  simpa using hnot

/-- A text that does not start with such a character is left as it is. -/
theorem drop_while_of_head? {p : CodePoint → Bool} (h : ∀ c ∈ t.head?, p c = false) :
    t.dropWhile p = t := by
  cases t with
  | nil => rfl
  | cons c rest => simp [h c (by simp)]

/-- What is left after dropping code points at the end starts like the whole. -/
theorem head?_reverse_drop_while {p : CodePoint → Bool} :
    ∀ c ∈ (t.reverse.dropWhile p).reverse.head?, c ∈ t.head? := by
  intro c hc
  have hsuffix : t.reverse.dropWhile p <:+ t.reverse := List.dropWhile_suffix p
  obtain ⟨dropped, hdropped⟩ := List.reverse_prefix.2 hsuffix
  rw [List.reverse_reverse] at hdropped
  rw [Option.mem_def] at hc ⊢
  rw [← hdropped, List.head?_append, hc, Option.some_or]

/-- Trimming leaves no blanks around a text. -/
theorem trimmed_trim (t : Text) : Trimmed t.trim where
  head := fun c hc => head?_drop_while t c (head?_reverse_drop_while c hc)
  last := fun c hc => by
    simp only [trim, stripEnds, List.getLast?_reverse] at hc
    exact head?_drop_while _ c hc

/-- A trimmed text is left as it is. -/
theorem Trimmed.trim_eq (h : Trimmed t) : t.trim = t := by
  have hlast : ∀ c ∈ t.reverse.head?, c.isBlank = false := by simpa using h.last
  rw [trim, stripEnds, drop_while_of_head? h.head, drop_while_of_head? hlast, List.reverse_reverse]

/-- Nothing is left of a text exactly when it is all blanks. -/
theorem trim_eq_nil_iff : t.trim = [] ↔ ∀ c ∈ t, c.isBlank = true := by
  rw [trim, stripEnds, List.reverse_eq_nil_iff, List.dropWhile_eq_nil_iff]
  constructor
  · intro hall
    cases hkept : t.dropWhile CodePoint.isBlank with
    | nil => exact List.dropWhile_eq_nil_iff.1 hkept
    | cons c rest =>
        -- The first code point that stays at the front would be dropped at the end.
        have hblank := hall c (by simp [hkept])
        have hhead : (t.dropWhile CodePoint.isBlank).head? = some c := by simp [hkept]
        exact absurd hblank (by simp [head?_drop_while t c hhead])
  · intro hall
    simp [List.dropWhile_eq_nil_iff.2 hall]

/-- What is left of a text stands in it. -/
theorem infix_trim (t : Text) : t.trim <:+: t := by
  have hfront : t.dropWhile CodePoint.isBlank <:+ t := List.dropWhile_suffix _
  have hboth : (t.dropWhile CodePoint.isBlank).reverse.dropWhile CodePoint.isBlank <:+
      (t.dropWhile CodePoint.isBlank).reverse := List.dropWhile_suffix _
  have hback := List.reverse_prefix.2 hboth
  rw [List.reverse_reverse] at hback
  exact hback.isInfix.trans hfront.isInfix

/-- A blank in front is trimmed. -/
theorem trim_cons_of_is_blank (hc : c.isBlank = true) (t : Text) : trim (c :: t) = t.trim := by
  simp [trim, stripEnds, hc]

/-! ## What is left without blanks -/

/-- `TrimsTo t core` says that `core` is what is left of `t` without the blanks at its two ends. -/
def TrimsTo (t core : Text) : Prop :=
  ∃ left right, t = left ++ core ++ right ∧ (∀ c ∈ left ++ right, c.isBlank = true) ∧ Trimmed core

/-- A text has its core between blanks. -/
theorem trims_to_trim (t : Text) : TrimsTo t t.trim := by
  have hfront := List.takeWhile_append_dropWhile (p := CodePoint.isBlank) (l := t)
  have hback := List.takeWhile_append_dropWhile (p := CodePoint.isBlank)
    (l := (t.dropWhile CodePoint.isBlank).reverse)
  refine ⟨t.takeWhile CodePoint.isBlank,
    ((t.dropWhile CodePoint.isBlank).reverse.takeWhile CodePoint.isBlank).reverse, ?_, ?_,
    trimmed_trim t⟩
  · rw [trim, stripEnds, List.append_assoc, ← List.reverse_append, hback, List.reverse_reverse,
      hfront]
  · intro c hc
    rw [List.mem_append, List.mem_reverse] at hc
    rcases hc with hc | hc <;> exact List.mem_takeWhile_imp hc

/-- The core is what trimming leaves. -/
theorem TrimsTo.trim_eq {core : Text} (h : TrimsTo t core) : t.trim = core := by
  obtain ⟨left, right, rfl, hblank, hcore⟩ := h
  rw [List.forall_mem_append] at hblank
  cases core with
  | nil =>
      refine trim_eq_nil_iff.2 ?_
      simpa [or_imp, forall_and] using hblank
  | cons c rest =>
      have hleft : ∀ d ∈ (c :: rest ++ right).head?, d.isBlank = false := hcore.head
      have hright : ∀ d ∈ ((c :: rest).reverse).head?, d.isBlank = false := by
        simpa only [List.head?_reverse] using hcore.last
      rw [trim, stripEnds, List.append_assoc, List.dropWhile_append_of_pos hblank.1,
        drop_while_of_head? hleft, List.reverse_append,
        List.dropWhile_append_of_pos (by simpa using hblank.2), drop_while_of_head? hright,
        List.reverse_reverse]

end UriTemplate.Text
