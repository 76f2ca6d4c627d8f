import UriTemplate.Proofs.Name

/-!
# Names read by position

`Name.isEscaped` takes a text apart from its front. The same test can be made by a walk over the
positions of the text: a round looks at the code point where the walk stands and goes on behind the
unit that starts there (`Name.round`). Every round that goes on does so at a later position, which
is still in the text or at its end (`Name.round_cases`). So the walk ends, and its verdict is that
of `isEscaped` (`Name.walk_eq`). `Name.is_name_grammar` puts the laws of names together.
-/

namespace UriTemplate.Name

variable {t rest : Text} {c : CodePoint} {position rounds : Nat}

/-! ## The walk -/

/-- What a round of the walk comes to: the position where the walk goes on, or its verdict. -/
inductive Round where
  | next (position : Nat)
  | verdict (escaped : Bool)

/-- `isDigitPair t` says that `t` is two hexadecimal digits. -/
def isDigitPair (t : Text) : Bool := t.length = 2 && t.all CodePoint.isHexDigit

/-- `round t position` is the round of the walk over `t` that stands at `position`. Behind a percent
sign it looks at two code points, or at as many as are left. -/
def round (t : Text) (position : Nat) : Round :=
  match t[position]? with
  | none => .verdict true
  | some c =>
      if c = '%' then
        if isDigitPair ((t.drop (position + 1)).take 2) then .next (position + 3)
        else .verdict false
      else if isPlain c then .next (position + 1)
      else .verdict false

/-- `walk t rounds position` is the verdict of the walk over `t` from `position`, if the walk comes
to it within that many rounds. -/
def walk (t : Text) : Nat → Nat → Option Bool
  | 0, _ => none
  | rounds + 1, position =>
      match round t position with
      | .next later => walk t rounds later
      | .verdict escaped => some escaped

/-! ## One round -/

/-- After a percent sign a pair of digits is read, of which the end of the text may leave no more
than a part. -/
theorem is_escaped_cons_percent (rest : Text) :
    isEscaped (CodePoint.ofChar '%' :: rest) =
      (isDigitPair (rest.take 2) && isEscaped (rest.drop 2)) := by
  match rest with
  | [] => rfl
  | [_] => rfl
  | high :: low :: rest => simp [isEscaped, isDigitPair]

/-- What is left further on. -/
theorem drop_of_drop (hleft : t.drop position = c :: rest) (n : Nat) :
    t.drop (position + (n + 1)) = rest.drop n := by
  rw [← List.drop_drop, hleft, List.drop_succ_cons]

/-- The length of a text from what is left of it. -/
theorem length_of_drop (hleft : t.drop position = c :: rest) :
    t.length = position + (rest.length + 1) := by
  have hlength := congrArg List.length hleft
  rw [List.length_drop, List.length_cons] at hlength
  omega

/-- A round looks at the character at its position, and after a percent sign at two more. -/
theorem round_of_drop (hleft : t.drop position = c :: rest) :
    round t position =
      if c = '%' then
        if isDigitPair (rest.take 2) then .next (position + 3) else .verdict false
      else if isPlain c then .next (position + 1)
      else .verdict false := by
  have hbehind : t.drop (position + 1) = rest := drop_of_drop hleft 0
  rw [round, ← List.head?_drop, hleft, List.head?_cons, hbehind]

/-- A round comes to the verdict on what is left of the text, or passes over a unit of it. -/
theorem round_cases (t : Text) (position : Nat) :
    round t position = .verdict (isEscaped (t.drop position)) ∨
      ∃ later, round t position = .next later ∧ position < later ∧ later ≤ t.length ∧
        isEscaped (t.drop position) = isEscaped (t.drop later) := by
  cases hleft : t.drop position with
  | nil =>
      refine .inl ?_
      rw [round, ← List.head?_drop, hleft]
      rfl
  | cons c rest =>
      have hlength := length_of_drop hleft
      rw [round_of_drop hleft]
      by_cases hpercent : c = CodePoint.ofChar '%'
      · rw [if_pos hpercent, hpercent, is_escaped_cons_percent]
        cases hpair : isDigitPair (rest.take 2) with
        | false => exact .inl rfl
        | true =>
            -- A pair that the end of the text does not cut short keeps the walk inside the text.
            have htwo : 2 ≤ rest.length := by
              simp only [isDigitPair, Bool.and_eq_true, decide_eq_true_eq,
                List.length_take] at hpair
              omega
            refine .inr ⟨position + 3, rfl, by omega, by omega, ?_⟩
            rw [drop_of_drop hleft, Bool.true_and]
      · rw [if_neg hpercent, is_escaped_cons_of_ne hpercent]
        cases hplain : isPlain c with
        | false => exact .inl rfl
        | true =>
            refine .inr ⟨position + 1, rfl, by omega, by omega, ?_⟩
            rw [drop_of_drop hleft 0, Bool.true_and, List.drop_zero]

/-- The walk comes to its verdict after at most one round for each code point that is left and one
at the end. -/
theorem walk_eq (hposition : position ≤ t.length) (hrounds : t.length < position + rounds) :
    walk t rounds position = some (isEscaped (t.drop position)) := by
  -- The rounds that are left outnumber the code points that are left, wherever the walk stands.
  induction rounds generalizing position with
  | zero => omega
  | succ rounds ih =>
      rcases round_cases t position with hverdict | ⟨later, hnext, hlater, hle, hsame⟩
      · rw [walk, hverdict]
      · rw [walk, hnext, hsame]
        exact ih hle (by omega)

/-! ## The laws of names -/

/-- `IsMark c` says that `c` is an ASCII code point that structures a template or a URI around its
names, a space, or a control. -/
def IsMark (c : CodePoint) : Prop :=
  c ∈ Text.ofString "\x7b\x7d,:*=&;/?# " ∨ c.val < 0x20 ∨ c.val = 0x7F

/-- Marks are not allowed in names. -/
theorem not_allows_of_is_mark (h : IsMark c) : ¬Allows c := by
  rcases h with hmem | hcontrol
  · have hall : ∀ d ∈ Text.ofString "\x7b\x7d,:*=&;/?# ", ¬Allows d := by decide
    exact hall c hmem
  · have hascii : c.isAscii = true := by
      rw [CodePoint.is_ascii_iff]
      omega
    rintro (hplain | rfl | hwide)
    · rw [is_plain_iff_of_is_ascii hascii, CodePoint.is_letter_iff,
        CodePoint.is_digit_iff] at hplain
      rcases hplain with hletter | hdigit | rfl | rfl
      · omega
      · omega
      · exact absurd hcontrol (by decide)
      · exact absurd hcontrol (by decide)
    · exact absurd hcontrol (by decide)
    · exact absurd (hascii.symm.trans hwide) (by decide)

/-- The test for well-formed escapes comes to an end on every text and accepts what is made of
units. A name is such a text with a percent sign, or a run of bare code points, and there is no mark
in it. -/
theorem is_name_grammar (t : Text) :
    (∀ rounds, t.length < rounds → walk t rounds 0 = some (isEscaped t)) ∧
      (isEscaped t = true ↔ MadeOf IsUnit t) ∧
      (isName t = true ↔ t ≠ [] ∧
        (CodePoint.ofChar '%' ∈ t ∧ MadeOf IsUnit t ∨
          CodePoint.ofChar '%' ∉ t ∧ ∀ c ∈ t, IsBare c)) ∧
      (isName t = true → ∀ c ∈ t, ¬IsMark c) := by
  refine ⟨fun rounds hrounds => ?_, is_escaped_iff_made_of, is_name_iff, fun h c hc hmark => ?_⟩
  · exact walk_eq (Nat.zero_le _) (by omega)
  · exact not_mem_of_is_name h (not_allows_of_is_mark hmark) hc

/-- An escape next to a digit of another script stands in a name, in which there is no mark. -/
theorem is_name_grammar_escape :
    isName "%c3%A9\u0969." = true ∧ ∀ c ∈ Text.ofString "%c3%A9\u0969.", ¬IsMark c := by
  have hname : isName "%c3%A9\u0969." = true := by decide +kernel
  exact ⟨hname, (is_name_grammar "%c3%A9\u0969.").2.2.2 hname⟩

/-- An escape that the end of the text cuts short is none, nor is a percent sign after another. -/
example : walk "a%2" 4 0 = some false ∧ walk "%%41" 5 0 = some false := by
  decide +kernel

end UriTemplate.Name
