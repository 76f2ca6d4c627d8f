import UriTemplate.Proofs.Component.Content

/-!
# The grammar of an expression

The text between the braces of an expression is an operator symbol and a list of entries, each a
name with a modifier between blanks. `Expression.Spelled` says which texts spell which expression,
and `Expression.Misspelled` what is wrong first with any other text; neither refers to the reader.
`Expression.parse_iff_spelled` says that the reader agrees with both: it reads exactly what is
spelled, and reports a fault of the operator first, then one of the list as a whole, then that of
the leftmost entry at fault.
-/

namespace UriTemplate

open Text

/-- `IsDigits t` says that `t` is one or more decimal digits. -/
def Text.IsDigits (t : Text) : Prop := t ≠ [] ∧ ∀ c ∈ t, c.isDigit = true

/-- `limits.Allows digits` says that the number with these digits may be the length of a prefix. -/
def Limits.Allows (limits : Limits) (digits : Text) : Prop :=
  1 ≤ Decimal.value digits ∧ (Decimal.value digits : Int) ≤ limits.maxPrefixLength

/-! ## Entries -/

namespace VariableSpec

/-- `s.Spelled limits core` says that `core`, an entry without blanks around it, spells `s`. -/
inductive Spelled (limits : Limits) : VariableSpec → Text → Prop where
  | plain (name) : Name.isName name = true → Spelled limits ⟨name, none⟩ name
  | exploded (name) : Name.isName name = true →
      Spelled limits ⟨name, some .explode⟩ (name ++ [CodePoint.ofChar '*'])
  | cut (name digits) : Name.isName name = true → IsDigits digits →
      digits.length ≤ Decimal.digitLimit → limits.Allows digits →
      Spelled limits ⟨name, some (.first (Decimal.value digits))⟩
        (name ++ CodePoint.ofChar ':' :: digits)

/-- What follows the name in an entry. -/
inductive Ending where
  | none
  | star
  | length (raw : Text)

/-- `Parts core name ending` says that `core` is divided into a name and an ending: at a star if it
ends in one, and else at its last colon if it has one. -/
inductive Parts : Text → Text → Ending → Prop where
  | star (name) : Parts (name ++ [CodePoint.ofChar '*']) name .star
  | length (name raw) : CodePoint.ofChar ':' ∉ raw → raw.getLast? ≠ some (CodePoint.ofChar '*') →
      Parts (name ++ CodePoint.ofChar ':' :: raw) name (.length raw)
  | none (name) : CodePoint.ofChar ':' ∉ name → name.getLast? ≠ some (CodePoint.ofChar '*') →
      Parts name name .none

/-- `Misspelled limits core error` says that `core` spells no reference and that `error` reports
why: its name is none, or else the length is no number, or not within the limits, or has more digits
than may be read. -/
inductive Misspelled (limits : Limits) (core : Text) : ParseError → Prop where
  | name (name ending) : Parts core name ending → Name.isName name = false →
      Misspelled limits core (.invalidName name)
  | number (name raw) : Parts core name (.length raw) → Name.isName name = true →
      ¬IsDigits raw → Misspelled limits core (.invalidModifier raw)
  | bounds (name raw) : Parts core name (.length raw) → Name.isName name = true →
      IsDigits raw → raw.length ≤ Decimal.digitLimit → ¬limits.Allows raw →
      Misspelled limits core (.invalidModifier raw)
  | overlong (name raw) : Parts core name (.length raw) → Name.isName name = true →
      IsDigits raw → Decimal.digitLimit < raw.length →
      Misspelled limits core (.digitLimit (.reading raw.length))

/-- `SpelledBy limits entry s` says that the entry spells `s` between blanks. -/
def SpelledBy (limits : Limits) (entry : Text) (s : VariableSpec) : Prop :=
  ∃ core, TrimsTo entry core ∧ s.Spelled limits core

/-- `MisspelledBy limits error entry` says that the entry spells no reference between blanks, which
`error` reports. -/
def MisspelledBy (limits : Limits) (error : ParseError) (entry : Text) : Prop :=
  ∃ core, TrimsTo entry core ∧ Misspelled limits core error

end VariableSpec

/-! ## Expressions -/

/-- `IsCommaList list entries` says that `list` is the entries, which hold no comma, with commas
between them. -/
structure IsCommaList (list : Text) (entries : List Text) : Prop where
  ne_nil : entries ≠ []
  bare : ∀ entry ∈ entries, CodePoint.ofChar ',' ∉ entry
  whole : join [CodePoint.ofChar ','] entries = list

/-- `IsBlankText t` says that `t` is nothing but blanks, if anything. -/
def Text.IsBlankText (t : Text) : Prop := ∀ c ∈ t, c.isBlank = true

namespace Expression

/-- `Opens content op list` says that `content` is the symbol of `op` and the list after it. The
operator has no symbol only where the text starts with none, nor with an at sign. -/
structure Opens (content : Text) (op : Operator) (list : Text) : Prop where
  whole : op.symbol ++ list = content
  unmarked : op = .simple → ∀ c ∈ content.head?,
    c ≠ CodePoint.ofChar '@' ∧ ∀ other : Operator, other.symbol ≠ [c]

/-- `e.Spelled limits content` says that `content` spells the expression `e`: it is the symbol of
its operator and a list whose entries spell its references, in order. -/
def Spelled (limits : Limits) (e : Expression) (content : Text) : Prop :=
  ∃ list entries, Opens content e.operator list ∧ IsCommaList list entries ∧
    List.Forall₂ (VariableSpec.SpelledBy limits) entries e.specs

/-- `IsSound content op list` says that nothing is wrong with the operator of `content`: it is not
empty, opens with `op`, and does so once. -/
structure IsSound (content : Text) (op : Operator) (list : Text) : Prop where
  ne_nil : content ≠ []
  opens : Opens content op list
  once : op = .reserved → list.head? ≠ some (CodePoint.ofChar '+')

/-- `Misspelled limits content error` says that `content` spells no expression and that `error`
reports the first thing wrong with it. The operator comes before the list as a whole, that before
any of its entries, and these from the left. -/
inductive Misspelled (limits : Limits) : Text → ParseError → Prop where
  | empty : Misspelled limits [] (.malformed .emptyExpression)
  | operator (rest) :
      Misspelled limits (CodePoint.ofChar '@' :: rest) (.malformed .invalidOperator)
  | repeated (rest) : Misspelled limits (CodePoint.ofChar '+' :: CodePoint.ofChar '+' :: rest)
      (.malformed .repeatedOperator)
  | blankList (content op list) : IsSound content op list → IsBlankText list →
      Misspelled limits content (.malformed .emptyVariableList)
  | blankEntry (content op list entries entry) : IsSound content op list → ¬IsBlankText list →
      IsCommaList list entries → entry ∈ entries → IsBlankText entry →
      Misspelled limits content (.malformed (.emptyVariableName list))
  | entry (content op list entries error) : IsSound content op list → IsCommaList list entries →
      (∀ entry ∈ entries, ¬IsBlankText entry) →
      Reaches (fun entry => ∃ s, VariableSpec.SpelledBy limits entry s)
        (VariableSpec.MisspelledBy limits error) entries →
      Misspelled limits content error

end Expression

variable {limits : Limits} {content list entry core raw name : Text} {entries : List Text}
  {op : Operator} {s : VariableSpec} {e : Expression} {error : ParseError}

/-! ## Reading a length -/

/-- What is not digits is no length. -/
theorem parse_length_of_not_is_digits (h : ¬IsDigits raw) :
    parseLength limits raw = .error (.invalidModifier raw) := by
  unfold parseLength
  rw [if_pos]
  simpa [IsDigits, or_iff_not_imp_left] using h

/-- Digits are a length if there are not too many of them and the limits allow it. -/
theorem parse_length_of_is_digits (h : IsDigits raw) :
    parseLength limits raw =
      if Decimal.digitLimit < raw.length then .error (.digitLimit (.reading raw.length))
      else if limits.accepts (Decimal.value raw) then .ok (Decimal.value raw)
      else .error (.invalidModifier raw) := by
  obtain ⟨hne, hall⟩ := h
  have hdigits : ¬(raw.isEmpty || !raw.all CodePoint.isDigit) = true := by simpa [hne] using hall
  rw [parseLength, if_neg hdigits, Decimal.ofDigits?]
  by_cases hlimit : Decimal.digitLimit < raw.length
  · rw [if_pos hlimit, if_pos hlimit]
  · rw [if_neg hlimit, if_neg hlimit]

/-- The limits accept the value of digits exactly if they allow the digits. -/
theorem Limits.accepts_value_iff :
    limits.accepts (Decimal.value raw) = true ↔ limits.Allows raw := by
  rw [accepts_iff, Allows, Nat.one_le_cast]

/-! ## Reading an entry -/

namespace VariableSpec

/-- The texts that spell references are names with what writes their modifiers. -/
theorem spelled_iff : s.Spelled limits core ↔ Name.isName s.name = true ∧
    ∃ suffix, Modifier.Writes limits suffix s.modifier ∧ core = s.name ++ suffix := by
  constructor
  · intro h
    cases h with
    | plain name hname => exact ⟨hname, [], .none, by simp⟩
    | exploded name hname => exact ⟨hname, _, .explode, rfl⟩
    | cut name digits hname hdigits hlimit hallows =>
        refine ⟨hname, _, .first digits _ ?_, rfl⟩
        rw [parse_length_of_is_digits hdigits, if_neg (Nat.not_lt.2 hlimit),
          if_pos (Limits.accepts_value_iff.2 hallows)]
  · obtain ⟨name, modifier⟩ := s
    rintro ⟨hname, suffix, hsuffix, rfl⟩
    cases hsuffix with
    | none =>
        rw [List.append_nil]
        exact .plain name hname
    | explode => exact .exploded name hname
    | first digits length hlength =>
        obtain ⟨hne, hall, n, hn, haccepts, rfl⟩ := parse_length_eq_ok_iff.1 hlength
        obtain ⟨hlimit, rfl⟩ := Decimal.of_digits?_eq_ok_iff.1 hn
        exact .cut name digits hname ⟨hne, hall⟩ hlimit (Limits.accepts_value_iff.1 haccepts)

/-- An entry is read as the reference that it spells. -/
theorem parse_eq_ok_iff : parse limits entry = .ok s ↔ SpelledBy limits entry s := by
  constructor
  · intro h
    exact ⟨entry.trim, trims_to_trim entry, spelled_iff.2 (exists_writes h)⟩
  · rintro ⟨core, hcore, hspelled⟩
    obtain ⟨hname, suffix, hsuffix, rfl⟩ := spelled_iff.1 hspelled
    exact parse_of_writes hname hsuffix hcore.trim_eq

/-- Every entry has a name and an ending. -/
theorem exists_parts (core : Text) : ∃ name ending, Parts core name ending := by
  -- A star at the end comes before any colon.
  by_cases hstar : core.getLast? = some (CodePoint.ofChar '*')
  · rw [← List.dropLast_append_getLast? _ hstar]
    exact ⟨_, _, .star _⟩
  · cases hsplit : splitLast ':' core with
    | none => exact ⟨_, _, .none core (split_last_eq_none_iff.1 hsplit) hstar⟩
    | some parts =>
        obtain ⟨name, raw⟩ := parts
        obtain rfl := split_last_eq_some hsplit
        refine ⟨_, _, .length name raw (not_mem_of_split_last hsplit) fun hlast => hstar ?_⟩
        rw [List.getLast?_append, List.getLast?_cons, hlast]
        rfl

/-- `ending.modifier? limits` is the modifier that the ending writes, if any. -/
def Ending.modifier? (limits : Limits) : Ending → Except ParseError (Option Modifier)
  | none => .ok .none
  | star => .ok (some .explode)
  | length raw => (parseLength limits raw).map fun n => some (.first n)

/-- An entry is read as its name and, after that, its ending. -/
theorem parse_of_parts {ending : Ending} (h : Parts entry.trim name ending) :
    parse limits entry = (do
      let name ← parseName name
      let modifier ← ending.modifier? limits
      pure ⟨name, modifier⟩) := by
  unfold parse
  generalize entry.trim = core at h
  cases h with
  | star => simp [Ending.modifier?]
  | length _ raw hcolon hstar =>
      have hlast :
          (name ++ CodePoint.ofChar ':' :: raw).getLast? ≠ some (CodePoint.ofChar '*') := by
        rw [List.getLast?_append_of_ne_nil _ (List.cons_ne_nil _ _), List.getLast?_cons]
        cases hraw : raw.getLast? with
        | none => decide
        | some c =>
            rw [hraw] at hstar
            exact hstar
      simp only [hlast, if_false, split_last_append_cons hcolon, Ending.modifier?]
      cases parseName name with
      | error e => rfl
      | ok name => cases parseLength limits raw <;> rfl
  | none _ hcolon hstar =>
      simp [hstar, split_last_eq_none_iff.2 hcolon, Ending.modifier?]

/-- An entry that cannot be read is misspelled, and the error reports how. -/
theorem parse_eq_error_iff : parse limits entry = .error error ↔
    MisspelledBy limits error entry := by
  constructor
  · intro h
    obtain ⟨name, ending, hparts⟩ := exists_parts entry.trim
    refine ⟨entry.trim, trims_to_trim entry, ?_⟩
    rw [parse_of_parts hparts, parseName] at h
    cases hname : Name.isName name with
    | false =>
        rw [hname] at h
        cases h
        exact .name name ending hparts hname
    | true =>
        rw [hname, if_pos rfl, ok_bind] at h
        have hending := (bind_eq_error_iff.1 h).resolve_right (by simp)
        cases ending with
        | none | star => exact absurd hending (by simp [Ending.modifier?])
        | length raw =>
            have hlength : parseLength limits raw = .error error := map_eq_error_iff.1 hending
            by_cases hdigits : IsDigits raw
            · rw [parse_length_of_is_digits hdigits] at hlength
              split at hlength
              · next hlimit =>
                  cases hlength
                  exact .overlong name raw hparts hname hdigits hlimit
              · next hlimit =>
                  split at hlength
                  · exact absurd hlength (by simp)
                  · next haccepts =>
                      cases hlength
                      exact .bounds name raw hparts hname hdigits (Nat.not_lt.1 hlimit)
                        (mt Limits.accepts_value_iff.2 haccepts)
            · rw [parse_length_of_not_is_digits hdigits] at hlength
              cases hlength
              exact .number name raw hparts hname hdigits
  · rintro ⟨core, hcore, hmisspelled⟩
    obtain rfl := hcore.trim_eq
    cases hmisspelled with
    | name name ending hparts hname => simp [parse_of_parts hparts, parseName, hname]
    | number name raw hparts hname hdigits =>
        simp [parse_of_parts hparts, parseName, hname, Ending.modifier?,
          parse_length_of_not_is_digits hdigits]
    | bounds name raw hparts hname hdigits hlimit hallows =>
        rw [← Limits.accepts_value_iff] at hallows
        simp [parse_of_parts hparts, parseName, hname, Ending.modifier?,
          parse_length_of_is_digits hdigits, Nat.not_lt.2 hlimit, hallows]
    | overlong name raw hparts hname hdigits hlimit =>
        simp [parse_of_parts hparts, parseName, hname, Ending.modifier?,
          parse_length_of_is_digits hdigits, hlimit]

end VariableSpec

/-! ## Reading an operator -/

namespace Expression

/-- A text opens with the operator that its first code point selects, or else with the simple
one. -/
theorem opens_cons_iff {c : CodePoint} {rest : Text} : Opens (c :: rest) op list ↔
    c ≠ CodePoint.ofChar '@' ∧ Operator.ofSymbol? c = none ∧ op = .simple ∧ list = c :: rest ∨
      Operator.ofSymbol? c = some op ∧ list = rest := by
  constructor
  · rintro ⟨hwhole, hunmarked⟩
    by_cases hsimple : op = .simple
    · subst hsimple
      obtain ⟨hat, hnone⟩ := hunmarked rfl c rfl
      refine .inl ⟨hat, Option.eq_none_iff_forall_ne_some.2 fun other hother => ?_, rfl, hwhole⟩
      exact hnone other (Operator.of_symbol?_eq_some_iff.1 hother)
    · obtain ⟨d, hd, _, _⟩ := Operator.exists_symbol hsimple
      rw [hd, List.singleton_append, List.cons.injEq] at hwhole
      obtain ⟨rfl, rfl⟩ := hwhole
      exact .inr ⟨Operator.of_symbol?_eq_some_iff.2 hd, rfl⟩
  · rintro (⟨hat, hnone, rfl, rfl⟩ | ⟨hsome, rfl⟩)
    · refine ⟨rfl, fun _ d hd => ?_⟩
      obtain rfl := Option.some.inj hd
      refine ⟨hat, fun other hother => ?_⟩
      rw [Operator.of_symbol?_eq_some_iff.2 hother] at hnone
      exact absurd hnone (by simp)
    · have hsymbol := Operator.of_symbol?_eq_some_iff.1 hsome
      refine ⟨by rw [hsymbol, List.singleton_append], fun hsimple => ?_⟩
      subst hsimple
      exact absurd hsymbol (by simp [Operator.symbol])

end Expression

/-- An operator with which nothing is wrong is read. -/
theorem Expression.IsSound.parse_operator_eq (h : IsSound content op list) :
    parseOperator content = .ok (op, list) := by
  obtain ⟨c, rest, rfl⟩ := List.exists_cons_of_ne_nil h.ne_nil
  rcases opens_cons_iff.1 h.opens with ⟨hat, hnone, rfl, rfl⟩ | ⟨hsome, rfl⟩
  · exact parse_operator_simple hat hnone
  · have hat : c ≠ CodePoint.ofChar '@' := by
      rintro rfl
      have hnone : Operator.ofSymbol? (CodePoint.ofChar '@') = none := by decide
      exact absurd (hnone.symm.trans hsome) (by simp)
    have honce : ¬(op = .reserved && list.head? = some (CodePoint.ofChar '+')) = true := by
      simpa using h.once
    simp only [parseOperator, if_neg hat, hsome, if_neg honce]

/-- An operator is read only where nothing is wrong with it. -/
theorem Expression.is_sound_of_parse_operator (h : parseOperator content = .ok (op, list)) :
    IsSound content op list := by
  unfold parseOperator at h
  split at h
  · exact absurd h (by simp)
  · next c rest =>
      split at h
      · exact absurd h (by simp)
      · next hat =>
          split at h
          · next hnone =>
              cases h
              refine ⟨List.cons_ne_nil _ _, opens_cons_iff.2 (.inl ⟨hat, hnone, rfl, rfl⟩), ?_⟩
              exact fun hreserved => absurd hreserved (by simp)
          · next other hsome =>
              split at h
              · exact absurd h (by simp)
              · next honce =>
                  cases h
                  refine ⟨List.cons_ne_nil _ _, opens_cons_iff.2 (.inr ⟨hsome, rfl⟩), ?_⟩
                  simpa using honce

/-- A text whose operator cannot be read is misspelled there. -/
theorem misspelled_of_parse_operator (h : parseOperator content = .error error) :
    Expression.Misspelled limits content error := by
  unfold parseOperator at h
  split at h
  · cases h
    exact .empty
  · next c rest =>
      split at h
      · next hat =>
          cases h
          rw [hat]
          exact .operator rest
      · split at h
        · exact absurd h (by simp)
        · next op hsymbol =>
            split at h
            · next hrepeated =>
                cases h
                simp only [Bool.and_eq_true, decide_eq_true_eq] at hrepeated
                obtain ⟨rfl, hhead⟩ := hrepeated
                obtain ⟨more, rfl⟩ := List.head?_eq_some_iff.1 hhead
                have hplus := Operator.of_symbol?_eq_some_iff.1 hsymbol
                obtain rfl : CodePoint.ofChar '+' = c := List.singleton_inj.1 hplus
                exact .repeated more
            · exact absurd h (by simp)

/-! ## Reading a list -/

/-- The entries of a comma list are what stands between its commas. -/
theorem is_comma_list_iff : IsCommaList list entries ↔ splitOn ',' list = entries := by
  rw [split_on_eq_iff]
  exact ⟨fun h => ⟨h.ne_nil, h.bare, h.whole⟩, fun h => ⟨h.1, h.2.1, h.2.2⟩⟩

/-- A list of blanks has no entries to be read. -/
theorem parse_variables_of_is_blank_text (h : IsBlankText list) :
    parseVariables limits list = .error (.malformed .emptyVariableList) := by
  rw [parseVariables, if_pos (List.isEmpty_iff.2 (trim_eq_nil_iff.2 h))]

/-- A blank entry is reported before any other entry is read. -/
theorem parse_variables_of_is_blank_text_entry (hlist : ¬IsBlankText list)
    (hentry : entry ∈ splitOn ',' list) (h : IsBlankText entry) :
    parseVariables limits list = .error (.malformed (.emptyVariableName list)) := by
  have hany : ((splitOn ',' list).any fun entry => entry.trim.isEmpty) = true :=
    List.any_eq_true.2 ⟨entry, hentry, List.isEmpty_iff.2 (trim_eq_nil_iff.2 h)⟩
  have hne : ¬list.trim.isEmpty = true := fun hempty =>
    hlist (trim_eq_nil_iff.1 (List.isEmpty_iff.1 hempty))
  rw [parseVariables, if_neg hne, if_pos hany]

/-- Where no entry is blank, the leftmost entry at fault is reported. -/
theorem parse_variables_eq_error_iff (h : ∀ entry ∈ splitOn ',' list, ¬IsBlankText entry) :
    parseVariables limits list = .error error ↔
      Reaches (fun entry => ∃ s, VariableSpec.SpelledBy limits entry s)
        (VariableSpec.MisspelledBy limits error) (splitOn ',' list) := by
  rw [parse_variables_of_forall fun entry hentry htrim => h entry hentry (trim_eq_nil_iff.1 htrim),
    mapm_eq_error_iff]
  simp only [VariableSpec.parse_eq_ok_iff, VariableSpec.parse_eq_error_iff]

/-- An entry that spells a reference starts with a blank or with what may stand in a name. -/
theorem VariableSpec.SpelledBy.exists_head? (h : SpelledBy limits entry s) :
    ∃ c, entry.head? = some c ∧ (c.isBlank = true ∨ Name.Allows c) := by
  obtain ⟨core, ⟨left, right, rfl, hblank, -⟩, hcore⟩ := h
  obtain ⟨hname, suffix, -, rfl⟩ := spelled_iff.1 hcore
  cases left with
  | cons c rest => exact ⟨c, rfl, .inl (hblank c (by simp))⟩
  | nil =>
      obtain ⟨c, rest, hstart⟩ := List.exists_cons_of_ne_nil (Name.ne_nil_of_is_name hname)
      refine ⟨c, by simp [hstart], .inr (Name.allows_of_mem hname c (by simp [hstart]))⟩

namespace Expression

/-- Where nothing is wrong with the operator, the entries are read. -/
theorem IsSound.parse_eq (h : IsSound content op list) :
    parse limits content = (parseVariables limits list).map (⟨op, ·⟩) := by
  unfold parse
  rw [h.parse_operator_eq, ok_bind]
  show (parseVariables limits list >>= fun specs => pure (Expression.mk op specs)) = _
  cases parseVariables limits list <;> rfl

/-- A text that spells an expression has nothing wrong with its operator: its first entry starts,
but for blanks, with what may stand in a name. -/
theorem Spelled.is_sound (h : e.Spelled limits content) : ∃ list entries,
    IsSound content e.operator list ∧ IsCommaList list entries ∧
      List.Forall₂ (VariableSpec.SpelledBy limits) entries e.specs := by
  obtain ⟨list, entries, hopens, hlist, hentries⟩ := h
  refine ⟨list, entries, ?_, hlist, hentries⟩
  obtain ⟨entry, rest, rfl⟩ := List.exists_cons_of_ne_nil hlist.ne_nil
  obtain ⟨s, specs, hentry, -, -⟩ := List.forall₂_cons_left_iff.1 hentries
  obtain ⟨c, hhead, hstart⟩ := hentry.exists_head?
  have hhead : list.head? = some c := by
    have hne : entry ≠ [] := by
      rintro rfl
      exact absurd hhead (by simp)
    rw [← hlist.whole, head?_join hne, hhead]
  refine ⟨?_, hopens, fun _ hplus => ?_⟩
  · rintro rfl
    obtain ⟨-, rfl⟩ := List.append_eq_nil_iff.1 hopens.whole
    exact absurd hhead (by simp)
  · obtain rfl := Option.some.inj (hhead.symm.trans hplus)
    exact absurd hstart (by decide)

/-- What is wrong with a text whose operator is sound is wrong with its list. -/
theorem IsSound.misspelled (h : IsSound content op list)
    (herror : parseVariables limits list = .error error) : Misspelled limits content error := by
  by_cases hlist : IsBlankText list
  · rw [parse_variables_of_is_blank_text hlist] at herror
    cases herror
    exact .blankList content op list h hlist
  · by_cases hblank : ∃ entry ∈ splitOn ',' list, IsBlankText entry
    · obtain ⟨entry, hentry, hblank⟩ := hblank
      rw [parse_variables_of_is_blank_text_entry hlist hentry hblank] at herror
      cases herror
      exact .blankEntry content op list _ entry h hlist (is_comma_list_iff.2 rfl) hentry hblank
    · have hfull : ∀ entry ∈ splitOn ',' list, ¬IsBlankText entry :=
        fun entry hentry hblank' => hblank ⟨entry, hentry, hblank'⟩
      refine .entry content op list _ error h (is_comma_list_iff.2 rfl) hfull ?_
      exact (parse_variables_eq_error_iff hfull).1 herror

/-- An expression is read from exactly the texts that spell it, and from any other text the first
thing wrong with it is reported. -/
theorem parse_iff_spelled (limits : Limits) (content : Text) :
    (∀ e, parse limits content = .ok e ↔ e.Spelled limits content) ∧
      ∀ error, parse limits content = .error error ↔ Misspelled limits content error := by
  refine ⟨fun e => ⟨fun h => ?_, fun h => ?_⟩, fun error => ⟨fun h => ?_, fun h => ?_⟩⟩
  · obtain ⟨⟨op, list⟩, hoperator, h⟩ := bind_eq_ok_iff.1 h
    obtain ⟨specs, hspecs, h⟩ := bind_eq_ok_iff.1 h
    obtain rfl := Except.ok.inj h
    refine ⟨list, _, (is_sound_of_parse_operator hoperator).opens, is_comma_list_iff.2 rfl, ?_⟩
    exact (parse_variables_eq_ok_iff.1 hspecs).imp fun _ _ => VariableSpec.parse_eq_ok_iff.1
  · obtain ⟨list, entries, hsound, hlist, hentries⟩ := h.is_sound
    have hspecs : parseVariables limits list = .ok e.specs := by
      rw [parse_variables_eq_ok_iff, is_comma_list_iff.1 hlist]
      exact hentries.imp fun _ _ => VariableSpec.parse_eq_ok_iff.2
    rw [hsound.parse_eq, hspecs, map_ok]
  · -- The operator comes first; only if it is read are the entries.
    cases hoperator : parseOperator content with
    | error fault =>
        rw [parse, hoperator, error_bind] at h
        cases h
        exact misspelled_of_parse_operator hoperator
    | ok parts =>
        obtain ⟨op, list⟩ := parts
        have hsound := is_sound_of_parse_operator hoperator
        rw [hsound.parse_eq, map_eq_error_iff] at h
        exact hsound.misspelled h
  · cases h with
    | empty => rfl
    | operator rest => rfl
    | repeated rest => rfl
    | blankList _ op list hsound hblank =>
        rw [hsound.parse_eq, parse_variables_of_is_blank_text hblank, map_error]
    | blankEntry _ op list entries entry hsound hlist hentries hentry hblank =>
        rw [← is_comma_list_iff.1 hentries] at hentry
        rw [hsound.parse_eq, parse_variables_of_is_blank_text_entry hlist hentry hblank, map_error]
    | entry _ op list entries _ hsound hentries hfull hreaches =>
        obtain rfl := is_comma_list_iff.1 hentries
        rw [hsound.parse_eq, (parse_variables_eq_error_iff hfull).2 hreaches, map_error]

/-- A blank entry is reported before a name that none can have. -/
example : parse Limits.standard "a b:0,," = .error (.malformed (.emptyVariableName "a b:0,,")) := by
  decide +kernel

end Expression

end UriTemplate
