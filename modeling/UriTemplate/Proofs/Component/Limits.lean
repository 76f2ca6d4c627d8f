import UriTemplate.Template
import UriTemplate.Proofs.Component.Content
import UriTemplate.Proofs.Component.Cut

/-!
# Templates under different limits

Limits decide which texts are templates, and nothing else about them. `Piece.lengths` is the prefix
lengths in a piece of a template as they are written. A text that is a template under some limits
gives the same components under any others, unless these refuse one of the lengths written in it;
then the leftmost of those is the error (`IsCut.parse_from_eq_judge`).
-/

namespace UriTemplate

open Text Component

/-- `writtenLength? entry` is the length that stands after the last colon of an entry, if there is a
colon. -/
def writtenLength? (entry : Text) : Option Text := (splitLast ':' entry.trim).map (·.2)

/-- `writtenLengths content` is the lengths that the entries of an expression write, in order. -/
def writtenLengths (content : Text) : List Text :=
  match parseOperator content with
  | .ok (_, list) => (splitOn ',' list).flatMap fun entry => (writtenLength? entry).toList
  | .error _ => []

/-- `p.lengths` is the lengths written in the piece `p`, in order. -/
def Piece.lengths : Piece → List Text
  | run _ => []
  | expression content => writtenLengths content

namespace Limits

/-- `limits.refuses digits` says that the written length is greater than the limits allow. -/
def refuses (limits : Limits) (digits : Text) : Bool :=
  limits.maxPrefixLength < Decimal.value digits

/-- `limits.judge lengths a` is `a`, unless the limits refuse one of the written lengths. The first
that they refuse makes the error. -/
def judge {α : Type} (limits : Limits) (lengths : List Text) (a : α) : Except ParseError α :=
  match lengths.find? limits.refuses with
  | some digits => .error (.invalidModifier digits)
  | none => .ok a

variable {α β : Type} {limits : Limits} {lengths : List Text}

/-- A judgement lets a result through exactly if no length is refused. -/
theorem judge_eq_ok_iff {a b : α} :
    limits.judge lengths a = .ok b ↔
      (∀ digits ∈ lengths, limits.refuses digits = false) ∧ a = b := by
  unfold judge
  cases hfind : lengths.find? limits.refuses with
  | none =>
      have hall : ∀ digits ∈ lengths, limits.refuses digits = false := by
        simpa using List.find?_eq_none.1 hfind
      simp only [Except.ok.injEq, iff_and_self]
      exact fun _ => hall
  | some digits =>
      refine iff_of_false (by simp) fun h => ?_
      have hrefuses := List.find?_some hfind
      rw [h.1 digits (List.mem_of_find?_eq_some hfind)] at hrefuses
      exact absurd hrefuses (by simp)

/-- A judgement does not look at what it lets through. -/
theorem map_judge (f : α → β) (a : α) :
    (limits.judge lengths a).map f = limits.judge lengths (f a) := by
  unfold judge
  cases lengths.find? limits.refuses <;> rfl

/-- One judgement after another is a judgement of all the lengths in order. -/
theorem judge_append (first second : List Text) (f : α → β) (a : α) :
    (limits.judge first a >>= fun x => limits.judge second (f x)) =
      limits.judge (first ++ second) (f a) := by
  unfold judge
  rw [List.find?_append]
  cases first.find? limits.refuses <;> rfl

end Limits

variable {limits other : Limits} {entry content list digits name text : Text}
  {specs : List VariableSpec} {s : VariableSpec} {e : Expression} {pieces : List Piece}

/-! ## One reference -/

/-- Under other limits a length that was read is judged. -/
theorem parse_length_eq_judge {length : Int} (h : parseLength other digits = .ok length) :
    parseLength limits digits = limits.judge [digits] length := by
  obtain ⟨hne, hall, n, hn, haccepts, rfl⟩ := parse_length_eq_ok_iff.1 h
  obtain ⟨_, hvalue⟩ := Decimal.of_digits?_eq_ok_iff.1 hn
  have hlower := (Limits.accepts_iff.1 haccepts).1
  cases hrefuses : limits.refuses digits with
  | false =>
      have hupper : (n : Int) ≤ limits.maxPrefixLength := by
        simpa [Limits.refuses, hvalue] using hrefuses
      rw [Limits.judge_eq_ok_iff.2 ⟨by simpa using hrefuses, rfl⟩]
      exact parse_length_eq_ok_iff.2
        ⟨hne, hall, n, hn, Limits.accepts_iff.2 ⟨hlower, hupper⟩, rfl⟩
  | true =>
      have hupper : ¬limits.accepts n = true := by
        have hgt : limits.maxPrefixLength < n := by simpa [Limits.refuses, hvalue] using hrefuses
        rw [Limits.accepts_iff]
        omega
      have hdigits : ¬(digits.isEmpty || !digits.all CodePoint.isDigit) = true := by
        simpa [hne] using hall
      simp [parseLength, Limits.judge, hrefuses, hdigits, hn, hupper]

/-- Under other limits a reference that was read is judged by the length written in it. -/
theorem VariableSpec.parse_eq_judge (h : parse other entry = .ok s) :
    parse limits entry = limits.judge (writtenLength? entry).toList s := by
  obtain ⟨hname, suffix, hsuffix, hentry⟩ := exists_writes h
  have hcolon : CodePoint.ofChar ':' ∉ s.name := Name.not_mem_of_is_name hname (by decide)
  obtain ⟨name, modifier⟩ := s
  cases hsuffix with
  | none =>
      have hnone : writtenLength? entry = none := by
        simp [writtenLength?, hentry, split_last_eq_none_iff.2 hcolon]
      rw [hnone]
      exact parse_of_writes hname .none hentry
  | explode =>
      have habsent : CodePoint.ofChar ':' ∉ name ++ [CodePoint.ofChar '*'] := by
        simpa [hcolon] using (by decide : CodePoint.ofChar ':' ≠ CodePoint.ofChar '*')
      have hnone : writtenLength? entry = none := by
        simp [writtenLength?, hentry, split_last_eq_none_iff.2 habsent]
      rw [hnone]
      exact parse_of_writes hname .explode hentry
  | first digits length hlength =>
      obtain ⟨hne, hall, _⟩ := parse_length_eq_ok_iff.1 hlength
      have habsent : CodePoint.ofChar ':' ∉ digits := fun hmem => by
        exact absurd (hall _ hmem) (by decide)
      have hsome : writtenLength? entry = some digits := by
        simp [writtenLength?, hentry, split_last_append_cons habsent]
      rw [parse_of_length hname hne hall hentry, parse_length_eq_judge hlength, hsome,
        Limits.map_judge]
      rfl

/-! ## An expression -/

/-- Entries that were read are judged by their lengths in order. -/
theorem mapm_parse_eq_judge {entries : List Text}
    (h : List.Forall₂ (fun entry s => VariableSpec.parse other entry = .ok s) entries specs) :
    entries.mapM (VariableSpec.parse limits) =
      limits.judge (entries.flatMap fun entry => (writtenLength? entry).toList) specs := by
  induction h with
  | nil => rfl
  | @cons entry s entries specs hentry _ ih =>
      have hrest : ∀ x : VariableSpec, (limits.judge (entries.flatMap fun entry =>
          (writtenLength? entry).toList) specs >>= fun rest => pure (x :: rest)) =
          limits.judge (entries.flatMap fun entry => (writtenLength? entry).toList)
            (x :: specs) := fun x => by
        rw [← Limits.map_judge]
        rfl
      rw [List.mapM_cons, VariableSpec.parse_eq_judge hentry, ih, List.flatMap_cons]
      simp only [hrest]
      exact Limits.judge_append _ _ (· :: specs) s

/-- A list of entries that was read is read entry by entry under any limits. -/
theorem parse_variables_eq_mapm (h : parseVariables other list = .ok specs) :
    parseVariables limits list = (splitOn ',' list).mapM (VariableSpec.parse limits) := by
  simp only [parseVariables] at h ⊢
  split at h
  · exact absurd h (by simp)
  · next hlist =>
      split at h
      · exact absurd h (by simp)
      · next hentries => rw [if_neg hlist, if_neg hentries]

/-- Under other limits an expression that was read is judged by the lengths written in it. -/
theorem Expression.parse_eq_judge (h : parse other content = .ok e) :
    parse limits content = limits.judge (writtenLengths content) e := by
  obtain ⟨⟨op, list⟩, hoperator, h⟩ := bind_eq_ok_iff.1 h
  obtain ⟨specs, hspecs, h⟩ := bind_eq_ok_iff.1 h
  obtain rfl := Except.ok.inj h
  simp only [parse, hoperator, ok_bind, parse_variables_eq_mapm hspecs, writtenLengths,
    mapm_parse_eq_judge (parse_variables_eq_ok_iff.1 hspecs)]
  exact Limits.map_judge (Expression.mk op) specs

/-! ## A template -/

/-- Under other limits a template is judged by the lengths written in it. -/
theorem IsCut.parse_from_eq_judge {components : List Component} (h : IsCut other text pieces)
    (hreads : List.Forall₂ (Piece.Reads other) pieces components) (position : Nat) :
    parseFrom limits position [] text = limits.judge (pieces.flatMap Piece.lengths) components := by
  have hempty : ¬EndsInBackslash (List.reverse []) := not_ends_in_backslash_nil
  induction hreads generalizing text position with
  | nil =>
      rw [← h.whole]
      exact parse_from_nil
  | @cons p c pieces components hread _ ih =>
      rw [← h.whole, List.flatMap_cons, List.flatMap_cons]
      cases hread with
      | run t =>
          obtain ⟨hne, hescaped⟩ := h.valid (.run t) (by simp)
          have hrest := ih h.tail (position + t.length)
          rw [Piece.text, parse_from_run (by simpa using hescaped), List.append_nil,
            parse_from_flush h.not_joins, hrest, Limits.map_judge]
          simp [literals, hne, Piece.lengths]
      | expression content e he =>
          obtain ⟨hfree, _⟩ := h.valid (.expression content) (by simp)
          rw [Piece.text, parse_from_expression hempty hfree, Expression.parse_eq_judge he,
            ih h.tail]
          have hfollowing : ∀ x : Expression,
              (limits.judge (pieces.flatMap Piece.lengths) components >>= fun following =>
                pure (literals [] ++ .expression x :: following)) =
              limits.judge (pieces.flatMap Piece.lengths) (.expression x :: components) :=
            fun x => by
              rw [← Limits.map_judge]
              rfl
          simp only [hfollowing]
          exact Limits.judge_append _ _ (fun x => Component.expression x :: components) e

/-- A text that parses under both of two limits has the same components under both. -/
theorem parse_all_eq_of_parse_all {components others : List Component}
    (h : parseAll limits text = .ok components) (hother : parseAll other text = .ok others) :
    components = others := by
  obtain ⟨pieces, hcut, hreads⟩ := exists_cut hother
  rw [parseAll, hcut.parse_from_eq_judge hreads] at h
  exact (Limits.judge_eq_ok_iff.1 h).2.symm

/-- What parses under some limits parses under wider ones. -/
theorem parse_all_of_le {components : List Component}
    (hle : limits.maxPrefixLength ≤ other.maxPrefixLength)
    (h : parseAll limits text = .ok components) : parseAll other text = .ok components := by
  obtain ⟨pieces, hcut, hreads⟩ := exists_cut h
  -- The limits accept the lengths that they have read, and so do the wider ones.
  have haccepted := (Limits.judge_eq_ok_iff.1 ((hcut.parse_from_eq_judge hreads 0).symm.trans h)).1
  rw [parseAll, hcut.parse_from_eq_judge hreads, Limits.judge_eq_ok_iff]
  refine ⟨fun digits hdigits => ?_, rfl⟩
  have hlength : (Decimal.value digits : Int) ≤ limits.maxPrefixLength := by
    simpa [Limits.refuses] using haccepted digits hdigits
  simpa [Limits.refuses] using Int.le_trans hlength hle

/-! ## The written lengths in the text -/

/-- The entries of an expression end its content. -/
theorem suffix_of_parse_operator {op : Operator} (h : parseOperator content = .ok (op, list)) :
    list <:+ content := by
  unfold parseOperator at h
  split at h
  · exact absurd h (by simp)
  · next c rest =>
      split at h
      · exact absurd h (by simp)
      · split at h
        · cases h
          exact List.suffix_refl _
        · split at h
          · exact absurd h (by simp)
          · cases h
            exact List.suffix_cons c list

/-- A written length stands in its piece, after a colon. -/
theorem Piece.infix_of_mem_lengths {p : Piece} (h : digits ∈ p.lengths) :
    CodePoint.ofChar ':' :: digits <:+: p.text := by
  cases p with
  | run t => exact absurd h (by simp [lengths])
  | expression content =>
      simp only [lengths, writtenLengths] at h
      split at h
      · next op list hoperator =>
          obtain ⟨entry, hentry, hlength⟩ := List.mem_flatMap.1 h
          obtain ⟨⟨before, after⟩, hsplit, rfl⟩ :=
            Option.map_eq_some_iff.1 (Option.mem_toList.1 hlength)
          have htrim : CodePoint.ofChar ':' :: after <:+: entry.trim :=
            ⟨before, [], by rw [split_last_eq_some hsplit, List.append_nil]⟩
          have hcontent : content <:+: braced content :=
            ⟨[CodePoint.ofChar '\x7b'], [CodePoint.ofChar '\x7d'], rfl⟩
          exact htrim.trans <| (infix_trim entry).trans <| (infix_of_mem_split_on hentry).trans <|
            (suffix_of_parse_operator hoperator).isInfix.trans hcontent
      · exact absurd h (by simp)

/-- A length written in a template stands in its text, after a colon. -/
theorem IsCut.infix_of_mem_lengths (h : IsCut limits text pieces)
    (hdigits : digits ∈ pieces.flatMap Piece.lengths) :
    CodePoint.ofChar ':' :: digits <:+: text := by
  obtain ⟨p, hp, hmem⟩ := List.mem_flatMap.1 hdigits
  obtain ⟨before, after, rfl⟩ := List.append_of_mem hp
  refine (Piece.infix_of_mem_lengths hmem).trans ?_
  rw [← h.whole, List.flatMap_append, List.flatMap_cons]
  exact ⟨before.flatMap Piece.text, after.flatMap Piece.text, by simp⟩

/-! ## Limits decide acceptance only -/

/-- Of two limits the wider one accepts every template of the tighter one, with the same components.
Of the others that it accepts, the leftmost written length that is too great for the tighter one
makes the error there. So templates of the same text agree in everything, whatever limits were in
force when they were parsed. -/
theorem limits_decide_acceptance :
    (∀ (tight loose : Limits) (text : Text), tight.maxPrefixLength ≤ loose.maxPrefixLength →
      (∀ components, parseAll tight text = .ok components →
        parseAll loose text = .ok components) ∧
      (∀ components e, parseAll loose text = .ok components → parseAll tight text = .error e →
        ∃ pieces digits, IsCut loose text pieces ∧
          (pieces.flatMap Piece.lengths).find?
            (fun digits => tight.maxPrefixLength < (Decimal.value digits : Int)) = some digits ∧
          CodePoint.ofChar ':' :: digits <:+: text ∧ e = .invalidModifier digits) ∧
      ∀ e, parseAll loose text = .error e → ∃ d, parseAll tight text = .error d) ∧
    ∀ (first second : Limits) (text other : Text) (t u : Template),
      Template.parse first text = .ok t → Template.parse second other = .ok u →
        t.same u = true →
        t.components = u.components ∧ t.names = u.names ∧
          ∀ bindings, t.expand bindings = u.expand bindings := by
  refine ⟨fun tight loose text hle => ⟨fun _ => parse_all_of_le hle, ?_, fun e he => ?_⟩, ?_⟩
  · intro components e hloose htight
    -- The cut is the same under both; the tighter limits find the first length too great for them.
    obtain ⟨pieces, hcut, hreads⟩ := exists_cut hloose
    rw [parseAll, hcut.parse_from_eq_judge hreads, Limits.judge] at htight
    split at htight
    · next digits hdigits =>
        have hmem := List.mem_of_find?_eq_some hdigits
        exact ⟨pieces, digits, hcut, hdigits, hcut.infix_of_mem_lengths hmem,
          (Except.error.inj htight).symm⟩
    · exact absurd htight (by simp)
  · cases htight : parseAll tight text with
    | error d => exact ⟨d, rfl⟩
    | ok components => exact absurd (parse_all_of_le hle htight) (by simp [he])
  · intro first second text other t u ht hu hsame
    obtain ⟨components, hfirst, ht⟩ := bind_eq_ok_iff.1 ht
    obtain ⟨others, hsecond, hu⟩ := bind_eq_ok_iff.1 hu
    cases ht
    cases hu
    obtain rfl : text = other := by simpa [Template.same] using hsame
    obtain rfl := parse_all_eq_of_parse_all hfirst hsecond
    exact ⟨rfl, rfl, fun _ => rfl⟩

/-- The tighter limits name the first length that is too great for them as it is written, and not
the digits of a literal nor a length that they accept. -/
theorem limits_decide_acceptance_leading_zeros :
    (5 : Int) ≤ 40 ∧
      (∃ components, parseAll ⟨40⟩ "a:9\x7bx:5\x7d\x7b?y:0007,z:12\x7d" = .ok components) ∧
      parseAll ⟨5⟩ "a:9\x7bx:5\x7d\x7b?y:0007,z:12\x7d" = .error (.invalidModifier "0007") ∧
      (∃ pieces, IsCut ⟨40⟩ "a:9\x7bx:5\x7d\x7b?y:0007,z:12\x7d" pieces ∧
        (pieces.flatMap Piece.lengths).find?
          (fun digits => (5 : Int) < (Decimal.value digits : Int)) = some "0007") ∧
      ∃ t u, Template.parse ⟨5⟩ "\x7bx:5\x7d" = .ok t ∧ Template.parse ⟨40⟩ "\x7bx:5\x7d" = .ok u ∧
        t.same u = true ∧ t.components = u.components := by
  have hloose : parseAll ⟨40⟩ "a:9\x7bx:5\x7d\x7b?y:0007,z:12\x7d" =
      .ok [.literal "a:9", .expression ⟨.simple, [⟨"x", some (.first 5)⟩]⟩,
        .expression ⟨.query, [⟨"y", some (.first 7)⟩, ⟨"z", some (.first 12)⟩]⟩] := by
    decide +kernel
  have htight : parseAll ⟨5⟩ "a:9\x7bx:5\x7d\x7b?y:0007,z:12\x7d" =
      .error (.invalidModifier "0007") := by
    decide +kernel
  obtain ⟨pieces, digits, hcut, hfind, _, hdigits⟩ :=
    (limits_decide_acceptance.1 ⟨5⟩ ⟨40⟩ _ (by decide)).2.1 _ _ hloose htight
  obtain rfl := ParseError.invalidModifier.inj hdigits
  have hfirst : Template.parse ⟨5⟩ "\x7bx:5\x7d" =
      .ok ⟨"\x7bx:5\x7d", [.expression ⟨.simple, [⟨"x", some (.first 5)⟩]⟩]⟩ := by
    decide +kernel
  have hsecond : Template.parse ⟨40⟩ "\x7bx:5\x7d" =
      .ok ⟨"\x7bx:5\x7d", [.expression ⟨.simple, [⟨"x", some (.first 5)⟩]⟩]⟩ := by
    decide +kernel
  have hsame := limits_decide_acceptance.2 _ _ _ _ _ _ hfirst hsecond (by decide)
  exact ⟨by decide, ⟨_, hloose⟩, htight, ⟨pieces, hcut, hfind⟩, _, _, hfirst, hsecond, by decide,
    hsame.1⟩

end UriTemplate
