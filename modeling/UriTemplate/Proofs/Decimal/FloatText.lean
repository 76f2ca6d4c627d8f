import UriTemplate.Decimal.FloatText
import UriTemplate.Proofs.Decimal.Shortest

/-!
# Floating-point numbers are read back from their texts

The text of a magnitude is that of a `Literal`: digits, possibly a point and more digits, and
possibly a power of ten. Reading a literal rounds the decimal that it writes, which for the text of
a magnitude is one in its interval (`Binary64.exists_literal`). So the magnitude is read back
(`Binary64.read_magnitude_text`).
-/

namespace UriTemplate.Binary64

/-- `AllDigits t` says that `t` consists of decimal digits. -/
def AllDigits (t : Text) : Prop := ∀ c ∈ t, c.isDigit = true

/-- The parts of a decimal: the digits before and after the point, if there is one, and the power of
ten, if it is written. At least one of the two is there. -/
structure Literal where
  whole : Text
  fraction? : Option Text
  exponent? : Option Int
  ne_nil : whole ≠ []
  isDigit_whole : AllDigits whole
  isDigit_fraction : ∀ fraction ∈ fraction?, AllDigits fraction
  isSome_exponent : fraction? = none → exponent?.isSome = true

namespace Literal

/-- `powerText exponent?` is the power of ten at the end of a decimal, if there is one. -/
def powerText : Option Int → Text
  | none => []
  | some exponent => CodePoint.ofChar 'e' :: exponentText exponent

/-- `l.text` is the text of the decimal `l`. -/
def text (l : Literal) : Text :=
  match l.fraction? with
  | none => l.whole ++ powerText l.exponent?
  | some fraction => l.whole ++ CodePoint.ofChar '.' :: (fraction ++ powerText l.exponent?)

/-- `l.digits` is the number that the digits of `l` make up without the point. -/
def digits (l : Literal) : Nat := Decimal.value (l.whole ++ l.fraction?.getD [])

/-- `l.power` is the power of ten that the last digit of `l` counts. -/
def power (l : Literal) : Int := l.exponent?.getD 0 - ((l.fraction?.getD []).length : Nat)

end Literal

variable {t rest digits : Text} {exponent? : Option Int} {exponent : Int}

/-! ## Reading a literal -/

/-- A run of digits ends where something else than a digit or an underscore follows. -/
theorem digit_run_append (ht : AllDigits t)
    (hrest : ∀ c ∈ rest.head?, c.isDigit = false ∧ c ≠ CodePoint.ofChar '_') :
    digitRun (t ++ rest) = (t, rest) := by
  have hstop : rest.takeWhile (fun c : CodePoint => c.isDigit || c = '_') = [] := by
    cases rest with
    | nil => rfl
    | cons c rest =>
        obtain ⟨hdigit, hunderscore⟩ := hrest c rfl
        rw [List.takeWhile_cons_of_neg (by simp [hdigit, hunderscore])]
  have hrun : (t ++ rest).takeWhile (fun c : CodePoint => c.isDigit || c = '_') = t := by
    rw [List.takeWhile_append_of_pos fun c hc => by simp [ht c hc], hstop, List.append_nil]
  rw [digitRun]
  simp only [hrun, List.drop_left]
  rw [List.filter_eq_self.2 ht]

/-- Digits are read up to the power. -/
theorem digit_run_power_text (ht : AllDigits t) :
    digitRun (t ++ Literal.powerText exponent?) = (t, Literal.powerText exponent?) := by
  refine digit_run_append ht fun c hc => ?_
  cases exponent? with
  | none => simp [Literal.powerText] at hc
  | some e =>
      obtain rfl : CodePoint.ofChar 'e' = c := by simpa [Literal.powerText] using hc
      decide

/-- The power of ten at the end of a decimal is read back. -/
theorem read_exponent_power_text (exponent? : Option Int) :
    readExponent (Literal.powerText exponent?) = some (exponent?.getD 0) := by
  cases exponent? with
  | none => rfl
  | some e =>
      have hletter : (CodePoint.ofChar 'e').toLower = 'e' := by decide
      have hrun : digitRun (Decimal.padded 2 e.natAbs) = (Decimal.padded 2 e.natAbs, []) := by
        have happend : digitRun (Decimal.padded 2 e.natAbs ++ []) = _ :=
          digit_run_append (Decimal.is_digit_of_mem_padded 2 e.natAbs) (by simp)
        rwa [List.append_nil] at happend
      have hne : (Decimal.padded 2 e.natAbs).isEmpty = false := by
        simpa using Decimal.padded_ne_nil 2 e.natAbs
      have hsigned : Decimal.signed (exponentText e) =
          (decide (e < 0), Decimal.padded 2 e.natAbs) := by
        unfold exponentText
        by_cases he : e < 0
        · simp only [he, if_true, decide_true]
          rfl
        · simp only [he, if_false, decide_false]
          rfl
      rw [Literal.powerText, readExponent, if_pos hletter, hsigned]
      simp only [hrun, hne, List.isEmpty_nil, Bool.not_true, Bool.or_self, Bool.false_eq_true,
        if_false, Decimal.value_padded, Option.getD_some, Option.some.injEq]
      by_cases he : e < 0
      · simp only [he, decide_true, signed, if_true]
        omega
      · simp only [he, decide_false, signed, Bool.false_eq_true, if_false]
        omega

/-- Reading a literal rounds the decimal that it writes. -/
theorem read_decimal_text (l : Literal) (negative : Bool) :
    readDecimal negative l.text = some (ofDecimal negative l.digits l.power) := by
  obtain ⟨whole, fraction?, exponent?, hne, hwhole, hfraction, hsome⟩ := l
  have hwritten : whole.isEmpty = false := by simpa using hne
  have hread := read_exponent_power_text exponent?
  cases fraction? with
  | none =>
      have hrun : digitRun (whole ++ Literal.powerText exponent?) =
          (whole, Literal.powerText exponent?) := digit_run_power_text hwhole
      cases exponent? with
      | none => exact absurd (hsome rfl) (by simp)
      | some e =>
          have hpoint : CodePoint.ofChar 'e' ≠ CodePoint.ofChar '.' := by decide
          simp_all [readDecimal, Literal.text, Literal.powerText, Literal.digits, Literal.power]
  | some fraction =>
      have hrun : digitRun (whole ++ CodePoint.ofChar '.' ::
          (fraction ++ Literal.powerText exponent?)) =
            (whole, CodePoint.ofChar '.' :: (fraction ++ Literal.powerText exponent?)) :=
        digit_run_append hwhole (by simp; decide)
      have hrest : digitRun (fraction ++ Literal.powerText exponent?) =
          (fraction, Literal.powerText exponent?) := digit_run_power_text (hfraction fraction rfl)
      simp [readDecimal, Literal.text, Literal.digits, Literal.power, hrun, hrest, hwritten, hread]

/-! ## Code points of a literal -/

/-- `isNumeric c` says that `c` may stand in the text of a finite number. -/
def isNumeric (c : CodePoint) : Bool :=
  c.isDigit || c = '.' || c = 'e' || c = '+' || c = '-'

variable {c : CodePoint}

/-- The characters that numbers are written in. -/
theorem is_numeric_iff : isNumeric c = true ↔ c.isDigit = true ∨
    c = CodePoint.ofChar '.' ∨ c = CodePoint.ofChar 'e' ∨ c = CodePoint.ofChar '+' ∨
      c = CodePoint.ofChar '-' := by
  simp [isNumeric, or_assoc]

/-- Digits are among them. -/
theorem is_numeric_of_is_digit (h : c.isDigit = true) : isNumeric c = true :=
  is_numeric_iff.2 (.inl h)

/-- A power is written in them. -/
theorem is_numeric_of_mem_power_text : ∀ c ∈ Literal.powerText exponent?, isNumeric c = true := by
  intro c hc
  cases exponent? with
  | none => simp [Literal.powerText] at hc
  | some e =>
      simp only [Literal.powerText, exponentText, List.mem_cons] at hc
      rcases hc with rfl | rfl | hc
      · rfl
      · split <;> rfl
      · exact is_numeric_of_is_digit (Decimal.is_digit_of_mem_padded _ _ c hc)

/-- A literal is written in them. -/
theorem Literal.is_numeric_of_mem_text (l : Literal) : ∀ c ∈ l.text, isNumeric c = true := by
  intro c hc
  unfold text at hc
  split at hc
  · rcases List.mem_append.1 hc with hc | hc
    · exact is_numeric_of_is_digit (l.isDigit_whole c hc)
    · exact is_numeric_of_mem_power_text c hc
  · next fraction hfraction =>
      simp only [List.mem_append, List.mem_cons] at hc
      rcases hc with hc | rfl | hc | hc
      · exact is_numeric_of_is_digit (l.isDigit_whole c hc)
      · rfl
      · exact is_numeric_of_is_digit (l.isDigit_fraction fraction hfraction c hc)
      · exact is_numeric_of_mem_power_text c hc

/-- A literal starts with a digit. -/
theorem Literal.exists_head (l : Literal) : ∃ c rest, l.text = c :: rest ∧ c.isDigit = true := by
  obtain ⟨c, rest, hwhole⟩ := List.exists_cons_of_ne_nil l.ne_nil
  have hc := l.isDigit_whole c (by simp [hwhole])
  unfold text
  split
  · exact ⟨c, _, by rw [hwhole, List.cons_append], hc⟩
  · exact ⟨c, _, by rw [hwhole, List.cons_append], hc⟩

/-- They are ASCII characters. -/
theorem is_ascii_of_is_numeric (h : isNumeric c = true) : c.isAscii = true := by
  rcases is_numeric_iff.1 h with hdigit | rfl | rfl | rfl | rfl
  · have hbounds := CodePoint.is_digit_iff.1 hdigit
    exact CodePoint.is_ascii_iff.2 (by omega)
  all_goals rfl

/-- None of them is a blank. -/
theorem is_ascii_whitespace_of_is_numeric (h : isNumeric c = true) :
    c.isAsciiWhitespace = false := by
  rcases is_numeric_iff.1 h with hdigit | rfl | rfl | rfl | rfl
  · have hbounds := CodePoint.is_digit_iff.1 hdigit
    have hspace : c ≠ CodePoint.ofChar ' ' := by
      rintro rfl
      exact absurd hdigit (by decide)
    simp only [CodePoint.isAsciiWhitespace, hspace, decide_false, Bool.false_or,
      Bool.and_eq_false_iff, decide_eq_false_iff_not]
    omega
  all_goals rfl

/-! ## Reading a number -/

/-- A digit is no sign. -/
theorem signed_of_is_digit (h : c.isDigit = true) (rest : Text) :
    Decimal.signed (c :: rest) = (false, c :: rest) := by
  have hminus : c ≠ CodePoint.ofChar '-' := by
    rintro rfl
    exact absurd h (by decide)
  have hplus : c ≠ CodePoint.ofChar '+' := by
    rintro rfl
    exact absurd h (by decide)
  rw [Decimal.signed, if_neg hminus, if_neg hplus]

/-- A text of ASCII without whitespace has nothing to strip. -/
theorem stripped_eq (hascii : ∀ c ∈ t, c.isAscii = true)
    (hspace : ∀ c ∈ t, c.isAsciiWhitespace = false) : Decimal.stripped t = t := by
  have hform : Decimal.asciiForm t = t :=
    (List.map_congr_left fun c hc => if_pos (hascii c hc)).trans (List.map_id t)
  have hdrop : ∀ u : Text, (∀ c ∈ u, c.isAsciiWhitespace = false) →
      u.dropWhile CodePoint.isAsciiWhitespace = u := by
    intro u hu
    cases u with
    | nil => rfl
    | cons c rest => rw [List.dropWhile_cons_of_neg (by simp [hu c (by simp)])]
  rw [Decimal.stripped, hform, Text.stripEnds, hdrop t hspace,
    hdrop t.reverse fun c hc => hspace c (List.mem_reverse.1 hc), List.reverse_reverse]

/-- A text without underscores has them only between digits. -/
theorem underscores_between_digits_of_not_mem (h : CodePoint.ofChar '_' ∉ t) :
    underscoresBetweenDigits t = true := by
  refine List.all_eq_true.2 fun e he => ?_
  have hc : e.2.1 ∈ t := (List.of_mem_zip (List.of_mem_zip he).2).1
  have hne : e.2.1 ≠ CodePoint.ofChar '_' := fun heq => h (heq ▸ hc)
  simp [hne]

/-- A digit has no lower case. -/
theorem to_lower_of_is_digit (h : c.isDigit = true) : c.toLower = c := by
  have hbounds := CodePoint.is_digit_iff.1 h
  have hcapital : c.within 'A' 'Z' = false := by
    rw [Bool.eq_false_iff, Ne, CodePoint.within_iff]
    have hletter : 'A'.toNat = 65 := rfl
    omega
  rw [CodePoint.toLower, hcapital]
  rfl

/-- A literal is read as a decimal, without a sign. -/
theorem read_text (l : Literal) : read l.text = some (ofDecimal false l.digits l.power) := by
  rw [← read_decimal_text]
  have hnumeric := l.is_numeric_of_mem_text
  obtain ⟨c, rest, hcons, hc⟩ := l.exists_head
  rw [hcons] at hnumeric ⊢
  have hstripped : Decimal.stripped (c :: rest) = c :: rest :=
    stripped_eq (fun d hd => is_ascii_of_is_numeric (hnumeric d hd))
      fun d hd => is_ascii_whitespace_of_is_numeric (hnumeric d hd)
  have hunderscore : CodePoint.ofChar '_' ∉ c :: rest := fun hmem =>
    absurd (hnumeric _ hmem) (by decide)
  have hname : ∀ d : CodePoint, d.isDigit = false → ∀ name : Text,
      (c :: rest).map CodePoint.toLower ≠ d :: name := by
    intro d hd name heq
    rw [List.map_cons, to_lower_of_is_digit hc] at heq
    obtain rfl := (List.cons.inj heq).1
    exact absurd hc (by simp [hd])
  have hinfinity := hname 'i' (by decide)
  have hnan : (c :: rest).map CodePoint.toLower ≠ Text.ofString "nan" := hname 'n' (by decide) _
  rw [read, hstripped, signed_of_is_digit hc]
  simp only [underscores_between_digits_of_not_mem hunderscore, if_true]
  rw [if_neg (by simpa using ⟨hinfinity _, hinfinity _⟩), if_neg hnan]

/-! ## The text of a magnitude -/

/-- A text is what is left without zeros at its end, and zeros. -/
theorem exists_drop_trailing_zeros (t : Text) :
    ∃ count, t = dropTrailingZeros t ++ List.replicate count (CodePoint.ofChar '0') := by
  have hsplit := List.takeWhile_append_dropWhile (p := fun c : CodePoint => decide (c = '0'))
    (l := (t.drop 1).reverse)
  have hzeros : ((t.drop 1).reverse.takeWhile fun c : CodePoint => c = '0') =
      List.replicate ((t.drop 1).reverse.takeWhile fun c : CodePoint => c = '0').length
        (CodePoint.ofChar '0') := by
    refine List.eq_replicate_iff.2 ⟨rfl, fun c hc => ?_⟩
    simpa using List.all_eq_true.1 (List.all_takeWhile (l := (t.drop 1).reverse)) c hc
  rw [hzeros] at hsplit
  have hreversed := congrArg List.reverse hsplit
  rw [List.reverse_append, List.reverse_reverse, List.reverse_replicate] at hreversed
  refine ⟨((t.drop 1).reverse.takeWhile fun c : CodePoint => c = '0').length, ?_⟩
  rw [dropTrailingZeros, List.append_assoc, hreversed, List.take_append_drop]

/-- Something is left when trailing zeros are dropped. -/
theorem drop_trailing_zeros_ne_nil (h : t ≠ []) : dropTrailingZeros t ≠ [] := by
  obtain ⟨c, rest, rfl⟩ := List.exists_cons_of_ne_nil h
  simp [dropTrailingZeros]

/-- Zeros are digits. -/
theorem all_digits_zeros (count : Nat) :
    AllDigits (List.replicate count (CodePoint.ofChar '0')) := by
  intro c hc
  rw [List.eq_of_mem_replicate hc]
  rfl

/-- Digits one after the other are digits. -/
theorem AllDigits.append (ht : AllDigits t) (hrest : AllDigits rest) : AllDigits (t ++ rest) :=
  List.forall_mem_append.2 ⟨ht, hrest⟩

/-- The first ones of some digits are digits. -/
theorem AllDigits.take (ht : AllDigits t) (n : Nat) : AllDigits (t.take n) :=
  fun c hc => ht c (List.mem_of_mem_take hc)

/-- The last ones of some digits are digits. -/
theorem AllDigits.drop (ht : AllDigits t) (n : Nat) : AllDigits (t.drop n) :=
  fun c hc => ht c (List.mem_of_mem_drop hc)

/-- `l.Lays digits exponent` says that `l` is how `layout` writes the digits, the first of which
counts ten to the power `exponent`: with the same value, and possibly zeros at the end. -/
def Literal.Lays (l : Literal) (digits : Text) (exponent : Int) : Prop :=
  layout digits exponent = l.text ∧ ∃ count : Nat,
    l.digits = Decimal.value digits * 10 ^ count ∧
      l.power = exponent + 1 - (digits.length : Nat) - (count : Nat)

/-- Digits a little behind the point follow zeros. -/
theorem exists_lays_below (hdigits : AllDigits digits) (hlower : -4 ≤ exponent)
    (hupper : exponent < 0) : ∃ l : Literal, l.Lays digits exponent := by
  have hzeros := all_digits_zeros (-exponent - 1).toNat
  refine ⟨⟨[CodePoint.ofChar '0'],
    some (List.replicate (-exponent - 1).toNat (CodePoint.ofChar '0') ++ digits), none, by simp,
    all_digits_zeros 1, by simpa using hzeros.append hdigits, by simp⟩, ?_, 0, ?_, ?_⟩
  · simp [layout, hlower, hupper, Literal.text, Literal.powerText]
    rfl
  · rw [Literal.digits, Option.getD_some, Decimal.value_append, Decimal.value_append,
      Decimal.value_zeros, Nat.zero_mul, Nat.zero_add, Nat.pow_zero, Nat.mul_one]
    exact Nat.add_eq_right.2 (Nat.zero_mul _)
  · simp [Literal.power]
    omega

/-- Digits with up to sixteen places before the point are written without a power of ten. -/
theorem exists_lays_positional (hne : digits ≠ []) (hdigits : AllDigits digits)
    (hlower : 0 ≤ exponent) (hupper : exponent < 16) :
    ∃ l : Literal, l.Lays digits exponent := by
  have hneg : ¬exponent < 0 := by omega
  by_cases hlength : digits.length ≤ exponent.toNat + 1
  · have hzeros := all_digits_zeros (exponent.toNat + 1 - digits.length)
    refine ⟨⟨digits ++ List.replicate (exponent.toNat + 1 - digits.length) (CodePoint.ofChar '0'),
      some [CodePoint.ofChar '0'], none, by simp [hne], hdigits.append hzeros,
      by simpa using all_digits_zeros 1, by simp⟩, ?_, exponent.toNat + 1 - digits.length + 1,
      ?_, ?_⟩
    · simp [layout, hlower, hupper, hneg, hlength, Literal.text, Literal.powerText]
      rfl
    · rw [Literal.digits, Option.getD_some, Decimal.value_append, Decimal.value_append,
        Decimal.value_zeros, List.length_replicate, Nat.pow_succ, ← Nat.mul_assoc]
      rfl
    · simp [Literal.power]
      omega
  · refine ⟨⟨digits.take (exponent.toNat + 1), some (digits.drop (exponent.toNat + 1)), none,
      by simp [hne], hdigits.take _, by simpa using hdigits.drop _, by simp⟩, ?_, 0, ?_, ?_⟩
    · simp [layout, hlower, hupper, hneg, hlength, Literal.text, Literal.powerText]
      rfl
    · simp [Literal.digits]
    · simp [Literal.power]
      omega

/-- Other digits are written with a power of ten. -/
theorem exists_lays_powered (hne : digits ≠ []) (hdigits : AllDigits digits)
    (houtside : exponent < -4 ∨ 16 ≤ exponent) : ∃ l : Literal, l.Lays digits exponent := by
  have hsmall : ¬(-4 ≤ exponent ∧ exponent < 0) := by omega
  have hpositional : ¬(0 ≤ exponent ∧ exponent < 16) := by omega
  by_cases hlength : digits.length ≤ 1
  · refine ⟨⟨digits, none, some exponent, hne, hdigits, by simp, by simp⟩, ?_, 0, ?_, ?_⟩
    · simp [layout, hsmall, hpositional, hlength, Literal.text, Literal.powerText]
      rfl
    · simp [Literal.digits]
    · have hpos := List.length_pos_iff.2 hne
      simp [Literal.power]
      omega
  · refine ⟨⟨digits.take 1, some (digits.drop 1), some exponent, by simp [hne], hdigits.take 1,
      by simpa using hdigits.drop 1, by simp⟩, ?_, 0, ?_, ?_⟩
    · simp [layout, hsmall, hpositional, hlength, Literal.text, Literal.powerText]
      rfl
    · rw [Literal.digits, Option.getD_some, List.take_append_drop, Nat.pow_zero, Nat.mul_one]
    · simp [Literal.power]
      omega

/-- Digits and an exponent can be laid out. -/
theorem exists_lays (hne : digits ≠ []) (hdigits : AllDigits digits) (exponent : Int) :
    ∃ l : Literal, l.Lays digits exponent := by
  by_cases hsmall : -4 ≤ exponent ∧ exponent < 0
  · exact exists_lays_below hdigits hsmall.1 hsmall.2
  · by_cases hpositional : 0 ≤ exponent ∧ exponent < 16
    · exact exists_lays_positional hne hdigits hpositional.1 hpositional.2
    · exact exists_lays_powered hne hdigits (by omega)

/-- Zero is rounded to zero. -/
theorem of_ratio_zero {m : Magnitude} (h : m.units = 0) : ofRatio false 0 1 = .finite false m := by
  obtain ⟨units, _, _⟩ := m
  obtain rfl : units = 0 := h
  rfl

/-- The text of a magnitude is a literal, and what it writes rounds to the magnitude. -/
theorem exists_literal (m : Magnitude) : ∃ l : Literal, magnitudeText m = l.text ∧
    ofDecimal false l.digits l.power = .finite false m := by
  by_cases hzero : m.units = 0
  · refine ⟨⟨[CodePoint.ofChar '0'], some [CodePoint.ofChar '0'], none, by simp,
      all_digits_zeros 1, by simpa using all_digits_zeros 1, by simp⟩, ?_, ?_⟩
    · rw [magnitudeText, if_pos hzero]
      rfl
    · exact of_ratio_zero hzero
  · have hpos := Nat.pos_of_ne_zero hzero
    have hholds := Magnitude.holds_shortest hpos
    have hne := Decimal.of_nat_ne_nil m.shortest.1
    obtain ⟨count, hcount⟩ := exists_drop_trailing_zeros (Decimal.ofNat m.shortest.1)
    have hdigits : AllDigits (dropTrailingZeros (Decimal.ofNat m.shortest.1)) := fun c hc =>
      Decimal.is_digit_of_mem_of_nat m.shortest.1 c (hcount ▸ List.mem_append_left _ hc)
    have hvalue : m.shortest.1 =
        Decimal.value (dropTrailingZeros (Decimal.ofNat m.shortest.1)) * 10 ^ count := by
      have happend := congrArg Decimal.value hcount
      rwa [Decimal.value_of_nat, Decimal.value_append, Decimal.value_zeros, Nat.add_zero,
        List.length_replicate] at happend
    have hlength := congrArg List.length hcount
    rw [List.length_append, List.length_replicate] at hlength
    obtain ⟨l, hlayout, more, hmore, hpower⟩ := exists_lays (drop_trailing_zeros_ne_nil hne) hdigits
      (m.shortest.2 + (Decimal.ofNat m.shortest.1).length - 1)
    refine ⟨l, ?_, of_decimal_of_holds hpos ?_⟩
    · rw [← hlayout, magnitudeText, if_neg hzero]
    · have hsame := m.interval.holds_shift
        (Decimal.value (dropTrailingZeros (Decimal.ofNat m.shortest.1)))
        (m.shortest.2 + count) count
      rw [← hvalue, Int.add_sub_cancel, hholds] at hsame
      have hposition : l.power = m.shortest.2 + count - more := by omega
      rw [hmore, hposition, RoundingInterval.holds_shift, ← hsame]

/-- A magnitude is read back from its text. -/
theorem read_magnitude_text (m : Magnitude) :
    read (magnitudeText m) = some (.finite false m) := by
  obtain ⟨l, htext, hround⟩ := exists_literal m
  rw [htext, read_text, hround]

end UriTemplate.Binary64
