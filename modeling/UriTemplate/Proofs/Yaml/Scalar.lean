import UriTemplate.Proofs.Decimal.FloatText
import UriTemplate.Proofs.Outcome
import UriTemplate.Proofs.Text.Split
import UriTemplate.Yaml.Node
import UriTemplate.Yaml.Scalar

/-!
# Plain scalars that are numbers

The tag that the text of a number implies, and the value under it. An integer is implied to be one
(`Tag.of_plain_of_int`) and read back (`Scalar.int_of_int`). A finite floating-point number would be
read back as well (`Scalar.float_text`), but its text implies that it is a number only if it has a
point (`Tag.of_plain_text`).
-/

namespace UriTemplate.Yaml

open Binary64

variable {c : CodePoint} {t rest : Text} {n : Int}

/-! ## Forms of scalars -/

/-- `StartsNumber c` says that `c` may start a number. -/
def StartsNumber (c : CodePoint) : Prop := c.isDigit = true ∨ c = CodePoint.ofChar '-'

/-- A text is none of some words if it is not one of them. -/
theorem is_word_eq_false {words : List String} (h : ∀ w ∈ words, Text.ofString w ≠ t) :
    Tag.isWord words t = false := by
  rw [Tag.isWord, List.any_eq_false]
  intro w hw heq
  exact h w hw (by simpa using heq)

/-- A word that starts with a code point that is in no number is none. -/
theorem is_word_of_starts_number (hc : StartsNumber c) {words : List String}
    (hwords : words.all fun w => (Text.ofString w).head?.all fun d : CodePoint =>
      !(d.isDigit || d = '-')) : Tag.isWord words (c :: rest) = false := by
  refine is_word_eq_false fun w hw heq => ?_
  have hhead := List.all_eq_true.1 hwords w hw
  rw [heq] at hhead
  rcases hc with hc | rfl
  · simp [hc] at hhead
  · simp at hhead

/-- A text with a character that no word has is none of them. -/
theorem is_word_of_mem (h : c ∈ t) {words : List String}
    (hwords : words.all fun w => !(Text.ofString w).contains c) : Tag.isWord words t = false := by
  refine is_word_eq_false fun w hw heq => ?_
  have hmem := List.all_eq_true.1 hwords w hw
  rw [heq] at hmem
  simp [h] at hmem

/-- A text without a character that all words have is none of them. -/
theorem is_word_of_not_mem (h : c ∉ t) {words : List String}
    (hwords : words.all fun w => (Text.ofString w).contains c) : Tag.isWord words t = false := by
  refine is_word_eq_false fun w hw heq => ?_
  have hmem := List.all_eq_true.1 hwords w hw
  rw [heq] at hmem
  exact h (by simpa using hmem)

/-- What stands after the sign is in the text. -/
theorem mem_of_mem_drop_sign (h : c ∈ Tag.dropSign t) : c ∈ t := by
  cases t with
  | nil => exact h
  | cons d rest =>
      rw [Tag.dropSign] at h
      split at h
      · exact List.mem_cons_of_mem _ h
      · exact h

/-- A number with a fraction has a point. -/
theorem is_float_of_not_mem (h : CodePoint.ofChar '.' ∉ t) : Tag.isFloat t = false := by
  have hdrop : CodePoint.ofChar '.' ∉ Tag.dropSign t := fun hmem => h (mem_of_mem_drop_sign hmem)
  have hsplit := Text.split_first_of_not_mem hdrop
  have hfraction : Tag.isFraction t = false := by
    unfold Tag.isFraction
    split
    · next point first rest =>
        have hpoint : point ≠ CodePoint.ofChar '.' := by
          rintro rfl
          exact h (by simp)
        simp [hpoint]
    · rfl
  have hinfinity : Tag.isWord [".inf", ".Inf", ".INF"] (Tag.dropSign t) = false :=
    is_word_of_not_mem hdrop (by decide)
  have hnan : Tag.isWord [".nan", ".NaN", ".NAN"] t = false := is_word_of_not_mem h (by decide)
  simp only [Tag.isFloat, Tag.isPointed, Tag.isPointedSexagesimal, hsplit, hfraction, hinfinity,
    hnan, Bool.or_self]

/-- What starts as a number does is no word of another form. -/
theorem implied_of_starts_number (hc : StartsNumber c) : Tag.implied (c :: rest) =
    if Tag.isFloat (c :: rest) then .float
    else if Tag.isInt (c :: rest) then .int
    else if Timestamp.isImplied (c :: rest) then .timestamp
    else .str := by
  have hbool : Tag.isBool (c :: rest) = false := is_word_of_starts_number hc (by decide)
  have hnull : Tag.isNull (c :: rest) = false := is_word_of_starts_number hc (by decide)
  have hmerge : Tag.isWord ["<<"] (c :: rest) = false := is_word_of_starts_number hc (by decide)
  have hvalue : Tag.isWord ["="] (c :: rest) = false := is_word_of_starts_number hc (by decide)
  have hother : Tag.isWord ["!", "&", "*"] (c :: rest) = false :=
    is_word_of_starts_number hc (by decide)
  simp only [Tag.implied, hbool, hnull, hmerge, hvalue, hother, Bool.false_eq_true, if_false]

/-- A number has no line feed at its end. -/
theorem of_plain_of_is_numeric (h : ∀ d ∈ t, isNumeric d = true) :
    Tag.ofPlain t = Tag.implied t := by
  have hlast : t.getLast? ≠ some (CodePoint.ofChar '\n') := by
    intro heq
    exact absurd (h _ (List.mem_of_getLast? heq)) (by decide)
  simp [Tag.ofPlain, hlast]

/-- A character that no number has is in none. -/
theorem not_mem_of_is_numeric (h : ∀ d ∈ t, isNumeric d = true) (hc : isNumeric c = false) :
    c ∉ t := fun hmem => by
  rw [h c hmem] at hc
  exact absurd hc (by simp)

/-- Numbers have no underscores. -/
theorem drop_underscores_of_is_numeric (h : ∀ d ∈ t, isNumeric d = true) :
    Scalar.dropUnderscores t = t := by
  refine List.filter_eq_self.2 fun d hd => ?_
  have hne : d ≠ CodePoint.ofChar '_' := by
    rintro rfl
    exact absurd (h _ hd) (by decide)
  simp [hne]

/-! ## Signs -/

/-- `withSign negative t` is `t`, after a minus sign if it is negative. -/
def withSign (negative : Bool) (t : Text) : Text :=
  if negative then CodePoint.ofChar '-' :: t else t

/-- `StartsWithDigit t` says that `t` starts with a digit. -/
def StartsWithDigit (t : Text) : Prop := ∃ c rest, t = c :: rest ∧ c.isDigit = true

/-- A sign in front is written in the characters of numbers as well. -/
theorem is_numeric_of_mem_with_sign {negative : Bool} (h : ∀ d ∈ t, isNumeric d = true) :
    ∀ d ∈ withSign negative t, isNumeric d = true := by
  cases negative with
  | false => exact h
  | true => exact List.forall_mem_cons.2 ⟨rfl, h⟩

/-- A sign in front is a hyphen. -/
theorem not_mem_with_sign {negative : Bool} (h : c ∉ t) (hc : c ≠ CodePoint.ofChar '-') :
    c ∉ withSign negative t := by
  cases negative with
  | false => exact h
  | true => simp [withSign, h, hc]

variable {negative : Bool}

/-- A digit or a sign in front starts a number. -/
theorem StartsWithDigit.exists_starts_number (h : StartsWithDigit t) (negative : Bool) :
    ∃ d rest, withSign negative t = d :: rest ∧ StartsNumber d := by
  obtain ⟨d, rest, rfl, hd⟩ := h
  cases negative with
  | false => exact ⟨d, rest, rfl, .inl hd⟩
  | true => exact ⟨_, _, rfl, .inr rfl⟩

/-- The sign in front is dropped. -/
theorem drop_sign_with_sign (h : StartsWithDigit t) : Tag.dropSign (withSign negative t) = t := by
  obtain ⟨d, rest, rfl, hd⟩ := h
  cases negative with
  | true => rfl
  | false =>
      have hplus : d ≠ CodePoint.ofChar '+' := by
        rintro rfl
        exact absurd hd (by decide)
      have hminus : d ≠ CodePoint.ofChar '-' := by
        rintro rfl
        exact absurd hd (by decide)
      simp [withSign, Tag.dropSign, hplus, hminus]

/-- The sign in front is read. -/
theorem signed_with_sign (h : StartsWithDigit t) :
    Scalar.signed (withSign negative t) = .ok (negative, t) := by
  obtain ⟨d, rest, rfl, hd⟩ := h
  cases negative with
  | false => simp [Scalar.signed, withSign, signed_of_is_digit hd]
  | true => rfl

/-- What the form of a number implies. -/
theorem of_plain_with_sign (h : StartsWithDigit t) (hnumeric : ∀ d ∈ t, isNumeric d = true) :
    Tag.ofPlain (withSign negative t) =
      if Tag.isFloat (withSign negative t) then .float
      else if Tag.isInt (withSign negative t) then .int
      else if Timestamp.isImplied (withSign negative t) then .timestamp
      else .str := by
  obtain ⟨d, rest, heq, hd⟩ := h.exists_starts_number negative
  rw [of_plain_of_is_numeric (is_numeric_of_mem_with_sign hnumeric), heq,
    implied_of_starts_number hd]

/-! ## Integers -/

/-- An integer is written as its absolute value with a sign. -/
theorem of_int_eq (n : Int) :
    Decimal.ofInt n = withSign (decide (n < 0)) (Decimal.ofNat n.natAbs) := by
  simp [Decimal.ofInt, withSign]

/-- A natural number starts with a digit. -/
theorem starts_with_digit_of_nat (n : Nat) : StartsWithDigit (Decimal.ofNat n) := by
  obtain ⟨c, rest, hcons⟩ := List.exists_cons_of_ne_nil (Decimal.of_nat_ne_nil n)
  exact ⟨c, rest, hcons, Decimal.is_digit_of_mem_of_nat n c (by simp [hcons])⟩

/-- A natural number is written in the characters of numbers. -/
theorem is_numeric_of_mem_of_nat (n : Nat) : ∀ c ∈ Decimal.ofNat n, isNumeric c = true :=
  fun c hc => is_numeric_of_is_digit (Decimal.is_digit_of_mem_of_nat n c hc)

/-- The digits of a positive number start with another digit than zero. -/
theorem head_of_nat_ne_zero {n : Nat} (hn : 0 < n) :
    ∀ c ∈ (Decimal.ofNat n).head?, c ≠ CodePoint.ofChar '0' := by
  induction n using Decimal.place_induction with
  | one n hlt =>
      rw [Decimal.of_nat_of_lt hlt]
      rintro c hc rfl
      have hdigit : Decimal.digit n = CodePoint.ofChar '0' := by simpa using hc
      have hval := congrArg CodePoint.val hdigit
      rw [Decimal.val_digit, Nat.mod_eq_of_lt hlt] at hval
      have hzero : (CodePoint.ofChar '0').val = '0'.toNat := rfl
      omega
  | more n hge ih =>
      rw [Decimal.of_nat_of_ge hge, List.head?_append_of_ne_nil _ (Decimal.of_nat_ne_nil _)]
      exact ih (by omega)

/-- The digits of a number have the form of an integer. -/
theorem is_int_of_int (n : Int) : Tag.isInt (Decimal.ofInt n) = true := by
  rw [of_int_eq, Tag.isInt, drop_sign_with_sign (starts_with_digit_of_nat _)]
  by_cases hzero : n.natAbs = 0
  · rw [hzero, Decimal.of_nat_of_lt (by omega)]
    decide
  · obtain ⟨c, rest, hcons, hc⟩ := starts_with_digit_of_nat n.natAbs
    have hhead : c ≠ CodePoint.ofChar '0' :=
      head_of_nat_ne_zero (Nat.pos_of_ne_zero hzero) c (by simp [hcons])
    have hrest : ∀ d ∈ rest, d.isDigit = true := fun d hd =>
      Decimal.is_digit_of_mem_of_nat n.natAbs d (by simp [hcons, hd])
    have hnumeral : Tag.isNumeral Tag.isNonZero (Decimal.ofNat n.natAbs) = true := by
      rw [hcons, Tag.isNumeral, hc, Tag.isNonZero, decide_eq_true hhead, List.all_eq_true.2]
      · rfl
      · intro d hd
        simp [hrest d hd]
    simp [hnumeral]

/-- An integer is implied to be one. -/
theorem Tag.of_plain_of_int (n : Int) : Tag.ofPlain (Decimal.ofInt n) = .int := by
  have hfloat : Tag.isFloat (Decimal.ofInt n) = false := by
    refine is_float_of_not_mem ?_
    rw [of_int_eq]
    cases hsign : decide (n < 0) with
    | false =>
        exact fun hmem => absurd (Decimal.is_digit_of_mem_of_nat _ _ hmem) (by decide)
    | true =>
        refine fun hmem => ?_
        rcases List.mem_cons.1 hmem with heq | hmem
        · exact absurd heq (by decide)
        · exact absurd (Decimal.is_digit_of_mem_of_nat _ _ hmem) (by decide)
  have hint := is_int_of_int n
  rw [of_int_eq] at hfloat hint ⊢
  rw [of_plain_with_sign (starts_with_digit_of_nat _) (is_numeric_of_mem_of_nat _), hfloat, hint]
  rfl

/-- The value of a decimal digit. -/
theorem digit_value_of_is_digit (h : c.isDigit = true) :
    c.digitValue = some (c.val - '0'.toNat) := by
  rw [CodePoint.digitValue, if_pos h]

/-- Decimal digits are digits to the base ten. -/
theorem is_digit_of_ten (h : c.isDigit = true) : Decimal.isDigitOf 10 c = true := by
  have hbounds := CodePoint.is_digit_iff.1 h
  have hzero : '0'.toNat = 48 := rfl
  rw [Decimal.isDigitOf, digit_value_of_is_digit h]
  exact decide_eq_true (by omega)

/-- Digits are read one by one as their value. -/
theorem foldl_digit_value (ht : AllDigits t) (start : Nat) :
    t.foldl (fun (n : Int) c => match c.digitValue with
      | some d => n * (10 : Nat) + d
      | none => n) start = (t.foldl (fun n c => n * 10 + (c.val - '0'.toNat)) start : Nat) := by
  induction t generalizing start with
  | nil => rfl
  | cons c rest ih =>
      obtain ⟨hc, hrest⟩ := List.forall_mem_cons.1 ht
      rw [List.foldl_cons, List.foldl_cons, digit_value_of_is_digit hc, ← ih hrest]
      push_cast
      rfl

/-- A run of not too many digits is read as its value. -/
theorem read_integer_of_all_digits (hstart : StartsWithDigit t) (ht : AllDigits t)
    (hlimit : t.length ≤ Decimal.digitLimit) :
    Decimal.readInteger 10 t = .ok (Decimal.value t) := by
  have hnumeric : ∀ d ∈ t, isNumeric d = true := fun d hd => is_numeric_of_is_digit (ht d hd)
  have hstripped : Decimal.stripped t = t :=
    stripped_eq (fun d hd => is_ascii_of_is_numeric (hnumeric d hd))
      fun d hd => is_ascii_whitespace_of_is_numeric (hnumeric d hd)
  have hsigned : Decimal.signed t = (false, t) := by
    obtain ⟨c, rest, rfl, hc⟩ := hstart
    exact signed_of_is_digit hc rest
  have hmark : Decimal.dropRadixMark 10 t = t := by
    unfold Decimal.dropRadixMark
    split
    · next hradix => exact absurd hradix (by simp [Decimal.radixMark])
    · rfl
  have hrun : t.takeWhile (fun c => Decimal.isDigitOf 10 c || c = CodePoint.ofChar '_') = t :=
    List.takeWhile_eq_self_iff.2 fun c hc => by simp [is_digit_of_ten (ht c hc)]
  have hcount : t.countP (Decimal.isDigitOf 10) = t.length :=
    List.countP_eq_length.2 fun c hc => is_digit_of_ten (ht c hc)
  have hunderscores : Decimal.underscoresSeparate t = true := by
    have hne : t ≠ [] := by
      obtain ⟨c, rest, rfl, _⟩ := hstart
      simp
    rw [Decimal.underscoresSeparate, Text.split_on_of_not_mem
      (not_mem_of_is_numeric hnumeric (by decide))]
    simp [hne]
  have hwithin : ¬Decimal.digitLimit < t.length := by omega
  simp only [Decimal.readInteger, hstripped, hsigned, hmark, hrun, hcount, hunderscores, hwithin,
    Bool.not_true, Bool.false_eq_true, decide_false, Bool.and_false, ne_eq, not_true_eq_false,
    if_false]
  exact congrArg Except.ok (foldl_digit_value ht 0)

/-- A natural number is read as its magnitude if it is short enough. -/
theorem magnitude_of_nat {n : Nat} (h : (Decimal.ofNat n).length ≤ Decimal.digitLimit) :
    Scalar.magnitude (Decimal.ofNat n) = .ok n := by
  have hstart := starts_with_digit_of_nat n
  have hdigits : AllDigits (Decimal.ofNat n) := Decimal.is_digit_of_mem_of_nat n
  have hread := read_integer_of_all_digits hstart hdigits h
  rw [Decimal.value_of_nat] at hread
  by_cases hzero : n = 0
  · rw [hzero, Decimal.of_nat_of_lt (by omega)]
    rfl
  · have hhead := head_of_nat_ne_zero (Nat.pos_of_ne_zero hzero)
    have hcolon : CodePoint.ofChar ':' ∉ Decimal.ofNat n :=
      not_mem_of_is_numeric (is_numeric_of_mem_of_nat n) (by decide)
    obtain ⟨c, rest, hcons, hc⟩ := hstart
    rw [hcons] at hhead hread hcolon ⊢
    have hne : c ≠ CodePoint.ofChar '0' := hhead c rfl
    have hword : c :: rest ≠ Text.ofString "0" := fun heq => hne (List.cons.inj heq).1
    have hmark : ∀ letter : Char,
        [CodePoint.ofChar '0', CodePoint.ofChar letter].isPrefixOf (c :: rest) = false := by
      intro letter
      simp [List.isPrefixOf, Ne.symm hne]
    have hbinary : (Text.ofString "0b").isPrefixOf (c :: rest) = false := hmark 'b'
    have hhex : (Text.ofString "0x").isPrefixOf (c :: rest) = false := hmark 'x'
    have habsent : (c :: rest).contains (CodePoint.ofChar ':') = false := by simpa using hcolon
    have hten : Scalar.readInt 10 (c :: rest) = .ok n := by
      rw [Scalar.readInt, hread]
      rfl
    simpa only [Scalar.magnitude, if_neg hword, hbinary, hhex, if_neg hne, habsent,
      Bool.false_eq_true, if_false] using hten

/-- An integer of not too many digits is read back. -/
theorem Scalar.int_of_int (n : Int) (h : Decimal.exceedsLimit n = false) :
    Scalar.int (Decimal.ofInt n) = .ok (.int n) := by
  have hlength : (Decimal.ofNat n.natAbs).length ≤ Decimal.digitLimit := by
    have hlt : ∀ limit, decide (Nat.pow 10 limit ≤ n.natAbs) = false → n.natAbs < 10 ^ limit :=
      fun limit hlimit => Nat.not_le.1 (of_decide_eq_false hlimit)
    exact (Decimal.length_of_nat_le_iff (by decide)).2 (hlt _ h)
  rw [of_int_eq, Scalar.int, drop_underscores_of_is_numeric
    (is_numeric_of_mem_with_sign (is_numeric_of_mem_of_nat _)),
    signed_with_sign (starts_with_digit_of_nat _)]
  simp only [ok_bind, magnitude_of_nat hlength, pure_eq_ok, Except.ok.injEq, Value.int.injEq]
  split
  · next hneg =>
      have hlt : n < 0 := by simpa using hneg
      omega
  · next hneg =>
      have hge : ¬n < 0 := by simpa using hneg
      omega

/-! ## Floating-point numbers -/

/-- `HasPoint m` says that the text of the magnitude `m` has a point. -/
def HasPoint (m : Magnitude) : Prop := CodePoint.ofChar '.' ∈ magnitudeText m

instance (m : Magnitude) : Decidable (HasPoint m) :=
  inferInstanceAs (Decidable (CodePoint.ofChar '.' ∈ magnitudeText m))

/-- A finite number is written as its magnitude with a sign. -/
theorem text_finite (negative : Bool) (m : Magnitude) :
    (finite negative m).text = withSign negative (magnitudeText m) := rfl

/-- A magnitude starts with a digit. -/
theorem starts_with_digit_magnitude_text (m : Magnitude) : StartsWithDigit (magnitudeText m) := by
  obtain ⟨l, htext, _⟩ := exists_literal m
  rw [htext]
  exact l.exists_head

/-- A magnitude is written in the characters of numbers. -/
theorem is_numeric_of_mem_magnitude_text (m : Magnitude) :
    ∀ c ∈ magnitudeText m, isNumeric c = true := by
  obtain ⟨l, htext, _⟩ := exists_literal m
  rw [htext]
  exact l.is_numeric_of_mem_text

/-- A power is an exponent. -/
theorem is_exponent_power_text (exponent? : Option Int) :
    Tag.isExponent (Literal.powerText exponent?) = true := by
  cases exponent? with
  | none => rfl
  | some e =>
      have hne : (Decimal.padded 2 e.natAbs).isEmpty = false := by
        simpa using Decimal.padded_ne_nil 2 e.natAbs
      have hdigits : (Decimal.padded 2 e.natAbs).all CodePoint.isDigit = true :=
        List.all_eq_true.2 (Decimal.is_digit_of_mem_padded 2 e.natAbs)
      simp only [Literal.powerText, exponentText, Tag.isExponent, hne, hdigits]
      split <;> rfl

/-- Digits are dropped up to the power. -/
theorem drop_digits_power_text (ht : AllDigits t) (exponent? : Option Int) :
    Tag.dropDigits (t ++ Literal.powerText exponent?) = Literal.powerText exponent? := by
  rw [Tag.dropDigits, List.dropWhile_append_of_pos fun c hc => by simp [ht c hc]]
  cases exponent? with
  | none => rfl
  | some e => rfl

/-- A literal with a point has the form of a floating-point number. -/
theorem is_pointed_text {l : Literal} {fraction : Text} (h : l.fraction? = some fraction) :
    Tag.isPointed l.text = true := by
  have hpoint : CodePoint.ofChar '.' ∉ l.whole := fun hmem =>
    absurd (l.isDigit_whole _ hmem) (by decide)
  have hnumeral : Tag.isNumeral (fun _ => true) l.whole = true := by
    obtain ⟨c, rest, hwhole⟩ := List.exists_cons_of_ne_nil l.ne_nil
    have hdigits := l.isDigit_whole
    rw [hwhole] at hdigits ⊢
    obtain ⟨hc, hrest⟩ := List.forall_mem_cons.1 hdigits
    rw [Tag.isNumeral, hc, List.all_eq_true.2 fun d hd => by simp [hrest d hd]]
    rfl
  simp only [Literal.text, h, Tag.isPointed, Text.split_first_append_cons hpoint, hnumeral,
    drop_digits_power_text (l.isDigit_fraction fraction h), is_exponent_power_text, Bool.and_self]

/-- A number with a power of ten has not the form of an integer. -/
theorem is_int_of_mem (hstart : StartsWithDigit t) (hnumeric : ∀ c ∈ t, isNumeric c = true)
    (he : CodePoint.ofChar 'e' ∈ t) : Tag.isInt (withSign negative t) = false := by
  obtain ⟨c, rest, rfl, hc⟩ := hstart
  have hrest : CodePoint.ofChar 'e' ∈ rest := by
    refine (List.mem_cons.1 he).resolve_left ?_
    rintro rfl
    exact absurd hc (by decide)
  have hall : ∀ p : CodePoint → Bool, p (CodePoint.ofChar 'e') = false → rest.all p = false :=
    fun p hp => List.all_eq_false.2 ⟨_, hrest, by simp [hp]⟩
  have hradix : ∀ letter p, isNumeric (CodePoint.ofChar letter) = false →
      Tag.hasRadix letter p (c :: rest) = false := by
    intro letter p hletter
    cases rest with
    | nil => rfl
    | cons mark rest =>
        have hmark : mark ≠ CodePoint.ofChar letter := by
          rintro rfl
          exact absurd (hnumeric (CodePoint.ofChar letter) (by simp)) (by simp [hletter])
        simp [Tag.hasRadix, hmark]
  have hoctal : Tag.isOctal (c :: rest) = false := by
    simp only [Tag.isOctal, Tag.isFilled, hall (fun d => d.within '0' '7' || d = '_') rfl,
      Bool.and_false]
  have hnumeral : Tag.isNumeral Tag.isNonZero (c :: rest) = false := by
    simp only [Tag.isNumeral, hall (fun d => d.isDigit || d = '_') rfl, Bool.and_false]
  have hzero : Tag.isWord ["0"] (c :: rest) = false :=
    is_word_of_mem (List.mem_cons_of_mem _ hrest) (by decide)
  have hsixty : Tag.isSexagesimal Tag.isNonZero (c :: rest) = false := by
    rw [Tag.isSexagesimal, Text.split_on_of_not_mem (not_mem_of_is_numeric hnumeric (by decide))]
  rw [Tag.isInt, drop_sign_with_sign ⟨c, rest, rfl, hc⟩, hradix 'b' _ (by decide), hoctal, hzero,
    hnumeral, hradix 'x' _ (by decide), hsixty]
  rfl

/-- No hyphen follows the first four digits of a literal without a point. -/
theorem after?_hyphen {l : Literal} {e : Int}
    (htext : l.text = l.whole ++ CodePoint.ofChar 'e' :: exponentText e) :
    Timestamp.after? '-' (l.text.drop (l.whole.take 4).length) = none := by
  have hdrop : l.text.drop (l.whole.take 4).length =
      l.whole.drop 4 ++ CodePoint.ofChar 'e' :: exponentText e := by
    rw [htext, List.drop_append_of_le_length (by simp), List.length_take]
    congr 1
    by_cases hlength : 4 ≤ l.whole.length
    · rw [Nat.min_eq_left hlength]
    · rw [Nat.min_eq_right (by omega), List.drop_length, List.drop_of_length_le (by omega)]
  rw [hdrop]
  cases hwhole : l.whole.drop 4 with
  | nil => rfl
  | cons c rest =>
      have hne : c ≠ CodePoint.ofChar '-' := by
        rintro rfl
        have hmem : CodePoint.ofChar '-' ∈ l.whole.drop 4 := by simp [hwhole]
        exact absurd (l.isDigit_whole _ (List.mem_of_mem_drop hmem)) (by decide)
      simp [Timestamp.after?, hne]

/-- A literal without a point is no timestamp. -/
theorem is_implied_text {l : Literal} (h : l.fraction? = none) :
    Timestamp.isImplied (withSign negative l.text) = false := by
  suffices hread : Timestamp.read? (withSign negative l.text) = none by
    rw [Timestamp.isImplied, hread]
  cases negative with
  | true => rfl
  | false =>
      obtain ⟨e, he⟩ := Option.isSome_iff_exists.1 (l.isSome_exponent h)
      have htext : l.text = l.whole ++ CodePoint.ofChar 'e' :: exponentText e := by
        rw [Literal.text, h, he]
        rfl
      have hrun : l.text.takeWhile CodePoint.isDigit = l.whole := by
        rw [htext, List.takeWhile_append_of_pos l.isDigit_whole]
        exact List.append_nil _
      show Timestamp.read? l.text = none
      by_cases hlength : (l.whole.take 4).length < 4
      · simp only [Timestamp.read?, Timestamp.digits?, hrun, if_pos hlength]
        rfl
      · simp only [Timestamp.read?, Timestamp.digits?, hrun, if_neg hlength]
        show (Timestamp.after? '-' (l.text.drop (l.whole.take 4).length)).bind _ = none
        rw [after?_hyphen htext]
        rfl

/-- A literal has a point exactly where it has a fraction. -/
theorem point_mem_text_iff (l : Literal) :
    CodePoint.ofChar '.' ∈ l.text ↔ l.fraction?.isSome = true := by
  have hdigits : ∀ t, AllDigits t → CodePoint.ofChar '.' ∉ t := fun t ht hmem =>
    absurd (ht _ hmem) (by decide)
  have hpower : CodePoint.ofChar '.' ∉ Literal.powerText l.exponent? := by
    cases l.exponent? with
    | none => simp [Literal.powerText]
    | some e =>
        have hpadded := hdigits _ (Decimal.is_digit_of_mem_padded 2 e.natAbs)
        have he : CodePoint.ofChar '.' ≠ CodePoint.ofChar 'e' := by decide
        have hsign : CodePoint.ofChar '.' ≠ CodePoint.ofChar (if e < 0 then '-' else '+') := by
          split <;> decide
        simp [Literal.powerText, exponentText, hpadded, he, hsign]
  have hwhole := hdigits _ l.isDigit_whole
  cases hfraction : l.fraction? with
  | none => simp [Literal.text, hfraction, hwhole, hpower]
  | some fraction => simp [Literal.text, hfraction]

/-- The text of a number implies that it is one if it has a point. -/
theorem Tag.of_plain_text (negative : Bool) (m : Magnitude) :
    Tag.ofPlain (finite negative m).text = if HasPoint m then .float else .str := by
  have hstart := starts_with_digit_magnitude_text m
  have hnumeric := is_numeric_of_mem_magnitude_text m
  rw [text_finite, of_plain_with_sign hstart hnumeric]
  obtain ⟨l, htext, _⟩ := exists_literal m
  have hpoint : HasPoint m ↔ l.fraction?.isSome = true := by
    rw [HasPoint, htext, point_mem_text_iff]
  rw [htext] at hstart hnumeric ⊢
  cases hfraction : l.fraction? with
  | some fraction =>
      have hfloat : Tag.isFloat (withSign negative l.text) = true := by
        simp [Tag.isFloat, drop_sign_with_sign hstart, is_pointed_text hfraction]
      rw [if_pos hfloat, if_pos (hpoint.2 (by simp [hfraction]))]
  | none =>
      obtain ⟨e, he⟩ := Option.isSome_iff_exists.1 (l.isSome_exponent hfraction)
      have hmem : CodePoint.ofChar '.' ∉ l.text := by simp [point_mem_text_iff, hfraction]
      have hfloat : Tag.isFloat (withSign negative l.text) = false :=
        is_float_of_not_mem (not_mem_with_sign hmem (by decide))
      have hint : Tag.isInt (withSign negative l.text) = false :=
        is_int_of_mem hstart hnumeric (by simp [Literal.text, hfraction, he, Literal.powerText])
      have hnone : ¬HasPoint m := by simp [hpoint, hfraction]
      simp only [hfloat, hint, is_implied_text hfraction, if_neg hnone, Bool.false_eq_true,
      if_false]

/-- A numeric text is in small letters. -/
theorem lower_from_of_is_numeric (h : ∀ c ∈ t, isNumeric c = true) (before : Text) :
    Text.lowerFrom before t = t := by
  induction t generalizing before with
  | nil => rfl
  | cons c rest ih =>
      obtain ⟨hc, hrest⟩ := List.forall_mem_cons.1 h
      have hascii := is_ascii_of_is_numeric hc
      have hbelow := CodePoint.is_ascii_iff.1 hascii
      have hdotted : c ≠ CodePoint.dottedI := by
        rintro rfl
        exact absurd hascii (by decide)
      have hsigma : c ≠ CodePoint.capitalSigma := by
        rintro rfl
        exact absurd hascii (by decide)
      have hlower : c.lower = c := by
        rw [CodePoint.lower, if_pos hascii]
        rcases is_numeric_iff.1 hc with hdigit | rfl | rfl | rfl | rfl
        · exact to_lower_of_is_digit hdigit
        all_goals rfl
      simp [Text.lowerFrom, hdotted, hsigma, hlower, ih hrest]

/-- A finite number is read back from its text, with a point or without. -/
theorem Scalar.float_text (negative : Bool) (m : Magnitude) :
    Scalar.float (finite negative m).text = .ok (.float (finite negative m)) := by
  have hstart := starts_with_digit_magnitude_text m
  have hnumeric := is_numeric_of_mem_magnitude_text m
  have hsigned : Scalar.signed (Scalar.dropUnderscores (finite negative m).text).lower =
      .ok (negative, magnitudeText m) := by
    rw [text_finite, drop_underscores_of_is_numeric (is_numeric_of_mem_with_sign hnumeric),
      Text.lower, lower_from_of_is_numeric (is_numeric_of_mem_with_sign hnumeric),
      signed_with_sign hstart]
  have hname : ∀ c : CodePoint, isNumeric c = false → ∀ name : Text, c ∈ name →
      magnitudeText m ≠ name := by
    rintro c hc name hmem rfl
    exact not_mem_of_is_numeric hnumeric hc hmem
  have hinfinity := hname 'i' (by decide) ".inf" (by decide)
  have hnan := hname 'n' (by decide) ".nan" (by decide)
  have hcolon : (magnitudeText m).contains (CodePoint.ofChar ':') = false := by
    simpa using not_mem_of_is_numeric hnumeric (by decide)
  have hread : Scalar.readFloat (magnitudeText m) = .ok (.finite false m) := by
    rw [Scalar.readFloat, read_magnitude_text]
  simp only [Scalar.float, hsigned, ok_bind, if_neg hinfinity, if_neg hnan, hcolon, hread]
  cases negative <;> rfl

end UriTemplate.Yaml
