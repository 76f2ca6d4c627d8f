import UriTemplate.Json
import UriTemplate.Proofs.Outcome
import UriTemplate.Proofs.Text.Split
import UriTemplate.Proofs.Text.Utf8
import UriTemplate.Proofs.Yaml.Line
import UriTemplate.Yaml.Token.Quoted

/-!
# JSON texts as quoted scalars

A scalar between double quotes is read word by word, with the escapes in a word and the spaces
between words. So the text of a JSON text is read as its code units
(`Cursor.quoted_scalar_in_json`), each from how it is written (`Cursor.quoted_word_unit`).
-/

namespace UriTemplate.Yaml.Cursor

variable {u c : CodePoint} {t part word rest tail : Text} {i fuel : Nat} {after : Cursor}

/-- `isWordMark p` says that `p` ends a run inside quotes. -/
def isWordMark (p : CodePoint) : Bool := p.isOneOf "'\"\\ \t" || p.isBreak

/-- A code point that ends no run goes before what is read after it. -/
theorem quoted_word_cons (hc : c.IsPrintableAscii) (hmark : isWordMark c = false) :
    (onLine (c :: rest) i).quotedWord true fuel =
      ((onLine rest (i + 1)).quotedWord true fuel).map fun (word, after) => (c :: word, after) := by
  cases fuel with
  | zero => rfl
  | succ fuel =>
      have hspan : (onLine (c :: rest) i).span (fun p => !isWordMark p) =
          (c :: ((onLine rest (i + 1)).span fun p => !isWordMark p).1,
            ((onLine rest (i + 1)).span fun p => !isWordMark p).2) := by
        simp [span, hmark, advance, next_on_line hc]
      have hfold : (fun p : CodePoint => !(p.isOneOf "'\"\\ \t" || p.isBreak)) =
        fun p => !isWordMark p := rfl
      rw [quotedWord, quotedWord, hfold, hspan]
      obtain ⟨run, after⟩ := (onLine rest (i + 1)).span fun p => !isWordMark p
      cases hpeek : after.peek with
      | none => simp [hpeek]
      | some p =>
          -- Double quotes leave three marks that a run stops at and the word goes on after.
          simp only [hpeek, Bool.not_true, Bool.false_and, Bool.true_and, Bool.false_eq_true,
            if_false, Bool.or_false]
          split
          · cases after.next.quotedWord true fuel <;> rfl
          · split
            · cases after.next.escapeSequence with
              | error e => rfl
              | ok read =>
                  obtain ⟨part, final⟩ := read
                  cases hword : final.quotedWord true fuel <;> simp [hword]
            · rfl

/-- A run that ends at once. -/
theorem span_on_line_mark (hmark : isWordMark c = true) :
    (onLine (c :: rest) i).span (fun p => !isWordMark p) = ([], onLine (c :: rest) i) := by
  refine span_on_line_nil fun d hd => ?_
  obtain rfl : c = d := by simpa using hd
  simp [hmark]

/-- A single quote is no mark of a scalar between double quotes. -/
theorem quoted_word_apostrophe :
    (onLine (CodePoint.ofChar '\'' :: rest) i).quotedWord true (fuel + 1) =
      ((onLine rest (i + 1)).quotedWord true fuel).map fun (word, after) =>
        (CodePoint.ofChar '\'' :: word, after) := by
  have hspan : (onLine (CodePoint.ofChar '\'' :: rest) i).span
      (fun p => !(p.isOneOf "'\"\\ \t" || p.isBreak)) =
        ([], onLine (CodePoint.ofChar '\'' :: rest) i) := span_on_line_mark (by decide)
  have hnext : (onLine (CodePoint.ofChar '\'' :: rest) i).next = onLine rest (i + 1) :=
    next_on_line (by decide)
  rw [quotedWord, hspan]
  simp only [peek_on_line, List.head?_cons, hnext]
  cases (onLine rest (i + 1)).quotedWord true fuel <;> rfl

/-- What an escape stands for goes before what is read after it. -/
theorem quoted_word_escape (h : (onLine rest (i + 1)).escapeSequence = .ok (part, after)) :
    (onLine (CodePoint.ofChar '\\' :: rest) i).quotedWord true (fuel + 1) =
      (after.quotedWord true fuel).map fun (word, final) => (part ++ word, final) := by
  have hspan : (onLine (CodePoint.ofChar '\\' :: rest) i).span
      (fun p => !(p.isOneOf "'\"\\ \t" || p.isBreak)) =
        ([], onLine (CodePoint.ofChar '\\' :: rest) i) := span_on_line_mark (by decide)
  have hnext : (onLine (CodePoint.ofChar '\\' :: rest) i).next = onLine rest (i + 1) :=
    next_on_line (by decide)
  have hquote : CodePoint.ofChar '\\' ≠ CodePoint.ofChar '\'' := by decide
  rw [quotedWord, hspan]
  simp only [peek_on_line, List.head?_cons, hnext, h]
  cases hword : after.quotedWord true fuel <;> simp [hword, hquote]

/-- A word ends before a blank and before the closing quote. -/
theorem quoted_word_end (hc : c = CodePoint.ofChar ' ' ∨ c = CodePoint.ofChar '"') :
    (onLine (c :: rest) i).quotedWord true (fuel + 1) = .ok ([], onLine (c :: rest) i) := by
  have hmark : isWordMark c = true := by rcases hc with rfl | rfl <;> decide
  have hspan : (onLine (c :: rest) i).span
      (fun p => !(p.isOneOf "'\"\\ \t" || p.isBreak)) = ([], onLine (c :: rest) i) :=
    span_on_line_mark hmark
  rw [quotedWord, hspan]
  rcases hc with rfl | rfl <;> rfl

/-! ## Escapes of JSON texts -/

/-- The small hexadecimal digit for `n`, modulo 16. -/
def hexDigit (n : Nat) : CodePoint := CodePoint.ofChar (Text.lowerHex.getD (n % 16) '0')

/-- Four hexadecimal digits. -/
theorem hex_four (n : Nat) : Text.hex Text.lowerHex 4 n =
    [hexDigit (n / 16 / 16 / 16), hexDigit (n / 16 / 16), hexDigit (n / 16), hexDigit n] := rfl

/-- A hexadecimal digit has its value and is printable. -/
theorem hex_digit_facts (n : Nat) : (hexDigit n).digitValue = some (n % 16) ∧
    (hexDigit n).isHexDigit = true ∧ (hexDigit n).IsPrintableAscii := by
  have hall : ∀ d : Fin 16, (CodePoint.ofChar (Text.lowerHex.getD d.val '0')).digitValue =
      some d.val ∧ (CodePoint.ofChar (Text.lowerHex.getD d.val '0')).isHexDigit = true ∧
        (CodePoint.ofChar (Text.lowerHex.getD d.val '0')).IsPrintableAscii := by decide
  exact hall ⟨n % 16, Nat.mod_lt n (by decide)⟩

/-- Four hexadecimal digits are printable. -/
theorem is_printable_ascii_hex_four (n : Nat) :
    (Text.hex Text.lowerHex 4 n).IsPrintableAscii := by
  intro c hc
  rw [hex_four] at hc
  simp only [List.mem_cons, List.not_mem_nil, or_false] at hc
  rcases hc with rfl | rfl | rfl | rfl <;> exact (hex_digit_facts _).2.2

/-- Four digits write a code unit. -/
theorem hex_value?_hex_four {n : Nat} (h : n < 0x10000) :
    hexValue? (Text.hex Text.lowerHex 4 n) = some n := by
  have hvalue : ∀ m, (hexDigit m).digitValue = some (m % 16) := fun m => (hex_digit_facts m).1
  have hdigit : ∀ m, (hexDigit m).isHexDigit = true := fun m => (hex_digit_facts m).2.1
  simp [hex_four, hexValue?, hvalue, hdigit]
  omega

/-- An escape of one character stands for the code unit that it was written for. -/
theorem escape_sequence_letter {n : Nat} {letter : Char} (h : (n, letter) ∈ CodePoint.jsonEscapes) :
    (onLine (CodePoint.ofChar letter :: rest) i).escapeSequence =
      .ok ([CodePoint.ofNat n], onLine rest (i + 1)) := by
  have hall : ∀ e ∈ CodePoint.jsonEscapes,
      escape? simpleEscapes (CodePoint.ofChar e.2) = some e.1 ∧
        (CodePoint.ofChar e.2).IsPrintableAscii := by decide
  obtain ⟨hescape, hprintable⟩ := hall _ h
  simp only [escapeSequence, peek_on_line, List.head?_cons, hescape, next_on_line hprintable]

/-- An escape of four digits stands for the code unit that they write. -/
theorem escape_sequence_hex {n : Nat} (h : n < 0x10000) :
    (onLine (CodePoint.ofChar 'u' :: (Text.hex Text.lowerHex 4 n ++ rest)) i).escapeSequence =
      .ok ([CodePoint.ofNat n], onLine rest (i + 5)) := by
  have hnext : (onLine (CodePoint.ofChar 'u' :: (Text.hex Text.lowerHex 4 n ++ rest)) i).next =
      onLine (Text.hex Text.lowerHex 4 n ++ rest) (i + 1) := next_on_line (by decide)
  have hsimple : escape? simpleEscapes (CodePoint.ofChar 'u') = none := by decide
  have hhex : escape? hexEscapes (CodePoint.ofChar 'u') = some 4 := by decide
  have hlength : (Text.hex Text.lowerHex 4 n).length = 4 := rfl
  have hadvance : (onLine (Text.hex Text.lowerHex 4 n ++ rest) (i + 1)).advance 4 =
      onLine rest (i + 1 + 4) := advance_on_line (is_printable_ascii_hex_four n)
  have hwithin : n < 0x110000 := by omega
  simp only [escapeSequence, peek_on_line, List.head?_cons, hsimple, hhex, hnext, rest_on_line,
    List.take_left' hlength, hex_value?_hex_four h, hlength, hadvance, hwithin, if_true,
    Nat.lt_irrefl, if_false]

/-- Of the printable code units that a JSON text writes as they are, only the space and the single
quote end a run. -/
theorem is_word_mark_of_unescaped (hprintable : u.IsPrintableAscii)
    (hnone : CodePoint.jsonEscapes.lookup u.val = none) (hquote : u ≠ CodePoint.ofChar '\'')
    (hspace : u ≠ CodePoint.ofChar ' ') : isWordMark u = false := by
  have hne : ∀ d ∈ (['"', '\\', '\t'] : List Char), u ≠ CodePoint.ofChar d := by
    rintro d hd rfl
    simp only [List.mem_cons, List.not_mem_nil, or_false] at hd
    rcases hd with rfl | rfl | rfl <;> exact absurd hnone (by decide)
  have hmarks : Text.ofString "'\"\\ \t" = (['\'', '"', '\\', ' ', '\t'] : List Char).map
      CodePoint.ofChar := by decide
  simp [isWordMark, CodePoint.isOneOf, hmarks, hquote, hne, hspace,
    CodePoint.is_break_of_is_printable_ascii hprintable]

/-- A code unit other than a space is read from how a JSON text writes it. -/
theorem quoted_word_unit (rest : Text) (i fuel : Nat) (hu : u.val < 0x10000)
    (hspace : u ≠ CodePoint.ofChar ' ') :
    ∃ left, fuel ≤ left ∧ (onLine (u.inJson ++ rest) i).quotedWord true (fuel + 1) =
      ((onLine rest (i + u.inJson.length)).quotedWord true left).map fun (word, after) =>
        (u :: word, after) := by
  have hself := CodePoint.of_nat_val u
  unfold CodePoint.inJson
  split
  · next letter hletter =>
      refine ⟨fuel, Nat.le_refl _, ?_⟩
      have hmem : (u.val, letter) ∈ CodePoint.jsonEscapes := by
        obtain ⟨before, after, heq, _⟩ := List.lookup_eq_some_iff.1 hletter
        simp [heq]
      have hescape : (onLine (CodePoint.ofChar letter :: rest) (i + 1)).escapeSequence = _ :=
        escape_sequence_letter hmem
      rw [hself] at hescape
      exact quoted_word_escape hescape
  · next hnone =>
      split
      · next hbounds =>
          have hprintable : u.IsPrintableAscii := by
            simpa [CodePoint.IsPrintableAscii] using hbounds
          -- An apostrophe ends a run of characters also inside double quotes, and is kept there.
          by_cases hquote : u = CodePoint.ofChar '\''
          · subst hquote
            exact ⟨fuel, Nat.le_refl _, quoted_word_apostrophe⟩
          · have hmark := is_word_mark_of_unescaped hprintable hnone hquote hspace
            exact ⟨fuel + 1, Nat.le_succ _, quoted_word_cons hprintable hmark⟩
      · next =>
          refine ⟨fuel, Nat.le_refl _, ?_⟩
          have hescape : (onLine (CodePoint.ofChar 'u' ::
              (Text.hex Text.lowerHex 4 u.val ++ rest)) (i + 1)).escapeSequence = _ :=
            escape_sequence_hex hu
          rw [hself] at hescape
          exact quoted_word_escape hescape

/-- `EndsWord tail` says that a space or the closing quote comes next. -/
def EndsWord (tail : Text) : Prop :=
  ∃ c rest, tail = c :: rest ∧ (c = CodePoint.ofChar ' ' ∨ c = CodePoint.ofChar '"')

/-- Code units without spaces are read as one word. -/
theorem quoted_word_units (hword : ∀ u ∈ word, u.val < 0x10000 ∧ u ≠ CodePoint.ofChar ' ')
    (htail : EndsWord tail) (hfuel : word.length < fuel) :
    (onLine (word.flatMap CodePoint.inJson ++ tail) i).quotedWord true fuel =
      .ok (word, onLine tail (i + (word.flatMap CodePoint.inJson).length)) := by
  obtain ⟨fuel, rfl⟩ : ∃ n, fuel = n + 1 := ⟨fuel - 1, by omega⟩
  induction word generalizing i fuel with
  | nil =>
      obtain ⟨c, rest, rfl, hc⟩ := htail
      exact quoted_word_end hc
  | cons u word ih =>
      obtain ⟨⟨hu, hspace⟩, hword⟩ := List.forall_mem_cons.1 hword
      rw [List.length_cons] at hfuel
      obtain ⟨left, hleft, hread⟩ := quoted_word_unit (word.flatMap CodePoint.inJson ++ tail) i fuel
        hu hspace
      obtain ⟨left, rfl⟩ : ∃ n, left = n + 1 := ⟨left - 1, by omega⟩
      rw [List.flatMap_cons, List.append_assoc, hread, ih hword _ (by omega),
        List.length_append, Nat.add_assoc]
      rfl

/-- What a JSON text writes for a code unit is printable, and starts with a space only for one. -/
theorem exists_in_json (u : CodePoint) : ∃ c t, u.inJson = c :: t ∧ u.inJson.IsPrintableAscii ∧
    (u ≠ CodePoint.ofChar ' ' → c ≠ CodePoint.ofChar ' ') := by
  have hbackslash : (CodePoint.ofChar '\\').IsPrintableAscii := by decide
  unfold CodePoint.inJson
  split
  · next letter hletter =>
      have hall : ∀ e ∈ CodePoint.jsonEscapes, (CodePoint.ofChar e.2).IsPrintableAscii := by decide
      obtain ⟨before, after, heq, _⟩ := List.lookup_eq_some_iff.1 hletter
      have hprintable := hall (u.val, letter) (by simp [heq])
      exact ⟨_, _, rfl, by simp [Text.IsPrintableAscii, hbackslash, hprintable], fun _ => by decide⟩
  · split
    · next hbounds =>
        have hprintable : u.IsPrintableAscii := by
          simpa [CodePoint.IsPrintableAscii] using hbounds
        exact ⟨_, _, rfl, by simp [Text.IsPrintableAscii, hprintable], id⟩
    · have hletter : (CodePoint.ofChar 'u').IsPrintableAscii := by decide
      refine ⟨_, _, rfl, ?_, fun _ => by decide⟩
      exact List.forall_mem_cons.2 ⟨hbackslash, List.forall_mem_cons.2
        ⟨hletter, is_printable_ascii_hex_four _⟩⟩

/-- Code units are written in printable characters. -/
theorem is_printable_ascii_units (t : Text) :
    Text.IsPrintableAscii (t.flatMap CodePoint.inJson) := by
  intro c hc
  obtain ⟨u, _, hmem⟩ := List.mem_flatMap.1 hc
  obtain ⟨_, _, _, hprintable, _⟩ := exists_in_json u
  exact hprintable c hmem

/-- A text is at most as long as it is written. -/
theorem length_le_units (t : Text) : t.length ≤ (t.flatMap CodePoint.inJson).length := by
  induction t with
  | nil => simp
  | cons u t ih =>
      obtain ⟨c, written, heq, _⟩ := exists_in_json u
      rw [List.flatMap_cons, List.length_append, heq, List.length_cons, List.length_cons]
      omega

/-- A text is a word and what starts with a space. -/
theorem exists_word (t : Text) : ∃ word more : Text, t = word ++ more ∧
    (∀ u ∈ word, u ≠ CodePoint.ofChar ' ') ∧ ∀ u ∈ more.head?, u = CodePoint.ofChar ' ' := by
  refine ⟨t.takeWhile fun u => !decide (u = CodePoint.ofChar ' '),
    t.dropWhile fun u => !decide (u = CodePoint.ofChar ' '),
    List.takeWhile_append_dropWhile.symm, fun u hu => ?_, fun u hu => ?_⟩
  · simpa using List.all_eq_true.1 List.all_takeWhile u hu
  · simpa using Text.head?_drop_while _ u hu

/-- A text is spaces, a word, and what starts with a space. What follows is shorter than the text,
and only nothing follows the empty word. -/
theorem exists_blanks_word (hne : t ≠ []) : ∃ blanks word more : Text,
    t = blanks ++ (word ++ more) ∧ (∀ u ∈ blanks, u = CodePoint.ofChar ' ') ∧
      (∀ u ∈ word, u ≠ CodePoint.ofChar ' ') ∧ (∀ u ∈ more.head?, u = CodePoint.ofChar ' ') ∧
        (word = [] → more = []) ∧ more.length < t.length := by
  obtain ⟨word, more, hsplit, hword, hmore⟩ :=
    exists_word (t.dropWhile fun u => u = CodePoint.ofChar ' ')
  have heq : t = (t.takeWhile fun u => u = CodePoint.ofChar ' ') ++ (word ++ more) := by
    rw [← hsplit, List.takeWhile_append_dropWhile]
  have hempty : word = [] → more = [] := by
    rintro rfl
    cases more with
    | nil => rfl
    | cons u more =>
        have hhead := Text.head?_drop_while _ u (by rw [hsplit]; rfl)
        simp [hmore u rfl] at hhead
  have hshorter : more.length < t.length := by
    have hpos := List.length_pos_iff.2 hne
    cases word with
    | nil =>
        rw [hempty rfl]
        exact hpos
    | cons u word =>
        rw [heq, List.length_append, List.length_append, List.length_cons]
        omega
  refine ⟨_, word, more, heq, fun u hu => ?_, hword, hmore, hempty, hshorter⟩
  simpa using List.all_eq_true.1 List.all_takeWhile u hu

/-- Spaces inside quotes are kept where a word or the closing quote follows. -/
theorem quoted_blanks_on_line (ht : ∀ u ∈ t, u = CodePoint.ofChar ' ') (hc : c.IsPrintableAscii)
    (hspace : c ≠ CodePoint.ofChar ' ') :
    (onLine (t ++ c :: rest) i).quotedBlanks = .ok (t, onLine (c :: rest) (i + t.length)) := by
  have hprintable : t.IsPrintableAscii := by
    intro u hu
    rw [ht u hu]
    decide
  have htab : c ≠ CodePoint.ofChar '\t' := by
    rintro rfl
    exact absurd hc (by decide)
  have hspan : (onLine (t ++ c :: rest) i).span
      (fun p => p = CodePoint.ofChar ' ' || p = CodePoint.ofChar '\t') =
        (t, onLine (c :: rest) (i + t.length)) := by
    refine span_on_line hprintable (fun u hu => by simp [ht u hu]) fun d hd => ?_
    obtain rfl : c = d := by simpa using hd
    simp [hspace, htab]
  have hbreak : (onLine (c :: rest) (i + t.length)).lineBreak? = none := by
    refine line_break?_on_line fun d hd => ?_
    obtain rfl : c = d := by simpa using hd
    exact hc
  simp only [quotedBlanks, hspan, peek_on_line, List.head?_cons, hbreak]

/-- Spaces are written as they stand. -/
theorem units_spaces (h : ∀ u ∈ t, u = CodePoint.ofChar ' ') :
    t.flatMap CodePoint.inJson = t := by
  induction t with
  | nil => rfl
  | cons u t ih =>
      obtain ⟨rfl, ht⟩ := List.forall_mem_cons.1 h
      rw [List.flatMap_cons, ih ht]
      rfl

/-- A word ends at a space or at the closing quote. -/
theorem ends_word_units (h : ∀ u ∈ t.head?, u = CodePoint.ofChar ' ') (rest : Text) :
    EndsWord (t.flatMap CodePoint.inJson ++ CodePoint.ofChar '"' :: rest) := by
  cases t with
  | nil => exact ⟨_, _, rfl, .inr rfl⟩
  | cons u t =>
      obtain rfl := h u rfl
      exact ⟨_, _, rfl, .inl rfl⟩

/-- What follows blanks starts with no blank. -/
theorem exists_head_units (hword : ∀ u ∈ word, u ≠ CodePoint.ofChar ' ')
    (hempty : word = [] → t = []) (rest : Text) :
    ∃ c tail, word.flatMap CodePoint.inJson ++
        (t.flatMap CodePoint.inJson ++ CodePoint.ofChar '"' :: rest) = c :: tail ∧
      c.IsPrintableAscii ∧ c ≠ CodePoint.ofChar ' ' := by
  cases word with
  | nil =>
      obtain rfl := hempty rfl
      exact ⟨_, _, rfl, by decide, by decide⟩
  | cons u word =>
      obtain ⟨c, written, heq, hprintable, hspace⟩ := exists_in_json u
      refine ⟨c, _, by rw [List.flatMap_cons, heq]; rfl, hprintable c (by simp [heq]), ?_⟩
      exact hspace (hword u (by simp))

/-- What is left inside quotes is blanks, a word and the rest, where it is not the closing quote. -/
theorem quoted_rest_of_parts {start afterBlanks afterWord : Cursor} {blanks : Text}
    (hquote : start.isAt '"' = false) (hblanks : start.quotedBlanks = .ok (blanks, afterBlanks))
    (hword : afterBlanks.quotedWord true (afterBlanks.rest.length + 1) = .ok (word, afterWord))
    (hrest : afterWord.quotedRest true fuel = .ok (t, after)) :
    start.quotedRest true (fuel + 1) = .ok (blanks ++ word ++ t, after) := by
  simp only [quotedRest, if_true, hquote, Bool.false_eq_true, if_false, hblanks, hword, hrest,
    ok_bind, pure_eq_ok]

/-- Code units that start with a space, if there are any, are read up to the closing quote. -/
theorem quoted_rest_units (hunits : ∀ u ∈ t, u.val < 0x10000)
    (hhead : ∀ u ∈ t.head?, u = CodePoint.ofChar ' ') (hfuel : t.length < fuel) :
    (onLine (t.flatMap CodePoint.inJson ++ CodePoint.ofChar '"' :: rest) i).quotedRest true fuel =
      .ok (t, onLine rest (i + (t.flatMap CodePoint.inJson).length + 1)) := by
  induction fuel generalizing t i with
  | zero => exact absurd hfuel (by omega)
  | succ fuel ih =>
      by_cases hnil : t = []
      · subst hnil
        have hnext : (onLine (CodePoint.ofChar '"' :: rest) i).next = onLine rest (i + 1) :=
          next_on_line (by decide)
        simp only [List.flatMap_nil, List.nil_append, quotedRest, hnext]
        rfl
      · -- The reader takes blanks and a word at a time, and what is left starts with a space again.
        obtain ⟨blanks, word, more, heq, hblanks, hword, hmore, hempty, hshorter⟩ :=
          exists_blanks_word hnil
        obtain ⟨c, tail, htail, hc, hspace⟩ := exists_head_units hword hempty rest
        have hsource : t.flatMap CodePoint.inJson ++ CodePoint.ofChar '"' :: rest =
            blanks ++ c :: tail := by
          rw [← htail, heq, List.flatMap_append, List.flatMap_append, units_spaces hblanks,
            List.append_assoc, List.append_assoc]
        have hquote : (onLine (t.flatMap CodePoint.inJson ++ CodePoint.ofChar '"' :: rest) i).isAt
            '"' = false := by
          obtain ⟨u, t, rfl⟩ := List.exists_cons_of_ne_nil hnil
          obtain rfl := hhead u rfl
          rfl
        have hread : (onLine (c :: tail) (i + blanks.length)).quotedWord true
            ((c :: tail).length + 1) = .ok (word,
              onLine (more.flatMap CodePoint.inJson ++ CodePoint.ofChar '"' :: rest)
                (i + blanks.length + (word.flatMap CodePoint.inJson).length)) := by
          rw [← htail]
          refine quoted_word_units (fun u hu => ⟨hunits u (by simp [heq, hu]), hword u hu⟩)
            (ends_word_units hmore rest) ?_
          have hle := length_le_units word
          rw [List.length_append]
          omega
        rw [hsource] at hquote ⊢
        have hrest := ih (i := i + blanks.length + (word.flatMap CodePoint.inJson).length)
          (fun u hu => hunits u (by simp [heq, hu])) hmore (by omega)
        rw [quoted_rest_of_parts hquote (quoted_blanks_on_line hblanks hc hspace) hread hrest, heq,
          List.flatMap_append, List.flatMap_append, units_spaces hblanks, List.append_assoc,
          List.length_append, List.length_append]
        congr 3
        omega

/-- A text is read as its code units from its JSON text. -/
theorem quoted_scalar_in_json (hunits : ∀ u ∈ t.units, u.val < 0x10000) :
    (onLine (t.inJson ++ rest) i).quotedScalar true =
      .ok (t.units, onLine rest (i + t.inJson.length)) := by
  obtain ⟨word, more, heq, hword, hmore⟩ := exists_word t.units
  have hsource : t.inJson ++ rest = CodePoint.ofChar '"' :: (word.flatMap CodePoint.inJson ++
      (more.flatMap CodePoint.inJson ++ CodePoint.ofChar '"' :: rest)) := by
    simp [Text.inJson, heq]
  have hlength : t.inJson.length =
      1 + (word.flatMap CodePoint.inJson).length + (more.flatMap CodePoint.inJson).length + 1 := by
    simp only [Text.inJson, heq, List.cons_append, List.length_cons, List.length_append,
      List.flatMap_append, List.length_nil]
    omega
  have hwords := length_le_units word
  have hmores := length_le_units more
  have hfuel : word.length < (t.inJson ++ rest).length + 1 ∧
      more.length < (t.inJson ++ rest).length + 1 := by
    rw [List.length_append]
    omega
  have hnext : (onLine (t.inJson ++ rest) i).next =
      onLine (word.flatMap CodePoint.inJson ++
        (more.flatMap CodePoint.inJson ++ CodePoint.ofChar '"' :: rest)) (i + 1) := by
    rw [hsource]
    exact next_on_line (by decide)
  simp only [quotedScalar, hnext, rest_on_line, ok_bind, pure_eq_ok,
    quoted_word_units (fun u hu => ⟨hunits u (by simp [heq, hu]), hword u hu⟩)
      (ends_word_units hmore rest) hfuel.1,
    quoted_rest_units (fun u hu => hunits u (by simp [heq, hu])) hmore hfuel.2]
  rw [heq, hlength]
  congr 3
  omega

end UriTemplate.Yaml.Cursor
