import UriTemplate.Component.Source
import UriTemplate.Component.Variable
import UriTemplate.Proofs.Decimal
import UriTemplate.Proofs.Name
import UriTemplate.Proofs.Outcome
import UriTemplate.Proofs.Text.Split

/-!
# Reading one reference

An entry that can be read is, without the blanks around it, a name and a suffix that writes the
modifier (`VariableSpec.parse_of_writes` and `VariableSpec.exists_writes`). The references that are
read are the well-formed ones, and each of them is read back from its own text
(`VariableSpec.WellFormed.parse_source`).
-/

namespace UriTemplate

open Text

variable {limits : Limits} {t entry suffix digits : Text} {length : Int}

/-- `Modifier.Writes limits suffix modifier` says that the text `suffix` after a name writes the
modifier, if any. -/
inductive Modifier.Writes (limits : Limits) : Text → Option Modifier → Prop where
  | none : Writes limits [] none
  | explode : Writes limits [CodePoint.ofChar '*'] (some .explode)
  | first (digits : Text) (length : Int) : parseLength limits digits = .ok length →
      Writes limits (CodePoint.ofChar ':' :: digits) (some (.first length))

/-- `m.Fits limits` says that the modifier `m` may stand in a template: a length is within the
bounds and has not too many digits. -/
def Modifier.Fits (limits : Limits) : Modifier → Prop
  | explode => True
  | first length => 1 ≤ length ∧ length ≤ limits.maxPrefixLength ∧
      (Decimal.ofInt length).length ≤ Decimal.digitLimit

/-- `s.WellFormed limits` says that the reference `s` may stand in a template: its variable has a
name that does not lose blanks when the reference is trimmed, and its modifier fits. -/
structure VariableSpec.WellFormed (limits : Limits) (s : VariableSpec) : Prop where
  isName : Name.isName s.name = true
  head : ∀ c ∈ s.name.head?, c.isBlank = false
  last : s.modifier = none → ∀ c ∈ s.name.getLast?, c.isBlank = false
  fits : ∀ m, s.modifier = some m → m.Fits limits

/-! ## The parts of a reference -/

/-- A text is read as a name exactly if it is one, and then as it stands. -/
theorem parse_name_eq_ok_iff {name : Text} :
    parseName t = .ok name ↔ Name.isName name = true ∧ t = name := by
  unfold parseName
  constructor
  · intro h
    split at h
    · next hname =>
        obtain rfl := Except.ok.inj h
        exact ⟨hname, rfl⟩
    · simp at h
  · rintro ⟨hname, rfl⟩
    rw [if_pos hname]

/-- The limits accept the lengths from one to the greatest. -/
theorem Limits.accepts_iff : limits.accepts length = true ↔
    1 ≤ length ∧ length ≤ limits.maxPrefixLength := by
  simp only [accepts, Bool.and_eq_true, decide_eq_true_eq]
  omega

/-- A length is read from digits whose number the limits accept. -/
theorem parse_length_eq_ok_iff : parseLength limits digits = .ok length ↔
    digits ≠ [] ∧ (∀ c ∈ digits, c.isDigit = true) ∧
      ∃ n : Nat, Decimal.ofDigits? digits = .ok n ∧ limits.accepts n = true ∧ n = length := by
  unfold parseLength
  split
  · next hdigits =>
      refine iff_of_false (by simp) ?_
      rintro ⟨hne, hall, _⟩
      simp [hne, List.all_eq_true.2 hall] at hdigits
  · next hdigits =>
      have hall : digits ≠ [] ∧ ∀ c ∈ digits, c.isDigit = true := by simpa using hdigits
      rw [← and_assoc, and_iff_right hall]
      cases Decimal.ofDigits? digits with
      | error e => simp
      | ok n => by_cases haccepts : limits.accepts n = true <;> simp [haccepts]

/-- A length that was read fits. -/
theorem fits_of_parse_length (h : parseLength limits digits = .ok length) :
    (Modifier.first length).Fits limits := by
  obtain ⟨hne, hall, n, hn, haccepts, rfl⟩ := parse_length_eq_ok_iff.1 h
  obtain ⟨hlimit, rfl⟩ := Decimal.of_digits?_eq_ok_iff.1 hn
  obtain ⟨hlower, hupper⟩ := Limits.accepts_iff.1 haccepts
  have hplaces := Decimal.length_of_nat_value_le hne hall
  refine ⟨hlower, hupper, ?_⟩
  rw [Decimal.of_int_nat_cast]
  exact Nat.le_trans hplaces hlimit

/-- A length that fits is read back from its decimal text. -/
theorem parse_length_of_int (h : (Modifier.first length).Fits limits) :
    parseLength limits (Decimal.ofInt length) = .ok length := by
  obtain ⟨hlower, hupper, hlimit⟩ := h
  obtain ⟨n, rfl⟩ := Int.eq_ofNat_of_zero_le (show 0 ≤ length by omega)
  rw [Decimal.of_int_nat_cast] at hlimit ⊢
  exact parse_length_eq_ok_iff.2 ⟨Decimal.of_nat_ne_nil n, Decimal.is_digit_of_mem_of_nat n, n,
    Decimal.of_digits?_of_nat hlimit, Limits.accepts_iff.2 ⟨hlower, hupper⟩, rfl⟩

/-! ## A name and a suffix -/

/-- The text of a modifier that fits writes the modifier. -/
theorem Modifier.writes_source {m : Modifier} (h : m.Fits limits) :
    Writes limits m.source (some m) := by
  cases m with
  | explode => exact .explode
  | first length => exact .first _ length (parse_length_of_int h)

/-- A modifier that was written fits. -/
theorem Modifier.Writes.fits {m : Modifier} (h : Writes limits suffix (some m)) :
    m.Fits limits := by
  cases h with
  | explode => trivial
  | first digits length hlength => exact fits_of_parse_length hlength

/-- An entry with a length is read as its name and, after that, the length. -/
theorem VariableSpec.parse_of_length {name : Text} (hname : Name.isName name = true)
    (hne : digits ≠ []) (hdigits : ∀ c ∈ digits, c.isDigit = true)
    (h : entry.trim = name ++ CodePoint.ofChar ':' :: digits) :
    parse limits entry =
      (parseLength limits digits).map fun length => ⟨name, some (.first length)⟩ := by
  have habsent : ∀ c : CodePoint, c.isDigit = false → c ∉ digits := fun c hc hmem => by
    simp [hdigits c hmem] at hc
  have hlast : digits.getLast? ≠ some (CodePoint.ofChar '*') := fun hlast =>
    habsent _ (by decide) (List.mem_of_getLast? hlast)
  have hstar : (name ++ CodePoint.ofChar ':' :: digits).getLast? ≠ some (CodePoint.ofChar '*') := by
    obtain ⟨c, rest, rfl⟩ := List.exists_cons_of_ne_nil hne
    simpa [List.getLast?_append, List.getLast?_cons] using hlast
  have hsplit := split_last_append_cons (habsent (CodePoint.ofChar ':') (by decide)) name
  simp only [parse, h, hstar, if_false, hsplit, parse_name_eq_ok_iff.2 ⟨hname, rfl⟩, ok_bind]
  cases parseLength limits digits <;> rfl

/-- An entry that is a name and a suffix is read as the reference with that name and the modifier
that the suffix writes. -/
theorem VariableSpec.parse_of_writes {s : VariableSpec} (hname : Name.isName s.name = true)
    (hsuffix : Modifier.Writes limits suffix s.modifier) (h : entry.trim = s.name ++ suffix) :
    parse limits entry = .ok s := by
  have hstar : CodePoint.ofChar '*' ∉ s.name := Name.not_mem_of_is_name hname (by decide)
  have hcolon : CodePoint.ofChar ':' ∉ s.name := Name.not_mem_of_is_name hname (by decide)
  have hparse : parseName s.name = .ok s.name := parse_name_eq_ok_iff.2 ⟨hname, rfl⟩
  obtain ⟨name, modifier⟩ := s
  -- No sign of a modifier stands in the name, so the suffix decides how the entry is read.
  cases hsuffix with
  | none =>
      have hlast : name.getLast? ≠ some (CodePoint.ofChar '*') :=
        fun hlast => hstar (List.mem_of_getLast? hlast)
      have hsplit := split_last_eq_none_iff.2 hcolon
      simp [parse, h, hlast, hsplit, hparse]
  | explode => simp [parse, h, hparse]
  | first digits length hlength =>
      obtain ⟨hne, hall, _⟩ := parse_length_eq_ok_iff.1 hlength
      rw [parse_of_length hname hne hall h, hlength, map_ok]

/-- Only such entries are read. -/
theorem VariableSpec.exists_writes {s : VariableSpec} (h : parse limits entry = .ok s) :
    Name.isName s.name = true ∧
      ∃ suffix, Modifier.Writes limits suffix s.modifier ∧ entry.trim = s.name ++ suffix := by
  simp only [parse] at h
  split at h
  · next hlast =>
      obtain ⟨name, hname, hs⟩ := bind_eq_ok_iff.1 h
      obtain ⟨hisName, rfl⟩ := parse_name_eq_ok_iff.1 hname
      obtain rfl := Except.ok.inj hs
      exact ⟨hisName, _, .explode, (List.dropLast_append_getLast? _ hlast).symm⟩
  · split at h
    · next before after hsplit =>
        obtain ⟨name, hname, hs⟩ := bind_eq_ok_iff.1 h
        obtain ⟨length, hlength, hs⟩ := bind_eq_ok_iff.1 hs
        obtain ⟨hisName, rfl⟩ := parse_name_eq_ok_iff.1 hname
        obtain rfl := Except.ok.inj hs
        exact ⟨hisName, _, .first after length hlength, split_last_eq_some hsplit⟩
    · obtain ⟨name, hname, hs⟩ := bind_eq_ok_iff.1 h
      obtain ⟨hisName, rfl⟩ := parse_name_eq_ok_iff.1 hname
      obtain rfl := Except.ok.inj hs
      exact ⟨hisName, [], .none, by simp⟩

/-- What can be read as a variable is not blank. -/
theorem VariableSpec.trim_ne_nil_of_parse {s : VariableSpec} (h : parse limits entry = .ok s) :
    entry.trim ≠ [] := by
  obtain ⟨hname, suffix, _, hentry⟩ := exists_writes h
  rw [hentry]
  simp [Name.ne_nil_of_is_name hname]

/-! ## Well-formed references -/

/-- What is read is well formed. -/
theorem VariableSpec.well_formed_of_parse {s : VariableSpec} (h : parse limits entry = .ok s) :
    s.WellFormed limits := by
  obtain ⟨hname, suffix, hsuffix, hentry⟩ := exists_writes h
  have htrimmed := trimmed_trim entry
  rw [hentry] at htrimmed
  -- The name is not empty, and where nothing follows it the trimmed entry ends with it.
  refine ⟨hname, fun c hc => ?_, fun hnone c hc => ?_, fun m hm => ?_⟩
  · have hhead : (s.name ++ suffix).head? = some c := by
      rw [List.head?_append, Option.mem_def.1 hc, Option.some_or]
    exact htrimmed.head c hhead
  · rw [hnone] at hsuffix
    cases hsuffix
    rw [List.append_nil] at htrimmed
    exact htrimmed.last c hc
  · rw [hm] at hsuffix
    exact hsuffix.fits

variable {s : VariableSpec}

/-- The text of a length that fits is a run of digits. -/
theorem Modifier.Fits.is_digit_of_mem (h : (Modifier.first length).Fits limits) :
    Decimal.ofInt length ≠ [] ∧ ∀ c ∈ Decimal.ofInt length, c.isDigit = true := by
  obtain ⟨hne, hall, _⟩ := parse_length_eq_ok_iff.1 (parse_length_of_int h)
  exact ⟨hne, hall⟩

/-- The text of a modifier that fits does not end in a blank. -/
theorem Modifier.Fits.last_source {m : Modifier} (h : m.Fits limits) :
    ∀ c ∈ m.source.getLast?, c.isBlank = false := by
  intro c hc
  have hmem := List.mem_of_getLast? hc
  cases m with
  | explode =>
      obtain rfl := List.mem_singleton.1 hmem
      rfl
  | first length =>
      rcases List.mem_cons.1 hmem with rfl | hmem
      · rfl
      · exact CodePoint.is_blank_eq_false_of_is_digit (h.is_digit_of_mem.2 c hmem)

/-- No modifier is written as nothing. -/
theorem Modifier.source_ne_nil (m : Modifier) : m.source ≠ [] := by
  cases m with
  | explode => exact List.cons_ne_nil _ _
  | first length => exact List.cons_ne_nil _ _

/-- A variable without modifier is written as its name. -/
theorem VariableSpec.source_of_none (h : s.modifier = none) : s.source = s.name := by
  simp [source, h]

/-- A modifier is written after the name. -/
theorem VariableSpec.source_of_some {m : Modifier} (h : s.modifier = some m) :
    s.source = s.name ++ m.source := by
  simp [source, h]

namespace VariableSpec.WellFormed

variable (h : s.WellFormed limits)

include h

/-- A variable is written from the first character of its name on. -/
theorem head?_source : s.source.head? = s.name.head? := by
  have hne := Name.ne_nil_of_is_name h.isName
  cases hm : s.modifier with
  | none => rw [source_of_none hm]
  | some m => rw [source_of_some hm, List.head?_append_of_ne_nil _ hne]

/-- A variable is written without blanks around it. -/
theorem trimmed_source : Trimmed s.source := by
  refine ⟨h.head?_source ▸ h.head, fun c hc => ?_⟩
  cases hm : s.modifier with
  | none =>
      rw [source_of_none hm] at hc
      exact h.last hm c hc
  | some m =>
      rw [source_of_some hm, List.getLast?_append_of_ne_nil _ m.source_ne_nil] at hc
      exact (h.fits m hm).last_source c hc

/-- The code points of a well-formed reference are those of names and modifiers. -/
theorem allows_of_mem_source : ∀ c ∈ s.source, Name.Allows c ∨ c = CodePoint.ofChar '*' ∨
    c = CodePoint.ofChar ':' := by
  intro c hc
  have hname := Name.allows_of_mem h.isName
  cases hm : s.modifier with
  | none =>
      rw [source_of_none hm] at hc
      exact .inl (hname c hc)
  | some m =>
      rw [source_of_some hm] at hc
      rcases List.mem_append.1 hc with hc | hc
      · exact .inl (hname c hc)
      · cases m with
        | explode => exact .inr (.inl (List.mem_singleton.1 hc))
        | first length =>
            rcases List.mem_cons.1 hc with hcolon | hc
            · exact .inr (.inr hcolon)
            · have hdigit := (h.fits _ hm).is_digit_of_mem.2 c hc
              have hhex : c.isHexDigit = true := by simp [CodePoint.isHexDigit, hdigit]
              exact .inl (.inl (Name.is_plain_of_is_hex_digit hhex))

/-- A well-formed reference is read back from its text. -/
theorem parse_source : VariableSpec.parse limits s.source = .ok s := by
  have htrim := h.trimmed_source.trim_eq
  cases hm : s.modifier with
  | none =>
      have hsuffix : Modifier.Writes limits [] s.modifier := hm ▸ .none
      refine parse_of_writes h.isName hsuffix ?_
      rw [htrim, source_of_none hm, List.append_nil]
  | some m =>
      have hsuffix : Modifier.Writes limits m.source s.modifier :=
        hm ▸ Modifier.writes_source (h.fits m hm)
      refine parse_of_writes h.isName hsuffix ?_
      rw [htrim, source_of_some hm]

end VariableSpec.WellFormed

end UriTemplate
