import UriTemplate.Percent
import UriTemplate.Proofs.Text.CodePoint
import UriTemplate.Proofs.Text.Utf8

/-!
# Percent encoding loses nothing

`Percent.bytes?_encode` says that the escapes of an encoded text stand for the bytes of the text,
and `Percent.encode_injective` that texts with the same encoding are equal. `Percent.mem_encode`
names the code points of an encoded text; delimiters are not among them unless they are kept.
`Percent.tokens` cuts an encoded text into the code points that stand for themselves and the
escapes, and `Percent.encode_lossless` puts the laws of the encoding together.
-/

namespace UriTemplate

namespace CodePoint

/-- Unreserved code points are ASCII, and the percent sign is none of them. -/
theorem is_ascii_of_is_unreserved {c : CodePoint} (h : c.isUnreserved = true) :
    c.isAscii = true ∧ c ≠ CodePoint.ofChar '%' := by
  simp only [isUnreserved, Bool.or_eq_true, decide_eq_true_eq] at h
  rcases h with ((((hletter | hdigit) | rfl) | rfl) | rfl) | rfl
  · refine ⟨?_, by rintro rfl; exact absurd hletter (by decide)⟩
    rw [is_letter_iff] at hletter
    rw [is_ascii_iff]
    omega
  · refine ⟨?_, by rintro rfl; exact absurd hdigit (by decide)⟩
    rw [is_digit_iff] at hdigit
    rw [is_ascii_iff]
    omega
  all_goals decide

/-- Reserved code points are ASCII, and the percent sign is none of them. -/
theorem is_ascii_of_is_reserved {c : CodePoint} (h : c.isReserved = true) :
    c.isAscii = true ∧ c ≠ CodePoint.ofChar '%' := by
  have hall : ∀ d ∈ Text.ofString ":/?#[]@!$&'()*+,;=",
      d.isAscii = true ∧ d ≠ CodePoint.ofChar '%' := by decide
  exact hall c (by simpa [isReserved] using h)

/-- No code point is both reserved and unreserved. -/
theorem is_unreserved_of_is_reserved {c : CodePoint} (h : c.isReserved = true) :
    c.isUnreserved = false := by
  have hall : ∀ d ∈ Text.ofString ":/?#[]@!$&'()*+,;=", d.isUnreserved = false := by decide
  exact hall c (by simpa [isReserved] using h)

/-- `c.isCapitalHexDigit` says that `c` is an ASCII digit or a letter from `A` to `F`. -/
def isCapitalHexDigit (c : CodePoint) : Bool := c.isDigit || c.within 'A' 'F'

/-- An ASCII character is one byte. -/
theorem utf8_of_is_ascii {c : CodePoint} (h : c.isAscii = true) :
    c.utf8 = [Byte.ofNat c.val] := by
  have hval : c.val < 0x80 := is_ascii_iff.1 h
  simp [utf8, hval]

end CodePoint

namespace Percent

variable {keepReserved : Bool} {c : CodePoint} {t : Text}

/-- What may stand as it is, is an ASCII character and no percent sign. -/
theorem is_ascii_of_is_allowed (h : isAllowed keepReserved c = true) :
    c.isAscii = true ∧ c ≠ CodePoint.ofChar '%' := by
  simp only [isAllowed, Bool.or_eq_true, Bool.and_eq_true] at h
  rcases h with hunreserved | ⟨_, hreserved⟩
  · exact CodePoint.is_ascii_of_is_unreserved hunreserved
  · exact CodePoint.is_ascii_of_is_reserved hreserved

/-! ## Escapes -/

/-- The capital hexadecimal digit for `n`, modulo 16. -/
def hexDigit (n : Nat) : CodePoint := CodePoint.ofChar (Text.upperHex.getD (n % 16) '0')

/-- A byte is escaped as two hexadecimal digits after a percent sign. -/
theorem escape_eq (b : Byte) :
    escape b = [CodePoint.ofChar '%', hexDigit (b.val / 16), hexDigit b.val] := rfl

/-- The value of a hexadecimal digit. -/
theorem digit_value_hex_digit (n : Nat) : (hexDigit n).digitValue = some (n % 16) := by
  have hall : ∀ d : Fin 16,
      (CodePoint.ofChar (Text.upperHex.getD d.val '0')).digitValue = some d.val := by decide
  exact hall ⟨n % 16, Nat.mod_lt n (by decide)⟩

/-- Hexadecimal digits are unreserved. -/
theorem is_unreserved_hex_digit (n : Nat) : (hexDigit n).isUnreserved = true := by
  have hall : ∀ d : Fin 16,
      (CodePoint.ofChar (Text.upperHex.getD d.val '0')).isUnreserved = true := by decide
  exact hall ⟨n % 16, Nat.mod_lt n (by decide)⟩

/-- An escape stands for its byte. -/
theorem bytes?_escape_append (b : Byte) (rest : Text) :
    bytes? (escape b ++ rest) = (bytes? rest).map (b :: ·) := by
  have hbyte : Byte.ofNat (16 * (b.val / 16 % 16) + b.val % 16) = b := by
    have hlt := b.isLt
    refine Fin.ext ?_
    rw [Byte.val_of_nat (by omega)]
    omega
  have hhigh : b.val / 16 % 16 < 16 := Nat.mod_lt _ (by decide)
  have hlow : b.val % 16 < 16 := Nat.mod_lt _ (by decide)
  simp [escape_eq, bytes?, digit_value_hex_digit, hhigh, hlow, hbyte]

/-- Escaped bytes are read back. -/
theorem bytes?_escapes_append (bytes : List Byte) (rest : Text) :
    bytes? (bytes.flatMap escape ++ rest) = (bytes? rest).map (bytes ++ ·) := by
  induction bytes with
  | nil => simp
  | cons b bytes ih =>
      rw [List.flatMap_cons, List.append_assoc, bytes?_escape_append, ih, Option.map_map]
      rfl

/-- The encoding of a code point stands for the bytes of the code point. -/
theorem bytes?_encode_one_append (keepReserved : Bool) (c : CodePoint) (rest : Text) :
    bytes? (encodeOne keepReserved c ++ rest) = (bytes? rest).map (c.utf8 ++ ·) := by
  by_cases hallowed : isAllowed keepReserved c = true
  · obtain ⟨hascii, hne⟩ := is_ascii_of_is_allowed hallowed
    rw [encodeOne, if_pos hallowed, CodePoint.utf8_of_is_ascii hascii, List.singleton_append,
      bytes?.eq_def]
    simp [hascii, hne]
  · rw [encodeOne, if_neg hallowed, bytes?_escapes_append]

/-- The encoding of a text stands for the bytes of the text. -/
theorem bytes?_encode (keepReserved : Bool) (t : Text) :
    bytes? (encode keepReserved t) = some t.utf8 := by
  induction t with
  | nil => rfl
  | cons c rest ih =>
      have hcons : encode keepReserved (c :: rest) =
          encodeOne keepReserved c ++ encode keepReserved rest := rfl
      rw [hcons, bytes?_encode_one_append, ih]
      rfl

/-- Texts with the same encoding are equal. -/
theorem encode_injective (keepReserved : Bool) : Function.Injective (encode keepReserved) := by
  intro t u h
  have hbytes : t.utf8 = u.utf8 := by
    have hsome := (bytes?_encode keepReserved t).symm.trans (h ▸ bytes?_encode keepReserved u)
    exact Option.some.inj hsome
  have hdecoded := (Utf8.decode_utf8 t).symm.trans (hbytes ▸ Utf8.decode_utf8 u)
  exact Except.ok.inj hdecoded

/-! ## The code points of an encoded text -/

/-- An encoded text consists of allowed code points, percent signs and capital hexadecimal
digits, which are unreserved. -/
theorem mem_encode (h : c ∈ encode keepReserved t) :
    isAllowed keepReserved c = true ∨ c = CodePoint.ofChar '%' := by
  obtain ⟨d, _, hc⟩ := List.mem_flatMap.1 h
  by_cases hallowed : isAllowed keepReserved d = true
  · rw [encodeOne, if_pos hallowed, List.mem_singleton] at hc
    exact .inl (hc ▸ hallowed)
  · rw [encodeOne, if_neg hallowed] at hc
    obtain ⟨b, _, hb⟩ := List.mem_flatMap.1 hc
    simp only [escape_eq, List.mem_cons, List.not_mem_nil, or_false] at hb
    rcases hb with rfl | rfl | rfl
    · exact .inr rfl
    · exact .inl (by simp [isAllowed, is_unreserved_hex_digit])
    · exact .inl (by simp [isAllowed, is_unreserved_hex_digit])

/-- A reserved code point does not occur in an encoded text that keeps none. -/
theorem not_mem_encode (hreserved : c.isReserved = true) (t : Text) : c ∉ encode false t := by
  intro hmem
  rcases mem_encode hmem with hallowed | rfl
  · have hunreserved := CodePoint.is_unreserved_of_is_reserved hreserved
    simp [isAllowed, hunreserved] at hallowed
  · exact absurd hreserved (by decide)

/-! ## The tokens of an encoded text -/

/-- `IsToken keepReserved token` says that `token` may stand in an encoded text: an unreserved code
point, a reserved one if these are kept, or a percent sign and two capital hexadecimal digits. -/
inductive IsToken (keepReserved : Bool) : Text → Prop where
  | unreserved (c : CodePoint) : c.isUnreserved = true → IsToken keepReserved [c]
  | reserved (c : CodePoint) : keepReserved = true → c.isReserved = true →
      IsToken keepReserved [c]
  | escape (high low : CodePoint) : high.isCapitalHexDigit = true →
      low.isCapitalHexDigit = true → IsToken keepReserved [CodePoint.ofChar '%', high, low]

/-- `tokens keepReserved t` is the tokens of the encoding of `t`: one for a code point that stands
for itself, and one for each byte of any other. -/
def tokens (keepReserved : Bool) (t : Text) : List Text :=
  t.flatMap fun c => if isAllowed keepReserved c then [[c]] else c.utf8.map escape

/-- The tokens of a text are its encoding. -/
theorem flatten_tokens (keepReserved : Bool) (t : Text) :
    (tokens keepReserved t).flatten = encode keepReserved t := by
  induction t with
  | nil => rfl
  | cons c rest ih =>
      have hone : (if isAllowed keepReserved c then [[c]] else c.utf8.map escape).flatten =
          encodeOne keepReserved c := by
        unfold encodeOne
        split
        · rfl
        · exact List.flatMap_def.symm
      rw [tokens, List.flatMap_cons, List.flatten_append, hone]
      exact congrArg (encodeOne keepReserved c ++ ·) ih

/-- Escapes are written with capital letters. -/
theorem is_capital_hex_digit_hex_digit (n : Nat) : (hexDigit n).isCapitalHexDigit = true := by
  have hall : ∀ d : Fin 16,
      (CodePoint.ofChar (Text.upperHex.getD d.val '0')).isCapitalHexDigit = true := by decide
  exact hall ⟨n % 16, Nat.mod_lt n (by decide)⟩

/-- Each part of an encoding is a token. -/
theorem is_token_of_mem_tokens {token : Text} (h : token ∈ tokens keepReserved t) :
    IsToken keepReserved token := by
  obtain ⟨c, _, hc⟩ := List.mem_flatMap.1 h
  split at hc
  · rename_i hallowed
    rw [List.mem_singleton] at hc
    subst hc
    simp only [isAllowed, Bool.or_eq_true, Bool.and_eq_true] at hallowed
    rcases hallowed with hunreserved | ⟨hkeep, hreserved⟩
    · exact .unreserved c hunreserved
    · exact .reserved c hkeep hreserved
  · obtain ⟨b, _, rfl⟩ := List.mem_map.1 hc
    rw [escape_eq]
    exact .escape _ _ (is_capital_hex_digit_hex_digit _) (is_capital_hex_digit_hex_digit _)

/-! ## The laws of the encoding -/

/-- Allowed code points are left as they are. -/
theorem encode_of_is_allowed (h : ∀ c ∈ t, isAllowed keepReserved c = true) :
    encode keepReserved t = t := by
  induction t with
  | nil => rfl
  | cons c rest ih =>
      have hrest := ih fun d hd => h d (by simp [hd])
      show encodeOne keepReserved c ++ encode keepReserved rest = c :: rest
      rw [encodeOne, if_pos (h c (by simp)), hrest]
      rfl

/-- An encoded text consists of allowed code points and escapes with capital digits. The bytes that
they stand for are those of the text, so that no two texts have the same encoding. Allowed code
points stay as they are, and texts one after the other are encoded one after the other. -/
theorem encode_lossless (keepReserved : Bool) :
    (∀ t, ∃ parts : List Text, (∀ part ∈ parts, IsToken keepReserved part) ∧
        encode keepReserved t = parts.flatten) ∧
      (∀ t, (bytes? (encode keepReserved t)).map (Utf8.decode true) = some (.ok t)) ∧
      Function.Injective (encode keepReserved) ∧
      (∀ t, (∀ c ∈ t, isAllowed keepReserved c = true) → encode keepReserved t = t) ∧
      ∀ t u, encode keepReserved (t ++ u) = encode keepReserved t ++ encode keepReserved u := by
  refine ⟨fun t => ?_, fun t => ?_, encode_injective keepReserved, fun t => encode_of_is_allowed,
    fun t u => List.flatMap_append⟩
  · exact ⟨tokens keepReserved t, fun part => is_token_of_mem_tokens,
      (flatten_tokens keepReserved t).symm⟩
  · rw [bytes?_encode, Option.map_some, Utf8.decode_utf8]

/-- A lone surrogate is escaped byte by byte and read back, and kept delimiters stay as they are. -/
theorem encode_lossless_surrogate :
    encode true [CodePoint.ofNat 0xD83D, '/', '%'] = "%ED%A0%BD/%25" ∧
      (bytes? "%ED%A0%BD/%25").map (Utf8.decode true) =
        some (.ok [CodePoint.ofNat 0xD83D, '/', '%']) ∧
      encode true "/a~" = "/a~" := by
  have hencode : encode true [CodePoint.ofNat 0xD83D, '/', '%'] = "%ED%A0%BD/%25" := by decide
  obtain ⟨_, hdecode, _, hkeep, _⟩ := encode_lossless true
  exact ⟨hencode, hencode ▸ hdecode _, hkeep "/a~" (by decide)⟩

end Percent

end UriTemplate
