/-!
# Text as a sequence of code points

`CodePoint` is a Unicode code point, surrogates included, and `Text` is a finite sequence of them.
Positions in a text count code points. `Text.ofString` embeds ordinary strings, and the operations
below cut a text at a separator: `Text.splitOn` at every occurrence, `Text.splitFirst` and
`Text.splitLast` at one. Each cut loses nothing, as `split_first_eq_some` and `split_last_eq_some`
say.
-/

namespace UriTemplate

/-- A Unicode code point. Unlike a character it may be a surrogate, so a text can hold a lone
one. -/
structure CodePoint where
  val : Nat
  isLt : val < 0x110000
deriving DecidableEq

namespace CodePoint

/-- `ofNat n` is the code point `n`, or the replacement character when there is no such code
point. -/
def ofNat (n : Nat) : CodePoint :=
  if h : n < 0x110000 then ⟨n, h⟩ else ⟨0xFFFD, by decide⟩

/-- `ofChar c` is the code point of the character `c`. -/
def ofChar (c : Char) : CodePoint :=
  ⟨c.toNat, by
    have h := c.valid
    simp only [UInt32.isValidChar, Nat.isValidChar] at h
    simp only [Char.toNat]
    omega⟩

instance : Coe Char CodePoint := ⟨ofChar⟩

instance : Inhabited CodePoint := ⟨ofNat 0⟩

/-- `c.within lo hi` says that `c` lies between the two characters, ends included. -/
def within (c : CodePoint) (lo hi : Char) : Bool :=
  lo.toNat ≤ c.val && c.val ≤ hi.toNat

/-- `c.isAscii` says that `c` is one of the first 128 code points. -/
def isAscii (c : CodePoint) : Bool := c.val < 0x80

/-- `c.isDigit` says that `c` is an ASCII decimal digit. -/
def isDigit (c : CodePoint) : Bool := c.within '0' '9'

/-- `c.isLetter` says that `c` is an ASCII letter. -/
def isLetter (c : CodePoint) : Bool := c.within 'A' 'Z' || c.within 'a' 'z'

/-- `c.isHexDigit` says that `c` is an ASCII hexadecimal digit of either case. -/
def isHexDigit (c : CodePoint) : Bool :=
  c.isDigit || c.within 'A' 'F' || c.within 'a' 'f'

/-- `c.digitValue` is the value of `c` as a digit of a base up to 36, letters of either case
counting from ten, or `none` when `c` is no ASCII letter or digit. -/
def digitValue (c : CodePoint) : Option Nat :=
  if c.isDigit then some (c.val - '0'.toNat)
  else if c.within 'a' 'z' then some (c.val - 'a'.toNat + 10)
  else if c.within 'A' 'Z' then some (c.val - 'A'.toNat + 10)
  else none

/-- `c.isSurrogate` says that `c` is one half of a surrogate pair. -/
def isSurrogate (c : CodePoint) : Bool := 0xD800 ≤ c.val && c.val < 0xE000

/-- `c.toLower` is the lower-case form of an ASCII capital letter, and `c` itself otherwise. -/
def toLower (c : CodePoint) : CodePoint :=
  if c.within 'A' 'Z' then ofNat (c.val + 32) else c

/-- `c.isBrace` says that `c` opens or closes an expression. -/
def isBrace (c : CodePoint) : Bool := c = '{' || c = '}'

end CodePoint

/-- A text: code points in order. -/
abbrev Text := List CodePoint

namespace Text

/-- `ofString s` is the text of the string `s`. -/
def ofString (s : String) : Text := s.toList.map CodePoint.ofChar

instance : Coe String Text := ⟨ofString⟩

/-- `splitOn separator t` is the list of the runs of `t` between occurrences of `separator`. It is
never empty. -/
def splitOn (separator : CodePoint) : Text → List Text
  | [] => [[]]
  | c :: rest =>
      match splitOn separator rest with
      | [] => [[c]]
      | run :: runs => if c = separator then [] :: run :: runs else (c :: run) :: runs

/-- `splitFirst separator t` is what comes before and after the first `separator` in `t`. -/
def splitFirst (separator : CodePoint) : Text → Option (Text × Text)
  | [] => none
  | c :: rest =>
      if c = separator then some ([], rest)
      else (splitFirst separator rest).map fun (before, after) => (c :: before, after)

/-- `splitLast separator t` is what comes before and after the last `separator` in `t`. -/
def splitLast (separator : CodePoint) : Text → Option (Text × Text)
  | [] => none
  | c :: rest =>
      match splitLast separator rest with
      | some (before, after) => some (c :: before, after)
      | none => if c = separator then some ([], rest) else none

/-- `stripEnds p t` is `t` without the code points satisfying `p` at its two ends. -/
def stripEnds (p : CodePoint → Bool) (t : Text) : Text :=
  ((t.dropWhile p).reverse.dropWhile p).reverse

/-- `join separator ts` is the texts `ts` in order with `separator` between neighbours. -/
def join (separator : Text) : List Text → Text
  | [] => []
  | [t] => t
  | t :: u :: rest => t ++ separator ++ join separator (u :: rest)

/-- `hex digits width n` is `n` in base sixteen with the given digits, padded with zeros to
`width` places. Higher places are dropped. -/
def hex (digits : List Char) : Nat → Nat → Text
  | 0, _ => []
  | width + 1, n => hex digits width (n / 16) ++ [CodePoint.ofChar (digits.getD (n % 16) '0')]

/-- The hexadecimal digits with small letters. -/
def lowerHex : List Char := "0123456789abcdef".toList

/-- The hexadecimal digits with capital letters. -/
def upperHex : List Char := "0123456789ABCDEF".toList

/-- A cut at the first separator loses only that separator. -/
theorem split_first_eq_some {separator : CodePoint} {t before after : Text}
    (h : splitFirst separator t = some (before, after)) : t = before ++ separator :: after := by
  induction t generalizing before with
  | nil => simp [splitFirst] at h
  | cons c rest ih =>
      by_cases hc : c = separator
      · simp only [splitFirst, hc, if_true, Option.some.injEq, Prod.mk.injEq] at h
        simp [← h.1, ← h.2, hc]
      · simp only [splitFirst, hc, if_false, Option.map_eq_some_iff, Prod.mk.injEq,
          Prod.exists] at h
        obtain ⟨inner, tail, hr, rfl, rfl⟩ := h
        simp [ih hr]

/-- A cut at the last separator loses only that separator. -/
theorem split_last_eq_some {separator : CodePoint} {t before after : Text}
    (h : splitLast separator t = some (before, after)) : t = before ++ separator :: after := by
  induction t generalizing before after with
  | nil => simp [splitLast] at h
  | cons c rest ih =>
      cases hr : splitLast separator rest with
      | none =>
          by_cases hc : c = separator
          · simp only [splitLast, hr, hc, if_true, Option.some.injEq, Prod.mk.injEq] at h
            simp [← h.1, ← h.2, hc]
          · simp [splitLast, hr, hc] at h
      | some pair =>
          obtain ⟨inner, tail⟩ := pair
          simp only [splitLast, hr, Option.some.injEq, Prod.mk.injEq] at h
          simp [← h.1, ← h.2, ih hr]

end Text

end UriTemplate
