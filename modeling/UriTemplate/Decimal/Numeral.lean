import UriTemplate.Decimal.FloatText

/-!
# Numerals

A whole number has a numeral in every base up to sixteen, and numerals with a point: `fixed` with a
given number of places, `scientific` with a power of ten, and `general`, which is one of the two,
with a given number of significant digits. Digits that do not fit are rounded to the nearest, a tie
to the even neighbour. A numeral that is `pointed` keeps a point with nothing after it.
-/

namespace UriTemplate.Numeral

/-- `inBaseOnto base n tail` is the digits of `n` in the base followed by `tail`. There are at most
as many digits as `fuel`. -/
def inBaseOnto (base : Nat) : Nat → Nat → Text → Text
  | 0, _, tail => tail
  | fuel + 1, n, tail =>
      let digit := CodePoint.ofChar (Text.lowerHex.getD (n % base) '0')
      if n < base then digit :: tail else inBaseOnto base fuel (n / base) (digit :: tail)

/-- `inBase base n` is the digits of `n` in the base, which is at least two. -/
def inBase (base n : Nat) : Text := inBaseOnto base (n.log2 + 1) n []

/-- `zeros n` is `n` zeros. -/
def zeros (n : Nat) : Text := List.replicate n (CodePoint.ofChar '0')

/-- `withFraction pointed whole fraction` is the two parts of a numeral with a point between
them. -/
def withFraction (pointed : Bool) (whole fraction : Text) : Text :=
  if fraction.isEmpty && !pointed then whole else whole ++ Text.ofString "." ++ fraction

/-- `fixed pointed places n` is `n` with the given number of places. -/
def fixed (pointed : Bool) (places n : Nat) : Text :=
  withFraction pointed (Decimal.ofNat n) (zeros places)

/-- `roundQuotient n divisor` is `n / divisor` rounded to the nearest whole number. -/
def roundQuotient (n divisor : Nat) : Nat :=
  let quotient := n / divisor
  let rest := n % divisor
  if divisor < 2 * rest || (divisor = 2 * rest && quotient % 2 = 1) then quotient + 1 else quotient

/-- `leading count n` is the first `count` digits of `n`, rounded, and the power of ten of the
first of them. -/
def leading (count n : Nat) : Text × Nat :=
  let digits := Decimal.ofNat n
  let dropped := digits.length - count
  let kept := Decimal.ofNat (roundQuotient n (Nat.pow 10 dropped))
  ((kept ++ zeros (count - kept.length)).take count, kept.length + dropped - 1)

/-- `powered pointed digits exponent` is the numeral with a point after the first digit and a power
of ten. -/
def powered (pointed : Bool) (digits : Text) (exponent : Nat) : Text :=
  withFraction pointed (digits.take 1) (digits.drop 1) ++ Text.ofString "e" ++
    Binary64.exponentText exponent

/-- `scientific pointed places n` is `n` with one digit before the point and the given number of
places after it. -/
def scientific (pointed : Bool) (places n : Nat) : Text :=
  let (digits, exponent) := leading (places + 1) n
  powered pointed digits exponent

/-- `general pointed count n` is `n` with `count` significant digits, at least one: without a power
of ten if they reach as far as the point. Zeros at the end of the fraction are left out unless the
numeral is pointed. -/
def general (pointed : Bool) (count n : Nat) : Text :=
  let (digits, exponent) := leading (max count 1) n
  let trim := fun fraction : Text =>
    if pointed then fraction
    else (fraction.reverse.dropWhile fun c : CodePoint => c = '0').reverse
  if exponent < max count 1 then
    withFraction pointed (digits.take (exponent + 1)) (trim (digits.drop (exponent + 1)))
  else powered pointed (digits.take 1 ++ trim (digits.drop 1)) exponent

end UriTemplate.Numeral
