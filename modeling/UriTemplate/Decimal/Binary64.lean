import UriTemplate.Decimal

/-!
# Floating-point numbers

A `Binary64` is a number of the binary interchange format with 53 significant bits. A finite one is
a sign and a `Magnitude`: a whole number of units of 2^-1074 that the format can hold. Rounding
`Binary64.ofRatio` goes to the nearest such number, a tie to the even neighbour, and to infinity
above the greatest. Sums, products and the value of a decimal are exact values rounded once.
-/

namespace UriTemplate

/-- `spacing units` is the distance, in units of 2^-1074, between the numbers of the format next to
`units`. -/
def spacing (units : Nat) : Nat := Nat.pow 2 (units.log2 - 52)

/-- A non-negative finite number of the format, counted in units of 2^-1074. -/
structure Magnitude where
  units : Nat
  bounded : units.log2 < 2098
  onGrid : units % spacing units = 0
deriving DecidableEq

/-- A number of the binary format with 53 significant bits. -/
inductive Binary64 where
  | nan
  | infinity (negative : Bool)
  | finite (negative : Bool) (magnitude : Magnitude)
deriving DecidableEq

namespace Binary64

/-- `one` is how many units make the number one. -/
def one : Nat := Nat.pow 2 1074

/-- `ofRatio negative numerator denominator` is the number of the format nearest to
`numerator / denominator` units, with the given sign. -/
def ofRatio (negative : Bool) (numerator denominator : Nat) : Binary64 :=
  let step := spacing (numerator / denominator)
  let quotient := numerator / (denominator * step)
  let rest := numerator % (denominator * step)
  let up := denominator * step < 2 * rest ||
    (denominator * step = 2 * rest && quotient % 2 = 1)
  let units := (if up then quotient + 1 else quotient) * step
  if h : units.log2 < 2098 ∧ units % spacing units = 0 then .finite negative ⟨units, h.1, h.2⟩
  else .infinity negative

/-- `ofInt n` is the number nearest to the integer `n`. -/
def ofInt (n : Int) : Binary64 := ofRatio (n < 0) (n.natAbs * one) 1

/-- `ofDecimal negative digits exponent` is the number nearest to `digits` times ten to the power
`exponent`. Exponents far outside the range of the format are decided by the number of digits. -/
def ofDecimal (negative : Bool) (digits : Nat) (exponent : Int) : Binary64 :=
  let magnitude := exponent + (Decimal.ofNat digits).length
  if digits = 0 || magnitude < -400 then ofRatio negative 0 1
  else if 400 < magnitude then .infinity negative
  else if 0 ≤ exponent then ofRatio negative (digits * Nat.pow 10 exponent.toNat * one) 1
  else ofRatio negative (digits * one) (Nat.pow 10 (-exponent).toNat)

/-- `signed negative units` is `units` with its sign. -/
def signed (negative : Bool) (units : Nat) : Int := if negative then -(units : Int) else units

/-- `neg x` is `x` with the other sign. -/
def neg : Binary64 → Binary64
  | nan => nan
  | infinity negative => infinity !negative
  | finite negative magnitude => finite (!negative) magnitude

/-- `add x y` is the rounded sum of `x` and `y`. A sum of zero is negative only if both are. -/
def add : Binary64 → Binary64 → Binary64
  | finite a x, finite b y =>
      let total := signed a x.units + signed b y.units
      ofRatio (if total = 0 then a && b else total < 0) total.natAbs 1
  | infinity a, infinity b => if a = b then infinity a else nan
  | infinity a, finite _ _ => infinity a
  | finite _ _, infinity b => infinity b
  | _, _ => nan

/-- `mul x y` is the rounded product of `x` and `y`. -/
def mul : Binary64 → Binary64 → Binary64
  | finite a x, finite b y => ofRatio (a != b) (x.units * y.units) one
  | infinity a, infinity b => infinity (a != b)
  | infinity a, finite b y => if y.units = 0 then nan else infinity (a != b)
  | finite a x, infinity b => if x.units = 0 then nan else infinity (a != b)
  | _, _ => nan

/-- `isZero x` says that `x` is a zero of either sign. -/
def isZero : Binary64 → Bool
  | finite _ magnitude => magnitude.units = 0
  | _ => false

/-- `sameNumber x y` says that `x` and `y` are the same number: the two zeros are, and a value that
is no number is none. -/
def sameNumber : Binary64 → Binary64 → Bool
  | finite a x, finite b y => signed a x.units = signed b y.units
  | infinity a, infinity b => a = b
  | _, _ => false

/-- `isInt x n` says that `x` is the integer `n`. -/
def isInt (x : Binary64) (n : Int) : Bool :=
  match x with
  | finite negative magnitude => signed negative magnitude.units = n * (one : Int)
  | _ => false

end Binary64

end UriTemplate
