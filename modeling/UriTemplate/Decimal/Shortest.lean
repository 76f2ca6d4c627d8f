import UriTemplate.Decimal.Binary64

/-!
# The shortest decimal that reads back

`Magnitude.shortest` gives a positive magnitude as a whole number of digits and a power of ten. Of
the decimals that round to the magnitude it takes one with the fewest digits, and of those the
nearest. The decimals that round to a magnitude are those of its `Magnitude.interval`, ends
included if and only if the magnitude is an even multiple of its spacing. If any decimal of a given
number of digits lies in the interval, one of the two decimals next to the magnitude does, so only
those two are tried.
-/

namespace UriTemplate

/-- Whole numbers over one denominator: the least and the greatest real number that round to a
magnitude, and the magnitude between them. `closed` says that the ends round to it too. -/
structure RoundingInterval where
  lower : Nat
  value : Nat
  upper : Nat
  denominator : Nat
  closed : Bool

namespace RoundingInterval

/-- `i.contains numerator denominator` says that the ratio rounds to the magnitude of `i`. -/
def contains (i : RoundingInterval) (numerator denominator : Nat) : Bool :=
  let scaled := numerator * i.denominator
  if i.closed then i.lower * denominator ≤ scaled && scaled ≤ i.upper * denominator
  else i.lower * denominator < scaled && scaled < i.upper * denominator

/-- `i.exponent` is the power of ten of the leading digit of the value of `i`. -/
def exponent (i : RoundingInterval) : Int :=
  (Decimal.ofNat (i.value * Nat.pow 10 330 / i.denominator)).length - 331

/-- `i.candidate? power` is the decimal nearest to the value of `i` among the multiples of ten to
the power `power` that lie in `i`. -/
def candidate? (i : RoundingInterval) (power : Int) : Option Nat :=
  let grid := Nat.pow 10 power.toNat
  let denominator := Nat.pow 10 (-power).toNat
  let below := i.value * denominator / (i.denominator * grid)
  let gap := i.value * denominator - below * i.denominator * grid
  let half := i.denominator * grid
  let belowHolds := i.contains (below * grid) denominator
  let aboveHolds := i.contains ((below + 1) * grid) denominator
  let belowNearer := 2 * gap < half || (2 * gap = half && below % 2 = 0)
  if belowHolds && (belowNearer || !aboveHolds) then some below
  else if aboveHolds then some (below + 1)
  else none

/-- `i.search tries power` is the decimal found on the coarsest grid from ten to the power `power`
downwards, with its power of ten. -/
def search (i : RoundingInterval) : Nat → Int → Nat × Int
  | 0, power => (i.value * Nat.pow 10 (-power).toNat / i.denominator, power)
  | tries + 1, power =>
      match i.candidate? power with
      | some digits => (digits, power)
      | none => i.search tries (power - 1)

end RoundingInterval

namespace Magnitude

/-- `m.interval` is the interval of the real numbers that round to `m`. Below a power of two the
numbers of the format lie half as far apart as above it. -/
def interval (m : Magnitude) : RoundingInterval :=
  let step := spacing m.units
  let lowerGap := if m.units = Nat.pow 2 m.units.log2 && 52 < m.units.log2 then step else 2 * step
  { lower := 4 * m.units - lowerGap
    value := 4 * m.units
    upper := 4 * m.units + 2 * step
    denominator := 4 * Binary64.one
    closed := m.units / step % 2 = 0 }

/-- `m.shortest` is the digits and the power of ten of the shortest decimal that reads back as
`m`. Seventeen digits always suffice. -/
def shortest (m : Magnitude) : Nat × Int :=
  m.interval.search 17 m.interval.exponent

end Magnitude

end UriTemplate
