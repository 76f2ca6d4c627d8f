import UriTemplate.Proofs.Decimal
import UriTemplate.Proofs.Decimal.Rounding

/-!
# The shortest decimal lies in the interval

The search for the shortest decimal ends with a decimal in the interval of the magnitude, as one on
the grid of seventeen digits does (`Magnitude.holds_shortest`). Every decimal there rounds to the
magnitude, however it is divided into digits and a power of ten (`Binary64.of_decimal_of_holds`).
-/

namespace UriTemplate

namespace RoundingInterval

variable {i : RoundingInterval} {digits tries : Nat} {power : Int}

/-- `i.holds digits power` says that `digits` times ten to the power `power` lies in `i`. -/
def holds (i : RoundingInterval) (digits : Nat) (power : Int) : Bool :=
  i.contains (digits * 10 ^ power.toNat) (10 ^ (-power).toNat)

/-- Equal ratios lie in the same intervals. -/
theorem contains_congr {a b c d : Nat} (hb : 0 < b) (hd : 0 < d) (h : a * d = c * b) :
    i.contains a b = i.contains c d := by
  have hscaled : a * i.denominator * d = c * i.denominator * b := by
    rw [Nat.mul_right_comm, h, Nat.mul_right_comm]
  have hle (n : Nat) : n * b ≤ a * i.denominator ↔ n * d ≤ c * i.denominator := by
    rw [← Nat.mul_le_mul_right_iff hd, hscaled, Nat.mul_right_comm, Nat.mul_le_mul_right_iff hb]
  have hge (n : Nat) : a * i.denominator ≤ n * b ↔ c * i.denominator ≤ n * d := by
    rw [← Nat.mul_le_mul_right_iff hd, hscaled, Nat.mul_right_comm n,
      Nat.mul_le_mul_right_iff hb]
  unfold contains
  simp only [hle, hge, ← Nat.not_le]

/-- Zeros at the end of the digits do not count. -/
theorem holds_shift (i : RoundingInterval) (digits : Nat) (power : Int) (count : Nat) :
    i.holds (digits * 10 ^ count) (power - count) = i.holds digits power := by
  refine contains_congr (Nat.pow_pos (by omega)) (Nat.pow_pos (by omega)) ?_
  rw [Nat.mul_assoc, Nat.mul_assoc, Nat.mul_assoc, ← Nat.pow_add, ← Nat.pow_add, ← Nat.pow_add]
  congr 2
  omega

/-- What is found on a grid lies in the interval. -/
theorem holds_of_candidate? (h : i.candidate? power = some digits) :
    i.holds digits power = true := by
  unfold candidate? at h
  simp only at h
  split at h
  · next hbelow =>
      cases h
      exact (Bool.and_eq_true _ _ ▸ hbelow).1
  · split at h
    · next habove =>
        cases h
        exact habove
    · exact absurd h (by simp)

/-- A search that tries a grid with a decimal in the interval ends with one. -/
theorem holds_search (h : ∃ j < tries, (i.candidate? (power - j)).isSome = true) :
    i.holds (i.search tries power).1 (i.search tries power).2 = true := by
  induction tries generalizing power with
  | zero =>
      obtain ⟨j, hj, _⟩ := h
      exact absurd hj (Nat.not_lt_zero j)
  | succ tries ih =>
      unfold search
      cases hcandidate : i.candidate? power with
      | some digits => exact holds_of_candidate? hcandidate
      | none =>
          refine ih ?_
          obtain ⟨j, hj, hsome⟩ := h
          cases j with
          | zero =>
              rw [Int.ofNat_zero, Int.sub_zero, hcandidate] at hsome
              exact absurd hsome (by simp)
          | succ j =>
              refine ⟨j, by omega, ?_⟩
              have hpower : power - 1 - (j : Int) = power - ((j + 1 : Nat) : Int) := by omega
              rwa [hpower]

/-- Strictly between the ends a ratio lies in the interval. -/
theorem contains_of_lt {a b : Nat} (hlower : i.lower * b < a * i.denominator)
    (hupper : a * i.denominator < i.upper * b) : i.contains a b = true := by
  unfold contains
  split
  · simpa using ⟨Nat.le_of_lt hlower, Nat.le_of_lt hupper⟩
  · simpa using ⟨hlower, hupper⟩

/-- Of the multiples of a fraction that is less than the width of the interval, one of the two next
to its value lies in it. -/
theorem contains_neighbour {grid scale : Nat} (hgrid : 0 < i.denominator * grid)
    (hscale : 0 < scale) (hlower : i.lower ≤ i.value) (hupper : i.value < i.upper)
    (hwidth : i.denominator * grid + i.lower * scale < i.upper * scale) :
    i.contains (i.value * scale / (i.denominator * grid) * grid) scale = true ∨
      i.contains ((i.value * scale / (i.denominator * grid) + 1) * grid) scale = true := by
  have hfloor := Nat.div_mul_le_self (i.value * scale) (i.denominator * grid)
  have hnext := Nat.lt_div_mul_add (a := i.value * scale) hgrid
  generalize i.value * scale / (i.denominator * grid) = below at *
  have hbelow : below * grid * i.denominator = below * (i.denominator * grid) := by ring
  have habove : (below + 1) * grid * i.denominator =
      below * (i.denominator * grid) + i.denominator * grid := by ring
  have hlowerScaled := Nat.mul_le_mul_right scale hlower
  have hupperScaled := Nat.mul_lt_mul_of_pos_right hupper hscale
  -- If the one below is not inside, the one above does not reach the upper end.
  by_cases hinside : i.lower * scale < below * (i.denominator * grid)
  · exact .inl (contains_of_lt (by omega) (by omega))
  · exact .inr (contains_of_lt (by omega) (by omega))

/-- A grid has a decimal in the interval if the interval is wider than the grid. -/
theorem is_some_candidate? (hdenominator : 0 < i.denominator) (hlower : i.lower ≤ i.value)
    (hupper : i.value < i.upper)
    (hwidth : i.denominator * 10 ^ power.toNat + i.lower * 10 ^ (-power).toNat <
      i.upper * 10 ^ (-power).toNat) :
    (i.candidate? power).isSome = true := by
  have hgrid : 0 < i.denominator * 10 ^ power.toNat :=
    Nat.mul_pos hdenominator (Nat.pow_pos (by omega))
  have hneighbour := contains_neighbour hgrid (Nat.pow_pos (by omega)) hlower hupper hwidth
  unfold candidate?
  simp only [Nat.pow_eq]
  split
  · rfl
  · next hbelow =>
      split
      · rfl
      · next habove =>
          rw [Bool.not_eq_true] at habove
          simp [habove] at hbelow hneighbour
          simp [hneighbour] at hbelow

end RoundingInterval

namespace Magnitude

variable {m : Magnitude}

/-- A magnitude has 53 significant bits. -/
theorem units_lt (h : 0 < m.units) : m.units < 2 ^ 53 * spacing m.units := by
  have hupper := (between h).2
  by_cases hlog : 52 ≤ m.units.log2
  · have hpow : 2 ^ (m.units.log2 + 1) = 2 ^ 53 * spacing m.units := by
      rw [spacing_eq, ← Nat.pow_add]
      congr 1
      omega
    omega
  · have hsmall : m.units < 2 ^ 53 :=
      Nat.lt_of_lt_of_le hupper (Nat.pow_le_pow_right (by omega) (by omega))
    have hspacing := spacing_pos m.units
    omega

/-- The distance to the lower end is at most the number. -/
theorem lower_gap_le_units (h : 0 < m.units) : m.lowerGap ≤ 4 * m.units := by
  have hle := m.lower_gap_le
  have hspacing := spacing_le_units h
  omega

/-- The width of an interval is at least the value over ten to the power 16. -/
theorem value_lt (h : 0 < m.units) :
    m.interval.value < (m.interval.upper - m.interval.lower) * 10 ^ 16 := by
  have hgap := lower_gap_le_units h
  have hwidth : m.interval.upper - m.interval.lower = m.lowerGap + 2 * spacing m.units := by
    show 4 * m.units + 2 * spacing m.units - (4 * m.units - m.lowerGap) = _
    omega
  have hvalue : m.interval.value = 4 * m.units := rfl
  rw [hwidth, hvalue]
  by_cases hshort : m.units = 2 ^ m.units.log2 ∧ 52 < m.units.log2
  · have hpow : 2 ^ m.units.log2 = 2 ^ 52 * spacing m.units := by
      rw [spacing_eq, ← Nat.pow_add]
      congr 1
      omega
    have hgap : m.lowerGap = spacing m.units := by
      rw [lowerGap, if_pos (by simpa using hshort)]
    have hspacing := spacing_pos m.units
    omega
  · have hgap : m.lowerGap = 2 * spacing m.units := by
      rw [lowerGap, if_neg (by simpa using hshort)]
    have hlt := units_lt h
    omega

/-- The leading digit of a positive number is not beyond its length. -/
theorem pow_length_le {n : Nat} (h : 0 < n) : 10 ^ ((Decimal.ofNat n).length - 1) ≤ n := by
  by_cases hone : (Decimal.ofNat n).length - 1 = 0
  · rw [hone]
    omega
  · have hlt := (Decimal.length_of_nat_le_iff (n := n) (Nat.pos_of_ne_zero hone)).not.1 (by omega)
    omega

/-- One is positive in units of the least number. -/
theorem Binary64.one_pos : 0 < Binary64.one := by decide +kernel

/-- The ends of an interval are counted in quarters of the least number. -/
theorem interval_denominator (m : Magnitude) : m.interval.denominator = 4 * Binary64.one := rfl

/-- That count is positive. -/
theorem denominator_pos (m : Magnitude) : 0 < m.interval.denominator := by
  have hone := Binary64.one_pos
  rw [interval_denominator]
  omega

/-- The number itself in these quarters. -/
theorem interval_value (m : Magnitude) : m.interval.value = 4 * m.units := rfl

/-- The upper end in these quarters. -/
theorem interval_upper (m : Magnitude) :
    m.interval.upper = 4 * m.units + 2 * spacing m.units := rfl

/-- Moved to the left by a fixed number of places, a value has a leading digit before the point, and
its exponent tells which power of ten that is. -/
theorem exists_lead (m : Magnitude) (h : 0 < m.units) :
    ∃ places : Nat, 0 ≤ m.interval.exponent + places ∧
      10 ^ (m.interval.exponent + places).toNat * m.interval.denominator ≤
        m.interval.value * 10 ^ places := by
  obtain ⟨places, hplaces⟩ : ∃ places, 330 = places := ⟨_, rfl⟩
  have hone : Binary64.one ≤ 10 ^ places := hplaces ▸ by decide +kernel
  have hexponent : m.interval.exponent = (Decimal.ofNat
      (m.interval.value * 10 ^ places / m.interval.denominator)).length - 331 := by
    rw [RoundingInterval.exponent, hplaces, Nat.pow_eq]
  have hdenominator := denominator_pos m
  have hle : m.interval.denominator ≤ m.interval.value * 10 ^ places := by
    rw [interval_denominator, interval_value, Nat.mul_assoc]
    exact Nat.mul_le_mul_left 4 (Nat.le_trans hone (Nat.le_mul_of_pos_left _ h))
  have hlength := List.length_pos_iff.2
    (Decimal.of_nat_ne_nil (m.interval.value * 10 ^ places / m.interval.denominator))
  have hlead := pow_length_le (Nat.div_pos hle hdenominator)
  rw [Nat.le_div_iff_mul_le hdenominator] at hlead
  generalize (Decimal.ofNat (m.interval.value * 10 ^ places / m.interval.denominator)).length =
    length at *
  have hpower : m.interval.exponent + places = ((length - 1 : Nat) : Int) := by
    rw [hexponent, ← hplaces]
    omega
  exact ⟨places, by omega, by rwa [hpower, Int.toNat_natCast]⟩

/-- The grid of seventeen digits is finer than the interval is wide. -/
theorem grid_lt (h : 0 < m.units) :
    m.interval.denominator * 10 ^ (m.interval.exponent - (16 : Nat)).toNat <
      (m.interval.upper - m.interval.lower) *
        10 ^ (-(m.interval.exponent - (16 : Nat))).toNat := by
  obtain ⟨places, hpositive, hlead⟩ := exists_lead m h
  have hvalue := value_lt h
  have hgrid : 10 ^ (m.interval.exponent - (16 : Nat)).toNat * (10 ^ 16 * 10 ^ places) =
      10 ^ (m.interval.exponent + places).toNat *
        10 ^ (-(m.interval.exponent - (16 : Nat))).toNat := by
    rw [← Nat.pow_add, ← Nat.pow_add, ← Nat.pow_add]
    congr 1
    omega
  have hscale : 0 < 10 ^ (-(m.interval.exponent - (16 : Nat))).toNat := Nat.pow_pos (by omega)
  have hplaces : 0 < 10 ^ places := Nat.pow_pos (by omega)
  generalize 10 ^ (m.interval.exponent - (16 : Nat)).toNat = grid at *
  generalize 10 ^ (-(m.interval.exponent - (16 : Nat))).toNat = scale at *
  generalize 10 ^ (m.interval.exponent + places).toNat = lead at *
  refine Nat.lt_of_mul_lt_mul_right (a := 10 ^ 16 * 10 ^ places) ?_
  calc m.interval.denominator * grid * (10 ^ 16 * 10 ^ places)
      = lead * m.interval.denominator * scale := by
        rw [Nat.mul_assoc, hgrid]
        ring
    _ ≤ m.interval.value * 10 ^ places * scale := Nat.mul_le_mul_right scale hlead
    _ = m.interval.value * (10 ^ places * scale) := Nat.mul_assoc _ _ _
    _ < (m.interval.upper - m.interval.lower) * 10 ^ 16 * (10 ^ places * scale) :=
        Nat.mul_lt_mul_of_pos_right hvalue (Nat.mul_pos hplaces hscale)
    _ = (m.interval.upper - m.interval.lower) * scale * (10 ^ 16 * 10 ^ places) := by ring

/-- On the grid of seventeen digits a decimal lies in the interval. -/
theorem is_some_candidate? (h : 0 < m.units) :
    (m.interval.candidate? (m.interval.exponent - (16 : Nat))).isSome = true := by
  have hspacing := spacing_pos m.units
  have hlower : m.interval.lower ≤ m.interval.value := Nat.sub_le _ _
  have hupper : m.interval.value < m.interval.upper := by
    rw [interval_value, interval_upper]
    omega
  have hwidth := grid_lt h
  rw [Nat.sub_mul] at hwidth
  exact RoundingInterval.is_some_candidate? (denominator_pos m) hlower hupper (by omega)

/-- The shortest decimal of a positive magnitude lies in its interval. -/
theorem holds_shortest (h : 0 < m.units) :
    m.interval.holds m.shortest.1 m.shortest.2 = true :=
  RoundingInterval.holds_search ⟨16, by omega, is_some_candidate? h⟩

end Magnitude

namespace Binary64

variable {negative : Bool} {m : Magnitude} {digits : Nat} {power : Int}

/-- A decimal in the interval of a magnitude is at least half of it and at most one and a half times
it. -/
theorem near_of_holds (hpos : 0 < m.units) (h : m.interval.holds digits power = true) :
    m.units * 10 ^ (-power).toNat ≤ digits * 10 ^ power.toNat * (2 * one) ∧
      digits * 10 ^ power.toNat * (4 * one) ≤ 6 * m.units * 10 ^ (-power).toNat := by
  obtain ⟨⟨hlower, hupper⟩, _⟩ := Magnitude.bounds_of_contains hpos h
  have hspacing := Nat.mul_le_mul_right (10 ^ (-power).toNat) (Magnitude.spacing_le_units hpos)
  have hgap := Nat.mul_le_mul_right (10 ^ (-power).toNat) m.lower_gap_le
  rw [Nat.mul_assoc] at hgap
  constructor
  · rw [Nat.mul_left_comm]
    omega
  · rw [Nat.mul_left_comm, Nat.mul_assoc 6]
    omega

/-- The digits of a decimal inside the interval are not zero. -/
theorem digits_pos_of_holds (hpos : 0 < m.units) (h : m.interval.holds digits power = true) :
    0 < digits := by
  have hnear := (near_of_holds hpos h).1
  by_contra hzero
  obtain rfl : digits = 0 := by omega
  have hunits : 0 < m.units * 10 ^ (-power).toNat := Nat.mul_pos hpos (Nat.pow_pos (by omega))
  rw [Nat.zero_mul, Nat.zero_mul] at hnear
  omega

/-- No decimal in the interval of a magnitude is less than ten to the power -400. -/
theorem least_of_holds (hpos : 0 < m.units) (h : m.interval.holds digits power = true) :
    -400 ≤ power + (Decimal.ofNat digits).length := by
  obtain ⟨hnear, _⟩ := near_of_holds hpos h
  have hdigits := digits_pos_of_holds hpos h
  have hlength : digits < 10 ^ (Decimal.ofNat digits).length :=
    (Decimal.length_of_nat_le_iff (List.length_pos_iff.2 (Decimal.of_nat_ne_nil _))).1 (by omega)
  by_contra hsmall
  have hzero : power.toNat = 0 := by omega
  rw [hzero, Nat.pow_zero, Nat.mul_one] at hnear
  obtain ⟨places, hplaces, hone⟩ : ∃ places ≤ 324, 2 * one ≤ 10 ^ places :=
    ⟨324, by omega, by decide +kernel⟩
  have hless : 10 ^ (-power).toNat < 10 ^ ((Decimal.ofNat digits).length + places) := by
    calc 10 ^ (-power).toNat ≤ m.units * 10 ^ (-power).toNat := Nat.le_mul_of_pos_left _ hpos
      _ ≤ digits * (2 * one) := hnear
      _ ≤ digits * 10 ^ places := Nat.mul_le_mul_left _ hone
      _ < 10 ^ (Decimal.ofNat digits).length * 10 ^ places :=
          Nat.mul_lt_mul_of_pos_right hlength (Nat.pow_pos (by omega))
      _ = 10 ^ ((Decimal.ofNat digits).length + places) := (Nat.pow_add _ _ _).symm
  have hexponent := (Nat.pow_lt_pow_iff_right (by omega)).1 hless
  omega

/-- No decimal in the interval of a magnitude reaches ten to the power 400. -/
theorem greatest_of_holds (hpos : 0 < m.units) (h : m.interval.holds digits power = true) :
    power + (Decimal.ofNat digits).length ≤ 400 := by
  obtain ⟨_, hnear⟩ := near_of_holds hpos h
  have hlength := Magnitude.pow_length_le (digits_pos_of_holds hpos h)
  have hscale : 0 < 10 ^ (-power).toNat := Nat.pow_pos (by omega)
  obtain ⟨bits, places, hbits, hplaces, hgreatest⟩ : ∃ bits places, m.units.log2 < bits ∧
      places ≤ 309 ∧ 6 * 2 ^ bits ≤ 4 * (10 ^ places * one) :=
    ⟨2098, 309, m.bounded, by omega, by decide +kernel⟩
  have hone : 6 * m.units < 4 * (10 ^ places * one) := by
    have hunits : m.units < 2 ^ bits := (Nat.log2_lt (by omega)).1 hbits
    omega
  have hless : 10 ^ ((Decimal.ofNat digits).length - 1 + power.toNat) <
      10 ^ (places + (-power).toNat) := by
    refine Nat.lt_of_mul_lt_mul_right (a := 4 * one) ?_
    calc 10 ^ ((Decimal.ofNat digits).length - 1 + power.toNat) * (4 * one)
        ≤ digits * 10 ^ power.toNat * (4 * one) := by
          rw [Nat.pow_add]
          exact Nat.mul_le_mul_right _ (Nat.mul_le_mul_right _ hlength)
      _ ≤ 6 * m.units * 10 ^ (-power).toNat := hnear
      _ < 4 * (10 ^ places * one) * 10 ^ (-power).toNat :=
          Nat.mul_lt_mul_of_pos_right hone hscale
      _ = 10 ^ (places + (-power).toNat) * (4 * one) := by
          rw [Nat.pow_add]
          ring
  have hexponent := (Nat.pow_lt_pow_iff_right (by omega)).1 hless
  omega

/-- A decimal in the interval of a magnitude rounds to it. -/
theorem of_decimal_of_holds (hpos : 0 < m.units) (h : m.interval.holds digits power = true) :
    ofDecimal negative digits power = .finite negative m := by
  have hdigits := digits_pos_of_holds hpos h
  have hleast := least_of_holds hpos h
  have hgreatest := greatest_of_holds hpos h
  have hround : ofRatio negative _ _ = .finite negative m :=
    of_ratio_of_contains hpos (Nat.pow_pos (by omega)) h
  unfold ofDecimal
  simp only [Nat.pow_eq]
  rw [if_neg (by simp; omega), if_neg (by omega)]
  split
  · next hpower =>
      have hzero : (-power).toNat = 0 := by omega
      rwa [hzero, Nat.pow_zero] at hround
  · next hpower =>
      have hzero : power.toNat = 0 := by omega
      rwa [hzero, Nat.pow_zero, Nat.mul_one] at hround

end Binary64

end UriTemplate
