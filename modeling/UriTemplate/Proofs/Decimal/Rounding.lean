import Mathlib.Algebra.Group.Nat.Defs
import Mathlib.Tactic.Ring
import UriTemplate.Decimal.Shortest

/-!
# Rounding to the nearest number

`Binary64.ofRatio` gives the number of the format that is nearest to a ratio. The ratios that round
to a magnitude are at most half of the spacing there away from it
(`Binary64.of_ratio_of_near`), which `Magnitude.interval` says in terms of its two ends
(`Binary64.of_ratio_of_contains`).
-/

namespace UriTemplate

variable {n k : Nat}

/-! ## Spacing -/

/-- The spacing is the power of two that leaves 53 bits. -/
theorem spacing_eq (n : Nat) : spacing n = 2 ^ (n.log2 - 52) := rfl

/-- The spacing is positive. -/
theorem spacing_pos (n : Nat) : 0 < spacing n := Nat.two_pow_pos _

/-- The spacing is the same between two powers of two. -/
theorem spacing_of_between (hlower : 2 ^ k ≤ n) (hupper : n < 2 ^ (k + 1)) :
    spacing n = 2 ^ (k - 52) := by
  have hne : n ≠ 0 := by
    have hpos := Nat.two_pow_pos k
    omega
  rw [spacing_eq, (Nat.log2_eq_iff hne).2 ⟨hlower, hupper⟩]

/-- Numbers of at most 53 bits stand next to each other. -/
theorem spacing_of_lt (h : n < 2 ^ 53) : spacing n = 1 := by
  by_cases hn : n = 0
  · subst hn
    decide
  · have hlog : n.log2 < 53 := (Nat.log2_lt hn).2 h
    have hzero : n.log2 - 52 = 0 := by omega
    rw [spacing_eq, hzero, Nat.pow_zero]

namespace Magnitude

variable {m : Magnitude}

/-- A magnitude is a multiple of its spacing. -/
theorem exists_units (m : Magnitude) : ∃ q, m.units = q * spacing m.units :=
  ⟨m.units / spacing m.units, (Nat.div_mul_cancel (Nat.dvd_of_mod_eq_zero m.onGrid)).symm⟩

/-- A number stands between two powers of two. -/
theorem between (h : 0 < m.units) :
    2 ^ m.units.log2 ≤ m.units ∧ m.units < 2 ^ (m.units.log2 + 1) :=
  (Nat.log2_eq_iff (by omega)).1 rfl

/-- Between two powers of two the numbers of the format reach up to the greater power. -/
theorem add_spacing_le (h : 0 < m.units) (hlog : 52 ≤ m.units.log2) :
    m.units + spacing m.units ≤ 2 ^ (m.units.log2 + 1) := by
  obtain ⟨q, hq⟩ := m.exists_units
  have hpow : 2 ^ (m.units.log2 + 1) = 2 ^ 53 * spacing m.units := by
    rw [spacing_eq, ← Nat.pow_add]
    congr 1
    omega
  have hlt : q * spacing m.units < 2 ^ 53 * spacing m.units := by
    rw [← hq, ← hpow]
    exact (between h).2
  have hle : q + 1 ≤ 2 ^ 53 := Nat.lt_of_mul_lt_mul_right hlt
  have hmul := Nat.mul_le_mul_right (spacing m.units) hle
  rw [Nat.add_mul, Nat.one_mul] at hmul
  omega

end Magnitude

namespace Binary64

variable {negative : Bool} {numerator denominator q step : Nat} {m : Magnitude}

/-- A quotient with a rest is rounded to the nearest whole number, a tie to the even one. -/
theorem rounded_eq {whole rest width : Nat} (hlt : rest < width)
    (hlower : 2 * (q * width) ≤ 2 * (whole * width + rest) + width)
    (hlowerEven : 2 * (q * width) = 2 * (whole * width + rest) + width → q % 2 = 0)
    (hupper : 2 * (whole * width + rest) ≤ 2 * (q * width) + width)
    (hupperEven : 2 * (whole * width + rest) = 2 * (q * width) + width → q % 2 = 0) :
    (if (decide (width < 2 * rest) || (decide (width = 2 * rest) && decide (whole % 2 = 1))) = true
      then whole + 1 else whole) = q := by
  rcases Nat.lt_trichotomy whole q with hless | rfl | hgreater
  · -- The ratio is less than the magnitude, and rounded up.
    have hnext : whole + 1 = q := by
      by_contra hne
      have hmul := Nat.mul_le_mul_right width (show whole + 2 ≤ q by omega)
      rw [Nat.add_mul] at hmul
      omega
    have hmul : q * width = whole * width + width := by
      rw [← hnext, Nat.add_mul, Nat.one_mul]
    have hup : width < 2 * rest ∨ width = 2 * rest ∧ whole % 2 = 1 := by
      by_cases htie : width = 2 * rest
      · have heven := hlowerEven (by omega)
        exact .inr ⟨htie, by omega⟩
      · exact .inl (by omega)
    rw [if_pos (by simpa using hup)]
    exact hnext
  · have hup : ¬(width < 2 * rest ∨ width = 2 * rest ∧ whole % 2 = 1) := by
      rintro (hover | ⟨htie, hodd⟩)
      · omega
      · have heven := hupperEven (by omega)
        omega
    rw [if_neg (by simpa using hup)]
  · have hmul := Nat.mul_le_mul_right width (show q + 1 ≤ whole by omega)
    rw [Nat.add_mul] at hmul
    omega

/-- A ratio rounds to a magnitude if it is at most half of the spacing away, where exactly half is
near enough for an even multiple of the spacing only. -/
theorem of_ratio_of_near (hdenominator : 0 < denominator)
    (hstep : spacing (numerator / denominator) = step) (hunits : m.units = q * step)
    (hlower : 2 * (q * (denominator * step)) ≤ 2 * numerator + denominator * step)
    (hlowerEven : 2 * (q * (denominator * step)) = 2 * numerator + denominator * step →
      q % 2 = 0)
    (hupper : 2 * numerator ≤ 2 * (q * (denominator * step)) + denominator * step)
    (hupperEven : 2 * numerator = 2 * (q * (denominator * step)) + denominator * step →
      q % 2 = 0) :
    ofRatio negative numerator denominator = .finite negative m := by
  have hpos : 0 < denominator * step := Nat.mul_pos hdenominator (hstep ▸ spacing_pos _)
  have hlt := Nat.mod_lt numerator hpos
  have hdivision : numerator / (denominator * step) * (denominator * step) +
      numerator % (denominator * step) = numerator := by
    rw [Nat.mul_comm]
    exact Nat.div_add_mod _ _
  have hround := rounded_eq (q := q) hlt (by rwa [hdivision]) (by rwa [hdivision])
    (by rwa [hdivision]) (by rwa [hdivision])
  unfold ofRatio
  simp only [hstep, hround, ← hunits]
  rw [dif_pos ⟨m.bounded, m.onGrid⟩]

end Binary64

/-! ## The interval of a magnitude -/

namespace Magnitude

variable {m : Magnitude} {numerator denominator : Nat}

/-- `m.lowerGap` is four times the distance from `m` to the lower end of its interval: the distance
is half of the spacing, or a quarter of it for a power of two. -/
def lowerGap (m : Magnitude) : Nat :=
  if m.units = 2 ^ m.units.log2 && 52 < m.units.log2 then spacing m.units else 2 * spacing m.units

/-- The spacing is at most the number. -/
theorem spacing_le_units (h : 0 < m.units) : spacing m.units ≤ m.units :=
  Nat.le_of_dvd h (Nat.dvd_of_mod_eq_zero m.onGrid)

/-- The distance to the lower end is at most half of the spacing. -/
theorem lower_gap_le (m : Magnitude) : m.lowerGap ≤ 2 * spacing m.units := by
  unfold lowerGap
  split <;> omega

/-- Above a power of two, from the one with the exponent 52 on, comes next the sum with the
spacing. -/
theorem pow_add_spacing_le (h : 0 < m.units) (hlog : 52 ≤ m.units.log2)
    (hne : m.units ≠ 2 ^ m.units.log2) : 2 ^ m.units.log2 + spacing m.units ≤ m.units := by
  obtain ⟨q, hq⟩ := m.exists_units
  have hpow : 2 ^ m.units.log2 = 2 ^ 52 * spacing m.units := by
    rw [spacing_eq, ← Nat.pow_add]
    congr 1
    omega
  have hlt : 2 ^ 52 * spacing m.units < q * spacing m.units := by
    rw [← hq, ← hpow]
    have hle := (between h).1
    omega
  have hle : 2 ^ 52 + 1 ≤ q := Nat.lt_of_mul_lt_mul_right hlt
  have hmul := Nat.mul_le_mul_right (spacing m.units) hle
  rw [Nat.add_mul, Nat.one_mul] at hmul
  omega

/-- From a magnitude up to the upper end of its interval the spacing is that of the magnitude. -/
theorem spacing_of_ge (hpos : 0 < m.units) (hdenominator : 0 < denominator)
    (hge : m.units * denominator ≤ numerator)
    (hupper : 4 * numerator ≤
      4 * (m.units * denominator) + 2 * (spacing m.units * denominator)) :
    spacing (numerator / denominator) = spacing m.units := by
  obtain ⟨hbelow, habove⟩ := between hpos
  have hstep : 0 < spacing m.units * denominator := Nat.mul_pos (spacing_pos _) hdenominator
  have hle : m.units ≤ numerator / denominator := (Nat.le_div_iff_mul_le hdenominator).2 hge
  have hlt : numerator / denominator < m.units + spacing m.units := by
    rw [Nat.div_lt_iff_lt_mul hdenominator, Nat.add_mul]
    omega
  by_cases hlog : 52 ≤ m.units.log2
  · have hnext := add_spacing_le hpos hlog
    rw [spacing_of_between (k := m.units.log2) (by omega) (by omega)]
    rfl
  · have hsmall : m.units < 2 ^ 52 :=
      Nat.lt_of_lt_of_le habove (Nat.pow_le_pow_right (by omega) (by omega))
    have hone : spacing m.units = 1 := spacing_of_lt (by omega)
    rw [hone, spacing_of_lt (by omega)]

/-- Below a magnitude that is no power of two it is the same. -/
theorem spacing_of_less (hpos : 0 < m.units) (hdenominator : 0 < denominator)
    (hless : numerator < m.units * denominator)
    (hlong : ¬(m.units = 2 ^ m.units.log2 ∧ 52 < m.units.log2))
    (hlower : 4 * (m.units * denominator) ≤ 4 * numerator + m.lowerGap * denominator) :
    spacing (numerator / denominator) = spacing m.units := by
  have habove := (between hpos).2
  have hlt : numerator / denominator < m.units := (Nat.div_lt_iff_lt_mul hdenominator).2 hless
  have hgap : m.lowerGap = 2 * spacing m.units := by
    rw [lowerGap, if_neg (by simpa using hlong)]
  by_cases hlog : 52 < m.units.log2
  · have hnext := pow_add_spacing_le hpos (by omega) fun h => hlong ⟨h, hlog⟩
    have hle : 2 ^ m.units.log2 ≤ numerator / denominator := by
      have hmul := Nat.mul_le_mul_right denominator hnext
      rw [Nat.add_mul] at hmul
      rw [hgap, Nat.mul_assoc] at hlower
      rw [Nat.le_div_iff_mul_le hdenominator]
      omega
    rw [spacing_of_between hle (by omega)]
    rfl
  · have hsmall : m.units < 2 ^ 53 :=
      Nat.lt_of_lt_of_le habove (Nat.pow_le_pow_right (by omega) (by omega))
    rw [spacing_of_lt hsmall, spacing_of_lt (by omega)]

/-- Below a power of two it is half of that. -/
theorem spacing_of_less_pow (hpos : 0 < m.units) (hdenominator : 0 < denominator)
    (hless : numerator < m.units * denominator)
    (hpower : m.units = 2 ^ m.units.log2) (hlog : 52 < m.units.log2)
    (hlower : 4 * (m.units * denominator) ≤ 4 * numerator + spacing m.units * denominator) :
    2 * spacing (numerator / denominator) = spacing m.units := by
  have hlt : numerator / denominator < m.units := (Nat.div_lt_iff_lt_mul hdenominator).2 hless
  obtain ⟨j, hj⟩ : ∃ j, m.units.log2 = j + 1 := ⟨m.units.log2 - 1, by omega⟩
  rw [hj, Nat.pow_succ] at hpower
  have hle : 2 ^ j ≤ numerator / denominator := by
    have hspacing := Nat.mul_le_mul_right denominator (spacing_le_units hpos)
    have hhalf : m.units * denominator = 2 * (2 ^ j * denominator) := by
      rw [hpower]
      ring
    rw [Nat.le_div_iff_mul_le hdenominator]
    omega
  rw [spacing_of_between hle (by omega), spacing_eq m.units, hj, ← Nat.pow_succ']
  congr 1
  omega

/-- Between the ends of the interval of a magnitude the spacing is that of the magnitude, or half of
it just below a power of two. -/
theorem spacing_cases (hpos : 0 < m.units) (hdenominator : 0 < denominator)
    (hlower : 4 * (m.units * denominator) ≤ 4 * numerator + m.lowerGap * denominator)
    (hupper : 4 * numerator ≤
      4 * (m.units * denominator) + 2 * (spacing m.units * denominator)) :
    spacing (numerator / denominator) = spacing m.units ∨
      numerator < m.units * denominator ∧ m.lowerGap = spacing m.units ∧
        2 * spacing (numerator / denominator) = spacing m.units := by
  by_cases hless : numerator < m.units * denominator
  · by_cases hshort : m.units = 2 ^ m.units.log2 ∧ 52 < m.units.log2
    · have hgap : m.lowerGap = spacing m.units := by
        rw [lowerGap, if_pos (by simpa using hshort)]
      rw [hgap] at hlower
      exact .inr ⟨hless, hgap,
        spacing_of_less_pow hpos hdenominator hless hshort.1 hshort.2 hlower⟩
    · exact .inl (spacing_of_less hpos hdenominator hless hshort hlower)
  · exact .inl (spacing_of_ge hpos hdenominator (Nat.le_of_not_lt hless) hupper)

/-- A ratio in the interval of a magnitude lies between the ends, and not at an end if the magnitude
is an odd multiple of its spacing. -/
theorem bounds_of_contains (hpos : 0 < m.units)
    (h : m.interval.contains numerator denominator = true) :
    (4 * (m.units * denominator) ≤ 4 * (numerator * Binary64.one) + m.lowerGap * denominator ∧
      4 * (numerator * Binary64.one) ≤
        4 * (m.units * denominator) + 2 * (spacing m.units * denominator)) ∧
    (m.units / spacing m.units % 2 = 1 →
      4 * (m.units * denominator) ≠ 4 * (numerator * Binary64.one) + m.lowerGap * denominator ∧
        4 * (numerator * Binary64.one) ≠
          4 * (m.units * denominator) + 2 * (spacing m.units * denominator)) := by
  have hgap : m.lowerGap ≤ 4 * m.units := by
    have hle := m.lower_gap_le
    have hspacing := spacing_le_units hpos
    omega
  have hlower : m.interval.lower * denominator + m.lowerGap * denominator =
      4 * (m.units * denominator) := by
    rw [← Nat.add_mul, ← Nat.mul_assoc]
    exact congrArg (· * denominator) (Nat.sub_add_cancel hgap)
  have hupper : m.interval.upper * denominator =
      4 * (m.units * denominator) + 2 * (spacing m.units * denominator) := by
    show (4 * m.units + 2 * spacing m.units) * denominator = _
    ring
  have hscaled : numerator * m.interval.denominator = 4 * (numerator * Binary64.one) := by
    show numerator * (4 * Binary64.one) = _
    ring
  have hclosed : m.interval.closed = decide (m.units / spacing m.units % 2 = 0) := rfl
  unfold RoundingInterval.contains at h
  rw [hscaled, hupper, hclosed] at h
  by_cases heven : m.units / spacing m.units % 2 = 0
  · simp only [heven, decide_true, if_true, Bool.and_eq_true, decide_eq_true_eq] at h
    omega
  · simp only [heven, decide_false, Bool.false_eq_true, if_false, Bool.and_eq_true,
      decide_eq_true_eq] at h
    omega

end Magnitude

namespace Binary64

variable {negative : Bool} {numerator denominator : Nat} {m : Magnitude}

/-- The ratios in the interval of a magnitude round to it. -/
theorem of_ratio_of_contains (hpos : 0 < m.units) (hdenominator : 0 < denominator)
    (h : m.interval.contains numerator denominator = true) :
    ofRatio negative (numerator * one) denominator = .finite negative m := by
  obtain ⟨⟨hlower, hupper⟩, hodd⟩ := Magnitude.bounds_of_contains hpos h
  obtain ⟨q, hq⟩ := m.exists_units
  have hquotient : m.units / spacing m.units = q :=
    Nat.div_eq_of_eq_mul_left (spacing_pos _) hq
  rw [hquotient] at hodd
  have hgap := Nat.mul_le_mul_right denominator m.lower_gap_le
  rw [Nat.mul_assoc] at hgap
  have hunits : m.units * denominator = q * (denominator * spacing m.units) := by
    rw [Nat.mul_comm denominator, ← Nat.mul_assoc, ← hq]
  have hspacing := Nat.mul_comm (spacing m.units) denominator
  rcases Magnitude.spacing_cases hpos hdenominator hlower hupper with hstep | ⟨hless, hshort, hstep⟩
  · refine of_ratio_of_near hdenominator hstep hq (by omega) (fun heq => ?_) (by omega)
      fun heq => ?_
    · by_contra hne
      exact (hodd (by omega)).1 (by omega)
    · by_contra hne
      exact (hodd (by omega)).2 (by omega)
  · -- Just below a power of two its quotient is even.
    have hdouble : m.units = 2 * q * spacing (numerator * one / denominator) := by
      rw [Nat.mul_assoc, Nat.mul_left_comm, hstep]
      exact hq
    have hwidth : spacing m.units * denominator =
        2 * (denominator * spacing (numerator * one / denominator)) := by
      rw [← hstep]
      ring
    have hproduct : m.units * denominator =
        2 * q * (denominator * spacing (numerator * one / denominator)) := by
      rw [Nat.mul_comm denominator, ← Nat.mul_assoc, ← hdouble]
    rw [hshort] at hlower
    exact of_ratio_of_near hdenominator rfl hdouble (by omega) (fun _ => by omega) (by omega)
      fun _ => by omega

end Binary64

end UriTemplate
