import Mathlib.Data.Rat.Floor
import Mathlib.Tactic.Linarith

/-!
# Durations of Go

A `time.Duration` is an `int64` of nanoseconds, and arithmetic on it wraps. `Duration.Seconds` goes
through `float64`: a double is the rational it stands for, and an operation is the exact one followed by
rounding to 53 significant bits, ties to even. Infinities and the subnormal numbers are out of reach of a
duration. What the rest needs is that a whole number of seconds comes out as it is.
-/

namespace GoTime

/-- The value an `int64` keeps of an integer. -/
def int64 (n : Int) : Int := n.bmod (2 ^ 64)

def second : Int := 1000000000
def minute : Int := 60 * second

theorem int64_eq_self {n : Int} (hlow : -(2 : Int) ^ 63 ≤ n) (hhigh : n < (2 : Int) ^ 63) : int64 n = n :=
  Int.bmod_eq_of_le_mul_two (by omega) (by omega)

/-- What does not fit comes out at least a whole turn lower. -/
theorem int64_le_sub {n : Int} (hhigh : (2 : Int) ^ 63 ≤ n) : int64 n ≤ n - 2 ^ 64 := by
  obtain ⟨turns, hturns⟩ : ((2 ^ 64 : Nat) : Int) ∣ n - int64 n := Int.dvd_self_sub_bmod
  have hlt : int64 n < ((2 ^ 64 : Nat) + 1 : Int) / 2 := Int.bmod_lt (by decide)
  push_cast at hturns hlt
  omega

/-! ### Doubles -/

/-- The nearest integer, and of two the even one. -/
def roundEven (q : ℚ) : Int :=
  if q - ⌊q⌋ < 1 / 2 then ⌊q⌋
  else if 1 / 2 < q - ⌊q⌋ then ⌊q⌋ + 1
  else ⌊q⌋ + ⌊q⌋ % 2

/-- The exponent of the leading bit. -/
def exponent (q : ℚ) : Int :=
  let guess : Int := (Nat.log2 q.num.natAbs : Int) - Nat.log2 q.den
  if (2 : ℚ) ^ guess ≤ |q| then guess else guess - 1

/-- The double nearest to the number. -/
def double (q : ℚ) : ℚ := roundEven (q / 2 ^ (exponent q - 52)) * 2 ^ (exponent q - 52)

/-- Conversion of a double to an integer, which cuts the fraction off. -/
def truncate (q : ℚ) : Int := q.num.tdiv q.den

/-- `Duration.Seconds` -/
def seconds (d : Int) : ℚ :=
  double (double (d.tdiv second) + double (double (d.tmod second) / 1000000000))

theorem roundEven_intCast (n : Int) : roundEven n = n := by
  simp [roundEven]

theorem abs_roundEven_sub_le (q : ℚ) : |(roundEven q : ℚ) - q| ≤ 1 / 2 := by
  have hlow := Int.floor_le q
  have hhigh := Int.lt_floor_add_one q
  rw [roundEven, abs_le]
  split_ifs with hdown hup
  · constructor <;> linarith
  · push_cast
    constructor <;> linarith
  · -- halfway, and either neighbour will do
    have hparity := Int.emod_two_eq_zero_or_one ⌊q⌋
    obtain hparity | hparity := hparity
    · rw [hparity]
      push_cast
      constructor <;> linarith
    · rw [hparity]
      push_cast
      constructor <;> linarith

theorem roundEven_mono {x y : ℚ} (hxy : x ≤ y) : roundEven x ≤ roundEven y := by
  by_contra hnot
  have hstep : roundEven y + 1 ≤ roundEven x := Int.add_one_le_iff.mpr (not_le.mp hnot)
  have hstep' : (roundEven y : ℚ) + 1 ≤ roundEven x := by exact_mod_cast hstep
  have hx := abs_le.mp (abs_roundEven_sub_le x)
  have hy := abs_le.mp (abs_roundEven_sub_le y)
  obtain rfl : x = y := by linarith
  exact hnot le_rfl

theorem truncate_of_nonneg {q : ℚ} (h : 0 ≤ q) : truncate q = ⌊q⌋ := by
  rw [truncate, Rat.floor_def', Int.tdiv_eq_ediv_of_nonneg (Rat.num_nonneg.mpr h)]

theorem truncate_neg (q : ℚ) : truncate (-q) = -truncate q := by
  rw [truncate, truncate, Rat.neg_num, Rat.neg_den, Int.neg_tdiv]

theorem truncate_mono {x y : ℚ} (hxy : x ≤ y) : truncate x ≤ truncate y := by
  have hnonneg : ∀ x y : ℚ, 0 ≤ x → x ≤ y → truncate x ≤ truncate y := by
    intro x y hx hxy
    rw [truncate_of_nonneg hx, truncate_of_nonneg (hx.trans hxy)]
    exact Int.floor_mono hxy
  obtain hx | hx := le_total 0 x
  · exact hnonneg x y hx hxy
  · -- below zero it is the mirror image
    have hmirror : ∀ z : ℚ, z ≤ 0 → truncate z ≤ 0 := by
      intro z hz
      have h := hnonneg 0 (-z) le_rfl (by linarith)
      rw [truncate_neg, truncate_of_nonneg le_rfl, Int.floor_zero] at h
      omega
    obtain hy | hy := le_total 0 y
    · have h := hnonneg 0 y le_rfl hy
      rw [truncate_of_nonneg le_rfl, Int.floor_zero] at h
      exact (hmirror x hx).trans h
    · have h := hnonneg (-y) (-x) (by linarith) (by linarith)
      rw [truncate_neg, truncate_neg] at h
      omega

theorem exponent_le (q : ℚ) : exponent q ≤ (Nat.log2 q.num.natAbs : Int) - Nat.log2 q.den := by
  dsimp only [exponent]
  split_ifs <;> omega

theorem exponent_intCast_le {n : Int} (hsmall : n.natAbs < 2 ^ 53) : exponent n ≤ 52 := by
  have hlog : Nat.log2 n.natAbs < 53 := by
    by_cases hzero : n.natAbs = 0
    · rw [hzero]
      decide
    · exact (Nat.log2_lt hzero).mpr hsmall
  have hle := exponent_le n
  rw [Rat.num_intCast, Rat.den_intCast] at hle
  omega

/-- An integer of at most 53 bits is a double. -/
theorem double_intCast {n : Int} (hsmall : n.natAbs < 2 ^ 53) : double n = n := by
  have hexponent := exponent_intCast_le hsmall
  obtain ⟨shift, hshift⟩ : ∃ shift : Nat, exponent n - 52 = -(shift : Int) :=
    ⟨(52 - exponent n).toNat, by omega⟩
  have hscaled : (n : ℚ) / 2 ^ (exponent n - 52) = ((n * 2 ^ shift : Int) : ℚ) := by
    rw [hshift, zpow_neg, zpow_natCast, div_inv_eq_mul]
    push_cast
    rfl
  rw [double, hscaled, roundEven_intCast, hshift, zpow_neg, zpow_natCast]
  push_cast
  rw [mul_assoc, mul_inv_cancel₀ (by positivity), mul_one]

theorem truncate_intCast (n : Int) : truncate n = n := by
  simp [truncate]

/-- A whole number of seconds is the number `Seconds` gives. -/
theorem truncate_seconds {n : Int} (hsmall : n.natAbs < 2 ^ 53) : truncate (seconds (n * second)) = n := by
  have hsecond : second ≠ 0 := by decide
  have hzero : double 0 = 0 := by exact_mod_cast double_intCast (n := 0) (by decide)
  have hdiv : (n * second).tdiv second = n := Int.mul_tdiv_cancel n hsecond
  have hmod : (n * second).tmod second = 0 := Int.mul_tmod_left n second
  rw [seconds, hdiv, hmod, Int.cast_zero, hzero, zero_div, hzero, add_zero, double_intCast hsmall,
    double_intCast hsmall, truncate_intCast]

example : truncate (seconds (-9223371993709551616)) = -9223371993 := by decide +kernel

end GoTime
