import Mathlib.Data.Rat.Floor
import Mathlib.Tactic.FieldSimp
import Mathlib.Tactic.Linarith
import Mathlib.Tactic.Ring

/-!
# Rounding to multiples

The quotient of two integers rounded up or down, and the multiple of `m` next above (`up`) and next
below (`down`) an integer, as rounded rational quotients. The lemmas give what integer division
computes of them, and the two inequalities that determine each.
-/

namespace Rounding

/-- The smallest multiple of `m` that is at least `x`. -/
def up (m x : Int) : Int := m * ⌈(x : ℚ) / m⌉

/-- The largest multiple of `m` that is at most `x`. -/
def down (m x : Int) : Int := m * ⌊(x : ℚ) / m⌋

variable {m x q : Int}

/-- What determines a quotient that is rounded up. -/
theorem ceil_div_eq_iff (hm : 0 < m) : ⌈(x : ℚ) / m⌉ = q ↔ (q - 1) * m < x ∧ x ≤ q * m := by
  have hq : (0 : ℚ) < m := by exact_mod_cast hm
  rw [Int.ceil_eq_iff, lt_div_iff₀ hq, div_le_iff₀ hq]
  norm_cast

/-- The quotient rounded up is the first that suffices. -/
theorem ceil_div_spec (hm : 0 < m) (x : Int) :
    (⌈(x : ℚ) / m⌉ - 1) * m < x ∧ x ≤ ⌈(x : ℚ) / m⌉ * m :=
  (ceil_div_eq_iff hm).1 rfl

/-- A quotient rounded up, from the quotient and the remainder. -/
theorem ceil_div_eq (hm : 0 < m) (x : Int) :
    ⌈(x : ℚ) / m⌉ = x / m + if 0 < x % m then 1 else 0 := by
  have hdiv := Int.ediv_mul_add_emod x m
  have hlt := Int.emod_lt_of_pos x hm
  have hnn := Int.emod_nonneg x hm.ne'
  rw [ceil_div_eq_iff hm]
  split <;> constructor <;> linarith

/-- A quotient of numbers that are not negative is rounded up by adding one less than the divisor
before the division. -/
theorem add_sub_one_tdiv (hm : 0 < m) (hx : 0 ≤ x) : (x + m - 1).tdiv m = ⌈(x : ℚ) / m⌉ := by
  rw [Int.tdiv_eq_ediv_of_nonneg (by omega), eq_comm, ceil_div_eq_iff hm]
  have hdiv := Int.ediv_mul_add_emod (x + m - 1) m
  have hlt := Int.emod_lt_of_pos (x + m - 1) hm
  have hnn := Int.emod_nonneg (x + m - 1) hm.ne'
  constructor <;> linarith

/-- What determines a quotient that is rounded down. -/
theorem floor_div_eq_iff (hm : 0 < m) : ⌊(x : ℚ) / m⌋ = q ↔ q * m ≤ x ∧ x < (q + 1) * m := by
  have hq : (0 : ℚ) < m := by exact_mod_cast hm
  rw [Int.floor_eq_iff, le_div_iff₀ hq, div_lt_iff₀ hq]
  norm_cast

/-- A quotient rounded down. -/
theorem floor_div_eq (hm : 0 < m) (x : Int) : ⌊(x : ℚ) / m⌋ = x / m := by
  have hdiv := Int.ediv_mul_add_emod x m
  have hlt := Int.emod_lt_of_pos x hm
  have hnn := Int.emod_nonneg x hm.ne'
  rw [floor_div_eq_iff hm]
  constructor <;> linarith

/-- Rounding up does not go below. -/
theorem le_up (hm : 0 < m) (x : Int) : x ≤ up m x := by
  have := (ceil_div_spec hm x).2
  rw [up, mul_comm]
  exact this

/-- Rounding down does not go above. -/
theorem down_le (hm : 0 < m) (x : Int) : down m x ≤ x := by
  rw [down, floor_div_eq hm, mul_comm]
  exact Int.ediv_mul_le x hm.ne'

/-- A multiple is rounded up to itself. -/
theorem up_of_dvd (hm : 0 < m) (h : x % m = 0) : up m x = x := by
  rw [up, ceil_div_eq hm, h, if_neg (lt_irrefl 0), add_zero]
  exact Int.mul_ediv_cancel' (Int.dvd_of_emod_eq_zero h)

/-- Any other integer is rounded up by what its remainder is short of `m`. -/
theorem up_of_not_dvd (hm : 0 < m) (h : x % m ≠ 0) : up m x = x + (m - x % m) := by
  have hnn := Int.emod_nonneg x hm.ne'
  have hdiv := Int.ediv_mul_add_emod x m
  rw [up, ceil_div_eq hm, if_pos (by omega)]
  linarith

/-- A number suffices if the quotient rounded up does not exceed it. -/
theorem ceil_div_le_iff (hm : 0 < m) : ⌈(x : ℚ) / m⌉ ≤ q ↔ x ≤ m * q := by
  have hpos : (0 : ℚ) < m := by exact_mod_cast hm
  rw [Int.ceil_le, div_le_iff₀ hpos, mul_comm]
  norm_cast

/-- Rounding up stays below a bound when the number stays below the bound rounded down. -/
theorem up_le_iff (hm : 0 < m) {y : Int} : up m x ≤ y ↔ x ≤ down m y := by
  rw [up, down, ← ceil_div_le_iff hm, floor_div_eq hm, Int.le_ediv_iff_mul_le hm, mul_comm]

end Rounding
