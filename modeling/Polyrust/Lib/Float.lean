import Mathlib.Algebra.Order.Floor.Ring
import Mathlib.Data.Rat.Floor
import Mathlib.Data.Nat.Sqrt
import Polyrust.Lib.Arith

/-!
# Floating point as an interface

What a program with 64-bit floating-point numbers uses of them: the four operations, comparisons
that are false on NaN, the elementary functions, the conversions from and to integers. Definitions
over `F64 F` follow the program operation by operation and say nothing about rounding; a statement
that holds of every `F` holds of the machine's numbers.

The rational numbers are an instance. It agrees with the machine wherever no operation rounds, no
division is by zero, and roots are taken of squares; runs on fixed inputs are evaluated in it.
-/

/-- The operations on 64-bit floating-point numbers. -/
class F64 (F : Type) extends Add F, Sub F, Mul F, Div F, Neg F, OfScientific F where
  /-- `x < y`, false when one of them is NaN -/
  lt : F → F → Bool
  /-- `x <= y`, false when one of them is NaN -/
  le : F → F → Bool
  abs : F → F
  /-- the larger of two numbers, and the other one when one is NaN -/
  max : F → F → F
  sqrt : F → F
  exp : F → F
  ln : F → F
  isFinite : F → Bool
  nan : F
  /-- the number closest to an integer -/
  ofInt : Int → F
  /-- the integer part towards minus infinity, saturated to 32 bits -/
  floorI32 : F → Int

namespace F64

section
variable {F : Type} [F64 F]

/-- `f64::clamp`, which panics unless the bounds are in order. -/
def clamp (x lo hi : F) : Exec F :=
  if le lo hi then
    let x := if lt x lo then lo else x
    .ok (if lt hi x then hi else x)
  else .error .clampBounds

/-- The sum of a list (`Iterator::sum`). -/
def sum (xs : List F) : F := xs.foldl (fun acc x => acc + x) 0.0

end

/-! ## Exact arithmetic -/

/-- The numbers stand for rational numbers, comparisons decide the order of the rational numbers,
and the operations other than division and the elementary functions are exact. -/
class Exact (F : Type) [F64 F] where
  val : F → ℚ
  lt_iff (x y : F) : lt x y = true ↔ val x < val y
  le_iff (x y : F) : le x y = true ↔ val x ≤ val y
  add (x y : F) : val (x + y) = val x + val y
  sub (x y : F) : val (x - y) = val x - val y
  mul (x y : F) : val (x * y) = val x * val y
  neg (x : F) : val (-x) = -val x
  abs (x : F) : val (F64.abs x) = |val x|
  literal (m : Nat) (s : Bool) (e : Nat) :
    val (OfScientific.ofScientific m s e) = OfScientific.ofScientific m s e
  ofInt (n : Int) : val (F64.ofInt n) = n
  floorI32 (x : F) : F64.floorI32 x = IntWidth.i32.saturate ⌊val x⌋

section
variable {F : Type} [F64 F] [Exact F] {x lo hi y : F}

/-- What is not less is at least as much. -/
theorem Exact.lt_false_iff : lt x y = false ↔ Exact.val y ≤ Exact.val x := by
  rw [Bool.eq_false_iff, Ne, Exact.lt_iff, not_lt]

/-- A clamped number lies between the bounds. -/
theorem clamp_bounds (h : clamp x lo hi = .ok y) :
    Exact.val lo ≤ Exact.val y ∧ Exact.val y ≤ Exact.val hi := by
  unfold clamp at h
  split at h
  · next hle =>
    rw [Exact.le_iff] at hle
    cases h
    by_cases h₁ : lt x lo = true
    · rw [if_pos h₁]
      split
      · exact ⟨hle, le_rfl⟩
      · exact ⟨le_rfl, hle⟩
    · rw [if_neg h₁]
      rw [Exact.lt_iff, not_lt] at h₁
      split
      · exact ⟨hle, le_rfl⟩
      · next h₂ =>
        rw [Exact.lt_iff, not_lt] at h₂
        exact ⟨h₁, h₂⟩
  · cases h

end

/-! ## Rational numbers -/

/-- The root of a rational number, exact on squares and rounded down to nine digits otherwise. -/
def ratSqrt (q : Rat) : Rat :=
  if q ≤ 0 then 0
  else
    let n := q.num.toNat.sqrt
    let d := q.den.sqrt
    if n * n = q.num.toNat ∧ d * d = q.den then (n : Rat) / d
    else ((q * 1000000000000000000).floor.toNat.sqrt : Rat) / 1000000000

/-- The exponential by its power series, to twenty terms. -/
def ratExp (q : Rat) : Rat :=
  ((List.range 20).foldl (fun acc k => (acc.1 + acc.2, acc.2 * q / ((k : Rat) + 1)))
    ((0, 1) : Rat × Rat)).1

/-- The logarithm by the power series of its argument over the next, to twenty terms. -/
def ratLn (q : Rat) : Rat :=
  let y := (q - 1) / (q + 1)
  ((List.range 20).foldl (fun acc k => (acc.1 + 2 * acc.2 / (2 * (k : Rat) + 1), acc.2 * y * y))
    ((0, y) : Rat × Rat)).1

instance : F64 Rat where
  lt x y := decide (x < y)
  le x y := decide (x ≤ y)
  abs x := if x < 0 then -x else x
  max x y := if x < y then y else x
  sqrt := ratSqrt
  exp := ratExp
  ln := ratLn
  isFinite _ := true
  nan := 0
  ofInt n := n
  floorI32 x := IntWidth.i32.saturate x.floor

instance : Exact Rat where
  val := id
  lt_iff _ _ := decide_eq_true_iff
  le_iff _ _ := decide_eq_true_iff
  add _ _ := rfl
  sub _ _ := rfl
  mul _ _ := rfl
  neg _ := rfl
  abs x := by
    change (if x < 0 then -x else x) = |x|
    split
    · next h => exact (abs_of_neg h).symm
    · next h => exact (abs_of_nonneg (not_lt.1 h)).symm
  literal _ _ _ := rfl
  ofInt _ := rfl
  floorI32 _ := rfl

end F64
