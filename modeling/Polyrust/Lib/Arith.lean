import Mathlib.Order.Basic
import Mathlib.Tactic.SplitIfs
import Mathlib.Tactic.Linarith

/-!
# Fixed-width signed integers as integers with a range

A signed machine integer is an `Int` in the range of its width. Saturating, checked and wrapping
arithmetic are the three ways to bring a result back into that range; they agree on a result that
`fits`. Plain arithmetic follows the build: with overflow checks a result that does not fit aborts
the program, without them it wraps (`Build.arith`).
-/

/-- The inclusive range of a signed integer type. -/
structure IntWidth where
  lo : Int
  hi : Int
  lo_le_hi : lo ≤ hi

namespace IntWidth

/-- 32-bit signed integers. -/
def i32 : IntWidth := ⟨-2147483648, 2147483647, by decide⟩

/-- 64-bit signed integers. -/
def i64 : IntWidth := ⟨-9223372036854775808, 9223372036854775807, by decide⟩

@[simp] theorem i32_lo : i32.lo = -2147483648 := rfl
@[simp] theorem i32_hi : i32.hi = 2147483647 := rfl
@[simp] theorem i64_lo : i64.lo = -9223372036854775808 := rfl
@[simp] theorem i64_hi : i64.hi = 9223372036854775807 := rfl

/-- 128-bit signed integers. -/
def i128 : IntWidth := ⟨-2 ^ 127, 2 ^ 127 - 1, by decide⟩

section
variable (w : IntWidth)

/-- `x` is a value of the type. -/
def Fits (x : Int) : Prop := w.lo ≤ x ∧ x ≤ w.hi

instance (x : Int) : Decidable (w.Fits x) := inferInstanceAs (Decidable (_ ∧ _))

/-- The value of the type closest to `x`. -/
def saturate (x : Int) : Int := max w.lo (min x w.hi)

/-- The value of the type congruent to `x` modulo the number of its values. -/
def wrap (x : Int) : Int := (x - w.lo) % (w.hi - w.lo + 1) + w.lo

/-- The sum, or the bound that it exceeds. -/
def saturatingAdd (x y : Int) : Int := w.saturate (x + y)
/-- The difference, or the bound that it exceeds. -/
def saturatingSub (x y : Int) : Int := w.saturate (x - y)
/-- The product, or the bound that it exceeds. -/
def saturatingMul (x y : Int) : Int := w.saturate (x * y)

/-- `x` as a value of the type, if it is one. -/
def checked (x : Int) : Option Int := if w.Fits x then some x else none

variable {w}

/-- A number in range is not moved to a bound. -/
theorem saturate_of_fits {x : Int} (h : w.Fits x) : w.saturate x = x := by
  unfold saturate; unfold Fits at h; omega

/-- A number in range does not wrap. -/
theorem wrap_of_fits {x : Int} (h : w.Fits x) : w.wrap x = x := by
  unfold wrap; unfold Fits at h
  rw [Int.emod_eq_of_lt (by omega) (by omega)]
  omega

/-- A result that is too large by less than the width wraps to what is left of it. -/
theorem wrap_eq_sub {x : Int} (h : w.Fits (x - (w.hi - w.lo + 1))) :
    w.wrap x = x - (w.hi - w.lo + 1) := by
  rw [← wrap_of_fits h, wrap, wrap, sub_right_comm, Int.sub_emod_right]

/-- What is wrapped is in range. -/
theorem wrap_fits (x : Int) : w.Fits (w.wrap x) := by
  have := w.lo_le_hi
  have hnonneg := Int.emod_nonneg (x - w.lo) (by omega : w.hi - w.lo + 1 ≠ 0)
  have hlt := Int.emod_lt_of_pos (x - w.lo) (by omega : 0 < w.hi - w.lo + 1)
  unfold wrap Fits; omega

/-- What is moved to the bounds is in range. -/
theorem saturate_fits (x : Int) : w.Fits (w.saturate x) := by
  have := w.lo_le_hi
  unfold saturate Fits; omega

/-- The check gives the numbers in range, as they are. -/
theorem checked_eq_some {x y : Int} :
    w.checked x = some y ↔ x = y ∧ w.Fits x := by
  unfold checked
  split
  · next h => simp [h]
  · next h => simp [h]

/-- Saturation keeps the order. -/
theorem saturate_mono {x y : Int} (h : x ≤ y) : w.saturate x ≤ w.saturate y := by
  unfold saturate; omega

end

end IntWidth

/-- Why a program stops in the middle of a computation. -/
inductive Abort where
  /-- arithmetic overflow, in a build that checks for it -/
  | overflow
  /-- a string slice that starts or ends inside a character -/
  | charBoundary
  /-- a clamp whose bounds are not in order -/
  | clampBounds
  /-- a slice that ends past the end -/
  | outOfBounds
  deriving DecidableEq, Repr

/-- A computation that may abort the program. -/
abbrev Exec (α : Type _) := Except Abort α

/-- The compiler options that plain arithmetic depends on. -/
structure Build where
  overflowChecks : Bool
  deriving DecidableEq, Repr

/-- The result of a plain arithmetic operation whose exact result is `x`. -/
def Build.arith (b : Build) (w : IntWidth) (x : Int) : Exec Int :=
  if w.Fits x then .ok x
  else if b.overflowChecks then .error .overflow
  else .ok (w.wrap x)

/-- In range, every build computes the exact result. -/
theorem Build.arith_of_fits {b : Build} {w : IntWidth} {x : Int} (h : w.Fits x) :
    b.arith w x = .ok x := if_pos h

/-- Every build computes a 64-bit result exactly. -/
theorem Build.arith_i64 {b : Build} {x : Int} (hlo : -9223372036854775808 ≤ x)
    (hhi : x ≤ 9223372036854775807) : b.arith IntWidth.i64 x = .ok x := if_pos ⟨hlo, hhi⟩

/-- An operation in range drops out of the computation. -/
theorem Build.arith_i64_bind {α : Type _} {b : Build} {x : Int} {f : Int → Exec α}
    (hlo : -9223372036854775808 ≤ x) (hhi : x ≤ 9223372036854775807) :
    (b.arith IntWidth.i64 x >>= f) = f x := by
  rw [Build.arith_i64 hlo hhi]
  rfl

/-- What a plain operation returns is its exact result, or that result wrapped. -/
theorem Build.arith_ok {b : Build} {w : IntWidth} {x y : Int} (h : b.arith w x = .ok y) :
    w.Fits x ∧ y = x ∨ ¬w.Fits x ∧ y = w.wrap x := by
  unfold Build.arith at h
  split at h
  · next hfits =>
    cases h
    exact .inl ⟨hfits, rfl⟩
  · next hfits =>
    split at h
    · cases h
    · cases h
      exact .inr ⟨hfits, rfl⟩

/-- What is computed is in range. -/
theorem Build.arith_fits {b : Build} {w : IntWidth} {x y : Int} (h : b.arith w x = .ok y) :
    w.Fits y := by
  rcases Build.arith_ok h with ⟨hfits, rfl⟩ | ⟨-, rfl⟩
  · exact hfits
  · exact IntWidth.wrap_fits x

/-- A plain operation returns its result, wrapped, unless the build sees it overflow. -/
theorem Build.arith_ok_iff {b : Build} {w : IntWidth} {x y : Int} :
    b.arith w x = .ok y ↔ (b.overflowChecks = true → w.Fits x) ∧ y = w.wrap x := by
  unfold Build.arith
  by_cases hfits : w.Fits x
  · rw [if_pos hfits, IntWidth.wrap_of_fits hfits, Except.ok.injEq, eq_comm]
    exact (and_iff_right fun _ => hfits).symm
  · rw [if_neg hfits]
    rcases b.overflowChecks with _ | _
    · simp [eq_comm]
    · simp [hfits]

/-- Plain arithmetic in a build that checks for overflow. -/
theorem Build.arith_checked {b : Build} (hb : b.overflowChecks = true) {w : IntWidth} {x y : Int} :
    b.arith w x = .ok y ↔ w.Fits x ∧ y = x := by
  unfold Build.arith
  split
  · next h => simp [h, eq_comm]
  · next h => exact ⟨nofun, fun hf => absurd hf.1 h⟩

/-- In a build that checks, a computation that goes on goes on with the exact result. -/
theorem Build.arith_bind_checked {α : Type _} {b : Build} (hb : b.overflowChecks = true)
    {w : IntWidth} {x : Int} {f : Int → Exec α} {r : α} (h : (b.arith w x >>= f) = .ok r) :
    f x = .ok r := by
  unfold Build.arith at h
  rw [hb] at h
  split at h
  · exact h
  · cases h

/-- Plain arithmetic in a build that does not. -/
theorem Build.arith_unchecked {b : Build} (hb : b.overflowChecks = false) (w : IntWidth) (x : Int) :
    ∃ y, b.arith w x = .ok y := by
  unfold Build.arith
  split
  · exact ⟨x, rfl⟩
  · rw [hb]
    exact ⟨_, rfl⟩

/-- Two operations in a row return a number unless the build sees one of them overflow. -/
theorem Build.arith_twice {b : Build} {w : IntWidth} {x sign : Int} :
    (∃ y v, b.arith w x = .ok y ∧ b.arith w (sign * y) = .ok v) ↔
      (b.overflowChecks = true → w.Fits x ∧ w.Fits (sign * x)) := by
  refine ⟨?_, ?_⟩
  · rintro ⟨y, v, hy, hv⟩ hb
    obtain ⟨hx, rfl⟩ := (Build.arith_checked hb).1 hy
    exact ⟨hx, ((Build.arith_checked hb).1 hv).1⟩
  · intro h
    rcases hb : b.overflowChecks with _ | _
    · obtain ⟨y, hy⟩ := Build.arith_unchecked hb w x
      obtain ⟨v, hv⟩ := Build.arith_unchecked hb w (sign * y)
      exact ⟨y, v, hy, hv⟩
    · obtain ⟨hx, hs⟩ := h hb
      exact ⟨x, sign * x, Build.arith_of_fits hx, Build.arith_of_fits hs⟩

/-- Without checks the number after the largest integer is the smallest. -/
theorem Build.arith_i64_wraps {b : Build} (hb : b.overflowChecks = false) :
    b.arith IntWidth.i64 (IntWidth.i64.hi + 1) = .ok IntWidth.i64.lo := by
  obtain ⟨_⟩ := b
  cases hb
  decide

/-- A computation goes on with the result. -/
@[simp] theorem Except.ok_bind {ε α β : Type _} (a : α) (f : α → Except ε β) :
    (Except.ok a >>= f) = f a := rfl

/-- A choice between two computations before the same continuation. -/
theorem Except.ite_bind {ε α β : Type _} {c : Prop} [Decidable c] (x y : Except ε α)
    (f : α → Except ε β) :
    (if c then x >>= f else y >>= f) = ((if c then x else y) >>= f) := by
  split <;> rfl

/-- From a successful run of a sequence, the runs of its two parts. -/
theorem Except.ok_bind_inv {ε α β : Type _} {x : Except ε α} {f : α → Except ε β} {r : β}
    (h : (x >>= f) = .ok r) : ∃ a, x = .ok a ∧ f a = .ok r := by
  cases x with
  | error e => cases h
  | ok a => exact ⟨a, rfl, h⟩

/-- What is left of a result is the result. -/
theorem Except.toOption_eq_some {ε α : Type _} {x : Except ε α} {a : α}
    (h : x.toOption = some a) : x = .ok a := by
  cases x with
  | error e => cases h
  | ok b =>
    cases h
    rfl

/-- What a list of computations returns, each of them returned. -/
theorem Except.mapM_ok_mem {ε α β : Type _} {f : α → Except ε β} {xs : List α} {ys : List β}
    (h : xs.mapM f = .ok ys) : ∀ y ∈ ys, ∃ x ∈ xs, f x = .ok y := by
  induction xs generalizing ys with
  | nil =>
    cases h
    nofun
  | cons x xs ih =>
    rw [List.mapM_cons] at h
    obtain ⟨y, hy, h⟩ := Except.ok_bind_inv h
    obtain ⟨ys', hys, h⟩ := Except.ok_bind_inv h
    cases h
    intro z hz
    rcases List.mem_cons.1 hz with rfl | hz
    · exact ⟨x, List.mem_cons_self .., hy⟩
    · obtain ⟨w, hw, hwz⟩ := ih hys z hz
      exact ⟨w, List.mem_cons_of_mem _ hw, hwz⟩

/-- A sequence never returns what its second part never returns. -/
theorem Except.bind_ne_ok {ε α β : Type _} {x : Except ε α} {f : α → Except ε β} {r : β}
    (h : ∀ a, f a ≠ .ok r) : (x >>= f) ≠ .ok r := by
  intro hx
  obtain ⟨a, -, ha⟩ := Except.ok_bind_inv hx
  exact h a ha

/-- The computation succeeds, with a result that satisfies `p`. -/
inductive Except.Succeeds {ε α : Type _} (p : α → Prop) : Except ε α → Prop where
  | ok {a : α} (h : p a) : Succeeds p (.ok a)

instance {ε α : Type _} (p : α → Prop) [DecidablePred p] :
    ∀ x : Except ε α, Decidable (x.Succeeds p)
  | .ok a => decidable_of_iff (p a) ⟨.ok, fun | .ok h => h⟩
  | .error _ => .isFalse nofun

/-- A computation that succeeds has a result. -/
theorem Except.Succeeds.exists {ε α : Type _} {p : α → Prop} {x : Except ε α}
    (h : x.Succeeds p) : ∃ a, x = .ok a ∧ p a := by
  cases h with
  | ok h => exact ⟨_, rfl, h⟩
