import Mathlib.Tactic.Linarith
import Mathlib.Tactic.Ring

/-!
# Digit strings

The value of a list of decimal digits, as a fold from the left. A string of digits has the value of
its first part, shifted by the length of the second, plus the value of the second
(`val_append`); trailing zeros only shift (`val_append_zeros`); a string of `n` digits is below
`10 ^ n` (`val_lt`). A number written with zeros in front up to a width (`pad`) has its own value
(`val_pad`).
-/

namespace Digits

/-- The number a list of decimal digits spells. -/
def val (ds : List Char) : Int := ds.foldl (fun n c => n * 10 + ((c.toNat : Int) - 48)) 0

@[simp] theorem val_nil : val [] = 0 := rfl

/-- A fold that starts at `n` shifts `n` by the number of digits. -/
theorem foldl_eq (ds : List Char) (n : Int) :
    ds.foldl (fun n c => n * 10 + ((c.toNat : Int) - 48)) n = n * 10 ^ ds.length + val ds := by
  induction ds generalizing n with
  | nil => simp
  | cons d ds ih =>
    rw [val, List.foldl_cons, List.foldl_cons, ih, ih, List.length_cons]
    ring

/-- The value of digits after digits. -/
theorem val_append (ds ds' : List Char) : val (ds ++ ds') = val ds * 10 ^ ds'.length + val ds' := by
  rw [val, List.foldl_append, foldl_eq]
  rfl

/-- The value of a digit before digits. -/
theorem val_cons (d : Char) (ds : List Char) :
    val (d :: ds) = ((d.toNat : Int) - 48) * 10 ^ ds.length + val ds := by
  rw [val, List.foldl_cons, foldl_eq]
  ring

/-- A list of zeros has the value zero. -/
theorem val_zeros {ds : List Char} (h : ∀ c ∈ ds, c = '0') : val ds = 0 := by
  induction ds with
  | nil => rfl
  | cons d ds ih =>
    rw [val_cons, ih fun c hc => h c (List.mem_cons_of_mem d hc), h d (List.mem_cons_self ..)]
    simp

/-- Trailing zeros shift the value. -/
theorem val_append_zeros (ds : List Char) {zs : List Char} (h : ∀ c ∈ zs, c = '0') :
    val (ds ++ zs) = val ds * 10 ^ zs.length := by
  rw [val_append, val_zeros h, add_zero]

/-- The code of a digit. -/
theorem isDigit_toNat {c : Char} (h : c.isDigit = true) : 48 ≤ c.toNat ∧ c.toNat ≤ 57 := by
  simp only [Char.isDigit, Bool.and_eq_true, decide_eq_true_eq, UInt32.le_iff_toNat_le] at h
  exact h

/-- The value of digits is not negative. -/
theorem val_nonneg {ds : List Char} (h : ∀ c ∈ ds, c.isDigit = true) : 0 ≤ val ds := by
  induction ds with
  | nil => simp
  | cons d ds ih =>
    have hd := isDigit_toNat (h d (List.mem_cons_self ..))
    have hds := ih fun c hc => h c (List.mem_cons_of_mem d hc)
    have : 0 ≤ ((d.toNat : Int) - 48) * 10 ^ ds.length :=
      mul_nonneg (by omega) (by positivity)
    rw [val_cons]
    omega

/-- A number of `n` digits is below `10 ^ n`. -/
theorem val_lt {ds : List Char} (h : ∀ c ∈ ds, c.isDigit = true) : val ds < 10 ^ ds.length := by
  induction ds with
  | nil => simp
  | cons d ds ih =>
    have hd := isDigit_toNat (h d (List.mem_cons_self ..))
    have hds := ih fun c hc => h c (List.mem_cons_of_mem d hc)
    have : ((d.toNat : Int) - 48) * 10 ^ ds.length ≤ 9 * 10 ^ ds.length :=
      mul_le_mul_of_nonneg_right (by omega) (by positivity)
    rw [val_cons, List.length_cons, pow_succ]
    linarith

/-! ## Writing numbers -/

/-- The digits of a number, with zeros in front up to a width. -/
def pad (width n : Nat) : List Char := (Nat.toDigits 10 n).leftpad width '0'

/-- The digits of a number have its value. -/
theorem val_toDigits (n : Nat) : val (Nat.toDigits 10 n) = n := by
  induction n using Nat.strongRecOn with
  | ind n ih =>
    have hdigit (d : Nat) (hd : d < 10) : val [d.digitChar] = d := by
      rw [val_cons, Nat.toNat_digitChar_of_lt_ten hd]
      simp
    rcases Nat.lt_or_ge n 10 with h | h
    · rw [Nat.toDigits_of_lt_base h, hdigit n h]
    · rw [Nat.toDigits_of_base_le (by decide) h, val_append, ih (n / 10) (by omega),
        hdigit _ (Nat.mod_lt n (by decide)), List.length_singleton, pow_one]
      omega

/-- Zeros in front do not change it. -/
theorem val_pad (width n : Nat) : val (pad width n) = n := by
  rw [pad, List.leftpad, val_append, val_zeros fun c hc => List.eq_of_mem_replicate hc,
    val_toDigits, zero_mul, zero_add]

/-- A padded number is of digits. -/
theorem isDigit_of_mem_pad {width n : Nat} {c : Char} (h : c ∈ pad width n) :
    c.isDigit = true := by
  rcases List.mem_append.1 h with h | h
  · rw [List.eq_of_mem_replicate h]
    rfl
  · exact Nat.isDigit_of_mem_toDigits (by decide) (by decide) h

/-- A padded number has a digit. -/
theorem pad_ne_nil (width n : Nat) : pad width n ≠ [] :=
  List.append_ne_nil_of_right_ne_nil _ Nat.toDigits_ne_nil

/-- A number that the width has room for. -/
theorem length_pad {width n : Nat} (hwidth : 0 < width) (h : n < 10 ^ width) :
    (pad width n).length = width := by
  have hlen := (Nat.length_toDigits_le_iff (b := 10) (by decide) hwidth).2 h
  rw [pad, List.length_leftpad]
  omega

end Digits
