import Mathlib.Algebra.Module.Defs
import Mathlib.Data.ZMod.Basic

/-!
# Recoverable signatures

Signatures over a group of odd order `n`, as a module over the integers modulo `n`: two numbers `r`
and `s`, and a recovery id that says which of the points with the number `r` the signature is of.
The negated `s` belongs to the negated point: with the parity of the recovery id flipped it
recovers the same key (`Curve.recovers_neg_flip`), and with the same recovery id it does not
(`Curve.not_recovers_neg`).
-/

namespace Ecdsa

/-- Two numbers from 1 to `n - 1`. -/
@[ext] structure Signature (n : Nat) where
  r : Nat
  s : Nat
  r_range : 0 < r ∧ r < n
  s_range : 0 < s ∧ s < n
  deriving DecidableEq, Repr

/-- The parity of the second coordinate of the point, and whether the first one was reduced. -/
@[ext] structure RecoveryId where
  toByte : UInt8
  le_three : toByte ≤ 3
  deriving DecidableEq, Repr

namespace Signature

variable {n : Nat} (sig : Signature n)

/-- `s` is in the upper half. -/
def IsHigh : Prop := n / 2 < sig.s

instance : Decidable sig.IsHigh := inferInstanceAs (Decidable (_ < _))

/-- The signature with `-s`. -/
def neg : Signature n :=
  { sig with
    s := n - sig.s
    s_range := ⟨Nat.sub_pos_of_lt sig.s_range.2, Nat.sub_lt_self sig.s_range.1 sig.s_range.2.le⟩ }

/-- The signature with the lower one of `s` and `-s`. -/
def low : Signature n := if sig.IsHigh then sig.neg else sig

/-- The low signature is low. -/
theorem low_not_high : ¬sig.low.IsHigh := by
  have hs := sig.s_range
  unfold low
  split
  · next h =>
    unfold IsHigh at h ⊢
    simp only [neg]
    omega
  · next h => exact h

end Signature

namespace RecoveryId

/-- `RecoveryId::try_from`. -/
def tryFrom (byte : UInt8) : Option RecoveryId := if h : byte ≤ 3 then some ⟨byte, h⟩ else none

/-- There are four recovery ids. -/
theorem byte_cases {byte : UInt8} (h : byte ≤ 3) :
    byte = 0 ∨ byte = 1 ∨ byte = 2 ∨ byte = 3 := by
  have hle : byte.toNat ≤ 3 := UInt8.le_iff_toNat_le.1 h
  simp only [← UInt8.toNat_inj, UInt8.reduceToNat]
  omega

/-- Flipping the last bit gives a recovery id. -/
theorem xor_one_le {byte : UInt8} (h : byte ≤ 3) : byte ^^^ 1 ≤ 3 := by
  rcases byte_cases h with rfl | rfl | rfl | rfl <;> decide

/-- The other parity. -/
def flip (rid : RecoveryId) : RecoveryId := ⟨rid.toByte ^^^ 1, xor_one_le rid.le_three⟩

end RecoveryId

/-- The second coordinate of the point is even. -/
def RecoveryId.IsEven (rid : RecoveryId) : Prop := rid.toByte &&& 1 = 0

instance (rid : RecoveryId) : Decidable rid.IsEven := inferInstanceAs (Decidable (_ = _))

/-- Flipping changes the parity. -/
theorem RecoveryId.isEven_flip (rid : RecoveryId) : rid.flip.IsEven ↔ ¬rid.IsEven := by
  have hxor (byte : UInt8) (h : byte ≤ 3) : (byte ^^^ 1) &&& 1 = 0 ↔ ¬byte &&& 1 = 0 := by
    rcases byte_cases h with rfl | rfl | rfl | rfl <;> decide
  exact hxor rid.toByte rid.le_three

/-- A group of order `n` as the recovery of keys sees it: a generator, and the point that a number
and a recovery id stand for. The other parity stands for the negated point, and only multiples of
`n` annihilate a point. -/
structure Curve (n : Nat) (P : Type) [AddCommGroup P] [Module (ZMod n) P] where
  generator : P
  lift : Nat → RecoveryId → Option P
  lift_flip : ∀ r rid, lift r rid.flip = (lift r rid).map Neg.neg
  eq_zero_of_smul : ∀ r rid R, lift r rid = some R → ∀ a : ZMod n, a • R = 0 → a = 0

namespace Curve

section
variable {n : Nat} {P : Type} [AddCommGroup P] [Module (ZMod n) P] (curve : Curve n P)
  {z : ZMod n} {sig : Signature n} {rid : RecoveryId} {key : P}

/-- The key that a signature of `z` is recovered to. -/
def Recovers (z : ZMod n) (sig : Signature n) (rid : RecoveryId) (key : P) : Prop :=
  ∃ R, curve.lift sig.r rid = some R ∧
    (sig.s : ZMod n) • R = z • curve.generator + (sig.r : ZMod n) • key

/-- The negated s, in the field. -/
theorem cast_neg_s : (sig.neg.s : ZMod n) = -(sig.s : ZMod n) := by
  rw [Signature.neg, Nat.cast_sub sig.s_range.2.le, ZMod.natCast_self, zero_sub]

/-- The negated `s` with the other parity recovers the same key. -/
theorem recovers_neg_flip (h : curve.Recovers z sig rid key) :
    curve.Recovers z sig.neg rid.flip key := by
  obtain ⟨R, hR, heq⟩ := h
  refine ⟨-R, ?_, ?_⟩
  · have hr : sig.neg.r = sig.r := rfl
    rw [hr, curve.lift_flip, hR, Option.map_some]
  · rw [cast_neg_s, neg_smul_neg, heq]
    rfl

/-- The negated `s` with the same parity does not. -/
theorem not_recovers_neg (hn : Odd n) (h : curve.Recovers z sig rid key) :
    ¬curve.Recovers z sig.neg rid key := by
  obtain ⟨R, hR, heq⟩ := h
  rintro ⟨R', hR', heq'⟩
  have hr : sig.neg.r = sig.r := rfl
  rw [hr] at hR' heq'
  obtain rfl : R = R' := Option.some.inj (hR.symm.trans hR')
  have hneg : -((sig.s : ZMod n) • R) = (sig.s : ZMod n) • R := by
    rw [← neg_smul, ← cast_neg_s, heq', heq]
  have hsum : (2 * (sig.s : ZMod n)) • R = 0 := by
    rw [two_mul, add_smul]
    nth_rewrite 1 [← hneg]
    exact neg_add_cancel _
  have hzero := curve.eq_zero_of_smul _ _ _ hR _ hsum
  have hdvd : n ∣ 2 * sig.s := by
    rw [← ZMod.natCast_eq_zero_iff]
    push_cast
    exact hzero
  have hs : n ∣ sig.s := (Nat.Coprime.dvd_mul_left (Nat.coprime_two_right.2 hn)).1 hdvd
  exact absurd (Nat.le_of_dvd sig.s_range.1 hs) (not_le.2 sig.s_range.2)

/-- A group of order `n` by discrete logarithms, where `k` is the logarithm of the only point that
is known, with the number `r`. -/
def ofLog (n r k : Nat) (hk : IsUnit (k : ZMod n)) : Curve n (ZMod n) where
  generator := 1
  lift r' rid := if r' = r then some (if rid.IsEven then k else -k) else none
  lift_flip r' rid := by
    by_cases hr : r' = r
    · rw [if_pos hr, if_pos hr, Option.map_some]
      by_cases h : rid.IsEven
      · rw [if_pos h, if_neg fun h' => (rid.isEven_flip.1 h') h]
      · rw [if_neg h, if_pos (rid.isEven_flip.2 h), neg_neg]
    · rw [if_neg hr, if_neg hr]
      rfl
  eq_zero_of_smul r' rid R hR a ha := by
    have hunit : IsUnit R := by
      split at hR
      · cases hR
        split
        · exact hk
        · exact hk.neg
      · cases hR
    exact (hunit.mul_left_eq_zero).1 ha

/-- A signature that solves the signing equation. -/
theorem ofLog_recovers {r k d z : Nat} {hk : IsUnit (k : ZMod n)} (hr : sig.r = r)
    (hrid : rid.IsEven) (h : sig.s * k % n = (z + sig.r * d) % n) :
    (ofLog n r k hk).Recovers z sig rid d := by
  have heq : ((sig.s * k : Nat) : ZMod n) = ((z + sig.r * d : Nat) : ZMod n) :=
    (ZMod.natCast_eq_natCast_iff' _ _ _).2 h
  push_cast at heq
  have hlift : (ofLog n r k hk).lift sig.r rid =
      if sig.r = r then some (if rid.IsEven then (k : ZMod n) else -k) else none := rfl
  refine ⟨k, ?_, ?_⟩
  · rw [hlift, if_pos hr, if_pos hrid]
  · rw [smul_eq_mul, heq, ofLog, smul_eq_mul, smul_eq_mul, mul_one]

/-- A number with an inverse is a unit. -/
theorem isUnit_of_mul_mod {k : Nat} (inv : Nat) (h : k * inv % n = 1 % n) :
    IsUnit (k : ZMod n) := by
  have hmul : ((k * inv : Nat) : ZMod n) = ((1 : Nat) : ZMod n) :=
    (ZMod.natCast_eq_natCast_iff' _ _ _).2 h
  push_cast at hmul
  exact IsUnit.of_mul_eq_one _ hmul

end

end Curve

end Ecdsa
