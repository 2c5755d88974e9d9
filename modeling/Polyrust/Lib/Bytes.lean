import Mathlib.Algebra.Order.Ring.Nat
import Mathlib.Data.List.Induction
import Mathlib.Tactic.Ring

/-!
# Big-endian bytes

Lists of bytes of a fixed length, and the numbers written in them with the highest byte first. A
number that the length has room for is read back (`natFromBe_natToBe`), so that its bytes determine
it (`natToBe_inj`), and bytes are written back (`natToBe_natFromBe`). Zeros before the bytes of a
number make a longer list of its bytes (`replicate_append_natToBe`).
-/

/-- A list of bytes of a fixed length. -/
@[ext]
structure Bytes (len : Nat) where
  toList : List UInt8
  length_eq : toList.length = len
  deriving DecidableEq, Repr

namespace Bytes

/-- The last `len` bytes of a number. -/
def natToBe : Nat → Nat → List UInt8
  | 0, _ => []
  | len + 1, n => natToBe len (n / 256) ++ [UInt8.ofNat (n % 256)]

/-- A number takes the bytes it is given. -/
@[simp] theorem length_natToBe (len n : Nat) : (natToBe len n).length = len := by
  induction len generalizing n with
  | zero => rfl
  | succ len ih => rw [natToBe, List.length_append, ih, List.length_singleton]

/-- The last bytes of a number, with their length. -/
def ofNat (len n : Nat) : Bytes len := ⟨natToBe len n, length_natToBe len n⟩

/-- The number of a list of bytes. -/
def natFromBe (bytes : List UInt8) : Nat := bytes.foldl (fun n byte => 256 * n + byte.toNat) 0

/-- A number is read back from its bytes, as far as they go. -/
theorem natFromBe_natToBe (len n : Nat) : natFromBe (natToBe len n) = n % 256 ^ len := by
  induction len generalizing n with
  | zero => rw [natToBe, pow_zero, Nat.mod_one]; rfl
  | succ len ih =>
    have hbyte : (UInt8.ofNat (n % 256)).toNat = n % 256 :=
      Nat.mod_eq_of_lt (Nat.mod_lt n (by decide))
    rw [natFromBe, natToBe, List.foldl_append, ← natFromBe, ih, List.foldl_cons, List.foldl_nil,
      hbyte, pow_succ', Nat.mod_mul]
    ring

/-- Numbers that fit have different bytes. -/
theorem natToBe_inj {len m n : Nat} (hm : m < 256 ^ len) (hn : n < 256 ^ len) :
    natToBe len m = natToBe len n ↔ m = n := by
  refine ⟨?_, ?_⟩
  · intro h
    have hnum := congrArg natFromBe h
    rwa [natFromBe_natToBe, natFromBe_natToBe, Nat.mod_eq_of_lt hm, Nat.mod_eq_of_lt hn] at hnum
  · rintro rfl
    rfl

/-- The last byte counts least. -/
theorem natFromBe_concat (bytes : List UInt8) (byte : UInt8) :
    natFromBe (bytes ++ [byte]) = 256 * natFromBe bytes + byte.toNat := by
  rw [natFromBe, List.foldl_append]
  rfl

/-- The number of some bytes is one that their length has room for. -/
theorem natFromBe_lt (bytes : List UInt8) : natFromBe bytes < 256 ^ bytes.length := by
  induction bytes using List.reverseRecOn with
  | nil => exact Nat.one_pos
  | append_singleton bytes byte ih =>
    have hbyte := byte.toNat_lt
    rw [natFromBe_concat, List.length_append, List.length_singleton, pow_succ]
    omega

/-- Bytes hold a number of so many bits. -/
theorem natFromBe_lt_two_pow {len : Nat} (bytes : Bytes len) :
    natFromBe bytes.toList < 2 ^ (8 * len) := by
  have h := natFromBe_lt bytes.toList
  rwa [bytes.length_eq, show 256 = 2 ^ 8 from rfl, ← Nat.pow_mul] at h

/-- The bytes of a number that was read are those that it was read from. -/
theorem natToBe_natFromBe (bytes : List UInt8) :
    natToBe bytes.length (natFromBe bytes) = bytes := by
  induction bytes using List.reverseRecOn with
  | nil => rfl
  | append_singleton bytes byte ih =>
    have hdiv : (256 * natFromBe bytes + byte.toNat) / 256 = natFromBe bytes := by
      have hbyte := byte.toNat_lt
      omega
    have hmod : (256 * natFromBe bytes + byte.toNat) % 256 = byte.toNat := by
      have hbyte := byte.toNat_lt
      omega
    rw [natFromBe_concat, List.length_append, List.length_singleton, natToBe, hdiv, hmod, ih,
      UInt8.ofNat_toNat]

/-- Bytes of a given length are those of their number. -/
theorem natToBe_toList {len : Nat} (bytes : Bytes len) :
    natToBe len (natFromBe bytes.toList) = bytes.toList := by
  have h := natToBe_natFromBe bytes.toList
  rwa [bytes.length_eq] at h

/-- Bytes of one length with the same number are the same. -/
theorem natFromBe_toList_inj {len : Nat} {xs ys : Bytes len} :
    natFromBe xs.toList = natFromBe ys.toList ↔ xs = ys := by
  refine ⟨fun h => ?_, fun h => by rw [h]⟩
  apply Bytes.ext
  rw [← natToBe_toList xs, h, natToBe_toList]

/-- Zero is zero bytes. -/
theorem natToBe_zero (len : Nat) : natToBe len 0 = List.replicate len 0 := by
  induction len with
  | zero => rfl
  | succ len ih =>
    rw [natToBe, ih, List.replicate_succ']
    rfl

/-- Zeros in front do not change the number. -/
theorem replicate_append_natToBe {len n : Nat} (m : Nat) (h : n < 256 ^ len) :
    List.replicate m 0 ++ natToBe len n = natToBe (m + len) n := by
  induction len generalizing n with
  | zero =>
    rw [pow_zero, Nat.lt_one_iff] at h
    rw [h, Nat.add_zero, natToBe_zero m]
    exact List.append_nil _
  | succ len ih =>
    have hdiv : n / 256 < 256 ^ len := by
      rw [pow_succ] at h
      exact Nat.div_lt_of_lt_mul (by rwa [mul_comm] at h)
    rw [natToBe, ← List.append_assoc, ih hdiv, ← Nat.add_assoc, natToBe]

end Bytes
