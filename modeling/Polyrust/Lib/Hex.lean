import Mathlib.Data.List.Basic

/-!
# Hexadecimal

Bytes as pairs of hexadecimal digits. They are written in lower case and read in either case, and a
text that was written is read back (`decode_encode`).
-/

namespace Hex

/-- The digit of a number below sixteen. -/
def digit (n : Nat) : Char := if n < 10 then Char.ofNat (48 + n) else Char.ofNat (87 + n)

/-- The number of a digit. -/
def val (c : Char) : Option Nat :=
  let n := c.toNat
  if 48 ≤ n ∧ n ≤ 57 then some (n - 48)
  else if 97 ≤ n ∧ n ≤ 102 then some (n - 87)
  else if 65 ≤ n ∧ n ≤ 70 then some (n - 55)
  else none

/-- The digits of bytes. -/
def encodeChars : List UInt8 → List Char
  | [] => []
  | byte :: bytes => digit (byte.toNat / 16) :: digit (byte.toNat % 16) :: encodeChars bytes

/-- The bytes of digits. -/
def decodeChars : List Char → Option (List UInt8)
  | [] => some []
  | [_] => none
  | high :: low :: rest => do
    let h ← val high
    let l ← val low
    let bytes ← decodeChars rest
    return UInt8.ofNat (16 * h + l) :: bytes

/-- The text of bytes. -/
def encode (bytes : List UInt8) : String := String.ofList (encodeChars bytes)

/-- The bytes of a text. -/
def decode (text : String) : Option (List UInt8) := decodeChars text.toList

/-- A digit has its value. -/
theorem val_digit : ∀ n < 16, val (digit n) = some n := by decide

/-- What is written is read back. -/
theorem decodeChars_encodeChars (bytes : List UInt8) :
    decodeChars (encodeChars bytes) = some bytes := by
  induction bytes with
  | nil => rfl
  | cons byte bytes ih =>
    have hlt := byte.toNat_lt
    have hhigh := val_digit (byte.toNat / 16) (by omega)
    have hlow := val_digit (byte.toNat % 16) (by omega)
    have hbyte : 16 * (byte.toNat / 16) + byte.toNat % 16 = byte.toNat := by omega
    simp only [encodeChars, decodeChars, hhigh, hlow, ih, Option.bind_eq_bind, Option.bind_some,
      hbyte, UInt8.ofNat_toNat]
    rfl

/-- What was written is read back. -/
theorem decode_encode (bytes : List UInt8) : decode (encode bytes) = some bytes := by
  rw [decode, encode, String.toList_ofList, decodeChars_encodeChars]

end Hex
