import Polyrust.Text
import Polyrust.Types

/-!
# Venue decimals

The parser of venue decimals (`parse_decimal_scaled`, `types.rs`) and the two quantities read with
it. The parser slices its text at byte offsets, and adds and multiplies without checks, so that it
may abort: the result is a computation (`Exec`) of an optional value.
-/

namespace Polyrust

open IntWidth

/-- The value of a digit. -/
def digitVal (c : Char) : Int := (c.toNat : Int) - 48

/-- `str::parse::<i64>`: an optional sign, at least one ASCII digit, a value in range. -/
def parseI64 (s : List Char) : Option Int :=
  let (sign, digits) : Int × List Char :=
    match s with
    | '-' :: rest => (-1, rest)
    | '+' :: rest => (1, rest)
    | _ => (1, s)
  if digits.isEmpty || !digits.all Char.isDigit then none
  else i64.checked (sign * digits.foldl (fun n c => n * 10 + digitVal c) 0)

/-- The loop of `decimal_scale_digits`; every round divides `n`, so `fuel = n` rounds are enough. -/
def decimalScaleDigitsLoop : Nat → Int → Nat → Option Nat
  | 0, _, digits => some digits
  | fuel + 1, n, digits =>
    if 1 < n then
      if n % 10 ≠ 0 then none else decimalScaleDigitsLoop fuel (n / 10) (digits + 1)
    else some digits

/-- `decimal_scale_digits`: the exponent of a power of ten. -/
def decimalScaleDigits (scale : Int) : Option Nat := decimalScaleDigitsLoop scale.toNat scale 0

/-- A byte slice (`&s[..n]` and `&s[n..]`), which aborts inside a character. -/
def sliceAt (n : Nat) (s : List Char) : Exec (List Char × List Char) :=
  match Text.splitAtByte n s with
  | some parts => .ok parts
  | none => .error .charBoundary

/-- `parse_decimal_scaled`: a decimal times a power of ten; none on digits that the scale does not
have room for, unless they are zeros. -/
def parseDecimalScaled (b : Build) (raw : List Char) (scale : Int) : Exec (Option Int) := do
  let raw := Text.trim raw
  if raw.isEmpty || scale ≤ 0 then return none
  let (sign, body) : Int × List Char :=
    match raw with
    | '-' :: rest => (-1, rest)
    | '+' :: rest => (1, rest)
    | _ => (1, raw)
  let wholeStr := body.takeWhile (· ≠ '.')
  let fracStr := (body.dropWhile (· ≠ '.')).drop 1
  let some whole := if wholeStr.isEmpty then some 0 else parseI64 wholeStr | return none
  let some scaleDigits := decimalScaleDigits scale | return none
  if scaleDigits < Text.byteLen fracStr then
    let (_, tail) ← sliceAt scaleDigits fracStr
    if !tail.all (· == '0') then return none
  let keep := min (Text.byteLen fracStr) scaleDigits
  let (kept, _) ← sliceAt keep fracStr
  let fracPadded := kept ++ List.replicate (scaleDigits - Text.byteLen kept) '0'
  let some frac := if fracPadded.isEmpty then some 0 else parseI64 fracPadded | return none
  let some scaled := i64.checked (whole * scale) | return none
  let value ← b.arith i64 (scaled + frac)
  let value ← b.arith i64 (sign * value)
  return some value

/-- The fraction of `parse_dec_cents`, in cents: by the number of its bytes, where digits beyond the
second have to be zeros. -/
def centsFraction (b : Build) (fracStr : List Char) : Exec (Option Int) := do
  match Text.byteLen fracStr with
  | 0 => return some 0
  | 1 =>
    let some digit := parseI64 fracStr | return none
    return some (← b.arith i64 (digit * 10))
  | 2 => return parseI64 fracStr
  | _ =>
    let (kept, tail) ← sliceAt 2 fracStr
    if tail.all (· == '0') then return parseI64 kept else return none

/-- `parse_dec_cents`: the decimals of the configuration, in cents. -/
def parseDecCents (b : Build) (raw : List Char) : Exec (Option Int) := do
  if raw.isEmpty then return none
  let (sign, body) : Int × List Char :=
    match raw with
    | '-' :: rest => (-1, rest)
    | '+' :: rest => (1, rest)
    | _ => (1, raw)
  let wholeStr := body.takeWhile (· ≠ '.')
  let fracStr := (body.dropWhile (· ≠ '.')).drop 1
  let some whole := if wholeStr.isEmpty then some 0 else parseI64 wholeStr | return none
  let some frac ← centsFraction b fracStr | return none
  let value ← b.arith i64 ((← b.arith i64 (whole * 100)) + frac)
  return some (← b.arith i64 (sign * value))

/-- `PriceTick::parse_decimal`: fails on sub-cent precision instead of rounding. -/
def PriceTick.parseDecimal (b : Build) (raw : List Char) : Exec (Except TypeError PriceTick) := do
  let some ticks ← parseDecimalScaled b raw PRICE_TICKS_PER_DOLLAR | return .error .invalidDecimal
  let some ticks := i32.checked ticks | return .error (.priceOutOfRange (-1))
  return PriceTick.checked ticks

/-- `SharesAtoms::parse_decimal`: fails on sub-atom precision and on negative amounts. -/
def SharesAtoms.parseDecimal (b : Build) (raw : List Char) :
    Exec (Except TypeError SharesAtoms) := do
  let some atoms ← parseDecimalScaled b raw ATOMS_PER_DOLLAR | return .error .invalidDecimal
  if atoms < 0 then return .error .negativeAmount
  return .ok ⟨atoms⟩

/-- A parsed share amount is not negative. -/
theorem SharesAtoms.parseDecimal_nonneg {b : Build} {raw : List Char} {size : SharesAtoms}
    (h : SharesAtoms.parseDecimal b raw = .ok (.ok size)) : 0 ≤ size.atoms := by
  obtain ⟨value, -, h⟩ := Except.ok_bind_inv h
  cases value with
  | none => cases h
  | some atoms =>
    dsimp only at h
    split at h
    · cases h
    · next hn =>
      cases h
      exact Int.not_lt.1 hn

/-- A size of six digits, a price with too many digits. -/
example : SharesAtoms.parseDecimal ⟨true⟩ "1.416664".toList = .ok (.ok ⟨1416664⟩) := by
  decide +kernel

example : PriceTick.parseDecimal ⟨true⟩ "0.591".toList = .ok (.error .invalidDecimal) := by
  decide +kernel

end Polyrust
