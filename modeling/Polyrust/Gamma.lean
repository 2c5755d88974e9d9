import Polyrust.Decimal

/-!
# Gamma end times

The parser of the ISO-8601 timestamps that Gamma gives for the end of a market
(`parse_gamma_iso8601`, `gamma.rs`). It strips a zone of zero and the fraction, splits the rest at
its separators and counts days by the Julian day number, in plain arithmetic.
-/

namespace Polyrust

open IntWidth

namespace Gamma

/-- The fields of a timestamp. -/
structure CivilTime where
  year : Int
  month : Int
  day : Int
  hour : Int
  min : Int
  sec : Int
  deriving DecidableEq, Repr

/-- A timestamp without quotes, a zone of zero, and the fraction. -/
def timestampBody (raw : List Char) : List Char :=
  let body := Text.trimMatches '\x22' (Text.trim raw)
  let body :=
    ((Text.stripSuffix ['Z'] body).or (Text.stripSuffix "+00:00".toList body)).getD body
  body.takeWhile (· ≠ '.')

/-- The characters a timestamp is split at. -/
def isSeparator (c : Char) : Bool := c == '-' || c == 'T' || c == ':'

/-- The first six parts, as numbers; what follows them is ignored. -/
def readFields : List (List Char) → Option CivilTime
  | year :: month :: day :: hour :: min :: sec :: _ => do
    return { year := ← parseI64 year, month := ← parseI64 month, day := ← parseI64 day
             hour := ← parseI64 hour, min := ← parseI64 min, sec := ← parseI64 sec }
  | _ => none

/-- The days from 1970-01-01, by the Julian day number. -/
def epochDays (b : Build) (time : CivilTime) : Exec Int := do
  let a := (← b.arith i64 (14 - time.month)).tdiv 12
  let y ← b.arith i64 ((← b.arith i64 (time.year + 4800)) - a)
  let m ← b.arith i64 ((← b.arith i64 (time.month + (← b.arith i64 (12 * a)))) - 3)
  let months := (← b.arith i64 ((← b.arith i64 (153 * m)) + 2)).tdiv 5
  let jdn ← b.arith i64 (time.day + months)
  let jdn ← b.arith i64 (jdn + (← b.arith i64 (365 * y)))
  let jdn ← b.arith i64 (jdn + y.tdiv 4)
  let jdn ← b.arith i64 (jdn - y.tdiv 100)
  let jdn ← b.arith i64 (jdn + y.tdiv 400)
  let jdn ← b.arith i64 (jdn - 32045)
  b.arith i64 (jdn - 2440588)

/-- The seconds from 1970-01-01T00:00:00. -/
def unixSeconds (b : Build) (time : CivilTime) : Exec Int := do
  let days ← epochDays b time
  let secs ← b.arith i64 (days * 86400)
  let secs ← b.arith i64 (secs + (← b.arith i64 (time.hour * 3600)))
  let secs ← b.arith i64 (secs + (← b.arith i64 (time.min * 60)))
  b.arith i64 (secs + time.sec)

/-- `parse_gamma_iso8601`. -/
def parseGammaIso8601 (b : Build) (raw : List Char) : Exec (Option Int) :=
  match readFields ((timestampBody raw).splitOnP isSeparator) with
  | some time => do return some (← unixSeconds b time)
  | none => .ok none

example : parseGammaIso8601 ⟨true⟩ "2026-05-10T12:00:00.123Z".toList = .ok (some 1778414400) := by
  decide +kernel

end Gamma

end Polyrust
