import Polyrust.Lib.Arith

/-!
# Venue types

Fixed-point quantities and identifiers (`types.rs`). Every venue-facing value is an integer in its
native step: prices in cents (`PriceTick`), share amounts in 1e-6 shares (`SharesAtoms`), sellable
sizes in 0.01 shares (`Shares2`), times in microseconds (`TsUs`). Identifiers are strings.
-/

namespace Polyrust

open IntWidth

/-- Lowest tradeable price in ticks. -/
def MIN_PRICE_TICK : Int := 1

/-- Highest tradeable price in ticks. -/
def MAX_PRICE_TICK : Int := 99

/-- Number of $0.01 ticks per dollar. -/
def PRICE_TICKS_PER_DOLLAR : Int := 100

/-- Atoms per dollar, and per share, in signed body amounts. -/
def ATOMS_PER_DOLLAR : Int := 1000000

/-- Why a venue value is refused. -/
inductive TypeError where
  | priceOutOfRange (ticks : Int)
  | invalidDecimal
  | negativeAmount
  deriving DecidableEq, Repr

/-- Integer ticks of $0.01. -/
structure PriceTick where
  ticks : Int
  deriving DecidableEq, Repr

/-- `PriceTick::checked`: a price in the tradeable range. -/
def PriceTick.checked (ticks : Int) : Except TypeError PriceTick :=
  if MIN_PRICE_TICK ≤ ticks ∧ ticks ≤ MAX_PRICE_TICK then .ok ⟨ticks⟩
  else .error (.priceOutOfRange ticks)

/-- The larger of two prices (`Ord::max`). -/
def PriceTick.max (p q : PriceTick) : PriceTick := if q.ticks < p.ticks then p else q

/-- Share count in 0.0001-share units. -/
structure Shares4 where
  units : Int
  deriving DecidableEq, Repr

/-- Share count in 0.01-share units. -/
structure Shares2 where
  units : Int
  deriving DecidableEq, Repr

/-- `Shares2::floor_from_shares4`: the 4-digit share count floored to the SELL quantum. -/
def Shares2.floorFromShares4 (s : Shares4) : Shares2 := ⟨s.units / 100⟩

/-- Amount in cents, the step of a BUY's maker amount. -/
structure UsdcCents where
  cents : Int
  deriving DecidableEq, Repr

/-- Share amount in 1e-6 share units. -/
structure SharesAtoms where
  atoms : Int
  deriving DecidableEq, Repr

/-- Microsecond timestamp. -/
structure TsUs where
  micros : Int
  deriving DecidableEq, Repr

/-- The id of an outcome token. -/
structure TokenId where
  str : String
  deriving DecidableEq, Repr

/-- The id of a market. -/
structure ConditionId where
  str : String
  deriving DecidableEq, Repr

/-- The id of an order at the venue. -/
structure OrderId where
  str : String
  deriving DecidableEq, Repr

/-- The id of a trade. -/
structure TradeId where
  str : String
  deriving DecidableEq, Repr

/-- The side of an order. -/
inductive OrderSide where
  | buy
  | sell
  deriving DecidableEq, Repr

/-- The opposite side. -/
def OrderSide.reverse : OrderSide → OrderSide
  | .buy => .sell
  | .sell => .buy

/-- The leg of a binary outcome market. -/
inductive OutcomeSide where
  | yes
  | no
  deriving DecidableEq, Repr

/-- What belongs to a side. -/
def OutcomeSide.pick {α : Type} (yes no : α) : OutcomeSide → α
  | .yes => yes
  | .no => no

/-- A checked price is in the tradeable range. -/
theorem PriceTick.checked_ok {ticks : Int} {p : PriceTick} (h : PriceTick.checked ticks = .ok p) :
    p.ticks = ticks ∧ MIN_PRICE_TICK ≤ ticks ∧ ticks ≤ MAX_PRICE_TICK := by
  unfold PriceTick.checked at h
  split at h
  · next hr => cases h; exact ⟨rfl, hr⟩
  · cases h

/-! ## The lattice of order amounts -/

/-- The loop of `gcd`; every round makes the second number smaller, so that one round more than it
counts is enough. -/
def gcdLoop : Nat → Int → Int → Int
  | 0, a, _ => a
  | fuel + 1, a, b => if b ≠ 0 then gcdLoop fuel b (a.tmod b) else a

/-- `gcd`. The runtime takes it of a price and of 10000 only, whose negations are in range. -/
def gcd (a b : Int) : Int :=
  let a := if a < 0 then -a else a
  let b := if b < 0 then -b else b
  gcdLoop (b.toNat + 1) a b

/-- `buy_size_multiple_taker_units`: the smallest size at which a price makes whole cents. -/
def buySizeMultipleTakerUnits (priceTicks : Int) : Int :=
  let denom : Int := 10000
  let g := gcd priceTicks denom
  denom.tdiv g

/-- `floor_to_multiple`; what it returns is no further from zero than what it is given. -/
def floorToMultiple (rawTakerUnits multTakerUnits : Int) : Int :=
  if multTakerUnits ≤ 0 then rawTakerUnits
  else rawTakerUnits.tdiv multTakerUnits * multTakerUnits

/-- `ceil_to_multiple`. -/
def ceilToMultiple (b : Build) (rawTakerUnits multTakerUnits : Int) : Exec Int :=
  if multTakerUnits ≤ 0 then .ok rawTakerUnits
  else
    let r := rawTakerUnits.tmod multTakerUnits
    if r = 0 then .ok rawTakerUnits
    else do
      let up ← b.arith i64 (multTakerUnits - r)
      b.arith i64 (rawTakerUnits + up)

/-- `maker_cents_for`: none when the price times the size is no whole number of cents. -/
def makerCentsFor (priceTicks sizeTakerUnits : Int) : Option UsdcCents := do
  let product ← i64.checked (priceTicks * sizeTakerUnits)
  if product.tmod 10000 ≠ 0 then none else some ⟨product.tdiv 10000⟩

end Polyrust
