import Polyrust.Types

/-!
# Order parameters

The price and the size that an order is signed for (`orders.rs`): the venue-valid BUY that comes
closest to a target notional, and the SELL of whole size quanta.
-/

namespace Polyrust

open IntWidth

/-- The two amounts of an order on the price lattice. -/
structure BuyCanonicalTarget where
  size : Shares4
  makerAmount : UsdcCents
  deriving DecidableEq, Repr

/-- Why there is no such order. -/
inductive BuyCanonicalError where
  | priceOutOfRange (ticks : Int)
  | rawSizeBelowMin (priceTicks rawSizeTakerUnits minTakerUnits : Int)
  | noValidSizeWithinNotionalBounds (priceTicks targetCents maxAllowedCents minMakerCents : Int)
      (floor ceil : Option (Int × Int))
  deriving DecidableEq, Repr

/-- What an order is to cost, and its bounds. -/
structure BuyCanonicalInput where
  price : PriceTick
  targetMakerCents : Int
  minSizeTakerUnits : Int
  minMakerCents : Int
  maxOverrunCents : Int
  maxOverrunBps : Int
  deriving DecidableEq, Repr

/-- The highest maker amount of the risk band: the target and the larger of the two overruns. -/
def BuyCanonicalInput.maxAllowedCents (b : Build) (inp : BuyCanonicalInput) : Exec Int :=
  let bpsOverrunCents := (i64.saturatingMul inp.targetMakerCents inp.maxOverrunBps).tdiv 10000
  b.arith i64 (inp.targetMakerCents + max inp.maxOverrunCents bpsOverrunCents)

/-- The maker amount is in the risk band (`in_band`). -/
def BuyCanonicalInput.inBand (inp : BuyCanonicalInput) (maxAllowedCents : Int)
    (maker : UsdcCents) : Bool :=
  inp.minMakerCents ≤ maker.cents && maker.cents ≤ maxAllowedCents

/-- `canonical_buy_target_for_notional`: the size rounded up if that is in the band, else the size
rounded down if that is, else the size rounded up. -/
def canonicalBuyTargetForNotional (b : Build) (inp : BuyCanonicalInput) :
    Exec (Except BuyCanonicalError BuyCanonicalTarget) := do
  let priceTicks := inp.price.ticks
  if ¬ (MIN_PRICE_TICK ≤ priceTicks ∧ priceTicks ≤ MAX_PRICE_TICK) then
    return .error (.priceOutOfRange priceTicks)
  let some numer := i64.checked (inp.targetMakerCents * 100) | throw .overflow
  let rawIn001 ← b.arith i64 (numer / priceTicks + if 0 < numer % priceTicks then 1 else 0)
  let some rawSize := i64.checked (rawIn001 * 100) | throw .overflow
  if rawSize < inp.minSizeTakerUnits then
    return .error (.rawSizeBelowMin priceTicks rawSize inp.minSizeTakerUnits)
  let mult := buySizeMultipleTakerUnits priceTicks
  let floorSize := floorToMultiple rawSize mult
  let ceilSize ← ceilToMultiple b rawSize mult
  let floorMaker := makerCentsFor priceTicks floorSize
  let ceilMaker := makerCentsFor priceTicks ceilSize
  let maxAllowedCents ← inp.maxAllowedCents b
  let ceilOk := ceilMaker.any (fun maker => inp.minMakerCents ≤ maker.cents) &&
    decide (inp.minSizeTakerUnits ≤ ceilSize)
  if ceilOk && ceilMaker.any (inp.inBand maxAllowedCents) then
    return .ok ⟨⟨ceilSize⟩, ceilMaker.getD ⟨0⟩⟩
  if let some maker := floorMaker then
    if inp.inBand maxAllowedCents maker && decide (inp.minSizeTakerUnits ≤ floorSize) then
      return .ok ⟨⟨floorSize⟩, maker⟩
  if ceilOk then return .ok ⟨⟨ceilSize⟩, ceilMaker.getD ⟨0⟩⟩
  return .error (.noValidSizeWithinNotionalBounds priceTicks inp.targetMakerCents maxAllowedCents
    inp.minMakerCents (floorMaker.map fun maker => (floorSize, maker.cents))
    (ceilMaker.map fun maker => (ceilSize, maker.cents)))

/-- `canonical_sell_params`: the size floored to the SELL quantum. -/
def canonicalSellParams (price : PriceTick) (rawSizeTakerUnits : Int) : PriceTick × Shares2 :=
  (price, Shares2.floorFromShares4 ⟨rawSizeTakerUnits⟩)

/-- A size of whole SELL quanta is kept. -/
theorem canonicalSellParams_of_quanta (price : PriceTick) (units : Int) :
    canonicalSellParams price (units * 100) = (price, ⟨units⟩) := by
  simp [canonicalSellParams, Shares2.floorFromShares4]

/-- A price whose lattice step is wider than the band: the size rounded up is taken. -/
example :
    canonicalBuyTargetForNotional ⟨true⟩ ⟨⟨67⟩, 101, 100, 100, 1, 0⟩ =
      .ok (.ok ⟨⟨20000⟩, ⟨134⟩⟩) := by
  decide +kernel

end Polyrust
