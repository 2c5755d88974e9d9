import Polyrust.Decimal
import Polyrust.Lib.Refusal
import Polyrust.Signal

/-!
# Configuration

The validated configuration of the runtime (`config.rs`): how it is read from the environment, and
what the runtime core takes from it, the parameters of the signal engine, which a price limit out of
range makes impossible to build, and the policy of the BUY submits.
-/

namespace Polyrust

open IntWidth

/-- Why a configuration is refused. -/
inductive ConfigError where
  | missing (name : String)
  | invalid (name : String) (reason : String)
  | bandIncoherent (min max : Int)
  deriving DecidableEq, Repr

/-- The text of a refused venue value. -/
def TypeError.toText : TypeError → String
  | .priceOutOfRange ticks => "price_out_of_range ticks=" ++ ticks.repr
  | .invalidDecimal => "invalid_decimal"
  | .negativeAmount => "negative_amount"

/-- The bounds on what a BUY may cost. -/
structure BuySubmitPolicy where
  targetMakerCents : Int
  minSizeTakerUnits : Int
  minMakerCents : Int
  maxOverrunCents : Int
  maxOverrunBps : Int
  deriving DecidableEq, Repr

/-- What the program runs with, read from its environment. -/
structure Config (F : Type) where
  allowLiveOrders : Bool
  usdcPerTradeCents : Int
  maxNotionalOverrunCents : Int
  maxNotionalOverrunBps : Int
  minBuyLimitCents : Int
  maxBuyLimitCents : Int
  minDecisionTteUs : Int
  signalMaxLagUs : Int
  signalMinWindowUs : Int
  signalMaxWindowUs : Int
  signalMaxSpreadUsd : F
  signalMinAbsMoveUsd : F
  signalMinAbsOfi : F
  signalMinImbalance : F
  signalMinTotalQty : F
  decisionMinEdgeCents : Int
  entrySlippageCents : Int
  sellSlippageCents : Int
  exitDropTicks : Int
  exitArmTicks : Int
  exitStopTicks : Int
  exitEdgeTicks : Int
  exitHoldUs : Int
  probSigmaScale : F
  probSigmaFloorUsd : F
  probFloor : F
  probCeil : F
  signalRingSize : Nat
  signalQuoteAgeUs : Int
  /-- ceiling of the submit round-trip average above which entry stops; zero switches it off -/
  rttCeilingUs : Int
  polyDriftWindowUs : Int
  polyDriftBlockUpTicks : Int
  polyDriftBlockDownTicks : Int
  polyDriftSafetyBps : Int
  polyDriftMinCleanEdgeTicks : Int
  useImpliedSigma : Bool

namespace Config

section
variable {F : Type}

/-- A price limit of the configuration, under its variable's name. -/
def priceLimit (name : String) (cents : Int) : Except ConfigError PriceTick :=
  match PriceTick.checked cents with
  | .ok price => .ok price
  | .error e => .error (.invalid name e.toText)

/-- `Config::signal_config`. -/
def signalConfig (config : Config F) : Except ConfigError (SignalConfig F) := do
  let minBuyLimit ← priceLimit "MINIMAL_MIN_BUY_LIMIT" config.minBuyLimitCents
  let maxBuyLimit ← priceLimit "MINIMAL_MAX_BUY_LIMIT" config.maxBuyLimitCents
  return {
    maxLagUs := config.signalMaxLagUs
    minWindowUs := config.signalMinWindowUs
    maxWindowUs := config.signalMaxWindowUs
    maxSpreadUsd := config.signalMaxSpreadUsd
    minMoveUsd := config.signalMinAbsMoveUsd
    minAbsOfi := config.signalMinAbsOfi
    minImbalance := config.signalMinImbalance
    minTotalQty := config.signalMinTotalQty
    minEdgeTicks := config.decisionMinEdgeCents
    entrySlippageTicks := config.entrySlippageCents
    entryNotionalCents := config.usdcPerTradeCents
    maxQuoteAgeUs := config.signalQuoteAgeUs
    minTteUs := config.minDecisionTteUs
    minBuyLimit := minBuyLimit
    maxBuyLimit := maxBuyLimit
    probSigmaFloorUsd := config.probSigmaFloorUsd
    probSigmaScale := config.probSigmaScale
    probFloor := config.probFloor
    probCeil := config.probCeil
    maxSamples := config.signalRingSize
    useImpliedSigma := config.useImpliedSigma }

/-- `Config::buy_submit_policy`. -/
def buySubmitPolicy (config : Config F) : BuySubmitPolicy :=
  { targetMakerCents := config.usdcPerTradeCents
    minSizeTakerUnits := 100
    minMakerCents := 100
    maxOverrunCents := config.maxNotionalOverrunCents
    maxOverrunBps := config.maxNotionalOverrunBps }

end

/-! ## The environment -/

section
variable (lookup : String → Option String)

/-- `env_bool_lookup`. -/
def envBoolLookup (name : String) : Option Bool :=
  (lookup name).map fun raw =>
    ["1", "true", "yes", "on"].contains
      (String.ofList (Text.toAsciiLowercase (Text.trim raw.toList)))

/-- `env_i64_lookup`. -/
def envI64Lookup (name : String) : Option Int :=
  (lookup name).bind fun raw => parseI64 (Text.trim raw.toList)

/-- `env_f64_lookup`, where `parseF64` is `str::parse::<f64>`. -/
def envF64Lookup {F : Type} [F64 F] (parseF64 : List Char → Option F) (name : String) : Option F :=
  ((lookup name).bind fun raw => parseF64 (Text.trim raw.toList)).filter F64.isFinite

/-- `env_dec_cents_lookup`. -/
def envDecCentsLookup (b : Build) (name : String) : Exec (Option Int) :=
  match lookup name with
  | some raw => parseDecCents b (Text.trim raw.toList)
  | none => return none

end

/-- Reading the configuration may be refused, and it may abort. -/
abbrev Load (α : Type) := ExceptT ConfigError Exec α

/-- Refuse with `e` where `c` holds. -/
def refuseIf (c : Bool) (e : ConfigError) : Load Unit := if c then throw e else return ()

/-- `ok_or(ConfigError::Missing)`. -/
def orMissing (name : String) (value : Option Int) : Load Int :=
  match value with
  | some value => return value
  | none => throw (.missing name)

/-- `try_into` of a 32-bit integer. -/
def intoI32 (name : String) (value : Int) : Load Int :=
  match i32.checked value with
  | some value => return value
  | none => throw (.invalid name "out_of_range")

/-- A 64-bit value is refused unless it is positive. -/
def refuseNonPositive (name : String) (value : Int) : Load Unit :=
  refuseIf (value ≤ 0) (.invalid name ("non_positive value=" ++ value.repr))

/-- A value below zero is refused. -/
def refuseNegative (name : String) (value : Int) : Load Unit :=
  refuseIf (value < 0) (.invalid name ("negative value=" ++ value.repr))

section
variable {F : Type} [F64 F] (b : Build) (parseF64 : List Char → Option F)
variable (lookup : String → Option String)

/-- An optional money amount, of 32 bits. -/
def optionalCents (name : String) (default : Int) : Load Int := do
  intoI32 name ((← envDecCentsLookup lookup b name).getD default)

/-- An optional number of ticks, of 32 bits. -/
def optionalTicks (name : String) (default : Int) : Load Int :=
  intoI32 name ((envI64Lookup lookup name).getD default)

/-- `Config::from_lookup`. -/
def fromLookup : Load (Config F) := do
  let allowLiveOrders := (envBoolLookup lookup "POLY_ALLOW_LIVE_ORDERS").getD false
  let usdcPerTradeCents ← orMissing "MINIMAL_USDC_PER_TRADE"
    (← envDecCentsLookup lookup b "MINIMAL_USDC_PER_TRADE")
  -- the venue refuses BUYs below one dollar
  refuseIf (usdcPerTradeCents < 100) (.invalid "MINIMAL_USDC_PER_TRADE"
    ("below_venue_floor cents=" ++ usdcPerTradeCents.repr ++ " min=100"))
  let maxNotionalOverrunCents :=
    (← envDecCentsLookup lookup b "MINIMAL_MAX_NOTIONAL_OVERRUN").getD 1
  let maxNotionalOverrunBps := (envI64Lookup lookup "MINIMAL_MAX_NOTIONAL_OVERRUN_BPS").getD 0
  let minBuyLimitCents ← intoI32 "MINIMAL_MIN_BUY_LIMIT" (← orMissing "MINIMAL_MIN_BUY_LIMIT"
    (← envDecCentsLookup lookup b "MINIMAL_MIN_BUY_LIMIT"))
  let maxBuyLimitCents ← optionalCents b lookup "MINIMAL_MAX_BUY_LIMIT" 60
  refuseIf (maxBuyLimitCents ≤ minBuyLimitCents)
    (.bandIncoherent minBuyLimitCents maxBuyLimitCents)
  let minDecisionTteUs ← orMissing "MINIMAL_DECISION_MIN_TTE_US"
    (envI64Lookup lookup "MINIMAL_DECISION_MIN_TTE_US")
  refuseNonPositive "MINIMAL_DECISION_MIN_TTE_US" minDecisionTteUs
  let decisionMinEdgeCents ← optionalCents b lookup "MINIMAL_DECISION_MIN_EDGE" 5
  let entrySlippageCents ← optionalCents b lookup "MINIMAL_ENTRY_SLIPPAGE" 0
  let sellSlippageCents ← optionalCents b lookup "MINIMAL_SELL_SLIPPAGE" 0
  let exitDropTicks ← optionalTicks lookup "EXIT_DROP_TICKS" 2
  refuseNonPositive "EXIT_DROP_TICKS" exitDropTicks
  let exitArmTicks ← optionalTicks lookup "EXIT_ARM_TICKS" 2
  refuseNegative "EXIT_ARM_TICKS" exitArmTicks
  let exitStopTicks ← optionalTicks lookup "EXIT_STOP_TICKS" 3
  refuseNonPositive "EXIT_STOP_TICKS" exitStopTicks
  let exitEdgeTicks ← optionalTicks lookup "EXIT_EDGE_TICKS" 0
  let exitHoldUs := (envI64Lookup lookup "EXIT_HOLD_US").getD 30000000
  refuseNonPositive "EXIT_HOLD_US" exitHoldUs
  let signalQuoteAgeUs := (envI64Lookup lookup "MINIMAL_SIGNAL_QUOTE_AGE_US").getD 50000
  refuseNonPositive "MINIMAL_SIGNAL_QUOTE_AGE_US" signalQuoteAgeUs
  let rttCeilingUs := (envI64Lookup lookup "MINIMAL_RTT_CEILING_US").getD 1500000
  refuseNegative "MINIMAL_RTT_CEILING_US" rttCeilingUs
  let polyDriftWindowUs := (envI64Lookup lookup "MINIMAL_POLY_DRIFT_WINDOW_US").getD 1000000
  refuseNegative "MINIMAL_POLY_DRIFT_WINDOW_US" polyDriftWindowUs
  let polyDriftBlockUpTicks ← optionalTicks lookup "MINIMAL_POLY_DRIFT_BLOCK_UP_TICKS" 4
  refuseNegative "MINIMAL_POLY_DRIFT_BLOCK_UP_TICKS" polyDriftBlockUpTicks
  let polyDriftBlockDownTicks ← optionalTicks lookup "MINIMAL_POLY_DRIFT_BLOCK_DOWN_TICKS" 4
  refuseNegative "MINIMAL_POLY_DRIFT_BLOCK_DOWN_TICKS" polyDriftBlockDownTicks
  let polyDriftSafetyBps ← optionalTicks lookup "MINIMAL_POLY_DRIFT_SAFETY_BPS" 12000
  refuseNegative "MINIMAL_POLY_DRIFT_SAFETY_BPS" polyDriftSafetyBps
  let polyDriftMinCleanEdgeTicks ←
    optionalTicks lookup "MINIMAL_POLY_DRIFT_MIN_CLEAN_EDGE_TICKS" 3
  refuseNegative "MINIMAL_POLY_DRIFT_MIN_CLEAN_EDGE_TICKS" polyDriftMinCleanEdgeTicks
  return {
    allowLiveOrders := allowLiveOrders
    usdcPerTradeCents := usdcPerTradeCents
    maxNotionalOverrunCents := maxNotionalOverrunCents
    maxNotionalOverrunBps := maxNotionalOverrunBps
    minBuyLimitCents := minBuyLimitCents
    maxBuyLimitCents := maxBuyLimitCents
    minDecisionTteUs := minDecisionTteUs
    signalMaxLagUs := (envI64Lookup lookup "MINIMAL_SIGNAL_MAX_LAG_US").getD 250000
    signalMinWindowUs := (envI64Lookup lookup "MINIMAL_SIGNAL_MIN_WINDOW_US").getD 250000
    signalMaxWindowUs := (envI64Lookup lookup "MINIMAL_SIGNAL_MAX_WINDOW_US").getD 2000000
    signalMaxSpreadUsd := (envF64Lookup lookup parseF64 "MINIMAL_SIGNAL_MAX_SPREAD").getD 2.0
    signalMinAbsMoveUsd := (envF64Lookup lookup parseF64 "MINIMAL_SIGNAL_MIN_ABS_MOVE").getD 0.50
    signalMinAbsOfi := (envF64Lookup lookup parseF64 "MINIMAL_SIGNAL_MIN_ABS_OFI").getD 1.0
    signalMinImbalance := (envF64Lookup lookup parseF64 "MINIMAL_SIGNAL_MIN_IMBALANCE").getD 0.12
    signalMinTotalQty :=
      (envF64Lookup lookup parseF64 "MINIMAL_SIGNAL_MIN_TOTAL_QTY").getD 0.000001
    decisionMinEdgeCents := decisionMinEdgeCents
    entrySlippageCents := entrySlippageCents
    sellSlippageCents := sellSlippageCents
    exitDropTicks := exitDropTicks
    exitArmTicks := exitArmTicks
    exitStopTicks := exitStopTicks
    exitEdgeTicks := exitEdgeTicks
    exitHoldUs := exitHoldUs
    probSigmaScale := (envF64Lookup lookup parseF64 "MINIMAL_PROB_SIGMA_SCALE").getD 1.5
    probSigmaFloorUsd := (envF64Lookup lookup parseF64 "MINIMAL_PROB_SIGMA_FLOOR_USD").getD 2.0
    probFloor := (envF64Lookup lookup parseF64 "MINIMAL_PROB_FLOOR").getD 0.02
    probCeil := (envF64Lookup lookup parseF64 "MINIMAL_PROB_CEIL").getD 0.98
    signalRingSize := (max ((envI64Lookup lookup "MINIMAL_SIGNAL_RING_SIZE").getD 128) 8).toNat
    signalQuoteAgeUs := signalQuoteAgeUs
    rttCeilingUs := rttCeilingUs
    polyDriftWindowUs := polyDriftWindowUs
    polyDriftBlockUpTicks := polyDriftBlockUpTicks
    polyDriftBlockDownTicks := polyDriftBlockDownTicks
    polyDriftSafetyBps := polyDriftSafetyBps
    polyDriftMinCleanEdgeTicks := polyDriftMinCleanEdgeTicks
    useImpliedSigma := (envBoolLookup lookup "MINIMAL_USE_IMPLIED_SIGMA").getD true }

end

/-- The configuration of a live environment with the code's defaults where it names no value, for
the runs on fixed inputs. -/
def runtimeEnvShape : Config Rat where
  allowLiveOrders := true
  usdcPerTradeCents := 101
  maxNotionalOverrunCents := 1
  maxNotionalOverrunBps := 0
  minBuyLimitCents := 35
  maxBuyLimitCents := 65
  minDecisionTteUs := 45000000
  signalMaxLagUs := 250000
  signalMinWindowUs := 250000
  signalMaxWindowUs := 2000000
  signalMaxSpreadUsd := 2.0
  signalMinAbsMoveUsd := 0.5
  signalMinAbsOfi := 1.0
  signalMinImbalance := 0.12
  signalMinTotalQty := 0.000001
  decisionMinEdgeCents := 5
  entrySlippageCents := 3
  sellSlippageCents := 3
  exitDropTicks := 3
  exitArmTicks := 2
  exitStopTicks := 4
  exitEdgeTicks := 1
  exitHoldUs := 12000000
  probSigmaScale := 1.5
  probSigmaFloorUsd := 2.0
  probFloor := 0.02
  probCeil := 0.98
  signalRingSize := 128
  signalQuoteAgeUs := 50000
  rttCeilingUs := 1500000
  polyDriftWindowUs := 1000000
  polyDriftBlockUpTicks := 4
  polyDriftBlockDownTicks := 4
  polyDriftSafetyBps := 12000
  polyDriftMinCleanEdgeTicks := 3
  useImpliedSigma := true

end Config

end Polyrust
