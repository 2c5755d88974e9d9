import Polyrust.Lib.Float
import Polyrust.State

/-!
# The BUY-intent model

The engine that turns Binance samples into BUY intents (`signal.rs`): the ring of accepted samples,
the window over it, the probability that the market settles above the strike, and the decision. It
is written over an arbitrary type of floating-point numbers. Timestamps and ticks are integers of
the machine, added and subtracted without checks, so that a decision may abort.
-/

namespace Polyrust

open IntWidth F64

/-- A best-bid-and-offer sample of the exchange. -/
structure BinanceSample (F : Type) where
  tsUs : TsUs
  updateId : Int
  bid : F
  ask : F
  bidQty : F
  askQty : F
  microprice : F

/-- What the model wants to buy, at most at what price, and with what edge. -/
structure BuyIntent where
  side : OutcomeSide
  token : TokenId
  limit : PriceTick
  edgePrice : PriceTick
  edgeTicks : Int
  deriving DecidableEq, Repr

/-- The settings of the engine. -/
structure SignalConfig (F : Type) where
  maxLagUs : Int
  minWindowUs : Int
  maxWindowUs : Int
  maxSpreadUsd : F
  minMoveUsd : F
  minAbsOfi : F
  minImbalance : F
  minTotalQty : F
  minEdgeTicks : Int
  entrySlippageTicks : Int
  entryNotionalCents : Int
  maxQuoteAgeUs : Int
  minTteUs : Int
  minBuyLimit : PriceTick
  maxBuyLimit : PriceTick
  probSigmaFloorUsd : F
  probSigmaScale : F
  probFloor : F
  probCeil : F
  maxSamples : Nat
  /-- take the volatility that the book implies where it is the larger one -/
  useImpliedSigma : Bool

/-- An accepted sample. -/
structure SignalPoint (F : Type) where
  tsUs : TsUs
  recvTsUs : TsUs
  microprice : F
  ofi : F
  imbalance : F

/-- The accepted samples, and the book of the last of them. -/
structure SignalEngine (F : Type) where
  cfg : SignalConfig F
  strike : F
  samples : List (SignalPoint F)
  lastUpdateId : Int
  lastBid : F
  lastAsk : F
  lastBidQty : F
  lastAskQty : F

section
variable {F : Type} [F64 F]

/-! ## The normal distribution -/

/-- `phi_tail`: the upper tail of the standard normal distribution. -/
def phiTail (z : F) : F :=
  let t := 1.0 / (1.0 + 0.2316419 * z)
  let poly := (((((1.330274429 * t - 1.821255978) * t) + 1.781477937) * t - 0.356563782) * t
    + 0.319381530) * t
  let pdf := exp (-0.5 * z * z) * 0.3989422804014327
  pdf * poly

/-- `phi`: the standard normal distribution function. -/
def phi (z : F) : F := if le 0.0 z then 1.0 - phiTail z else phiTail (-z)

/-- The numerator of the quotient that `phi_inv` evaluates in its tails. -/
def phiInvTailNum (q : F) : F :=
  ((((-7.784894002430293e-3 * q + -3.223964580411365e-1) * q + -2.400758277161838) * q
    + -2.549732539343734) * q + 4.374664141464968) * q + 2.938163982698783

/-- The denominator of that quotient. -/
def phiInvTailDen (q : F) : F :=
  (((7.784695709041462e-3 * q + 3.224671290700398e-1) * q + 2.445134137142996) * q
    + 3.754408661907416) * q + 1.0

/-- `phi_inv`: the inverse of the standard normal distribution function. -/
def phiInv (p : F) : F :=
  if !(lt 0.0 p && lt p 1.0) then nan
  else
    let pLow : F := 0.02425
    let pHigh := 1.0 - pLow
    if lt p pLow then
      let q := sqrt (-2.0 * ln p)
      phiInvTailNum q / phiInvTailDen q
    else if le p pHigh then
      let q := p - 0.5
      let r := q * q
      (((((-3.969683028665376e1 * r + 2.209460984245205e2) * r + -2.759285104469687e2) * r
          + 1.38357751867269e2) * r + -3.066479806614716e1) * r + 2.506628277459239) * q
        / (((((-5.447609879822406e1 * r + 1.615858368580409e2) * r + -1.556989798598866e2) * r
          + 6.680131188771972e1) * r + -1.328068155288572e1) * r + 1.0)
    else
      let q := sqrt (-2.0 * ln (1.0 - p))
      (-phiInvTailNum q) / phiInvTailDen q

/-- The middle of the best prices of a quote, in dollars, if it has both and they are in order. -/
def quoteMid (b : Build) (q : Quote) : Exec (Option F) := do
  let some bid := q.bid | return none
  let some ask := q.ask | return none
  if bid.ticks ≤ 0 ∨ ask.ticks ≤ 0 ∨ ask.ticks < bid.ticks then return none
  let sum ← b.arith i32 (bid.ticks + ask.ticks)
  return some (ofInt sum * 0.5 / 100.0)

/-- `implied_p_yes_for`: the probability of YES that the two best prices imply. -/
def impliedPYesFor (b : Build) (yesQuote noQuote : Quote) : Exec (Option F) := do
  match ← quoteMid (F := F) b yesQuote, ← quoteMid (F := F) b noQuote with
  | some y, some n =>
    let total := y + n
    if lt 1e-9 total && isFinite total then
      return some (← F64.clamp (y / total) 1e-6 (1.0 - 1e-6))
    else return none
  | some y, none => return some (← F64.clamp y 1e-6 (1.0 - 1e-6))
  | none, some n => return some (← F64.clamp (1.0 - n) 1e-6 (1.0 - 1e-6))
  | none, none => return none

namespace SignalEngine

/-! ## Samples -/

/-- `SignalEngine::new`. -/
def new (cfg : SignalConfig F) : SignalEngine F :=
  { cfg := { cfg with maxSamples := max cfg.maxSamples 8 }
    strike := 0.0, samples := [], lastUpdateId := 0
    lastBid := 0.0, lastAsk := 0.0, lastBidQty := 0.0, lastAskQty := 0.0 }

/-- `SignalEngine::set_strike`. -/
def setStrike (engine : SignalEngine F) (strike : F) (resetWindow : Bool) : SignalEngine F :=
  if resetWindow then
    { engine with
      strike := strike, samples := [], lastUpdateId := 0
      lastBid := 0.0, lastAsk := 0.0, lastBidQty := 0.0, lastAskQty := 0.0 }
  else { engine with strike := strike }

/-- `SignalEngine::compute_ofi`: the order flow imbalance against the last accepted sample. -/
def computeOfi (engine : SignalEngine F) (sample : BinanceSample F) : F :=
  if engine.samples.isEmpty then 0.0
  else
    let bidFlow := (if le engine.lastBid sample.bid then sample.bidQty else 0.0)
      - (if le sample.bid engine.lastBid then engine.lastBidQty else 0.0)
    let askFlow := (if le engine.lastAsk sample.ask then engine.lastAskQty else 0.0)
      - (if le sample.ask engine.lastAsk then sample.askQty else 0.0)
    bidFlow + askFlow

/-- The checks that `push_received` makes of a sample. -/
def accepts (engine : SignalEngine F) (sample : BinanceSample F) : Bool :=
  let totalQty := sample.bidQty + sample.askQty
  let spread := sample.ask - sample.bid
  !(!isFinite sample.microprice || le sample.microprice 0.0
      || decide (sample.updateId ≤ engine.lastUpdateId)
      || le sample.bid 0.0 || le sample.ask 0.0 || lt sample.ask sample.bid
      || le sample.bidQty 0.0 || le sample.askQty 0.0)
    && !(!isFinite totalQty || lt totalQty engine.cfg.minTotalQty)
    && !(lt 0.0 engine.cfg.maxSpreadUsd && lt engine.cfg.maxSpreadUsd spread)
    && !(engine.samples.getLast?.any fun last => decide (sample.tsUs.micros ≤ last.tsUs.micros))

/-- `SignalEngine::push_received`; the flag says whether the sample was accepted. -/
def pushReceived (engine : SignalEngine F) (sample : BinanceSample F) (recvTsUs : TsUs) :
    SignalEngine F × Bool :=
  if !engine.accepts sample then (engine, false)
  else
    let totalQty := sample.bidQty + sample.askQty
    let imbalance := (sample.bidQty - sample.askQty) / totalQty
    let ofi := engine.computeOfi sample
    let kept := engine.samples.drop (engine.samples.length + 1 - engine.cfg.maxSamples)
    let point : SignalPoint F :=
      { tsUs := sample.tsUs, recvTsUs := recvTsUs, microprice := sample.microprice, ofi := ofi,
        imbalance := imbalance }
    ({ engine with
        samples := kept ++ [point], lastUpdateId := sample.updateId
        lastBid := sample.bid, lastAsk := sample.ask
        lastBidQty := sample.bidQty, lastAskQty := sample.askQty },
      true)

/-- `SignalEngine::push`. -/
def push (engine : SignalEngine F) (sample : BinanceSample F) : SignalEngine F × Bool :=
  engine.pushReceived sample sample.tsUs

/-! ## The window -/

/-- `SignalEngine::oldest_since`. -/
def oldestSince (engine : SignalEngine F) (cutoffUs : Int) : Option (SignalPoint F) :=
  engine.samples.find? fun sample => cutoffUs ≤ sample.tsUs.micros

/-- `SignalEngine::latest_window`: the latest sample and the oldest one of the window before it. -/
def latestWindow (b : Build) (engine : SignalEngine F) :
    Exec (Option (SignalPoint F × SignalPoint F)) := do
  let some latest := engine.samples.getLast? | return none
  let cutoff ← b.arith i64 (latest.tsUs.micros - engine.cfg.maxWindowUs)
  let some windowBase := engine.oldestSince cutoff | return none
  let windowUs ← b.arith i64 (latest.tsUs.micros - windowBase.tsUs.micros)
  if windowBase.tsUs = latest.tsUs ∨ windowUs < engine.cfg.minWindowUs then return none
  return some (latest, windowBase)

/-- `SignalEngine::ofi_sum_since`. -/
def ofiSumSince (engine : SignalEngine F) (cutoffUs : Int) : F :=
  F64.sum ((engine.samples.filter fun sample => cutoffUs ≤ sample.tsUs.micros).map (·.ofi))

/-- The loop of `realized_sigma_since`: the squared moves and the seconds between the samples. -/
def sigmaLoop (b : Build) :
    Option (SignalPoint F) → F → F → List (SignalPoint F) → Exec (F × F)
  | _, sumSq, totalDtS, [] => return (sumSq, totalDtS)
  | none, sumSq, totalDtS, sample :: rest => sigmaLoop b (some sample) sumSq totalDtS rest
  | some p, sumSq, totalDtS, sample :: rest => do
    let dtUs ← b.arith i64 (sample.tsUs.micros - p.tsUs.micros)
    let dtS : F := ofInt (max dtUs 1000) / 1000000.0
    let dp := sample.microprice - p.microprice
    sigmaLoop b (some sample) (sumSq + dp * dp) (totalDtS + dtS) rest

/-- `SignalEngine::realized_sigma_since`. -/
def realizedSigmaSince (b : Build) (engine : SignalEngine F) (cutoffUs : Int) : Exec F := do
  if engine.samples.length < 2 then return 0.0
  let (sumSq, totalDtS) ← sigmaLoop b none 0.0 0.0
    (engine.samples.filter fun sample => cutoffUs ≤ sample.tsUs.micros)
  return if lt 0.0 totalDtS then sqrt (sumSq / totalDtS) else 0.0

/-! ## The probability -/

/-- The volatility that an implied probability stands for, where its sign is that of the drift. -/
def impliedSigma (drift : F) (hint : Option F) : Exec (Option F) := do
  let some p := hint | return none
  let p ← F64.clamp p 1e-6 (1.0 - 1e-6)
  let z := phiInv p
  if !isFinite z || lt (abs z) 1e-6 then return none
  let s := drift / z
  return if isFinite s && lt 0.0 s then some s else none

/-- `SignalEngine::prob_yes` over a distribution function. -/
def probYesWith (cdf : F → F) (b : Build) (engine : SignalEngine F) (microprice : F)
    (latestTs : TsUs) (tteUs : Int) (impliedPYesHint : Option F) : Exec (Option F) := do
  if !isFinite microprice || le microprice 0.0 || le engine.strike 0.0 || decide (tteUs ≤ 0) then
    return none
  let cutoff ← b.arith i64 (latestTs.micros - engine.cfg.maxWindowUs)
  let realizedPx := F64.max (← engine.realizedSigmaSince b cutoff) engine.cfg.probSigmaFloorUsd
  let scaleToEff := engine.cfg.probSigmaScale * sqrt (ofInt tteUs / 1000000.0)
  let realizedEff := realizedPx * scaleToEff
  let drift := microprice - engine.strike
  let sigmaEff :=
    match ← impliedSigma drift impliedPYesHint with
    | some implied => F64.max realizedEff implied
    | none => realizedEff
  if !isFinite sigmaEff || le sigmaEff 1e-9 then return none
  let z := drift / sigmaEff
  if !isFinite z then return none
  let floor ← F64.clamp engine.cfg.probFloor 0.0 1.0
  let ceil ← F64.clamp engine.cfg.probCeil floor 1.0
  return some (← F64.clamp (cdf z) floor ceil)

/-- `SignalEngine::prob_yes`. -/
def probYes (b : Build) (engine : SignalEngine F) (microprice : F) (latestTs : TsUs) (tteUs : Int)
    (impliedPYesHint : Option F) : Exec (Option F) :=
  engine.probYesWith phi b microprice latestTs tteUs impliedPYesHint

/-! ## The decision -/

/-- The pressure checks: order flow and imbalance on the side of the move. -/
def pressureAgainst (engine : SignalEngine F) (side : OutcomeSide) (ofiSum imbalance : F) : Bool :=
  match side with
  | .yes => lt ofiSum engine.cfg.minAbsOfi || lt imbalance engine.cfg.minImbalance
  | .no => lt (-engine.cfg.minAbsOfi) ofiSum || lt (-engine.cfg.minImbalance) imbalance

/-- `SignalEngine::decide_latest` over a distribution function. -/
def decideLatestWith (cdf : F → F) (b : Build) (engine : SignalEngine F) (market : MarketContext)
    (yesQuote noQuote : Quote) (now : TsUs) (tteUs : Int) : Exec (Option BuyIntent) := do
  if le engine.strike 0.0 || decide (tteUs < engine.cfg.minTteUs) then return none
  let some (latest, windowBase) ← engine.latestWindow b | return none
  let moveUsd := latest.microprice - windowBase.microprice
  if lt (abs moveUsd) engine.cfg.minMoveUsd then return none
  let side : OutcomeSide := if lt 0.0 moveUsd then .yes else .no
  let cutoff ← b.arith i64 (latest.tsUs.micros - engine.cfg.maxWindowUs)
  let ofiSum := engine.ofiSumSince cutoff
  if engine.pressureAgainst side ofiSum latest.imbalance then return none
  let quote := match side with | .yes => yesQuote | .no => noQuote
  let token := match side with | .yes => market.yesToken | .no => market.noToken
  let some entryAsk ← quote.buyCutoffForCents b engine.cfg.entryNotionalCents | return none
  let quoteAge ← b.arith i64 (now.micros - quote.tsUs.micros)
  if quoteAge < 0 ∨ engine.cfg.maxQuoteAgeUs < quoteAge then return none
  let some limitTicks := i32.checked (entryAsk.ticks + engine.cfg.entrySlippageTicks) | return none
  let some limit := (PriceTick.checked limitTicks).toOption | return none
  if limit.ticks < engine.cfg.minBuyLimit.ticks ∨ engine.cfg.maxBuyLimit.ticks < limit.ticks then
    return none
  let edgeSlippageTicks := (← b.arith i32 (engine.cfg.entrySlippageTicks + 1)).tdiv 2
  let some edgePriceTicks := i32.checked (entryAsk.ticks + edgeSlippageTicks) | return none
  let some edgePrice := (PriceTick.checked edgePriceTicks).toOption | return none
  let impliedPYesHint : Option F ←
    if engine.cfg.useImpliedSigma then impliedPYesFor b yesQuote noQuote else pure none
  let some pYes ← engine.probYesWith cdf b latest.microprice latest.tsUs tteUs impliedPYesHint
    | return none
  let sideProbTicks : F :=
    match side with
    | .yes => pYes * 100.0
    | .no => (1.0 - pYes) * 100.0
  let edgeTicks := floorI32 (sideProbTicks - ofInt edgePrice.ticks)
  let liveSpreadTicks :=
    max ((quote.bid.map fun bid => i32.saturatingSub edgePrice.ticks bid.ticks).getD 0) 0
  let minEdgeTicks := max engine.cfg.minEdgeTicks liveSpreadTicks
  if edgeTicks < minEdgeTicks then return none
  return some { side := side, token := token, limit := limit, edgePrice := edgePrice,
                edgeTicks := edgeTicks }

/-- `SignalEngine::decide_latest`. -/
def decideLatest (b : Build) (engine : SignalEngine F) (market : MarketContext)
    (yesQuote noQuote : Quote) (now : TsUs) (tteUs : Int) : Exec (Option BuyIntent) :=
  engine.decideLatestWith phi b market yesQuote noQuote now tteUs

/-- `SignalEngine::on_sample` over a distribution function. -/
def onSampleWith (cdf : F → F) (b : Build) (engine : SignalEngine F) (sample : BinanceSample F)
    (market : MarketContext) (yesQuote noQuote : Quote) (now : TsUs) (tteUs : Int) :
    Exec (SignalEngine F × Option BuyIntent) := do
  let lagUs ← b.arith i64 (now.micros - sample.tsUs.micros)
  let (engine, accepted) := engine.pushReceived sample now
  if !accepted then return (engine, none)
  if 0 < engine.cfg.maxLagUs ∧ engine.cfg.maxLagUs < lagUs then return (engine, none)
  return (engine, ← engine.decideLatestWith cdf b market yesQuote noQuote now tteUs)

/-- `SignalEngine::on_sample`. -/
def onSample (b : Build) (engine : SignalEngine F) (sample : BinanceSample F)
    (market : MarketContext) (yesQuote noQuote : Quote) (now : TsUs) (tteUs : Int) :
    Exec (SignalEngine F × Option BuyIntent) :=
  engine.onSampleWith phi b sample market yesQuote noQuote now tteUs

/-- The lag check that the two reads of the exit path share: the latest sample is not from the
future, and not older than the limit. -/
def lagRefused (engine : SignalEngine F) (lagUs : Int) : Bool :=
  decide (lagUs < 0 ∨ (0 < engine.cfg.maxLagUs ∧ engine.cfg.maxLagUs < lagUs))

/-- `SignalEngine::fair_ticks_for_side` over a distribution function. -/
def fairTicksForSideWith (cdf : F → F) (b : Build) (engine : SignalEngine F) (side : OutcomeSide)
    (now : TsUs) (tteUs : Int) (impliedPYesHint : Option F) : Exec (Option Int) := do
  let some (latest, _) ← engine.latestWindow b | return none
  let lagUs ← b.arith i64 (now.micros - latest.recvTsUs.micros)
  if engine.lagRefused lagUs then return none
  let hint := if engine.cfg.useImpliedSigma then impliedPYesHint else none
  let some pYes ← engine.probYesWith cdf b latest.microprice latest.tsUs tteUs hint | return none
  let sideProb : F :=
    match side with
    | .yes => pYes
    | .no => 1.0 - pYes
  return some (floorI32 (sideProb * 100.0))

/-- `SignalEngine::fair_ticks_for_side`. -/
def fairTicksForSide (b : Build) (engine : SignalEngine F) (side : OutcomeSide) (now : TsUs)
    (tteUs : Int) (impliedPYesHint : Option F) : Exec (Option Int) :=
  engine.fairTicksForSideWith phi b side now tteUs impliedPYesHint

/-- `SignalEngine::opposes_side`. -/
def opposesSide (b : Build) (engine : SignalEngine F) (side : OutcomeSide) (now : TsUs) :
    Exec (Option Bool) := do
  let some (latest, windowBase) ← engine.latestWindow b | return none
  let lagUs ← b.arith i64 (now.micros - latest.recvTsUs.micros)
  if engine.lagRefused lagUs then return none
  let sign : F :=
    match side with
    | .yes => 1.0
    | .no => -1.0
  let signedMove := sign * (latest.microprice - windowBase.microprice)
  let cutoff ← b.arith i64 (latest.tsUs.micros - engine.cfg.maxWindowUs)
  let signedOfi := sign * engine.ofiSumSince cutoff
  let signedImbalance := sign * latest.imbalance
  return some (le signedMove (-engine.cfg.minMoveUsd) && le signedOfi (-engine.cfg.minAbsOfi)
    && le signedImbalance (-engine.cfg.minImbalance))

/-! ## What a sample leaves alone -/

/-- The two engines have the same configuration and the same strike. -/
structure SameSetup (engine engine' : SignalEngine F) : Prop where
  cfg : engine'.cfg = engine.cfg
  strike : engine'.strike = engine.strike

/-- A sample changes neither configuration nor strike. -/
theorem pushReceived_sameSetup (engine : SignalEngine F) (sample : BinanceSample F) (now : TsUs) :
    engine.SameSetup (engine.pushReceived sample now).1 := by
  rw [pushReceived]
  split <;> exact ⟨rfl, rfl⟩

/-- A decision changes neither configuration nor strike. -/
theorem onSample_sameSetup {b : Build} {engine engine' : SignalEngine F} {sample : BinanceSample F}
    {market : MarketContext} {yesQuote noQuote : Quote} {now : TsUs} {tteUs : Int}
    {i : Option BuyIntent}
    (h : engine.onSample b sample market yesQuote noQuote now tteUs = .ok (engine', i)) :
    engine.SameSetup engine' := by
  obtain ⟨lagUs, -, h⟩ := Except.ok_bind_inv h
  have hpush := engine.pushReceived_sameSetup sample now
  dsimp only at h
  split_ifs at h
  · cases h
    exact hpush
  · cases h
    exact hpush
  · obtain ⟨intent, -, h⟩ := Except.ok_bind_inv h
    cases h
    exact hpush

end SignalEngine

end

end Polyrust
