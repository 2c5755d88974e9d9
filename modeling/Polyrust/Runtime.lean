import Polyrust.Config
import Polyrust.Market
import Polyrust.Signing
import Polyrust.Submit
import Polyrust.User

/-!
# The runtime core

The state that the feeds, the submit tasks and the exit loop share under one lock (`runtime.rs`):
runtime state, inventory, signal engine, one exit tracker for each token that was bought, and the
average round trip of the BUY submits. Every method is a function from the core to the core after it
and what the method returns, inside `Exec` where it may abort.
-/

namespace Polyrust

open IntWidth

/-- The smoothing shift of the round-trip average: a sample weighs one eighth. -/
def RTT_EWMA_SHIFT : Nat := 3

/-- What goes wrong in the runtime. -/
inductive RuntimeError where
  | market (e : MarketParseError)
  | user (e : UserParseError)
  | buyCanonical (e : BuyCanonicalError)
  | signing (e : SigningError)
  deriving DecidableEq, Repr

/-- Why a position is sold. -/
inductive ExitReason where
  | value
  | drop
  | stop
  | hold
  deriving DecidableEq, Repr

/-- What a SELL is signed for. -/
structure SellPlan where
  token : TokenId
  price : PriceTick
  size : Shares2
  deriving DecidableEq, Repr

/-- A position that is to be sold, with what was seen of it. -/
structure ExitDecision where
  plan : SellPlan
  reason : ExitReason
  entryPrice : PriceTick
  entryBid : PriceTick
  peakBid : PriceTick
  bid : PriceTick
  fairTicks : Option Int
  fairMinusBidTicks : Option Int
  opposes : Option Bool
  holdUs : Int
  deriving DecidableEq, Repr

/-- The prices a position is judged against. -/
structure ExitTracker where
  entryPrice : PriceTick
  entryBid : PriceTick
  peakBid : PriceTick
  fillTsUs : Int
  deriving DecidableEq, Repr

/-- The gates that run after the signal; a threshold of zero switches its gate off. -/
structure EntryGateConfig where
  rttCeilingUs : Int
  polyDriftWindowUs : Int
  polyDriftBlockUpTicks : Int
  polyDriftBlockDownTicks : Int
  polyDriftSafetyBps : Int
  polyDriftMinCleanEdgeTicks : Int
  deriving DecidableEq, Repr

/-- The state that the tasks share under one lock. -/
structure RuntimeCore (F : Type) where
  state : RuntimeState
  inventory : Inventory
  signal : SignalEngine F
  buyPolicy : BuySubmitPolicy
  sellSlippageTicks : Int
  exitDropTicks : Int
  exitArmTicks : Int
  exitStopTicks : Int
  exitEdgeTicks : Int
  exitHoldUs : Int
  exitTrackers : HashMap TokenId ExitTracker
  entryGates : EntryGateConfig
  /-- average round trip of the BUY submits; zero before the first sample -/
  rttEwmaUs : Int

/-- `plan_sell_at_bid`: a SELL of what is sellable, at the best bid less the slippage. -/
def planSellAtBid (b : Build) (token : TokenId) (state : RuntimeState) (inventory : Inventory)
    (slippageTicks : Int) : Exec (Option SellPlan) := do
  let some bid := (state.quoteForToken token).bind (·.bid) | return none
  let some position := inventory.position token | return none
  if position.sellable.units ≤ 0 then return none
  let limitTicks := max (← b.arith i32 (bid.ticks - slippageTicks)) 1
  let some limit := (PriceTick.checked limitTicks).toOption | return none
  let (price, size) := canonicalSellParams limit (← b.arith i64 (position.sellable.units * 100))
  if size.units ≤ 0 then return none
  return some { token := token, price := price, size := size }

section
variable {F : Type} [F64 F]

/-- `on_binance_sample`: the sample goes to the signal engine, and an intent is passed on unless its
token has exposure or a blocking submit. -/
def onBinanceSample (b : Build) (sample : BinanceSample F) (signal : SignalEngine F)
    (state : RuntimeState) (inventory : Inventory) (now : TsUs) (tteUs : Int) :
    Exec (SignalEngine F × Option BuyIntent) := do
  if !state.tradingActive then return ((signal.push sample).1, none)
  let some market := state.market | return ((signal.push sample).1, none)
  let some yesQuote := state.quoteForSide .yes | return ((signal.push sample).1, none)
  let some noQuote := state.quoteForSide .no | return ((signal.push sample).1, none)
  let (signal, intent) ← signal.onSample b sample market yesQuote noQuote now tteUs
  let some intent := intent | return (signal, none)
  if inventory.hasEntryExposureOrPending intent.token then return (signal, none)
  return (signal, some intent)

namespace RuntimeCore

/-- `RuntimeCore::new`. -/
def new (config : Config F) : Except ConfigError (RuntimeCore F) := do
  let signalConfig ← config.signalConfig
  return {
    state := .new
    inventory := .new
    signal := .new signalConfig
    buyPolicy := config.buySubmitPolicy
    sellSlippageTicks := config.sellSlippageCents
    exitDropTicks := config.exitDropTicks
    exitArmTicks := config.exitArmTicks
    exitStopTicks := config.exitStopTicks
    exitEdgeTicks := config.exitEdgeTicks
    exitHoldUs := config.exitHoldUs
    exitTrackers := ∅
    entryGates := {
      rttCeilingUs := config.rttCeilingUs
      polyDriftWindowUs := config.polyDriftWindowUs
      polyDriftBlockUpTicks := config.polyDriftBlockUpTicks
      polyDriftBlockDownTicks := config.polyDriftBlockDownTicks
      polyDriftSafetyBps := config.polyDriftSafetyBps
      polyDriftMinCleanEdgeTicks := config.polyDriftMinCleanEdgeTicks }
    rttEwmaUs := 0 }

/-! ## Entry -/

/-- `RuntimeCore::record_rtt`: the first sample is the average, and a later one moves it by an
eighth of the difference, rounded down. -/
def recordRtt (b : Build) (core : RuntimeCore F) (rttUs : Int) : Exec (RuntimeCore F) := do
  if rttUs ≤ 0 then return core
  if core.rttEwmaUs = 0 then return { core with rttEwmaUs := rttUs }
  let diff ← b.arith i64 (rttUs - core.rttEwmaUs)
  let delta := diff >>> RTT_EWMA_SHIFT
  return { core with rttEwmaUs := i64.saturatingAdd core.rttEwmaUs delta }

/-- The drift-buffer gate of `entry_gate_block`: the edge has to cover the drift that the round trip
leaves time for. -/
def driftBufferBlock (b : Build) (core : RuntimeCore F) (intent : BuyIntent) (now : TsUs)
    (past : QuoteHistorySample) (driftTicks : Int) : Exec (Option String) := do
  let gates := core.entryGates
  if gates.polyDriftSafetyBps ≤ 0 ∨ core.rttEwmaUs ≤ 0 then return none
  let dtUs ← b.arith i64 (now.micros - past.tsUs.micros)
  if dtUs ≤ 0 then return none
  let driftAbs ← b.arith i32 |driftTicks|
  let numer :=
    i64.saturatingMul (i64.saturatingMul driftAbs core.rttEwmaUs) gates.polyDriftSafetyBps
  let denom := i64.saturatingMul dtUs 10000
  if denom ≤ 0 then return none
  let rounded ← b.arith i64 ((← b.arith i64 (numer + denom)) - 1)
  let requiredDrift := i32.wrap (min (rounded.tdiv denom) i32.hi)
  let requiredEdge := i32.saturatingAdd requiredDrift gates.polyDriftMinCleanEdgeTicks
  if intent.edgeTicks < requiredEdge then return some "edge_insufficient_for_drift"
  return none

/-- `RuntimeCore::entry_gate_block`: the name of the gate that blocks the intent, if one does. -/
def entryGateBlock (b : Build) (core : RuntimeCore F) (intent : BuyIntent) (now : TsUs) :
    Exec (Option String) := do
  let gates := core.entryGates
  if 0 < gates.rttCeilingUs ∧ 0 < core.rttEwmaUs ∧ gates.rttCeilingUs < core.rttEwmaUs then
    return some "rtt_ewma_high"
  if gates.polyDriftWindowUs ≤ 0 then return none
  let cutoffUs ← b.arith i64 (now.micros - gates.polyDriftWindowUs)
  let some past := core.state.quoteHistoryOldestSince intent.token cutoffUs | return none
  let some pastAskTicks := past.askTicks | return none
  let some currentAsk := (core.state.quoteForToken intent.token).bind (·.ask) | return none
  let driftTicks ← b.arith i32 (currentAsk.ticks - pastAskTicks)
  if 0 < gates.polyDriftBlockUpTicks ∧ gates.polyDriftBlockUpTicks ≤ driftTicks then
    return some "poly_drift_up"
  if 0 < gates.polyDriftBlockDownTicks then
    if driftTicks ≤ (← b.arith i32 (-gates.polyDriftBlockDownTicks)) then
      return some "poly_drift_down"
  driftBufferBlock b core intent now past driftTicks

/-- `RuntimeCore::on_binance_sample`: an intent, unless a gate blocks it. -/
def onBinanceSample (b : Build) (core : RuntimeCore F) (sample : BinanceSample F) (now : TsUs)
    (tteUs : Int) : Exec (RuntimeCore F × Option BuyIntent) := do
  let (signal, intent) ←
    Polyrust.onBinanceSample b sample core.signal core.state core.inventory now tteUs
  let core := { core with signal := signal }
  let some intent := intent | return (core, none)
  match ← core.entryGateBlock b intent now with
  | some _ => return (core, none)
  | none => return (core, some intent)

/-! ## Frames -/

/-- `RuntimeCore::apply_market_raw`: a frame that is refused leaves the core as it is. -/
def applyMarketRaw (pl : Platform) (core : RuntimeCore F) (raw : List UInt8) (tsUs : TsUs) :
    Exec (RuntimeCore F × Except RuntimeError Nat) := do
  match ← Market.parseMarketEvents pl raw with
  | .error e => return (core, .error (.market e))
  | .ok events =>
    let (state, applied) := Market.applyMarketEvents events core.state tsUs
    return ({ core with state := state }, .ok applied)

/-- `RuntimeCore::track_user_trade_for_exit`. -/
def trackUserTradeForExit (core : RuntimeCore F) (trade : UserTrade) (state : TradeState) :
    RuntimeCore F :=
  if !state.inventoryChanged then core
  else
    match state.side with
    | .buy =>
      if (state.status = .matched ∨ state.status = .confirmed) ∧
          0 < (core.inventory.sellable state.token).units then
        let currentBid := ((core.state.quoteForToken state.token).bind (·.bid)).getD trade.price
        let tracker : ExitTracker :=
          { entryPrice := trade.price, entryBid := currentBid
            peakBid := currentBid.max trade.price, fillTsUs := trade.tsUs }
        { core with exitTrackers := core.exitTrackers.insert state.token tracker }
      else core
    | .sell =>
      if (core.inventory.sellable state.token).units ≤ 0 then
        { core with exitTrackers := core.exitTrackers.erase state.token }
      else core

/-- One trade of a user frame: inventory first, then the tracker. -/
def applyTrade (core : RuntimeCore F) (trade : UserTrade) : RuntimeCore F × TradeState :=
  let (inventory, state) := core.inventory.applyUserTrade trade
  ({ core with inventory := inventory }.trackUserTradeForExit trade state, state)

/-- The trades of a user frame, in order. -/
def applyTrades (core : RuntimeCore F) : List UserTrade → RuntimeCore F × List TradeState
  | [] => (core, [])
  | trade :: trades =>
    let (core, state) := core.applyTrade trade
    let (core, states) := core.applyTrades trades
    (core, state :: states)

/-- `RuntimeCore::apply_user_raw_with_states`: a frame that is refused leaves the core as it is. -/
def applyUserRawWithStates (pl : Platform) (core : RuntimeCore F) (raw : List UInt8) (tsUs : Int) :
    Exec (RuntimeCore F × Except RuntimeError (UserMessage × List TradeState)) := do
  match ← User.parseUserMessage pl raw tsUs with
  | .error e => return (core, .error (.user e))
  | .ok (.trades trades) =>
    let (core, states) := core.applyTrades trades
    return (core, .ok (.trades trades, states))
  | .ok msg => return (core, .ok (msg, []))

/-! ## Exits -/

/-- The reason to sell, if there is one. -/
def exitReason (b : Build) (core : RuntimeCore F) (tracker : ExitTracker) (bid : PriceTick)
    (fairTicks : Option Int) (opposes : Option Bool) (holdUs : Int) : Exec (Option ExitReason) := do
  let bidDropTicks ← b.arith i32 (tracker.entryBid.ticks - bid.ticks)
  let profitTicks ← b.arith i32 (tracker.peakBid.ticks - tracker.entryPrice.ticks)
  let peakDropTicks ← b.arith i32 (tracker.peakBid.ticks - bid.ticks)
  -- the bid plus the edge, which is computed only where there is a fair value
  let line ← fairTicks.mapM fun fair => do
    return (fair, ← b.arith i32 (bid.ticks + core.exitEdgeTicks))
  let fairSupportsHold := line.any fun (fair, line) => decide (line < fair) && opposes != some true
  let fairValueExit := line.any fun (fair, line) => decide (fair ≤ line) && opposes == some true
  let fairBoundaryExit := line.all fun (fair, line) => decide (fair ≤ line)
  if core.exitStopTicks ≤ bidDropTicks ∧ fairSupportsHold = false then return some .stop
  else if fairValueExit then
    if core.exitArmTicks ≤ profitTicks ∧ core.exitDropTicks ≤ peakDropTicks then return some .drop
    else return some .value
  else if core.exitHoldUs ≤ holdUs ∧ fairBoundaryExit = true then return some .hold
  else return none

/-- One round of the loop of `plan_exits`. -/
def planExit (b : Build) (core : RuntimeCore F) (market : MarketContext) (impliedHint : Option F)
    (nowTsUs : Int) (token : TokenId) (side : OutcomeSide) :
    Exec (RuntimeCore F × Option ExitDecision) := do
  let cleared := { core with exitTrackers := core.exitTrackers.erase token }
  let some position := core.inventory.position token | return (cleared, none)
  if position.sellable.units ≤ 0 then return (cleared, none)
  let some bid := (core.state.quoteForToken token).bind (·.bid) | return (core, none)
  let tteUs := i64.saturatingSub (i64.saturatingMul market.endTs 1000000) nowTsUs
  let fairTicks ← core.signal.fairTicksForSide b side ⟨nowTsUs⟩ tteUs impliedHint
  let opposes ← core.signal.opposesSide b side ⟨nowTsUs⟩
  let some tracker := core.exitTrackers.lookup token | return (core, none)
  let tracker := { tracker with peakBid := tracker.peakBid.max bid }
  let core := { core with exitTrackers := core.exitTrackers.modify token fun _ => tracker }
  let holdUs := i64.saturatingSub nowTsUs tracker.fillTsUs
  let fairMinusBidTicks ← fairTicks.mapM fun fair => b.arith i32 (fair - bid.ticks)
  let some reason ← core.exitReason b tracker bid fairTicks opposes holdUs | return (core, none)
  let some plan ← planSellAtBid b token core.state core.inventory core.sellSlippageTicks
    | return (core, none)
  return (core, some
    { plan := plan, reason := reason, entryPrice := tracker.entryPrice
      entryBid := tracker.entryBid, peakBid := tracker.peakBid, bid := bid
      fairTicks := fairTicks, fairMinusBidTicks := fairMinusBidTicks, opposes := opposes
      holdUs := holdUs })

/-- `RuntimeCore::plan_exits`: the SELL decisions for the two tokens of the active market. -/
def planExits (b : Build) (core : RuntimeCore F) (nowTsUs : Int) :
    Exec (RuntimeCore F × List ExitDecision) := do
  let some market := core.state.market | return (core, [])
  let impliedHint : Option F ←
    match core.state.quoteForSide .yes, core.state.quoteForSide .no with
    | some y, some n => impliedPYesFor b y n
    | _, _ => pure none
  let (core, yes) ← core.planExit b market impliedHint nowTsUs market.yesToken .yes
  let (core, no) ← core.planExit b market impliedHint nowTsUs market.noToken .no
  return (core, yes.toList ++ no.toList)

/-- `RuntimeCore::refresh_sell_plan`. -/
def refreshSellPlan (b : Build) (core : RuntimeCore F) (token : TokenId) : Exec (Option SellPlan) :=
  planSellAtBid b token core.state core.inventory core.sellSlippageTicks

/-- `RuntimeCore::release_market_scope`. -/
def releaseMarketScope (core : RuntimeCore F) (activeTokens : List TokenId) : RuntimeCore F :=
  { core with
    inventory := core.inventory.releaseMarketScope activeTokens
    exitTrackers := core.exitTrackers.retain fun token _ => decide (token ∈ activeTokens) }

end RuntimeCore

end

end Polyrust
