import Polyrust.Decimal
import Polyrust.Json
import Polyrust.State

/-!
# The market channel

The parser of market-channel frames and what their events do to the runtime state (`market.rs`). The
module produces quotes and market resolutions, nothing else. Levels and prices that do not parse are
skipped; only a frame that is not JSON is an error.
-/

namespace Polyrust

open Json

/-- The tick of a market that names none. -/
def DEFAULT_TICK : PriceTick := ⟨1⟩

/-- What an event changes of a quote. -/
structure QuoteUpdate where
  token : TokenId
  bid : Option PriceTick
  ask : Option PriceTick
  askDepth : BookDepth
  tick : PriceTick
  deriving DecidableEq

/-- An event of the market channel. -/
inductive MarketEvent where
  | quote (update : QuoteUpdate)
  | resolved (conditionId : Option ConditionId)
  deriving DecidableEq

/-- The error text of a frame that is not JSON. -/
structure MarketParseError where
  msg : String
  deriving DecidableEq, Repr

namespace Market

/-- `value_to_string`: the text of a string, trimmed, or of a number. -/
def valueToString : Value → Option String
  | .string s => some (String.ofList (Text.trim s.toList))
  | .number n => some n.toText
  | _ => none

/-- `optional_str`: the first text under one of the keys that is not empty. -/
def optionalStr (value : Value) (keys : List String) : Option String :=
  keys.findSome? fun key => ((value.get key).bind valueToString).filter fun s => !s.isEmpty

/-- `optional_price`: the first text under one of the keys, if it is a price. -/
def optionalPrice (b : Build) (value : Value) (keys : List String) : Exec (Option PriceTick) :=
  match keys.findSome? fun key => (value.get key).bind valueToString with
  | some raw => return (← PriceTick.parseDecimal b raw.toList).toOption
  | none => return none

/-- The price and the size of a level, from their texts. -/
def parsePair (b : Build) (price size : String) : Exec (Option (PriceTick × SharesAtoms)) := do
  let some price := (← PriceTick.parseDecimal b price.toList).toOption | return none
  let some size := (← SharesAtoms.parseDecimal b size.toList).toOption | return none
  return some (price, size)

/-- `parse_level`: a level is an array or an object. -/
def parseLevel (b : Build) (value : Value) : Exec (Option (PriceTick × SharesAtoms)) := do
  match value.asArray with
  | some arr =>
    let some price := arr[0]?.bind valueToString | return none
    let some size := arr[1]?.bind valueToString | return none
    parsePair b price size
  | none =>
    let some price := (value.get "price").bind valueToString | return none
    let some size := (value.get "size").bind valueToString | return none
    parsePair b price size

/-- The levels of one side of a book that parse. -/
def parseLevels (b : Build) (levels : List Value) : Exec (List (PriceTick × SharesAtoms)) := do
  return (← levels.mapM (parseLevel b)).reduceOption

/-- `book_depth`. -/
def bookDepth (b : Build) (value : Option Value) (wantBid : Bool) : Exec BookDepth := do
  match value.bind Value.asArray with
  | none => return .empty
  | some levels =>
    let parsed ← parseLevels b levels
    return .fromLevels (parsed.map fun (price, size) => ⟨price, size.atoms⟩) wantBid

/-- The better of the best price so far and the price of a level. -/
def betterPrice (wantBid : Bool) (best : Option PriceTick) (price : PriceTick) : Option PriceTick :=
  match best with
  | none => some price
  | some prev =>
    if wantBid then some (if prev.ticks < price.ticks then price else prev)
    else some (if price.ticks < prev.ticks then price else prev)

/-- `best_book_price`. -/
def bestBookPrice (b : Build) (value : Option Value) (wantBid : Bool) :
    Exec (Option PriceTick) := do
  match value.bind Value.asArray with
  | none => return none
  | some levels =>
    let parsed ← parseLevels b levels
    return parsed.foldl (fun best (price, size) =>
      if size.atoms ≤ 0 then best else betterPrice wantBid best price) none

/-- `parse_token`. -/
def parseToken (value : Value) : Option TokenId :=
  (optionalStr value ["asset_id", "assetId", "token_id", "tokenId"]).map TokenId.mk

/-- `parse_tick`. -/
def parseTick (b : Build) (value : Value) : Exec PriceTick := do
  match optionalStr value ["tick_size", "tickSize"] with
  | some s => return (← PriceTick.parseDecimal b s.toList).toOption.getD DEFAULT_TICK
  | none => return DEFAULT_TICK

/-- `quote_from_book`. -/
def quoteFromBook (b : Build) (value : Value) : Exec (Option QuoteUpdate) := do
  let some token := parseToken value | return none
  let askDepth ← bookDepth b (value.get "asks") false
  let bid ← bestBookPrice b (value.get "bids") true
  let ask := askDepth.bestPrice
  if bid.isNone && ask.isNone then return none
  let tick ← parseTick b value
  return some { token := token, bid := bid, ask := ask, askDepth := askDepth, tick := tick }

/-- What a quote of a book was read from. -/
theorem quoteFromBook_some {b : Build} {value : Value} {update : QuoteUpdate}
    (h : quoteFromBook b value = .ok (some update)) :
    parseToken value = some update.token ∧
    bookDepth b (value.get "asks") false = .ok update.askDepth ∧
    bestBookPrice b (value.get "bids") true = .ok update.bid ∧
    update.ask = update.askDepth.bestPrice ∧
    ¬(update.bid.isNone ∧ update.ask.isNone) ∧
    parseTick b value = .ok update.tick := by
  unfold quoteFromBook at h
  split at h
  · rename_i token htoken
    obtain ⟨askDepth, hdepth, h⟩ := Except.ok_bind_inv h
    obtain ⟨bid, hbid, h⟩ := Except.ok_bind_inv h
    dsimp only at h
    split at h
    · cases h
    · rename_i hnone
      obtain ⟨tick, htick, h⟩ := Except.ok_bind_inv h
      cases h
      rw [Bool.and_eq_true] at hnone
      exact ⟨htoken, hdepth, hbid, rfl, hnone, htick⟩
  · cases h

/-- `quote_from_dict`. -/
def quoteFromDict (b : Build) (value : Value) : Exec (Option QuoteUpdate) := do
  let some token := parseToken value | return none
  let bid ← optionalPrice b value ["best_bid", "bestBid", "bid"]
  let ask ← optionalPrice b value ["best_ask", "bestAsk", "ask"]
  if bid.isNone && ask.isNone then return none
  let tick ← parseTick b value
  return some { token := token, bid := bid, ask := ask, askDepth := .empty, tick := tick }

/-- `parse_one`: the events of one value of a frame. -/
def parseOne (b : Build) (value : Value) : Exec (List MarketEvent) := do
  match value with
  | .object _ =>
    let eventType := ((optionalStr value ["event_type", "eventType", "type"]).getD "").toList
    if Text.eqIgnoreAsciiCase eventType "market_resolved".toList then
      return [.resolved ((optionalStr value ["market", "condition_id", "conditionId"]).map
        ConditionId.mk)]
    else if Text.eqIgnoreAsciiCase eventType "book".toList then
      return ((← quoteFromBook b value).map MarketEvent.quote).toList
    else
      match ((value.get "price_changes").or (value.get "priceChanges")).bind Value.asArray with
      | some changes => return ((← changes.mapM (quoteFromDict b)).reduceOption).map .quote
      | none => return ((← quoteFromDict b value).map MarketEvent.quote).toList
  | _ => return []

/-- `parse_market_events`. -/
def parseMarketEvents (pl : Platform) (raw : List UInt8) :
    Exec (Except MarketParseError (List MarketEvent)) := do
  match pl.fromSlice raw with
  | .error e => return .error ⟨e⟩
  | .ok (.array items) => return .ok (← items.mapM (parseOne pl.build)).flatten
  | .ok value => return .ok (← parseOne pl.build value)

/-- `resolution_matches_active_market`. -/
def resolutionMatchesActiveMarket (conditionId : Option ConditionId) (state : RuntimeState) :
    Bool :=
  match conditionId with
  | none => false
  | some conditionId => state.market.any fun market => market.conditionId == conditionId

/-- One event of `apply_market_events`; the flag says whether it was a quote that was taken. -/
def applyMarketEvent (state : RuntimeState) (tsUs : TsUs) : MarketEvent → RuntimeState × Bool
  | .quote q => state.updateQuoteWithDepth q.token q.bid q.ask q.askDepth q.tick tsUs
  | .resolved conditionId =>
    (if resolutionMatchesActiveMarket conditionId state then state.markMarketInactive else state,
      false)

/-- `apply_market_events`: the state after the events, and the number of quotes taken. -/
def applyMarketEvents (events : List MarketEvent) (state : RuntimeState) (tsUs : TsUs) :
    RuntimeState × Nat :=
  events.foldl (fun (state, applied) event =>
    let (state, taken) := applyMarketEvent state tsUs event
    (state, if taken then applied + 1 else applied)) (state, 0)

end Market

end Polyrust
