import Polyrust.Lib.HashMap
import Polyrust.Types

/-!
# Runtime state

The active market and its latest quotes (`state.rs`): the book depth of a quote, the ring of recent
best prices kept for each token, and the four updates of the state. Inventory is absent from it.
-/

namespace Polyrust

open IntWidth

/-- The levels that a side of a book keeps. -/
def BOOK_DEPTH_LEVELS : Nat := 4

/-- Number of samples a quote history keeps. -/
def QUOTE_HISTORY_CAP : Nat := 64

/-! ## Book depth -/

/-- A price and what is offered at it. -/
structure BookLevel where
  price : PriceTick
  sizeAtoms : Int
  deriving DecidableEq, Repr

/-- The best levels of one side of a book, in a fixed number of slots. -/
structure BookDepth where
  levels : List (Option BookLevel)
  length_eq : levels.length = BOOK_DEPTH_LEVELS
  deriving DecidableEq

namespace BookDepth

/-- `BookDepth::empty`. -/
def empty : BookDepth := ⟨List.replicate BOOK_DEPTH_LEVELS none, List.length_replicate⟩

/-- `BookDepth::best_price`. -/
def bestPrice (depth : BookDepth) : Option PriceTick := (depth.levels.head?.join).map (·.price)

/-- The level takes the place of what the slot holds. -/
def shouldInsert (level : BookLevel) (wantBid : Bool) : Option BookLevel → Bool
  | none => true
  | some existing =>
    if wantBid then decide (existing.price.ticks < level.price.ticks)
    else decide (level.price.ticks < existing.price.ticks)

/-- The slots with the size of the level added to the first slot of its price, if there is one. -/
def mergeLevel (level : BookLevel) : List (Option BookLevel) → Option (List (Option BookLevel))
  | [] => none
  | none :: rest => (mergeLevel level rest).map (none :: ·)
  | some existing :: rest =>
    if existing.price = level.price then
      some (some { existing with sizeAtoms := i64.saturatingAdd existing.sizeAtoms level.sizeAtoms }
        :: rest)
    else (mergeLevel level rest).map (some existing :: ·)

/-- The slots with the level in the first slot it takes, the later ones moved up by one. -/
def shiftLevel (level : BookLevel) (wantBid : Bool) :
    List (Option BookLevel) → List (Option BookLevel)
  | [] => []
  | slot :: rest =>
    if shouldInsert level wantBid slot then some level :: (slot :: rest).dropLast
    else slot :: shiftLevel level wantBid rest

/-- Merging keeps the number of slots. -/
theorem mergeLevel_length {level : BookLevel} {slots slots' : List (Option BookLevel)}
    (h : mergeLevel level slots = some slots') : slots'.length = slots.length := by
  induction slots generalizing slots' with
  | nil => cases h
  | cons slot rest ih =>
    cases slot with
    | none =>
      obtain ⟨rest', hr, rfl⟩ := Option.map_eq_some_iff.1 h
      exact congrArg Nat.succ (ih hr)
    | some existing =>
      simp only [mergeLevel] at h
      split at h
      · cases h
        rfl
      · obtain ⟨rest', hr, rfl⟩ := Option.map_eq_some_iff.1 h
        exact congrArg Nat.succ (ih hr)

/-- Shifting keeps the number of slots. -/
theorem shiftLevel_length (level : BookLevel) (wantBid : Bool) (slots : List (Option BookLevel)) :
    (shiftLevel level wantBid slots).length = slots.length := by
  induction slots with
  | nil => rfl
  | cons slot rest ih =>
    simp only [shiftLevel]
    split
    · simp
    · simp [ih]

/-- `BookDepth::insert`. -/
def insert (depth : BookDepth) (level : BookLevel) (wantBid : Bool) : BookDepth :=
  match h : mergeLevel level depth.levels with
  | some levels => ⟨levels, (mergeLevel_length h).trans depth.length_eq⟩
  | none =>
    ⟨shiftLevel level wantBid depth.levels, (shiftLevel_length _ _ _).trans depth.length_eq⟩

/-- `BookDepth::from_levels`. -/
def fromLevels (levels : List BookLevel) (wantBid : Bool) : BookDepth :=
  levels.foldl (fun depth level =>
    if 0 < level.sizeAtoms then depth.insert level wantBid else depth) empty

/-- The loop of `cutoff_for_buy_cents` over the filled slots. -/
def cutoffLoop (b : Build) (target : Int) : Int → List BookLevel → Exec (Option PriceTick)
  | _, [] => return none
  | total, level :: levels => do
    let value ← b.arith i128 (level.price.ticks * level.sizeAtoms)
    let total ← b.arith i128 (total + value)
    if target ≤ total then return some level.price else cutoffLoop b target total levels

/-- `BookDepth::cutoff_for_buy_cents`: the price of the level that completes the target. -/
def cutoffForBuyCents (b : Build) (depth : BookDepth) (targetCents : Int) :
    Exec (Option PriceTick) := do
  if targetCents ≤ 0 then return none
  let targetMicrocents ← b.arith i128 (targetCents * 1000000)
  cutoffLoop b targetMicrocents 0 depth.levels.reduceOption

end BookDepth

/-! ## Market and quotes -/

/-- A market with its two tokens, its window and its end. -/
structure MarketContext where
  slug : String
  conditionId : ConditionId
  yesToken : TokenId
  noToken : TokenId
  endTs : Int
  slugTs : Int
  deriving DecidableEq, Repr

/-- The best prices of a token, with the depth of its asks and the time of the last update. -/
structure Quote where
  bid : Option PriceTick
  ask : Option PriceTick
  askDepth : BookDepth
  tick : PriceTick
  tsUs : TsUs
  deriving DecidableEq

/-- `Quote::buy_cutoff_for_cents`. -/
def Quote.buyCutoffForCents (b : Build) (quote : Quote) (targetCents : Int) :
    Exec (Option PriceTick) := do
  let cutoff ← quote.askDepth.cutoffForBuyCents b targetCents
  return cutoff.or quote.ask

/-- The best prices of a token at the time the runtime received them. -/
structure QuoteHistorySample where
  tsUs : TsUs
  bidTicks : Option Int
  askTicks : Option Int
  deriving DecidableEq, Repr

/-- The recent samples of a token, oldest first. -/
structure QuoteRing where
  samples : List QuoteHistorySample
  deriving DecidableEq, Repr

namespace QuoteRing

/-- `QuoteRing::new`. -/
def new : QuoteRing := ⟨[]⟩

/-- `QuoteRing::push`: the oldest samples leave when the ring is full. -/
def push (ring : QuoteRing) (sample : QuoteHistorySample) : QuoteRing :=
  ⟨ring.samples.drop (ring.samples.length + 1 - QUOTE_HISTORY_CAP) ++ [sample]⟩

/-- `QuoteRing::oldest_since`. -/
def oldestSince (ring : QuoteRing) (cutoffUs : Int) : Option QuoteHistorySample :=
  ring.samples.find? fun sample => cutoffUs ≤ sample.tsUs.micros

end QuoteRing

/-- The active market, and the quotes of the tokens with their history. -/
structure RuntimeState where
  market : Option MarketContext
  quotes : HashMap TokenId Quote
  quoteHistory : HashMap TokenId QuoteRing
  tradingActive : Bool
  deriving DecidableEq

namespace RuntimeState

/-- `RuntimeState::new`. -/
def new : RuntimeState := ⟨none, ∅, ∅, false⟩

/-- `RuntimeState::set_market`. -/
def setMarket (_state : RuntimeState) (market : MarketContext) : RuntimeState :=
  { market := some market, quotes := ∅, quoteHistory := ∅, tradingActive := true }

/-- `RuntimeState::mark_market_inactive`. -/
def markMarketInactive (state : RuntimeState) : RuntimeState :=
  { state with tradingActive := false, quotes := ∅, quoteHistory := ∅ }

/-- `RuntimeState::token_for_side`. -/
def tokenForSide (state : RuntimeState) (side : OutcomeSide) : Option TokenId :=
  state.market.map fun market =>
    match side with
    | .yes => market.yesToken
    | .no => market.noToken

/-- `RuntimeState::side_for_token`. -/
def sideForToken (state : RuntimeState) (token : TokenId) : Option OutcomeSide :=
  state.market.bind fun market =>
    if token = market.yesToken then some .yes
    else if token = market.noToken then some .no
    else none

/-- `RuntimeState::update_quote_with_depth`; the flag says whether the update was taken. -/
def updateQuoteWithDepth (state : RuntimeState) (token : TokenId) (bid ask : Option PriceTick)
    (askDepth : BookDepth) (tick : PriceTick) (tsUs : TsUs) : RuntimeState × Bool :=
  if !state.tradingActive || (state.sideForToken token).isNone then (state, false)
  else
    let sample : QuoteHistorySample :=
      { tsUs := tsUs, bidTicks := bid.map (·.ticks), askTicks := ask.map (·.ticks) }
    let ring := (state.quoteHistory.lookup token).getD .new
    ({ state with
        quoteHistory := state.quoteHistory.insert token (ring.push sample)
        quotes := state.quotes.insert token
          { bid := bid, ask := ask, askDepth := askDepth, tick := tick, tsUs := tsUs } },
      true)

/-- `RuntimeState::update_quote`. -/
def updateQuote (state : RuntimeState) (token : TokenId) (bid ask : Option PriceTick)
    (tick : PriceTick) (tsUs : TsUs) : RuntimeState × Bool :=
  state.updateQuoteWithDepth token bid ask .empty tick tsUs

/-- `RuntimeState::quote_for_side`. -/
def quoteForSide (state : RuntimeState) (side : OutcomeSide) : Option Quote :=
  (state.tokenForSide side).bind fun token => state.quotes.lookup token

/-- `RuntimeState::quote_for_token`. -/
def quoteForToken (state : RuntimeState) (token : TokenId) : Option Quote :=
  (state.sideForToken token).bind fun _ => state.quotes.lookup token

/-- `RuntimeState::quote_history_oldest_since`. -/
def quoteHistoryOldestSince (state : RuntimeState) (token : TokenId) (cutoffUs : Int) :
    Option QuoteHistorySample :=
  (state.quoteHistory.lookup token).bind fun ring => ring.oldestSince cutoffUs

end RuntimeState

end Polyrust
