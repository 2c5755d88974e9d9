import Mathlib.Data.List.ReduceOption
import Polyrust.State.Coherent
import Polyrust.State.Depth

/-!
# Prices in range

Every price that comes from the market channel is one from one to 99 cents: a text is read into a
price or skipped, and the best price of a side is one of its levels. So the runtime state holds no
other (`Priced`).
-/

namespace Polyrust

/-- The price is tradeable. -/
def PriceTick.InRange (price : PriceTick) : Prop :=
  MIN_PRICE_TICK ≤ price.ticks ∧ price.ticks ≤ MAX_PRICE_TICK

/-- A checked price is in range. -/
theorem PriceTick.checked_inRange {ticks : Int} {p : PriceTick}
    (h : PriceTick.checked ticks = .ok p) : p.InRange := by
  obtain ⟨hp, hrange⟩ := PriceTick.checked_ok h
  rwa [PriceTick.InRange, hp]

/-- A price that is parsed is in range. -/
theorem PriceTick.parseDecimal_inRange {b : Build} {raw : List Char} {p : PriceTick}
    (h : PriceTick.parseDecimal b raw = .ok (.ok p)) : p.InRange := by
  obtain ⟨ticks, -, h⟩ := Except.ok_bind_inv h
  cases ticks with
  | none => cases h
  | some ticks =>
    dsimp only at h
    split at h
    · exact PriceTick.checked_inRange (Except.ok.inj h)
    · cases h

/-- Both sides of a quote, as far as they are there, are tradeable. -/
structure BidAskInRange (bid ask : Option PriceTick) : Prop where
  bid : ∀ p ∈ bid, p.InRange
  ask : ∀ p ∈ ask, p.InRange

namespace BookDepth

/-- The best price of a book depth is that of a level with a positive size. -/
theorem bestPrice_fromLevels {levels : List BookLevel} {wantBid : Bool} {p : PriceTick}
    (h : (fromLevels levels wantBid).bestPrice = some p) :
    ∃ level ∈ levels, 0 < level.sizeAtoms ∧ level.price = p := by
  rw [bestPrice, fromLevels_levels] at h
  cases hw : whole levels wantBid with
  | nil =>
    rw [hw] at h
    cases h
  | cons level rest =>
    rw [hw] at h
    cases h
    have hmem : level.price ∈ listedPrices levels wantBid := by
      rw [← whole_prices, hw]
      exact List.mem_cons_self ..
    simpa only [listedPrices, List.mem_insertionSort, List.mem_dedup, List.mem_map, List.mem_filter,
      decide_eq_true_eq, and_assoc] using hmem

end BookDepth

namespace Market

section
variable {b : Build} {value : Json.Value}

/-! ## The parser -/

/-- An optional price is in range, if there is one. -/
theorem optionalPrice_inRange {keys : List String} {price : Option PriceTick}
    (h : optionalPrice b value keys = .ok price) : ∀ p ∈ price, p.InRange := by
  rw [optionalPrice] at h
  split at h
  · obtain ⟨parsed, hparsed, h⟩ := Except.ok_bind_inv h
    cases h
    cases parsed with
    | error e => nofun
    | ok p =>
      rintro _ ⟨⟩
      exact PriceTick.parseDecimal_inRange hparsed
  · cases h
    nofun

/-- The price of a pair is in range. -/
theorem parsePair_inRange {price size : String} {level : Option (PriceTick × SharesAtoms)}
    (h : parsePair b price size = .ok level) : ∀ p ∈ level, p.1.InRange := by
  obtain ⟨parsed, hparsed, h⟩ := Except.ok_bind_inv h
  cases parsed with
  | error e =>
    cases h
    nofun
  | ok p =>
    obtain ⟨size, -, h⟩ := Except.ok_bind_inv h
    cases size with
    | error e =>
      cases h
      nofun
    | ok size =>
      cases h
      rintro _ ⟨⟩
      exact PriceTick.parseDecimal_inRange hparsed

/-- The price of a level is in range. -/
theorem parseLevel_inRange {level : Option (PriceTick × SharesAtoms)}
    (h : parseLevel b value = .ok level) : ∀ p ∈ level, p.1.InRange := by
  rw [parseLevel] at h
  split at h <;>
  · split at h
    · split at h
      · exact parsePair_inRange h
      · cases h
        nofun
    · cases h
      nofun

/-- The prices of the levels of a side are in range. -/
theorem parseLevels_inRange {values : List Json.Value} {levels : List (PriceTick × SharesAtoms)}
    (h : parseLevels b values = .ok levels) : ∀ level ∈ levels, level.1.InRange := by
  obtain ⟨parsed, hparsed, h⟩ := Except.ok_bind_inv h
  cases h
  intro level hlevel
  rw [List.reduceOption_mem_iff] at hlevel
  obtain ⟨v, -, hv⟩ := Except.mapM_ok_mem hparsed _ hlevel
  exact parseLevel_inRange hv level rfl

/-- The best price of a depth is in range. -/
theorem bookDepth_inRange {side : Option Json.Value} {wantBid : Bool} {depth : BookDepth}
    (h : bookDepth b side wantBid = .ok depth) : ∀ p ∈ depth.bestPrice, p.InRange := by
  rw [bookDepth] at h
  split at h
  · cases h
    nofun
  · obtain ⟨levels, hlevels, h⟩ := Except.ok_bind_inv h
    cases h
    intro p hp
    obtain ⟨level, hlevel, -, rfl⟩ := BookDepth.bestPrice_fromLevels hp
    obtain ⟨parsed, hparsed, rfl⟩ := List.mem_map.1 hlevel
    exact parseLevels_inRange hlevels parsed hparsed

/-- The better of two prices in range is in range. -/
theorem betterPrice_inRange {wantBid : Bool} {best : Option PriceTick} {price : PriceTick}
    (hbest : ∀ p ∈ best, p.InRange) (hprice : price.InRange) :
    ∀ p ∈ betterPrice wantBid best price, p.InRange := by
  cases best with
  | none =>
    rintro _ ⟨⟩
    exact hprice
  | some prev =>
    have hprev := hbest prev rfl
    rw [betterPrice]
    split <;>
    · rintro _ ⟨⟩
      split_ifs <;> assumption

/-- So is the best price of levels in range. -/
theorem foldl_betterPrice_inRange {wantBid : Bool} {levels : List (PriceTick × SharesAtoms)}
    (h : ∀ level ∈ levels, level.1.InRange) :
    ∀ p ∈ levels.foldl (fun best (price, size) =>
      if size.atoms ≤ 0 then best else betterPrice wantBid best price) none, p.InRange := by
  induction levels using List.reverseRecOn with
  | nil => nofun
  | append_singleton levels level ih =>
    have hbest := ih fun l hl => h l (List.mem_append_left _ hl)
    rw [List.foldl_append, List.foldl_cons, List.foldl_nil]
    dsimp only
    split
    · exact hbest
    · exact betterPrice_inRange hbest (h level (by simp))

/-- The best price of a side is in range. -/
theorem bestBookPrice_inRange {side : Option Json.Value} {wantBid : Bool} {best : Option PriceTick}
    (h : bestBookPrice b side wantBid = .ok best) : ∀ p ∈ best, p.InRange := by
  rw [bestBookPrice] at h
  split at h
  · cases h
    nofun
  · obtain ⟨levels, hlevels, h⟩ := Except.ok_bind_inv h
    cases h
    exact foldl_betterPrice_inRange (parseLevels_inRange hlevels)

/-- The prices of a book are in range. -/
theorem quoteFromBook_inRange {update : Option QuoteUpdate}
    (h : quoteFromBook b value = .ok update) : ∀ q ∈ update, BidAskInRange q.bid q.ask := by
  rintro q hq
  rw [Option.mem_def.1 hq] at h
  obtain ⟨-, hdepth, hbid, hask, -⟩ := quoteFromBook_some h
  rw [hask]
  exact ⟨bestBookPrice_inRange hbid, bookDepth_inRange hdepth⟩

/-- The prices of a price change are in range. -/
theorem quoteFromDict_inRange {update : Option QuoteUpdate}
    (h : quoteFromDict b value = .ok update) : ∀ q ∈ update, BidAskInRange q.bid q.ask := by
  rw [quoteFromDict] at h
  split at h
  · obtain ⟨bid, hbid, h⟩ := Except.ok_bind_inv h
    obtain ⟨ask, hask, h⟩ := Except.ok_bind_inv h
    split at h
    · cases h
      nofun
    · obtain ⟨tick, -, h⟩ := Except.ok_bind_inv h
      cases h
      rintro _ ⟨⟩
      exact ⟨optionalPrice_inRange hbid, optionalPrice_inRange hask⟩
  · cases h
    nofun

/-- The quotes among the events are in range. -/
def QuotesInRange (events : List MarketEvent) : Prop :=
  ∀ q, MarketEvent.quote q ∈ events → BidAskInRange q.bid q.ask

/-- One update is in range as the list of events that it makes. -/
theorem quotesInRange_toList {update : Option QuoteUpdate}
    (h : ∀ q ∈ update, BidAskInRange q.bid q.ask) :
    QuotesInRange (update.map MarketEvent.quote).toList := by
  intro q hq
  cases update with
  | none => cases hq
  | some update =>
    cases List.mem_singleton.1 hq
    exact h q rfl

/-- The quotes of a value are in range. -/
theorem parseOne_inRange {events : List MarketEvent} (h : parseOne b value = .ok events) :
    QuotesInRange events := by
  cases value with
  | object fields =>
    simp only [parseOne] at h
    split at h
    · cases h
      nofun
    · split at h
      · obtain ⟨update, hupdate, h⟩ := Except.ok_bind_inv h
        cases h
        exact quotesInRange_toList (quoteFromBook_inRange hupdate)
      · split at h
        · obtain ⟨updates, hupdates, h⟩ := Except.ok_bind_inv h
          cases h
          intro q hq
          obtain ⟨update, hmem, hupdate⟩ := List.mem_map.1 hq
          cases hupdate
          rw [List.reduceOption_mem_iff] at hmem
          obtain ⟨v, -, hv⟩ := Except.mapM_ok_mem hupdates _ hmem
          exact quoteFromDict_inRange hv _ rfl
        · obtain ⟨update, hupdate, h⟩ := Except.ok_bind_inv h
          cases h
          exact quotesInRange_toList (quoteFromDict_inRange hupdate)
  | _ =>
    cases h
    nofun

/-- The quotes of a frame are in range. -/
theorem parseMarketEvents_inRange {pl : Platform} {raw : List UInt8} {events : List MarketEvent}
    (h : parseMarketEvents pl raw = .ok (.ok events)) : QuotesInRange events := by
  rw [parseMarketEvents] at h
  split at h
  · cases h
  · obtain ⟨items, hitems, h⟩ := Except.ok_bind_inv h
    cases h
    intro q hq
    obtain ⟨item, hitem, hmem⟩ := List.mem_flatten.1 hq
    obtain ⟨v, -, hv⟩ := Except.mapM_ok_mem hitems _ hitem
    exact parseOne_inRange hv q hmem
  · obtain ⟨events', hevents, h⟩ := Except.ok_bind_inv h
    cases h
    exact parseOne_inRange hevents

end

end Market

/-! ## The state -/

namespace RuntimeState

/-- The prices of the quotes, and the asks of the histories, are in range. -/
structure Priced (state : RuntimeState) : Prop where
  quotes : ∀ token quote, state.quotes.lookup token = some quote → BidAskInRange quote.bid quote.ask
  history : ∀ token ring, state.quoteHistory.lookup token = some ring →
    ∀ sample ∈ ring.samples, ∀ askTicks ∈ sample.askTicks, PriceTick.InRange ⟨askTicks⟩

section
variable {state : RuntimeState}

/-- Whatever the market, empty maps hold no price. -/
theorem Priced.of_empty (hq : state.quotes = ∅) (hh : state.quoteHistory = ∅) : state.Priced where
  quotes token quote h := by
    rw [hq] at h
    cases h
  history token ring h := by
    rw [hh] at h
    cases h

/-- An update in range keeps the prices in range. -/
theorem Priced.update (h : state.Priced) {update : QuoteUpdate}
    (hu : BidAskInRange update.bid update.ask) (tsUs : TsUs) :
    (state.updateQuoteWithDepth update.token update.bid update.ask update.askDepth update.tick
      tsUs).1.Priced := by
  rcases updateQuoteWithDepth_cases state update.token update.bid update.ask update.askDepth
    update.tick tsUs with he | ⟨-, -, he⟩
  · rw [he]
    exact h
  rw [he]
  refine ⟨fun token quote hl => ?_, fun token ring hl sample hs => ?_⟩
  · rcases eq_or_ne token update.token with rfl | hne
    · rw [AList.lookup_insert] at hl
      cases hl
      exact hu
    · rw [AList.lookup_insert_ne hne] at hl
      exact h.quotes token quote hl
  · rcases eq_or_ne token update.token with rfl | hne
    · rw [AList.lookup_insert] at hl
      cases hl
      rcases List.mem_append.1 hs with hs | hs
      · cases hring : state.quoteHistory.lookup update.token with
        | none =>
          rw [hring] at hs
          cases List.mem_of_mem_drop hs
        | some ring =>
          rw [hring] at hs
          exact h.history _ ring hring sample (List.mem_of_mem_drop hs)
      · cases List.mem_singleton.1 hs
        intro askTicks hask
        obtain ⟨p, hp, rfl⟩ := Option.map_eq_some_iff.1 hask
        exact hu.ask p hp
    · rw [AList.lookup_insert_ne hne] at hl
      exact h.history token ring hl sample hs

/-- The events of a frame keep the prices in range. -/
theorem Priced.applyMarketEvents (h : state.Priced) {events : List MarketEvent}
    (he : Market.QuotesInRange events) (tsUs : TsUs) :
    (Market.applyMarketEvents events state tsUs).1.Priced := by
  have hok : Machine.Along
      (fun state event => (Market.applyMarketEvent state tsUs event).1)
      (fun _ event => ∀ q, event = .quote q → BidAskInRange q.bid q.ask) state events := by
    refine Machine.along_of_forall (fun event hmem _ q hq => he q ?_) state
    rwa [← hq]
  rw [applyMarketEvents_fst]
  refine Machine.run_invariant (fun s event ih hok => ?_) h hok
  cases event with
  | quote update => exact ih.update (hok update rfl) tsUs
  | resolved conditionId =>
    rw [Market.applyMarketEvent]
    dsimp only
    split
    · exact .of_empty rfl rfl
    · exact ih

/-- The bid that is read of a token is in range. -/
theorem Priced.bid (h : state.Priced) {token : TokenId} {p : PriceTick}
    (hp : (state.quoteForToken token).bind (·.bid) = some p) : p.InRange := by
  obtain ⟨quote, hquote, hbid⟩ := Option.bind_eq_some_iff.1 hp
  obtain ⟨-, -, hlookup⟩ := Option.bind_eq_some_iff.1 hquote
  exact (h.quotes token quote hlookup).bid p hbid

/-- So is the ask. -/
theorem Priced.ask (h : state.Priced) {token : TokenId} {p : PriceTick}
    (hp : (state.quoteForToken token).bind (·.ask) = some p) : p.InRange := by
  obtain ⟨quote, hquote, hask⟩ := Option.bind_eq_some_iff.1 hp
  obtain ⟨-, -, hlookup⟩ := Option.bind_eq_some_iff.1 hquote
  exact (h.quotes token quote hlookup).ask p hask

end

end RuntimeState

end Polyrust
