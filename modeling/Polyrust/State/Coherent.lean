import Polyrust.Lib.Run
import Polyrust.Market

/-!
# The representation of the runtime state

Two maps, a flag and the market are kept in step by every operation: quotes and histories are of the
tokens of the market, they come and go together, and each history ends in the current quote
(`Coherent`). A resolution of the active market empties both maps, and they stay empty until the
next market is set.
-/

namespace Polyrust

namespace RuntimeState

/-- The operations on the runtime state. -/
inductive Op where
  | setMarket (market : MarketContext)
  | markMarketInactive
  | updateQuote (token : TokenId) (bid ask : Option PriceTick) (tick : PriceTick) (tsUs : TsUs)
  | updateQuoteWithDepth (token : TokenId) (bid ask : Option PriceTick) (askDepth : BookDepth)
      (tick : PriceTick) (tsUs : TsUs)
  | applyMarketEvents (events : List MarketEvent) (tsUs : TsUs)

/-- The state after an operation. -/
def step (state : RuntimeState) : Op → RuntimeState
  | .setMarket market => state.setMarket market
  | .markMarketInactive => state.markMarketInactive
  | .updateQuote token bid ask tick tsUs => (state.updateQuote token bid ask tick tsUs).1
  | .updateQuoteWithDepth token bid ask askDepth tick tsUs =>
    (state.updateQuoteWithDepth token bid ask askDepth tick tsUs).1
  | .applyMarketEvents events tsUs => (Market.applyMarketEvents events state tsUs).1

end RuntimeState

/-- The sample that a quote leaves in the history of its token. -/
def Quote.sample (quote : Quote) : QuoteHistorySample :=
  { tsUs := quote.tsUs, bidTicks := quote.bid.map (·.ticks), askTicks := quote.ask.map (·.ticks) }

namespace QuoteRing

/-- A ring that a sample was pushed into holds it, and no more than its capacity. -/
theorem length_push (ring : QuoteRing) (sample : QuoteHistorySample) :
    1 ≤ (ring.push sample).samples.length ∧
      (ring.push sample).samples.length ≤ QUOTE_HISTORY_CAP := by
  simp only [push, List.length_append, List.length_drop, List.length_singleton,
    QUOTE_HISTORY_CAP]
  omega

/-- The sample pushed last is the last of the ring. -/
theorem getLast?_push (ring : QuoteRing) (sample : QuoteHistorySample) :
    (ring.push sample).samples.getLast? = some sample :=
  List.getLast?_concat

end QuoteRing

namespace RuntimeState

/-- The token is one of the two of the market. -/
def OfMarket (state : RuntimeState) (token : TokenId) : Prop :=
  ∃ market, state.market = some market ∧ (token = market.yesToken ∨ token = market.noToken)

/-- The maps, the flag and the market are in step. -/
structure Coherent (state : RuntimeState) : Prop where
  /-- every key is a token of the market -/
  tokens : ∀ token, token ∈ state.quotes ∨ token ∈ state.quoteHistory → state.OfMarket token
  /-- the two maps have the same keys -/
  keys : ∀ token, token ∈ state.quotes ↔ token ∈ state.quoteHistory
  /-- without trading both maps are empty -/
  inactive : state.tradingActive = false → state.quotes = ∅ ∧ state.quoteHistory = ∅
  /-- a history holds between one sample and the capacity of the ring -/
  length : ∀ token ring, state.quoteHistory.lookup token = some ring →
    1 ≤ ring.samples.length ∧ ring.samples.length ≤ QUOTE_HISTORY_CAP
  /-- a history ends in the current quote -/
  last : ∀ token ring quote, state.quoteHistory.lookup token = some ring →
    state.quotes.lookup token = some quote → ring.samples.getLast? = some quote.sample

section
variable {state : RuntimeState} {token : TokenId}

/-- A token has a side exactly if it is of the market. -/
theorem sideForToken_isSome : (state.sideForToken token).isSome ↔ state.OfMarket token := by
  rw [OfMarket]
  cases hm : state.market with
  | none => simp [sideForToken, hm]
  | some market =>
    simp only [sideForToken, hm, Option.bind_some, Option.some.injEq, exists_eq_left']
    split_ifs with hy hn <;> simp [*]

/-! ## The operations -/

/-- The first state is coherent. -/
theorem Coherent.new : Coherent .new where
  tokens token h := by rcases h with h | h <;> cases h
  keys token := Iff.rfl
  inactive _ := ⟨rfl, rfl⟩
  length token ring h := by cases h
  last token ring quote h := by cases h

/-- Whatever the market, empty maps are in step with it. -/
theorem Coherent.of_empty (hq : state.quotes = ∅) (hh : state.quoteHistory = ∅) :
    state.Coherent where
  tokens token h := by
    rw [hq, hh] at h
    rcases h with h | h <;> cases h
  keys token := by rw [hq, hh]; exact Iff.rfl
  inactive _ := ⟨hq, hh⟩
  length token ring h := by
    rw [hh] at h
    cases h
  last token ring quote h := by
    rw [hh] at h
    cases h

/-- What an update of a quote does: nothing, or a new quote and a sample for a token of the market
while it is traded. -/
theorem updateQuoteWithDepth_cases (state : RuntimeState) (token : TokenId)
    (bid ask : Option PriceTick) (askDepth : BookDepth) (tick : PriceTick) (tsUs : TsUs) :
    state.updateQuoteWithDepth token bid ask askDepth tick tsUs = (state, false) ∨
      state.tradingActive = true ∧ state.OfMarket token ∧
        state.updateQuoteWithDepth token bid ask askDepth tick tsUs =
          ({ state with
              quoteHistory := state.quoteHistory.insert token
                (((state.quoteHistory.lookup token).getD .new).push
                  (Quote.sample ⟨bid, ask, askDepth, tick, tsUs⟩))
              quotes := state.quotes.insert token ⟨bid, ask, askDepth, tick, tsUs⟩ }, true) := by
  rw [updateQuoteWithDepth]
  split
  · exact .inl rfl
  · next h =>
    simp only [Bool.or_eq_true, Bool.not_eq_true', not_or, Bool.not_eq_false] at h
    exact .inr ⟨h.1, sideForToken_isSome.1 (Option.isSome_iff_ne_none.2 (by simpa using h.2)), rfl⟩

/-- An update of a quote keeps the representation. -/
theorem Coherent.updateQuoteWithDepth (h : state.Coherent) (bid ask : Option PriceTick)
    (askDepth : BookDepth) (tick : PriceTick) (tsUs : TsUs) :
    (state.updateQuoteWithDepth token bid ask askDepth tick tsUs).1.Coherent := by
  rcases updateQuoteWithDepth_cases state token bid ask askDepth tick tsUs with
    he | ⟨hactive, htoken, he⟩
  · rw [he]
    exact h
  rw [he]
  refine ⟨?_, ?_, ?_, ?_, ?_⟩
  · intro t ht
    simp only [AList.mem_insert] at ht
    rcases ht with (rfl | ht) | (rfl | ht)
    · exact htoken
    · exact h.tokens t (.inl ht)
    · exact htoken
    · exact h.tokens t (.inr ht)
  · intro t
    simp only [AList.mem_insert, h.keys t]
  · intro hinactive
    rw [hactive] at hinactive
    cases hinactive
  · intro t ring hl
    rcases eq_or_ne t token with rfl | hne
    · rw [AList.lookup_insert] at hl
      cases hl
      exact QuoteRing.length_push _ _
    · rw [AList.lookup_insert_ne hne] at hl
      exact h.length t ring hl
  · intro t ring quote hl hq
    rcases eq_or_ne t token with rfl | hne
    · rw [AList.lookup_insert] at hl hq
      cases hl
      cases hq
      exact QuoteRing.getLast?_push _ _
    · rw [AList.lookup_insert_ne hne] at hl hq
      exact h.last t ring quote hl hq

/-- Market events are performed one by one. -/
theorem applyMarketEvents_fst (events : List MarketEvent) (state : RuntimeState) (tsUs : TsUs) :
    (Market.applyMarketEvents events state tsUs).1 =
      Machine.run (fun state event => (Market.applyMarketEvent state tsUs event).1) state
        events := by
  have hcount (n : Nat) : (events.foldl (fun (p : RuntimeState × Nat) event =>
      ((Market.applyMarketEvent p.1 tsUs event).1,
        if (Market.applyMarketEvent p.1 tsUs event).2 then p.2 + 1 else p.2)) (state, n)).1 =
      Machine.run (fun state event => (Market.applyMarketEvent state tsUs event).1) state
        events := by
    induction events generalizing state n with
    | nil => rfl
    | cons event events ih => exact ih _ _
  exact hcount 0

/-- An event of the market channel keeps the state coherent. -/
theorem Coherent.applyMarketEvent (h : state.Coherent) (tsUs : TsUs) (event : MarketEvent) :
    (Market.applyMarketEvent state tsUs event).1.Coherent := by
  cases event with
  | quote q => exact h.updateQuoteWithDepth q.bid q.ask q.askDepth q.tick tsUs
  | resolved conditionId =>
    rw [Market.applyMarketEvent]
    dsimp only
    split
    · exact .of_empty rfl rfl
    · exact h

/-- Every operation keeps the representation. -/
theorem Coherent.step (h : state.Coherent) (op : Op) : (state.step op).Coherent := by
  cases op with
  | setMarket market => exact .of_empty rfl rfl
  | markMarketInactive => exact .of_empty rfl rfl
  | updateQuote token bid ask tick tsUs => exact h.updateQuoteWithDepth bid ask .empty tick tsUs
  | updateQuoteWithDepth token bid ask askDepth tick tsUs =>
    exact h.updateQuoteWithDepth bid ask askDepth tick tsUs
  | applyMarketEvents events tsUs =>
    rw [RuntimeState.step, applyMarketEvents_fst]
    exact Machine.run_invariant (fun _ event ih _ => ih.applyMarketEvent tsUs event) h
      (Machine.along_true state events)

/-! ## After a resolution -/

/-- No market is traded, and there are no quotes. -/
structure Closed (state : RuntimeState) : Prop where
  tradingActive : state.tradingActive = false
  quotes : state.quotes = ∅
  quoteHistory : state.quoteHistory = ∅

/-- No quote can be read, and none is accepted. -/
structure Shut (state : RuntimeState) : Prop where
  quoteForSide : ∀ side, state.quoteForSide side = none
  quoteForToken : ∀ token, state.quoteForToken token = none
  history : ∀ token cutoffUs, state.quoteHistoryOldestSince token cutoffUs = none
  update : ∀ token bid ask askDepth tick tsUs,
    state.updateQuoteWithDepth token bid ask askDepth tick tsUs = (state, false)
  events : ∀ events tsUs, (Market.applyMarketEvents events state tsUs).2 = 0

/-- A closed state takes no quote. -/
theorem Closed.update (h : state.Closed) (token : TokenId) (bid ask : Option PriceTick)
    (askDepth : BookDepth) (tick : PriceTick) (tsUs : TsUs) :
    state.updateQuoteWithDepth token bid ask askDepth tick tsUs = (state, false) := by
  rw [updateQuoteWithDepth, h.tradingActive]
  rfl

/-- An event neither opens a closed state nor is taken by it. -/
theorem Closed.applyMarketEvent (h : state.Closed) (tsUs : TsUs) (event : MarketEvent) :
    (Market.applyMarketEvent state tsUs event).1.Closed ∧
      (Market.applyMarketEvent state tsUs event).2 = false := by
  cases event with
  | quote q =>
    rw [Market.applyMarketEvent, h.update]
    exact ⟨h, rfl⟩
  | resolved conditionId =>
    rw [Market.applyMarketEvent]
    refine ⟨?_, rfl⟩
    dsimp only
    split
    · exact ⟨rfl, rfl, rfl⟩
    · exact h

/-- The events of a frame leave it closed. -/
theorem Closed.applyMarketEvents (h : state.Closed) (events : List MarketEvent) (tsUs : TsUs) :
    (Market.applyMarketEvents events state tsUs).1.Closed := by
  rw [applyMarketEvents_fst]
  exact Machine.run_invariant (fun _ event ih _ => (ih.applyMarketEvent tsUs event).1) h
    (Machine.along_true state events)

/-- A closed state is shut. -/
theorem Closed.shut (h : state.Closed) : state.Shut where
  quoteForSide side := by
    rw [quoteForSide, h.quotes]
    cases state.tokenForSide side <;> rfl
  quoteForToken token := by
    rw [quoteForToken, h.quotes]
    cases state.sideForToken token <;> rfl
  history token cutoffUs := by
    rw [quoteHistoryOldestSince, h.quoteHistory]
    rfl
  update := h.update
  events events tsUs := by
    rw [Market.applyMarketEvents]
    induction events generalizing state with
    | nil => rfl
    | cons event events ih =>
      obtain ⟨hclosed, hfalse⟩ := h.applyMarketEvent tsUs event
      simp only [List.foldl_cons, hfalse]
      exact ih hclosed

/-- Only `set_market` opens a closed state. -/
theorem Closed.step (h : state.Closed) {op : Op} (hop : ∀ market, op ≠ .setMarket market) :
    (state.step op).Closed := by
  cases op with
  | setMarket market => exact absurd rfl (hop market)
  | markMarketInactive => exact ⟨rfl, rfl, rfl⟩
  | updateQuote token bid ask tick tsUs =>
    rw [RuntimeState.step, updateQuote, h.update]
    exact h
  | updateQuoteWithDepth token bid ask askDepth tick tsUs =>
    rw [RuntimeState.step, h.update]
    exact h
  | applyMarketEvents events tsUs => exact h.applyMarketEvents events tsUs

/-- An event leaves the market as it is. -/
theorem applyMarketEvent_market (state : RuntimeState) (tsUs : TsUs) (event : MarketEvent) :
    (Market.applyMarketEvent state tsUs event).1.market = state.market := by
  cases event with
  | quote q =>
    rcases updateQuoteWithDepth_cases state q.token q.bid q.ask q.askDepth q.tick tsUs with
      he | ⟨-, -, he⟩ <;> rw [Market.applyMarketEvent, he]
  | resolved conditionId =>
    rw [Market.applyMarketEvent]
    dsimp only
    split <;> rfl

/-- Events leave the market as it is. -/
theorem applyMarketEvents_market (events : List MarketEvent) (state : RuntimeState) (tsUs : TsUs) :
    (Market.applyMarketEvents events state tsUs).1.market = state.market := by
  rw [applyMarketEvents_fst]
  exact Machine.run_invariant (I := fun s => s.market = state.market)
    (fun s event ih _ => (applyMarketEvent_market s tsUs event).trans ih) rfl
    (Machine.along_true state events)

/-- Events that resolve the active market close the state. -/
theorem closed_of_resolved {market : MarketContext} {events : List MarketEvent} {tsUs : TsUs}
    (hm : state.market = some market)
    (hr : MarketEvent.resolved (some market.conditionId) ∈ events) :
    (Market.applyMarketEvents events state tsUs).1.Closed := by
  obtain ⟨pre, post, rfl⟩ := List.append_of_mem hr
  rw [applyMarketEvents_fst, Machine.run_append, Machine.run_cons]
  have hmarket := (applyMarketEvents_market pre state tsUs).trans hm
  rw [applyMarketEvents_fst] at hmarket
  rw [← applyMarketEvents_fst post]
  refine Closed.applyMarketEvents ?_ post tsUs
  rw [Market.applyMarketEvent]
  dsimp only
  rw [if_pos (by simp [Market.resolutionMatchesActiveMarket, hmarket])]
  exact ⟨rfl, rfl, rfl⟩

/-- In every reachable state the maps, the flag and the market are in step, and from a frame that
resolves the active market until the next `set_market` no quote is readable and none is accepted. -/
theorem state_coherent (ops : List Op) :
    (Machine.run step new ops).Coherent ∧
      ∀ market events tsUs ops', (Machine.run step new ops).market = some market →
        MarketEvent.resolved (some market.conditionId) ∈ events →
        (∀ m, Op.setMarket m ∉ ops') →
        (Machine.run step new (ops ++ .applyMarketEvents events tsUs :: ops')).Shut := by
  refine ⟨Machine.run_invariant (fun _ op ih _ => ih.step op) .new (Machine.along_true new ops), ?_⟩
  intro market events tsUs ops' hm hr hops'
  rw [Machine.run_append, Machine.run_cons]
  have hclosed : ((Machine.run step new ops).step (.applyMarketEvents events tsUs)).Closed :=
    closed_of_resolved hm hr
  have hok : Machine.Along step (fun _ op => ∀ m, op ≠ .setMarket m)
      ((Machine.run step new ops).step (.applyMarketEvents events tsUs)) ops' := by
    refine Machine.along_of_forall (fun op hop _ m he => hops' m ?_) _
    rwa [← he]
  exact (Machine.run_invariant (I := Closed) (fun _ _ ih hop => ih.step hop) hclosed hok).shut

end

/-- A market whose first token is quoted. -/
def quotedOps : List Op :=
  [.setMarket
      { slug := "btc-up-down-1m", conditionId := ⟨"cond-1"⟩, yesToken := ⟨"yes-token"⟩
        noToken := ⟨"no-token"⟩, endTs := 1060, slugTs := 1000 },
    .updateQuote ⟨"yes-token"⟩ (some ⟨58⟩) (some ⟨61⟩) ⟨1⟩ ⟨10000⟩]

/-- Its resolution shuts it. -/
theorem state_coherent_example :
    ((Machine.run step new quotedOps).quoteForSide .yes).isSome ∧
      (Machine.run step new (quotedOps ++
        [.applyMarketEvents [.resolved (some ⟨"cond-1"⟩)] ⟨11000⟩])).Shut :=
  ⟨by decide +kernel, (state_coherent quotedOps).2 _ [.resolved (some ⟨"cond-1"⟩)] ⟨11000⟩ [] rfl
    (List.mem_singleton.2 rfl) nofun⟩

end RuntimeState

end Polyrust
