import Polyrust.Lib.Tail
import Polyrust.State.Coherent

/-!
# The history behind a quote ring

A quote ring stands for all updates of its token that were accepted since the market was set, and
holds the last of them only. Where a window starts is therefore known exactly as long as the ring
holds the window, or the oldest sample it holds equals the one it has lost.
-/

namespace Polyrust

/-- A push into a ring that holds the end of the history. -/
theorem QuoteRing.push_rtake {ring : QuoteRing} {history : List QuoteHistorySample}
    (h : ring.samples = history.rtake QUOTE_HISTORY_CAP) (sample : QuoteHistorySample) :
    (ring.push sample).samples = (history ++ [sample]).rtake QUOTE_HISTORY_CAP := by
  have hcap : QUOTE_HISTORY_CAP = 63 + 1 := rfl
  rw [QuoteRing.push, h, hcap, List.rtake_concat_succ, drop_rtake_succ]

namespace RuntimeState

/-! ## The updates of a token -/

/-- What an update leaves in the history of the token, if it is accepted. -/
def acceptedUpdate (token : TokenId) (state : RuntimeState) (update : QuoteUpdate) (tsUs : TsUs) :
    List QuoteHistorySample :=
  if update.token = token ∧ (state.updateQuoteWithDepth update.token update.bid update.ask
      update.askDepth update.tick tsUs).2 = true then
    [{ tsUs := tsUs, bidTicks := update.bid.map (·.ticks), askTicks := update.ask.map (·.ticks) }]
  else []

/-- The update of the token in a market event. -/
def acceptedEvent (token : TokenId) (state : RuntimeState) (tsUs : TsUs) :
    MarketEvent → List QuoteHistorySample
  | .quote update => acceptedUpdate token state update tsUs
  | .resolved _ => []

/-- The updates of the token among market events. -/
def acceptedEvents (token : TokenId) (tsUs : TsUs) :
    RuntimeState → List MarketEvent → List QuoteHistorySample
  | _, [] => []
  | state, event :: events =>
    acceptedEvent token state tsUs event ++
      acceptedEvents token tsUs (Market.applyMarketEvent state tsUs event).1 events

/-- The updates of the token in an operation. -/
def accepted (token : TokenId) (state : RuntimeState) : Op → List QuoteHistorySample
  | .setMarket _ | .markMarketInactive => []
  | .updateQuote t bid ask tick tsUs => acceptedUpdate token state ⟨t, bid, ask, .empty, tick⟩ tsUs
  | .updateQuoteWithDepth t bid ask askDepth tick tsUs =>
    acceptedUpdate token state ⟨t, bid, ask, askDepth, tick⟩ tsUs
  | .applyMarketEvents events tsUs => acceptedEvents token tsUs state events

/-- The updates of the token that were accepted since the market was set, oldest first, after an
operation in a state with this history. -/
def recordOp (token : TokenId) (state : RuntimeState) (history : List QuoteHistorySample) :
    Op → List QuoteHistorySample
  | .setMarket _ => []
  | op => history ++ accepted token state op

/-- The same after a run. -/
def historyFrom (token : TokenId) :
    RuntimeState → List QuoteHistorySample → List Op → List QuoteHistorySample
  | _, history, [] => history
  | state, history, op :: ops =>
    historyFrom token (state.step op) (recordOp token state history op) ops

/-- All updates of the token that a run accepts since it last sets the market. -/
def history (token : TokenId) (ops : List Op) : List QuoteHistorySample :=
  historyFrom token .new [] ops

/-! ## The ring is the end of the history -/

/-- While the market is traded the ring of the token is the end of the history; afterwards it is
empty. -/
structure Keeps (token : TokenId) (history : List QuoteHistorySample) (state : RuntimeState) :
    Prop where
  active : state.tradingActive = true →
    ((state.quoteHistory.lookup token).getD .new).samples = history.rtake QUOTE_HISTORY_CAP
  inactive : state.tradingActive = false → state.quoteHistory = ∅

section
variable {token : TokenId} {state : RuntimeState} {samples : List QuoteHistorySample}

/-- An update adds its sample. -/
theorem Keeps.update (h : Keeps token samples state) (update : QuoteUpdate) (tsUs : TsUs) :
    Keeps token (samples ++ acceptedUpdate token state update tsUs)
      (state.updateQuoteWithDepth update.token update.bid update.ask update.askDepth update.tick
        tsUs).1 := by
  rw [acceptedUpdate]
  rcases updateQuoteWithDepth_cases state update.token update.bid update.ask update.askDepth
    update.tick tsUs with he | ⟨hactive, -, he⟩
  · rw [he, if_neg (by simp), List.append_nil]
    exact h
  rw [he]
  refine ⟨fun _ => ?_, fun hinactive => ?_⟩
  · by_cases ht : update.token = token
    · rw [if_pos ⟨ht, rfl⟩, ht, AList.lookup_insert]
      exact QuoteRing.push_rtake (h.active hactive) _
    · rw [if_neg fun hand => ht hand.1, List.append_nil, AList.lookup_insert_ne (Ne.symm ht)]
      exact h.active hactive
  · cases hactive.symm.trans hinactive

/-- A closed state has no ring to compare. -/
theorem Keeps.closed (h : state.Closed) : Keeps token samples state := by
  refine ⟨fun hactive => ?_, fun _ => h.quoteHistory⟩
  cases hactive.symm.trans h.tradingActive

/-- An event adds its samples. -/
theorem Keeps.event (h : Keeps token samples state) (tsUs : TsUs) (event : MarketEvent) :
    Keeps token (samples ++ acceptedEvent token state tsUs event)
      (Market.applyMarketEvent state tsUs event).1 := by
  cases event with
  | quote update => exact h.update update tsUs
  | resolved conditionId =>
    rw [Market.applyMarketEvent, acceptedEvent, List.append_nil]
    dsimp only
    split
    · exact .closed ⟨rfl, rfl, rfl⟩
    · exact h

/-- The events of a frame add theirs. -/
theorem Keeps.events (h : Keeps token samples state) (tsUs : TsUs) (events : List MarketEvent) :
    Keeps token (samples ++ acceptedEvents token tsUs state events)
      (Market.applyMarketEvents events state tsUs).1 := by
  rw [applyMarketEvents_fst]
  induction events generalizing state samples with
  | nil =>
    rw [acceptedEvents, List.append_nil]
    exact h
  | cons event events ih =>
    rw [acceptedEvents, ← List.append_assoc, Machine.run_cons]
    exact ih (h.event tsUs event)

/-- What one operation does to the ring and to the history. -/
theorem Keeps.step (h : Keeps token samples state) (op : Op) :
    Keeps token (recordOp token state samples op) (state.step op) := by
  cases op with
  | setMarket market => exact ⟨fun _ => rfl, nofun⟩
  | markMarketInactive => exact .closed ⟨rfl, rfl, rfl⟩
  | updateQuote t bid ask tick tsUs => exact h.update ⟨t, bid, ask, .empty, tick⟩ tsUs
  | updateQuoteWithDepth t bid ask askDepth tick tsUs =>
    exact h.update ⟨t, bid, ask, askDepth, tick⟩ tsUs
  | applyMarketEvents events tsUs => exact h.events tsUs events

/-- What a run does to them. -/
theorem Keeps.run (h : Keeps token samples state) (ops : List Op) :
    Keeps token (historyFrom token state samples ops)
      (Machine.run RuntimeState.step state ops) := by
  induction ops generalizing state samples with
  | nil => exact h
  | cons op ops ih => exact ih (h.step op)

/-- The oldest sample is searched in the ring of the token. -/
theorem quoteHistoryOldestSince_eq (state : RuntimeState) (token : TokenId) (cutoffUs : Int) :
    state.quoteHistoryOldestSince token cutoffUs =
      ((state.quoteHistory.lookup token).getD .new).samples.find? fun sample =>
        decide (cutoffUs ≤ sample.tsUs.micros) := by
  rw [quoteHistoryOldestSince]
  cases state.quoteHistory.lookup token <;> rfl

end

/-- The updates at or after the cutoff. -/
def window (cutoffUs : Int) (history : List QuoteHistorySample) : List QuoteHistorySample :=
  history.filter fun sample => decide (cutoffUs ≤ sample.tsUs.micros)

/-- After every run whose accepted updates of the token come with timestamps that do not decrease,
the sample found for a cutoff is the first of all the updates at or after it if and only if there is
none, or the market is still traded and the ring has room for them all, or the oldest it has room
for equals the first. -/
theorem oldest_since_first_iff (ops : List Op) (token : TokenId) (cutoffUs : Int)
    (hordered : (history token ops).Pairwise fun sample sample' =>
      sample.tsUs.micros ≤ sample'.tsUs.micros) :
    (Machine.run step new ops).quoteHistoryOldestSince token cutoffUs =
        (window cutoffUs (history token ops)).head? ↔
      window cutoffUs (history token ops) = [] ∨
        (Machine.run step new ops).tradingActive = true ∧
          ((window cutoffUs (history token ops)).length ≤ QUOTE_HISTORY_CAP ∨
            (window cutoffUs (history token ops))[
                (window cutoffUs (history token ops)).length - QUOTE_HISTORY_CAP]? =
              (window cutoffUs (history token ops)).head?) := by
  have hnew : Keeps token [] new := ⟨nofun, fun _ => rfl⟩
  have hkeeps := hnew.run ops
  have honwards : Onwards (fun sample : QuoteHistorySample =>
      decide (cutoffUs ≤ sample.tsUs.micros)) (history token ops) := by
    refine hordered.imp fun {sample sample'} hle hp => ?_
    simp only [decide_eq_true_eq] at hp ⊢
    omega
  rw [quoteHistoryOldestSince_eq]
  cases hactive : (Machine.run step new ops).tradingActive with
  | true =>
    have hiff := @honwards.find_rtake_iff _ _ QUOTE_HISTORY_CAP _
    rw [← List.head?_filter (l := history token ops)] at hiff
    rw [hkeeps.active hactive]
    refine hiff.trans ⟨fun h => .inr ⟨rfl, h⟩, ?_⟩
    rintro (hnil | ⟨-, h⟩)
    · exact .inl (by rw [← window, hnil]; exact Nat.zero_le _)
    · exact h
  | false =>
    have hnone : (none : Option QuoteHistorySample) =
        (window cutoffUs (history token ops)).head? ↔ window cutoffUs (history token ops) = [] := by
      rw [eq_comm, List.head?_eq_none_iff]
    rw [hkeeps.inactive hactive]
    refine hnone.trans ⟨.inl, ?_⟩
    rintro (hnil | ⟨hfalse, -⟩)
    · exact hnil
    · cases hfalse

/-- A market whose first token is quoted `n` times, a millisecond apart, with a rising ask. -/
def burstOps (n : Nat) : List Op :=
  .setMarket
      { slug := "btc-up-down-1m", conditionId := ⟨"cond-1"⟩, yesToken := ⟨"yes-token"⟩
        noToken := ⟨"no-token"⟩, endTs := 1060, slugTs := 1000 } ::
    (List.range n).map fun i =>
      .updateQuote ⟨"yes-token"⟩ (some ⟨10 + i⟩) (some ⟨20 + i⟩) ⟨1⟩ ⟨1000 * i⟩

/-- The ring has room for 64 updates, so the window of a second starts where it should. -/
theorem oldest_since_first_iff_example :
    (window 0 (history ⟨"yes-token"⟩ (burstOps 64))).length = 64 ∧
      (Machine.run step new (burstOps 64)).quoteHistoryOldestSince ⟨"yes-token"⟩ 0 =
        (window 0 (history ⟨"yes-token"⟩ (burstOps 64))).head? := by
  have hlength : (window 0 (history ⟨"yes-token"⟩ (burstOps 64))).length = 64 := by
    decide +kernel
  have hordered : (history ⟨"yes-token"⟩ (burstOps 64)).Pairwise fun sample sample' =>
      sample.tsUs.micros ≤ sample'.tsUs.micros := by
    decide +kernel
  refine ⟨hlength, (oldest_since_first_iff (burstOps 64) ⟨"yes-token"⟩ 0 hordered).2 (.inr ?_)⟩
  exact ⟨by decide +kernel, .inl (hlength.trans_le (by decide))⟩

/-- Of 65 updates within a second the first is lost: the window starts at the second one. -/
theorem oldest_since_not_first :
    ((history ⟨"yes-token"⟩ (burstOps 65)).Pairwise fun sample sample' =>
      sample.tsUs.micros ≤ sample'.tsUs.micros) ∧
      (window 0 (history ⟨"yes-token"⟩ (burstOps 65))).head? =
        some ⟨⟨0⟩, some 10, some 20⟩ ∧
      (Machine.run step new (burstOps 65)).quoteHistoryOldestSince ⟨"yes-token"⟩ 0 =
        some ⟨⟨1000⟩, some 11, some 21⟩ := by
  refine ⟨?_, ?_, ?_⟩ <;> decide +kernel

end RuntimeState

end Polyrust
