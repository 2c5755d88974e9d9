import Polyrust.Runtime.Decisions
import Polyrust.Runtime.Sell

/-!
# The history behind an exit decision

The tracker of a token carries four values over the whole life of a position. What they stand for is
in the past: the BUY fill that armed the tracker, and the bids that `plan_exits` has shown it since.
`Held` is a history variable of exactly that, recorded beside the run, and every step keeps the
tracker explained by it (`Explained`).
-/

namespace Polyrust

open IntWidth

/-! ## The highest price -/

/-- `p` is the highest of the prices. -/
structure IsHighest (prices : List PriceTick) (p : PriceTick) : Prop where
  mem : p ∈ prices
  le : ∀ q ∈ prices, q.ticks ≤ p.ticks

/-- The higher of two prices is one of them, and neither is above it. -/
theorem PriceTick.max_spec (p q : PriceTick) :
    (p.max q = p ∨ p.max q = q) ∧ p.ticks ≤ (p.max q).ticks ∧ q.ticks ≤ (p.max q).ticks := by
  unfold PriceTick.max
  split_ifs with h
  · exact ⟨.inl rfl, le_rfl, h.le⟩
  · exact ⟨.inr rfl, by omega, le_rfl⟩

/-- What a position has seen since its tracker was armed: the price of the fill, the bid at the
fill, and the bids of the exit loop, the last one first. -/
structure Held where
  entryPrice : PriceTick
  entryBid : PriceTick
  bids : List PriceTick

namespace Held

/-- The prices that count for the peak. -/
def prices (held : Held) : List PriceTick := held.entryPrice :: held.entryBid :: held.bids

/-- The exit loop sees a bid. -/
def see (held : Held) (bid : PriceTick) : Held := { held with bids := bid :: held.bids }

/-- The tracker says of the history what it should. -/
structure Explains (held : Held) (tracker : ExitTracker) : Prop where
  entryPrice : tracker.entryPrice = held.entryPrice
  entryBid : tracker.entryBid = held.entryBid
  peak : IsHighest held.prices tracker.peakBid

variable {held : Held} {tracker : ExitTracker} {bid : PriceTick}

/-- A price was seen before, or is seen now. -/
theorem mem_see_prices {p : PriceTick} :
    p ∈ (held.see bid).prices ↔ p = bid ∨ p ∈ held.prices := by
  simp only [see, prices, List.mem_cons]
  tauto

/-- A bid that is seen moves the highest price. -/
theorem highest_see {peak : PriceTick} (h : IsHighest held.prices peak) :
    IsHighest (held.see bid).prices (peak.max bid) := by
  obtain ⟨hor, hpeak, hbid⟩ := PriceTick.max_spec peak bid
  refine ⟨mem_see_prices.2 ?_, fun q hq => ?_⟩
  · rcases hor with he | he
    · rw [he]
      exact .inr h.mem
    · exact .inl he
  · rcases mem_see_prices.1 hq with rfl | hq
    · exact hbid
    · exact (h.le q hq).trans hpeak

/-- The tracker that has seen a bid. -/
theorem Explains.see (h : held.Explains tracker) (bid : PriceTick) :
    (held.see bid).Explains (RuntimeCore.raised tracker bid) :=
  ⟨h.entryPrice, h.entryBid, highest_see h.peak⟩

/-- The tracker of a fill. -/
theorem Explains.armed (price bid : PriceTick) (tsUs : Int) :
    (⟨price, bid, []⟩ : Held).Explains ⟨price, bid, bid.max price, tsUs⟩ := by
  obtain ⟨hor, hbid, hprice⟩ := PriceTick.max_spec bid price
  refine ⟨rfl, rfl, ?_, fun q hq => ?_⟩
  · rcases hor with he | he <;> simp [prices, he]
  · simp only [prices, List.mem_cons, List.not_mem_nil, or_false] at hq
    rcases hq with rfl | rfl
    · exact hprice
    · exact hbid

end Held

namespace RuntimeCore

section
variable {F : Type}

/-! ## What is recorded -/

/-- The history that starts with a trade, if it is a BUY fill that arms the tracker of the token. -/
def armedBy (core : RuntimeCore F) (token : TokenId) (trade : UserTrade) : Option Held :=
  let record := core.inventory.recordOf trade
  if record.token = token ∧ record.side = .buy ∧ (record.delta trade.status).isSome ∧
      (trade.status = .matched ∨ trade.status = .confirmed) ∧
      0 < ((core.inventory.applyUserTrade trade).1.sellable token).units then
    some ⟨trade.price, ((core.state.quoteForToken token).bind (·.bid)).getD trade.price, []⟩
  else none

/-- The history of the token after a trade. -/
def recordTrade (token : TokenId) (core : RuntimeCore F) (trade : UserTrade)
    (held : Option Held) : Option Held :=
  (core.armedBy token trade).or held

/-- The history of the token after `plan_exits`, which shows its tracker the bid. -/
def recordExits (core : RuntimeCore F) (token : TokenId) (held : Option Held) : Option Held :=
  match (core.state.quoteForToken token).bind (·.bid) with
  | some bid =>
    if 0 < (core.inventory.sellable token).units ∧ (core.exitTrackers.lookup token).isSome then
      held.map (·.see bid)
    else held
  | none => held

/-- If the token has a tracker, it is explained by the history. -/
def Explained (token : TokenId) (core : RuntimeCore F) (held : Option Held) : Prop :=
  ∀ tracker, core.exitTrackers.lookup token = some tracker →
    ∃ h, held = some h ∧ h.Explains tracker

variable {core core' : RuntimeCore F} {token : TokenId} {held : Option Held}

/-- A step that leaves the trackers alone. -/
theorem Explained.of_trackers (h : Explained token core held)
    (he : core'.exitTrackers = core.exitTrackers) : Explained token core' held := by
  intro tracker htracker
  rw [he] at htracker
  exact h tracker htracker

/-- A step that at most drops the tracker of the token. -/
theorem Explained.of_dropped (h : Explained token core held)
    (hd : ∀ tracker, core'.exitTrackers.lookup token = some tracker →
      core.exitTrackers.lookup token = some tracker) : Explained token core' held :=
  fun tracker htracker => h tracker (hd tracker htracker)

/-- A trade that does not arm the tracker at most drops it. -/
theorem tradeStep_lookup_of_not_armed {trade : UserTrade} (hn : core.armedBy token trade = none)
    {tracker : ExitTracker} (h : (core.tradeStep trade).exitTrackers.lookup token = some tracker) :
    core.exitTrackers.lookup token = some tracker := by
  rcases eq_or_ne token (core.inventory.recordOf trade).token with rfl | hne
  · cases hd : (core.inventory.recordOf trade).delta trade.status with
    | none => rwa [(tradeStep_of_no_delta hd).1] at h
    | some side =>
      rw [tradeStep_exitTrackers hd] at h
      dsimp only at h
      cases hside : (core.inventory.recordOf trade).side with
      | buy =>
        rw [hside] at h
        dsimp only at h
        split_ifs at h with hc
        · rw [armedBy, if_pos ⟨rfl, hside, by rw [hd]; rfl, hc⟩] at hn
          cases hn
        · exact h
      | sell =>
        rw [hside] at h
        dsimp only at h
        split_ifs at h with hc
        · rw [AList.lookup_erase] at h
          cases h
        · exact h
  · rwa [(tradeStep_ne hne).1] at h

/-- A trade that arms the tracker sets it to what the history starts with. -/
theorem tradeStep_lookup_of_armed {trade : UserTrade} {h : Held}
    (ha : core.armedBy token trade = some h) :
    ∃ tracker, (core.tradeStep trade).exitTrackers.lookup token = some tracker ∧
      h.Explains tracker := by
  rw [armedBy] at ha
  split_ifs at ha with hc
  cases ha
  obtain ⟨rfl, hside, hdelta, hc⟩ := hc
  obtain ⟨side, hd⟩ := Option.isSome_iff_exists.1 hdelta
  refine ⟨_, ?_, .armed _ _ trade.tsUs⟩
  rw [tradeStep_exitTrackers hd, hside]
  dsimp only
  rw [if_pos hc, AList.lookup_insert]

/-- A trade keeps the tracker explained. -/
theorem Explained.tradeStep (h : Explained token core held) (trade : UserTrade) :
    Explained token (core.tradeStep trade) (recordTrade token core trade held) := by
  cases ha : core.armedBy token trade with
  | none =>
    rw [recordTrade, ha]
    exact h.of_dropped fun tracker => tradeStep_lookup_of_not_armed ha
  | some armed =>
    obtain ⟨tracker, htracker, hexplains⟩ := tradeStep_lookup_of_armed ha
    intro tracker' htracker'
    cases htracker.symm.trans htracker'
    rw [recordTrade, ha]
    exact ⟨armed, rfl, hexplains⟩

/-- Showing the bid to the tracker keeps it explained. -/
theorem Explained.planExitsWith {b : Build} {now : Int} {fair : OutcomeSide → Option Int}
    {opposed : OutcomeSide → Option Bool} {decisions : List ExitDecision}
    (h : Explained token core held)
    (hcall : core.planExitsWith b now fair opposed = .ok (core', decisions)) :
    Explained token core' (core.recordExits token held) := by
  intro tracker' htracker'
  rw [planExitsWith_lookup hcall] at htracker'
  rw [recordExits]
  cases hbid : (core.state.quoteForToken token).bind (·.bid) with
  | none =>
    rw [seen, hbid] at htracker'
    dsimp only
    split_ifs at htracker'
    · exact h tracker' htracker'
    · exact h tracker' htracker'
  | some bid =>
    have hside : (core.state.sideForToken token).isSome := by
      rw [RuntimeState.quoteForToken] at hbid
      cases hs : core.state.sideForToken token with
      | none =>
        rw [hs] at hbid
        cases hbid
      | some side => rfl
    rw [if_pos hside, seen, hbid] at htracker'
    split_ifs at htracker' with hle
    obtain ⟨tracker, htracker, rfl⟩ := Option.map_eq_some_iff.1 htracker'
    obtain ⟨held, rfl, hexplains⟩ := h tracker htracker
    dsimp only
    rw [if_pos ⟨not_le.1 hle, htracker ▸ rfl⟩]
    exact ⟨held.see bid, rfl, hexplains.see bid⟩

/-- The history of the token after an operation on the core. -/
def recordOp (pl : Platform) (token : TokenId) (core : RuntimeCore F) (op : Op F)
    (held : Option Held) : Option Held :=
  match op with
  | .applyUserRawWithStates raw tsUs =>
    Machine.recorded tradeStep (recordTrade token) core held (frameTrades pl raw tsUs)
  | .planExits _ => core.recordExits token held
  | _ => held

/-- Every operation keeps the tracker explained. -/
theorem Explained.step [F64 F] {pl : Platform} {op : Op F} (h : Explained token core held)
    (hstep : core.step pl op = .ok core') :
    Explained token core' (recordOp pl token core op held) := by
  cases op with
  | applyMarketRaw raw tsUs =>
    obtain ⟨⟨c, r⟩, hc, hstep⟩ := Except.ok_bind_inv hstep
    cases hstep
    obtain ⟨state, rfl⟩ := applyMarketRaw_eq hc
    exact h
  | applyUserRawWithStates raw tsUs =>
    obtain ⟨⟨c, r⟩, hc, hstep⟩ := Except.ok_bind_inv hstep
    cases hstep
    rw [applyUserRawWithStates_run hc]
    exact Machine.recorded_invariant (fun _ trade _ ih => ih.tradeStep trade) h _
  | planExits now =>
    obtain ⟨⟨c, decisions⟩, hc, hstep⟩ := Except.ok_bind_inv hstep
    cases hstep
    obtain ⟨fair, opposed, hcall⟩ := planExits_ok hc
    exact h.planExitsWith hcall
  | releaseMarketScope active =>
    cases hstep
    refine h.of_dropped fun tracker htracker => ?_
    rw [releaseMarketScope, HashMap.lookup_retain] at htracker
    exact (Option.filter_eq_some_iff.1 htracker).1
  | _ =>
    cases hstep
    exact h

end

end RuntimeCore

namespace RuntimeSystem

/-! ## Runs -/

/-- The steps of the runtime, and calls of `plan_exits` with any answers of the signal engine. -/
inductive ExitOp (F : Type) where
  | op (op : Op F)
  | planExits (nowTsUs : Int) (fairTicks : OutcomeSide → Option Int)
      (opposes : OutcomeSide → Option Bool)

section
variable {F : Type}

/-- The history of the token after a step. -/
def recordExitOp (pl : Platform) (token : TokenId) (s : RuntimeSystem F) (op : ExitOp F)
    (held : Option Held) : Option Held :=
  match op with
  | .op (.core op) => RuntimeCore.recordOp pl token s.core op held
  | .planExits .. => s.core.recordExits token held
  | _ => held

variable [F64 F]

/-- The system after a step. -/
def exitStep (pl : Platform) (s : RuntimeSystem F) : ExitOp F → Exec (RuntimeSystem F)
  | .op op => s.step pl op
  | .planExits now fairTicks opposes =>
    return { s with core := (← s.core.planExitsWith pl.build now fairTicks opposes).1 }

/-- The history of the token after a run. -/
def heldAfter (pl : Platform) (token : TokenId) (s : RuntimeSystem F) (ops : List (ExitOp F)) :
    Option Held :=
  Machine.recordedM (exitStep pl) (recordExitOp pl token) s none ops

variable {pl : Platform} {s s' : RuntimeSystem F} {token : TokenId} {held : Option Held}

/-- Every step keeps the tracker explained. -/
theorem explained_exitStep {op : ExitOp F} (h : RuntimeCore.Explained token s.core held)
    (hstep : s.exitStep pl op = .ok s') :
    RuntimeCore.Explained token s'.core (recordExitOp pl token s op held) := by
  cases op with
  | planExits now fairTicks opposes =>
    obtain ⟨⟨core, decisions⟩, hcall, hstep⟩ := Except.ok_bind_inv hstep
    cases hstep
    exact h.planExitsWith hcall
  | op op =>
    cases op with
    | core op =>
      obtain ⟨core, hcore, hstep⟩ := Except.ok_bind_inv hstep
      cases hstep
      exact h.step hcore
    | binanceSample sample now =>
      obtain ⟨signal, -, rfl | ⟨intent, -, -, -, rfl⟩⟩ := binanceSample_cases hstep
      · exact h
      · refine h.of_trackers ?_
        rw [submit]
        split <;> rfl
    | resolve index outcome rtt now =>
      rcases resolve_cases hstep with rfl | ⟨id, ewma, -, rfl⟩
      · exact h
      · exact h
    | abandon index =>
      cases hstep
      refine h.of_trackers ?_
      rw [abandon]
      split <;> rfl

/-- In every run the tracker is explained by the history. -/
theorem explained_run {config : Config F} {core₀ : RuntimeCore F}
    (hnew : RuntimeCore.new config = .ok core₀) {ops : List (ExitOp F)}
    (hrun : Machine.runM (exitStep pl) (init config core₀) ops = .ok s) (token : TokenId) :
    RuntimeCore.Explained token s.core (heldAfter pl token (init config core₀) ops) := by
  have hinit : RuntimeCore.Explained token (init config core₀).core none := by
    obtain ⟨signalConfig, -, hnew⟩ := Except.ok_bind_inv hnew
    cases hnew
    nofun
  have hstep : ∀ (s : RuntimeSystem F) op s' held, RuntimeCore.Explained token s.core held →
      s.exitStep pl op = .ok s' →
      RuntimeCore.Explained token s'.core (recordExitOp pl token s op held) :=
    fun s op s' held ih hstep => explained_exitStep ih hstep
  exact Machine.recordedM_invariant
    (I := fun (s : RuntimeSystem F) held => RuntimeCore.Explained token s.core held) hstep hinit
    hrun

/-- What a decision is about: the token and its bid, the fill behind the position, and the highest
price since. -/
structure DecidedSince (pl : Platform) (core₀ : RuntimeCore F) (config : Config F)
    (ops : List (ExitOp F)) (core : RuntimeCore F) (token : TokenId) (d : ExitDecision) : Prop where
  plan : d.plan.token = token
  quoted : (core.state.quoteForToken token).bind (·.bid) = some d.bid
  history : ∃ held, heldAfter pl token (init config core₀) ops = some held ∧
    d.entryPrice = held.entryPrice ∧ d.entryBid = held.entryBid ∧
    IsHighest (held.see d.bid).prices d.peakBid
  covers : d.bid.ticks ≤ d.peakBid.ticks ∧ d.entryBid.ticks ≤ d.peakBid.ticks ∧
    d.entryPrice.ticks ≤ d.peakBid.ticks

/-- In a run, a decision is about what the history says. -/
theorem decidedSince {config : Config F} {core₀ : RuntimeCore F}
    (hnew : RuntimeCore.new config = .ok core₀) {ops : List (ExitOp F)}
    (hrun : Machine.runM (exitStep pl) (init config core₀) ops = .ok s) {d : ExitDecision}
    {tracker : ExitTracker} (h : s.core.DecidedOn pl.build token d tracker) :
    DecidedSince pl core₀ config ops s.core token d := by
  obtain ⟨held, hheld, hexplains⟩ := explained_run hnew hrun token tracker h.tracked
  have hpeak : IsHighest (held.see d.bid).prices d.peakBid := by
    rw [h.peakBid]
    exact Held.highest_see hexplains.peak
  have hprice : d.entryPrice = held.entryPrice := h.entryPrice.trans hexplains.entryPrice
  have hentry : d.entryBid = held.entryBid := h.entryBid.trans hexplains.entryBid
  refine ⟨(planSellAtBid_some h.plan).1, h.quoted, ⟨held, hheld, hprice, hentry, hpeak⟩, ?_, ?_, ?_⟩
  · exact hpeak.le _ (Held.mem_see_prices.2 (.inl rfl))
  · rw [hentry]
    exact hpeak.le _ (by simp [Held.see, Held.prices])
  · rw [hprice]
    exact hpeak.le _ (by simp [Held.see, Held.prices])

/-- After every run, and for any answers of the signal engine: `plan_exits` decides for each side of
the active market, exactly where the token has something to sell, a bid, a tracker, a plan and a
reason that is due, never for a supported position, and the peak of a decision is the highest price
since the fill. -/
theorem exit_decisions (pl : Platform) (config : Config F) (core₀ : RuntimeCore F)
    (hnew : RuntimeCore.new config = .ok core₀) (ops : List (ExitOp F)) (s : RuntimeSystem F)
    (hrun : Machine.runM (exitStep pl) (init config core₀) ops = .ok s) (now : Int)
    (fairTicks : OutcomeSide → Option Int) (opposes : OutcomeSide → Option Bool)
    (core : RuntimeCore F) (decisions : List ExitDecision)
    (hsums : ∀ side token bid tracker, s.core.state.tokenForSide side = some token →
      (s.core.state.quoteForToken token).bind (·.bid) = some bid →
      s.core.exitTrackers.lookup token = some tracker →
      s.core.TickSums tracker bid (fairTicks side))
    (hcall : s.core.planExitsWith pl.build now fairTicks opposes = .ok (core, decisions)) :
    ∃ decided : OutcomeSide → Option ExitDecision,
      decisions = (decided .yes).toList ++ (decided .no).toList ∧
      (∀ side, s.core.state.tokenForSide side = none → decided side = none) ∧
      ∀ side token, s.core.state.tokenForSide side = some token →
        ((decided side).isSome ↔
          s.core.Exits pl.build now token (fairTicks side) (opposes side)) ∧
        (∀ bid, (s.core.state.quoteForToken token).bind (·.bid) = some bid →
          s.core.Supported bid (fairTicks side) (opposes side) → decided side = none) ∧
        ∀ d, decided side = some d → DecidedSince pl core₀ config ops s.core token d := by
  cases hm : s.core.state.market with
  | none =>
    rw [RuntimeCore.planExitsWith, hm] at hcall
    cases hcall
    refine ⟨fun _ => none, rfl, fun _ _ => rfl, fun side token htoken => ?_⟩
    rw [RuntimeState.tokenForSide, hm] at htoken
    cases htoken
  | some market =>
    obtain ⟨decided, rfl, hrounds⟩ := RuntimeCore.planExitsWith_rounds hcall hm
    refine ⟨decided, rfl, fun side hnone => ?_, fun side token htoken => ?_⟩
    · rw [RuntimeState.tokenForSide, hm] at hnone
      cases hnone
    · obtain ⟨core₁, core₂, hahead, hround⟩ := hrounds side token htoken
      have hiff := hahead.decides (fun bid tracker => hsums side token bid tracker htoken) hround
      refine ⟨hiff, fun bid hbid hsupported => ?_, fun d hd => ?_⟩
      · rw [← Option.not_isSome_iff_eq_none, hiff]
        rintro ⟨-, bid', tracker, plan, hbid', -, -, hdue⟩
        cases hbid.symm.trans hbid'
        exact hsupported.not_due hdue
      · rw [hd] at hround
        obtain ⟨tracker, hdecided⟩ := hahead.decided hround
        exact decidedSince hnew hrun hdecided

end

/-- The frames of a bid that rises after a BUY and falls back. -/
def peakFrames : List Json.Value :=
  [upBook [upLevel "0.49"] [upLevel "0.50"], upBook [upLevel "0.55"] [upLevel "0.56"],
    RuntimeCore.upFrame "t1" "BUY" "MATCHED"]

/-- Five shares at fifty cents; the exit loop holds them while the bid is at its highest. -/
def peakOps : List (ExitOp Rat) :=
  [.op (.core (.setMarket RuntimeCore.upDownMarket)),
    .op (.core (.applyMarketRaw (upBook [upLevel "0.49"] [upLevel "0.50"]).toBytes ⟨1⟩)),
    .op (.core (.applyUserRawWithStates (RuntimeCore.upFrame "t1" "BUY" "MATCHED").toBytes 2)),
    .op (.core (.applyMarketRaw (upBook [upLevel "0.55"] [upLevel "0.56"]).toBytes ⟨3⟩)),
    .planExits 4 (fun _ => some 60) (fun _ => none),
    .op (.core (.applyMarketRaw (upBook [upLevel "0.49"] [upLevel "0.50"]).toBytes ⟨5⟩))]

/-- Twelve seconds after the fill the shares are sold; the peak is the bid that was held. -/
theorem exit_decisions_example :
    ∃ core₀ s core d, RuntimeCore.new Config.runtimeEnvShape = .ok core₀ ∧
      Machine.runM (exitStep (.reading peakFrames)) (init Config.runtimeEnvShape core₀) peakOps =
        .ok s ∧
      s.core.planExitsWith (Platform.reading peakFrames).build 13000000 (fun _ => none)
        (fun _ => none) = .ok (core, [d]) ∧
      d.reason = .hold ∧ d.bid = ⟨49⟩ ∧ d.peakBid = ⟨55⟩ ∧
      DecidedSince (.reading peakFrames) core₀ Config.runtimeEnvShape peakOps s.core ⟨"up"⟩ d := by
  have h : (RuntimeCore.new Config.runtimeEnvShape).Succeeds fun core₀ =>
      (Machine.runM (exitStep (.reading peakFrames)) (init Config.runtimeEnvShape core₀)
        peakOps).Succeeds fun s =>
          s.core.state.tokenForSide .yes = some ⟨"up"⟩ ∧
          s.core.state.tokenForSide .no = some ⟨"down"⟩ ∧
          (s.core.state.quoteForToken ⟨"up"⟩).bind (·.bid) = some ⟨49⟩ ∧
          s.core.exitTrackers.lookup ⟨"up"⟩ = some ⟨⟨50⟩, ⟨49⟩, ⟨55⟩, 2⟩ ∧
          s.core.exitTrackers.lookup ⟨"down"⟩ = none ∧
          (s.core.planExitsWith ⟨false⟩ 13000000 (fun _ => none) (fun _ => none)).Succeeds
            fun r => r.2 = [⟨⟨⟨"up"⟩, ⟨46⟩, ⟨500⟩⟩, .hold, ⟨50⟩, ⟨49⟩, ⟨55⟩, ⟨49⟩, none, none, none,
              12999998⟩] := by
    simp only [Platform.reading_eq, peakOps, Json.Value.toBytes_eq]
    decide +kernel
  obtain ⟨core₀, hnew, h⟩ := h.exists
  obtain ⟨s, hrun, hyes, hno, hbid, htracker, hnone, h⟩ := h.exists
  obtain ⟨⟨core, decisions⟩, hcall, hdecisions⟩ := h.exists
  dsimp only at hdecisions
  subst hdecisions
  refine ⟨core₀, s, core, _, hnew, hrun, hcall, rfl, rfl, rfl, ?_⟩
  have hsums : ∀ side token bid tracker, s.core.state.tokenForSide side = some token →
      (s.core.state.quoteForToken token).bind (·.bid) = some bid →
      s.core.exitTrackers.lookup token = some tracker → s.core.TickSums tracker bid none := by
    intro side token bid tracker htoken hquoted htracked
    cases side with
    | yes =>
      cases hyes.symm.trans htoken
      cases hbid.symm.trans hquoted
      cases htracker.symm.trans htracked
      exact ⟨by decide, nofun⟩
    | no =>
      cases hno.symm.trans htoken
      cases hnone.symm.trans htracked
  obtain ⟨decided, hdecisions, -, hsides⟩ := exit_decisions _ _ core₀ hnew peakOps s hrun 13000000
    (fun _ => none) (fun _ => none) core _ hsums hcall
  have hdown : decided .no = none := by
    rw [← Option.not_isSome_iff_eq_none, (hsides .no _ hno).1]
    rintro ⟨-, bid, tracker, plan, -, htracked, -⟩
    cases hnone.symm.trans htracked
  rw [hdown] at hdecisions
  refine (hsides .yes _ hyes).2.2 _ ?_
  cases hup : decided .yes with
  | none =>
    rw [hup] at hdecisions
    cases hdecisions
  | some d =>
    rw [hup] at hdecisions
    cases hdecisions
    rfl

end RuntimeSystem

end Polyrust
