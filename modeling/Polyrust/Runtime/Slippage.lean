import Polyrust.Config.Valid
import Polyrust.Runtime.Decisions
import Polyrust.Runtime.Sell
import Polyrust.Runtime.Settings
import Polyrust.Signal.Agreement

/-!
# What the slippages concede

A SELL is limited by the bid less a slippage, a BUY by the cutoff of the ask plus one. Both come
from the environment, where no check looks at their sign. A slippage concedes exactly where it is
not negative; a negative one asks for more than the bid, or offers less than the ask, and the order
cannot be filled at the prices it was made from (`slippage_concedes_iff`).
-/

namespace Polyrust

open IntWidth

/-! ## The two limits -/

section
variable {b : Build} {slip limitTicks : Int} {bid price : PriceTick}

/-- The limit of a SELL is within the bid exactly where the slippage is not negative, or so far
below zero that the difference overflows. -/
theorem sellLimit_le_iff (hbid : bid.InRange) (hslip : i32.Fits slip)
    (hlimit : b.arith i32 (bid.ticks - slip) = .ok limitTicks)
    (hprice : PriceTick.checked (max limitTicks 1) = .ok price) :
    price.ticks ≤ bid.ticks ↔ 0 ≤ slip ∨ i32.hi < bid.ticks - slip := by
  obtain ⟨hticks, -, -⟩ := PriceTick.checked_ok hprice
  rw [hticks]
  simp only [PriceTick.InRange, MIN_PRICE_TICK, MAX_PRICE_TICK] at hbid
  simp only [Fits, i32_lo, i32_hi] at hslip
  rcases Build.arith_ok hlimit with ⟨hfits, rfl⟩ | ⟨hfits, rfl⟩
  · simp only [Fits, i32_lo, i32_hi] at hfits ⊢
    omega
  · -- the limit wraps to a negative number, so it is a tick
    simp only [Fits, i32_lo, i32_hi] at hfits
    have hwrap : i32.wrap (bid.ticks - slip) = bid.ticks - slip - 4294967296 :=
      wrap_eq_sub (by simp only [Fits, i32_lo, i32_hi]; omega)
    rw [hwrap, i32_hi]
    omega

end

namespace SignalEngine

variable {F : Type} {b : Build} {engine : SignalEngine F} {quote : Quote} {intent : BuyIntent}
variable {entryAsk : PriceTick} {slippageUp : Int}

/-- The limit of a BUY covers the cutoff of the ask and the price of the edge exactly where the
slippage is not negative. -/
theorem PricedFrom.concedes_iff (h : engine.PricedFrom b quote intent entryAsk slippageUp)
    (hslip : i32.Fits engine.cfg.entrySlippageTicks) :
    intent.edgePrice.ticks ≤ intent.limit.ticks ∧ entryAsk.ticks ≤ intent.limit.ticks ↔
      0 ≤ engine.cfg.entrySlippageTicks := by
  obtain ⟨hlimit, -, hhi⟩ := PriceTick.checked_ok h.limit
  obtain ⟨hedge, hlo, -⟩ := PriceTick.checked_ok h.edge
  rw [hlimit, hedge]
  simp only [MIN_PRICE_TICK, MAX_PRICE_TICK] at hlo hhi
  rcases Build.arith_ok h.up with ⟨-, rfl⟩ | ⟨hfits, rfl⟩
  · refine ⟨?_, ?_⟩
    · rintro ⟨-, hask⟩
      omega
    · intro hpos
      rw [Int.tdiv_eq_ediv_of_nonneg (by omega)]
      omega
  · -- the highest slippage of all leaves no price for the edge
    simp only [Fits, i32_lo, i32_hi] at hslip hfits
    have hmax : engine.cfg.entrySlippageTicks = 2147483647 := by omega
    have hwrap : (i32.wrap (2147483647 + 1)).tdiv 2 = -1073741824 := by decide
    rw [hmax] at hhi hlo
    rw [hwrap] at hlo
    omega

end SignalEngine

/-! ## What the runtime returns -/

/-- The signal configuration takes slippage and size from the configuration. -/
theorem Config.signalConfig_entry {F : Type} {config : Config F} {signalConfig : SignalConfig F}
    (h : config.signalConfig = .ok signalConfig) :
    signalConfig.entrySlippageTicks = config.entrySlippageCents ∧
      signalConfig.entryNotionalCents = config.usdcPerTradeCents := by
  obtain ⟨minBuyLimit, -, h⟩ := Except.ok_bind_inv h
  obtain ⟨maxBuyLimit, -, h⟩ := Except.ok_bind_inv h
  cases h
  exact ⟨rfl, rfl⟩

namespace RuntimeCore

section
variable {F : Type} [F64 F] {b : Build} {core core' : RuntimeCore F}

/-- The core plans this SELL: on demand, or as a decision of the exit loop. -/
inductive Plans (b : Build) (core : RuntimeCore F) (plan : SellPlan) : Prop where
  | refreshed (token : TokenId) (h : core.refreshSellPlan b token = .ok (some plan))
  | decided (now : Int) (core' : RuntimeCore F) (decisions : List ExitDecision) (d : ExitDecision)
      (h : core.planExits b now = .ok (core', decisions)) (mem : d ∈ decisions) (eq : d.plan = plan)

/-- However it is planned, a SELL is planned at the bid of its token. -/
theorem Plans.planSellAtBid {plan : SellPlan} (h : core.Plans b plan) :
    planSellAtBid b plan.token core.state core.inventory core.sellSlippageTicks =
      .ok (some plan) := by
  cases h with
  | refreshed token h =>
    rw [(planSellAtBid_some h).1]
    exact h
  | decided now core' decisions d h hmem he =>
    subst he
    obtain ⟨fair, opposed, hcall⟩ := planExits_ok h
    cases hm : core.state.market with
    | none =>
      rw [planExitsWith, hm] at hcall
      cases hcall
      cases hmem
    | some market =>
      obtain ⟨decided, rfl, hrounds⟩ := planExitsWith_rounds hcall hm
      obtain ⟨side, hside⟩ : ∃ side, decided side = some d := by
        rcases List.mem_append.1 hmem with hyes | hno
        · exact ⟨.yes, Option.mem_toList.1 hyes⟩
        · exact ⟨.no, Option.mem_toList.1 hno⟩
      obtain ⟨token, htoken⟩ : ∃ token, core.state.tokenForSide side = some token := by
        rw [RuntimeState.tokenForSide, hm]
        exact ⟨_, rfl⟩
      obtain ⟨core₁, core₂, hahead, hround⟩ := hrounds side token htoken
      rw [hside] at hround
      obtain ⟨tracker, hdecided⟩ := hahead.decided hround
      rw [(planSellAtBid_some hdecided.plan).1]
      exact hdecided.plan

/-- An intent is one of the signal engine, for the quotes of the two sides. -/
theorem onBinanceSample_some {sample : BinanceSample F} {now : TsUs} {tteUs : Int}
    {intent : BuyIntent}
    (h : core.onBinanceSample b sample now tteUs = .ok (core', some intent)) :
    ∃ signal market yesQuote noQuote, core.state.quoteForSide .yes = some yesQuote ∧
      core.state.quoteForSide .no = some noQuote ∧
      core.signal.onSample b sample market yesQuote noQuote now tteUs =
        .ok (signal, some intent) := by
  obtain ⟨⟨signal, found⟩, hsignal, h⟩ := Except.ok_bind_inv h
  replace h : found = some intent := by
    cases found with
    | none => cases h
    | some intent =>
      obtain ⟨block, -, h⟩ := Except.ok_bind_inv h
      cases block with
      | some reason => cases h
      | none =>
        cases h
        rfl
  rcases onBinanceSample_cases hsignal with
    ⟨-, hnone⟩ | ⟨market, yesQuote, noQuote, _, hyes, hno, honSample, hpassed⟩
  · cases hnone.symm.trans h
  · cases (hpassed intent h).1
    exact ⟨signal, market, yesQuote, noQuote, hyes, hno, honSample⟩

end

end RuntimeCore

namespace RuntimeSystem

section
variable {F : Type} [F64 F]

/-- In every reachable state of an accepted environment, a SELL is within the bid exactly where the
slippage of a SELL is not negative or the difference overflows, and a BUY covers its price of the
edge and the cutoff of the ask exactly where the slippage of an entry is not negative. -/
theorem slippage_concedes_iff (pl : Platform) (parseF64 : List Char → Option F)
    (lookup : String → Option String) (config : Config F)
    (henv : (Config.fromLookup pl.build parseF64 lookup).Returns config) (s : RuntimeSystem F)
    (hs : Reachable pl config s) :
    (∀ plan, s.core.Plans pl.build plan →
      ∃ bid, (s.core.state.quoteForToken plan.token).bind (·.bid) = some bid ∧
        (plan.price.ticks ≤ bid.ticks ↔ 0 ≤ config.sellSlippageCents ∨
          i32.hi < bid.ticks - config.sellSlippageCents)) ∧
    ∀ sample now tteUs core intent,
      s.core.onBinanceSample pl.build sample now tteUs = .ok (core, some intent) →
      ∃ quote cutoff, s.core.state.quoteForSide intent.side = some quote ∧
        quote.buyCutoffForCents pl.build config.usdcPerTradeCents = .ok (some cutoff) ∧
        (intent.edgePrice.ticks ≤ intent.limit.ticks ∧ cutoff.ticks ≤ intent.limit.ticks ↔
          0 ≤ config.entrySlippageCents) := by
  have hvalid := Config.fromLookup_ensures config henv
  obtain ⟨signalConfig, hsignal, hconfigured⟩ := hs.configured
  obtain ⟨hentry, hnotional⟩ := Config.signalConfig_entry hsignal
  refine ⟨?_, ?_⟩
  · intro plan hplan
    obtain ⟨-, bid, limitTicks, hbid, hlimit, hprice⟩ := planSellAtBid_some hplan.planSellAtBid
    rw [hconfigured.slippage] at hlimit
    exact ⟨bid, hbid, sellLimit_le_iff (hconfigured.priced.bid hbid) (hvalid.fits _ (by simp))
      hlimit hprice⟩
  · intro sample now tteUs core intent hintent
    obtain ⟨signal, market, yesQuote, noQuote, hyes, hno, honSample⟩ :=
      RuntimeCore.onBinanceSample_some hintent
    obtain ⟨hdecide, hcfg, -⟩ := SignalEngine.onSample_some honSample
    obtain ⟨-, entryAsk, slippageUp, hpriced⟩ := SignalEngine.decideLatest_some hdecide
    have hslippage : signal.cfg.entrySlippageTicks = config.entrySlippageCents := by
      rw [hcfg, hconfigured.cfg, hentry]
    have hcutoff := hpriced.cutoff
    rw [hcfg, hconfigured.cfg, hnotional] at hcutoff
    refine ⟨_, entryAsk, ?_, hcutoff, ?_⟩
    · cases intent.side with
      | yes => exact hyes
      | no => exact hno
    · rw [← hslippage]
      exact hpriced.concedes_iff (hslippage ▸ hvalid.fits _ (by simp))

end

/-- An environment with the required variables, and the two slippages. -/
def slippageEnv (entry sell : String) (name : String) : Option String :=
  [("MINIMAL_USDC_PER_TRADE", "1.01"), ("MINIMAL_MIN_BUY_LIMIT", "0.35"),
    ("MINIMAL_DECISION_MIN_TTE_US", "45000000"), ("MINIMAL_ENTRY_SLIPPAGE", entry),
    ("MINIMAL_SELL_SLIPPAGE", sell)].lookup name

/-- With three cents of slippage the BUY of a rising price covers the ask. -/
theorem slippage_concedes_iff_example :
    ∃ (config : Config Rat) (s : RuntimeSystem Rat) (core : RuntimeCore Rat) (intent : BuyIntent),
      (Config.fromLookup ⟨false⟩ (fun _ => none) (slippageEnv "0.03" "0.03")).Returns config ∧
      Reachable (.reading [bookFrame]) config s ∧
      s.core.onBinanceSample ⟨false⟩ (bidSample 900 2 100001) ⟨900000000⟩ 100000000 =
        .ok (core, some intent) ∧
      ∃ quote cutoff, s.core.state.quoteForSide intent.side = some quote ∧
        quote.buyCutoffForCents ⟨false⟩ config.usdcPerTradeCents = .ok (some cutoff) ∧
        intent.edgePrice.ticks ≤ intent.limit.ticks ∧ cutoff.ticks ≤ intent.limit.ticks := by
  have h : (Config.fromLookup (F := Rat) ⟨false⟩ (fun _ => none)
      (slippageEnv "0.03" "0.03")).run.Succeeds fun r => r.Succeeds fun config =>
        config.entrySlippageCents = 3 ∧ (RuntimeCore.new config).Succeeds fun core =>
          (Machine.runM (step (.reading [bookFrame])) (init config core)
            entryOps.dropLast).Succeeds fun s =>
              (s.core.onBinanceSample ⟨false⟩ (bidSample 900 2 100001) ⟨900000000⟩
                100000000).Succeeds fun r => r.2 = some ⟨.yes, ⟨"up"⟩, ⟨43⟩, ⟨42⟩, 8⟩ := by
    simp only [Platform.reading_eq, entryOps, Json.Value.toBytes_eq]
    decide +kernel
  obtain ⟨r, hr, h⟩ := h.exists
  obtain ⟨config, rfl, hslippage, h⟩ := h.exists
  obtain ⟨s, hs, h⟩ := exists_reachable h
  obtain ⟨⟨core, intent⟩, hsample, rfl⟩ := h.exists
  obtain ⟨quote, cutoff, hquote, hcutoff, hiff⟩ :=
    (slippage_concedes_iff (.reading [bookFrame]) _ _ config hr s hs).2 _ _ _ _ _ hsample
  refine ⟨config, s, core, _, hr, hs, hsample, quote, cutoff, hquote, hcutoff, hiff.2 ?_⟩
  rw [hslippage]
  decide

/-- A slippage of minus three cents is accepted, and a SELL asks for three cents more than the
bid. -/
theorem slippage_inverts :
    ¬ ∀ (pl : Platform) (parseF64 : List Char → Option Rat) (lookup : String → Option String)
        (config : Config Rat), (Config.fromLookup pl.build parseF64 lookup).Returns config →
      ∀ s : RuntimeSystem Rat, Reachable pl config s →
        (∀ plan, s.core.Plans pl.build plan →
          ∃ bid, (s.core.state.quoteForToken plan.token).bind (·.bid) = some bid ∧
            plan.price.ticks ≤ bid.ticks) ∧
        ∀ sample now tteUs core intent,
          s.core.onBinanceSample pl.build sample now tteUs = .ok (core, some intent) →
          ∃ quote cutoff, s.core.state.quoteForSide intent.side = some quote ∧
            quote.buyCutoffForCents pl.build config.usdcPerTradeCents = .ok (some cutoff) ∧
            intent.edgePrice.ticks ≤ intent.limit.ticks ∧ cutoff.ticks ≤ intent.limit.ticks := by
  intro h
  have hread : (Config.fromLookup (F := Rat) ⟨false⟩ (fun _ => none)
      (slippageEnv "0.03" "-0.03")).run.Succeeds fun r => r.Succeeds fun config =>
        (RuntimeCore.new config).Succeeds fun core =>
          (Machine.runM (step (.reading (bookFrame :: RuntimeCore.upFrames))) (init config core)
            boughtOps).Succeeds fun s =>
              (s.core.state.quoteForToken ⟨"up"⟩).bind (·.bid) = some ⟨39⟩ ∧
                s.core.refreshSellPlan ⟨false⟩ ⟨"up"⟩ = .ok (some ⟨⟨"up"⟩, ⟨42⟩, ⟨500⟩⟩) := by
    simp only [Platform.reading_eq, boughtOps, Json.Value.toBytes_eq]
    decide +kernel
  obtain ⟨r, hr, hread⟩ := hread.exists
  obtain ⟨config, rfl, hrun⟩ := hread.exists
  obtain ⟨s, hs, hbid, hplan⟩ := exists_reachable hrun
  obtain ⟨bid, hquoted, hle⟩ := (h (.reading (bookFrame :: RuntimeCore.upFrames)) _ _ config hr s
    hs).1 _ (.refreshed ⟨"up"⟩ hplan)
  rw [hbid] at hquoted
  cases hquoted
  exact absurd hle (by decide)

end RuntimeSystem

end Polyrust
