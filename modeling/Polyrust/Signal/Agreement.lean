import Polyrust.Config

/-!
# Entry and exit agree

`on_sample` decides an entry, `opposes_side` and `fair_ticks_for_side` judge a position. The three
restate one computation, with other signs, other checks of freshness and another rounding. At the
instant of an entry they agree: the judgement is for the side that was bought and against the other
one, and the fair value is the price of the entry plus its edge (`exit_agrees_with_entry`).
-/

namespace Polyrust

open IntWidth F64

/-- The other side of the market. -/
def OutcomeSide.other : OutcomeSide → OutcomeSide
  | .yes => .no
  | .no => .yes

namespace SignalEngine

section
variable {F : Type} {b : Build} {engine : SignalEngine F} {now : TsUs}

/-- The window ends at the last sample. -/
theorem latestWindow_last {latest windowBase : SignalPoint F}
    (h : engine.latestWindow b = .ok (some (latest, windowBase))) :
    engine.samples.getLast? = some latest := by
  unfold latestWindow at h
  split at h
  · next last hlast =>
    obtain ⟨cutoff, -, h⟩ := Except.ok_bind_inv h
    split at h
    · obtain ⟨windowUs, -, h⟩ := Except.ok_bind_inv h
      split at h
      · cases h
      · cases h
        exact hlast
    · cases h
  · cases h

/-- A sample that was received now is fresh. -/
theorem lag_fresh (engine : SignalEngine F) {latest : SignalPoint F} (h : latest.recvTsUs = now) :
    b.arith i64 (now.micros - latest.recvTsUs.micros) = .ok 0 ∧ engine.lagRefused 0 = false := by
  rw [h, Int.sub_self]
  refine ⟨Build.arith_of_fits (by decide), ?_⟩
  simp only [lagRefused, decide_eq_false_iff_not]
  omega

end

section
variable {F : Type} [F64 F] {cdf : F → F} {b : Build} {engine engine' : SignalEngine F}
variable {sample : BinanceSample F} {market : MarketContext} {yesQuote noQuote : Quote}
variable {now : TsUs} {tteUs : Int} {intent : BuyIntent}

/-- The hint of a decision. -/
def decisionHint (b : Build) (engine : SignalEngine F) (yesQuote noQuote : Quote) :
    Exec (Option F) :=
  if engine.cfg.useImpliedSigma then impliedPYesFor b yesQuote noQuote else pure none

/-- The probability of a side, in ticks. -/
def sideTicks (pYes : F) : OutcomeSide → F
  | .yes => pYes * 100.0
  | .no => (1.0 - pYes) * 100.0

/-- What a decision to buy rests on. -/
structure Decided (cdf : F → F) (b : Build) (engine : SignalEngine F) (yesQuote noQuote : Quote)
    (tteUs : Int) (intent : BuyIntent) (latest windowBase : SignalPoint F) (cutoff : Int)
    (hint : Option F) (pYes : F) : Prop where
  window : engine.latestWindow b = .ok (some (latest, windowBase))
  move : lt (abs (latest.microprice - windowBase.microprice)) engine.cfg.minMoveUsd = false
  side : intent.side = if lt 0.0 (latest.microprice - windowBase.microprice) then .yes else .no
  cutoffUs : b.arith i64 (latest.tsUs.micros - engine.cfg.maxWindowUs) = .ok cutoff
  pressure : engine.pressureAgainst intent.side (engine.ofiSumSince cutoff) latest.imbalance = false
  hinted : engine.decisionHint b yesQuote noQuote = .ok hint
  prob : engine.probYesWith cdf b latest.microprice latest.tsUs tteUs hint = .ok (some pYes)
  price : PriceTick.checked intent.edgePrice.ticks = .ok intent.edgePrice
  edge : intent.edgeTicks = floorI32 (sideTicks pYes intent.side - ofInt intent.edgePrice.ticks)

/-- How an intent is priced: the limit is the cutoff of the ask plus the slippage, and the price of
the edge adds half of the slippage, rounded up. -/
structure PricedFrom (b : Build) (engine : SignalEngine F) (quote : Quote) (intent : BuyIntent)
    (entryAsk : PriceTick) (slippageUp : Int) : Prop where
  cutoff : quote.buyCutoffForCents b engine.cfg.entryNotionalCents = .ok (some entryAsk)
  limit : PriceTick.checked (entryAsk.ticks + engine.cfg.entrySlippageTicks) = .ok intent.limit
  up : b.arith i32 (engine.cfg.entrySlippageTicks + 1) = .ok slippageUp
  edge : PriceTick.checked (entryAsk.ticks + slippageUp.tdiv 2) = .ok intent.edgePrice

/-- A price that passes the check keeps it. -/
theorem priceTick_checked {n : Int} {price : PriceTick} (h : PriceTick.checked n = .ok price) :
    PriceTick.checked price.ticks = .ok price := by
  unfold PriceTick.checked at h ⊢
  split at h
  · next hr =>
    cases h
    exact if_pos hr
  · cases h

/-- A decision, with what it rests on and how it is priced. -/
theorem decideLatest_some
    (h : engine.decideLatestWith cdf b market yesQuote noQuote now tteUs = .ok (some intent)) :
    (∃ latest windowBase cutoff hint pYes, engine.Decided cdf b yesQuote noQuote tteUs intent latest
      windowBase cutoff hint pYes) ∧
    ∃ entryAsk slippageUp, engine.PricedFrom b (intent.side.pick yesQuote noQuote) intent
      entryAsk slippageUp := by
  unfold decideLatestWith at h
  split at h
  · cases h
  obtain ⟨window, hwindow, h⟩ := Except.ok_bind_inv h
  rcases window with _ | ⟨latest, windowBase⟩
  · cases h
  dsimp only at h
  split at h
  · cases h
  next hmove =>
  generalize hside : (if lt 0.0 (latest.microprice - windowBase.microprice) = true
    then OutcomeSide.yes else OutcomeSide.no) = side at h
  obtain ⟨cutoff, hcutoff, h⟩ := Except.ok_bind_inv h
  split at h
  · cases h
  next hpressure =>
  obtain ⟨entryAsk, hask, h⟩ := Except.ok_bind_inv h
  cases entryAsk with
  | none => cases h
  | some entryAsk =>
  obtain ⟨quoteAge, -, h⟩ := Except.ok_bind_inv h
  split at h
  · cases h
  split at h
  · next limitTicks hlimitTicks =>
    obtain ⟨rfl, -⟩ := checked_eq_some.1 hlimitTicks
    split at h
    · next limit hlimit =>
      split at h
      · cases h
      obtain ⟨slippageUp, hup, h⟩ := Except.ok_bind_inv h
      split at h
      · next edgeTicks hedgeTicks =>
        obtain ⟨rfl, -⟩ := checked_eq_some.1 hedgeTicks
        split at h
        · next edgePrice hprice =>
          replace hlimit := Except.toOption_eq_some hlimit
          replace hprice := Except.toOption_eq_some hprice
          rw [Except.ite_bind] at h
          obtain ⟨hint, hhint, h⟩ := Except.ok_bind_inv h
          obtain ⟨pYes, hprob, h⟩ := Except.ok_bind_inv h
          cases pYes with
          | none => cases h
          | some pYes =>
          cases side <;>
          · dsimp only at h
            split at h
            · cases h
            cases h
            exact ⟨⟨latest, windowBase, cutoff, hint, pYes, hwindow, Bool.eq_false_iff.2 hmove,
              hside.symm, hcutoff, Bool.eq_false_iff.2 hpressure, hhint, hprob,
              priceTick_checked hprice, rfl⟩, entryAsk, slippageUp, hask, hlimit, hup, hprice⟩
        · cases h
      · cases h
    · cases h
  · cases h

/-- An accepted sample is the last one. -/
theorem pushReceived_last (h : engine.pushReceived sample now = (engine', true)) :
    engine'.cfg = engine.cfg ∧
      ∃ latest, engine'.samples.getLast? = some latest ∧ latest.recvTsUs = now := by
  unfold pushReceived at h
  split at h
  · cases h
  · cases h
    exact ⟨rfl, _, List.getLast?_concat, rfl⟩

/-- An intent of a sample is a decision of the engine that accepted the sample. -/
theorem onSample_some
    (h : engine.onSampleWith cdf b sample market yesQuote noQuote now tteUs =
      .ok (engine', some intent)) :
    engine'.decideLatestWith cdf b market yesQuote noQuote now tteUs = .ok (some intent) ∧
      engine'.cfg = engine.cfg ∧
        ∃ latest, engine'.samples.getLast? = some latest ∧ latest.recvTsUs = now := by
  obtain ⟨lagUs, -, h⟩ := Except.ok_bind_inv h
  rcases hpush : engine.pushReceived sample now with ⟨pushed, _ | _⟩
  · rw [hpush] at h
    cases h
  · rw [hpush] at h
    dsimp only at h
    split at h
    · next hfalse => cases hfalse
    split at h
    · cases h
    obtain ⟨result, hdecide, h⟩ := Except.ok_bind_inv h
    cases h
    exact ⟨hdecide, pushReceived_last hpush⟩

/-- A decision is made on the sample that was received last. -/
theorem Decided.recv {latest windowBase : SignalPoint F} {cutoff : Int} {hint : Option F} {pYes : F}
    (h : engine.Decided cdf b yesQuote noQuote tteUs intent latest windowBase cutoff hint pYes)
    (hlast : ∃ latest, engine.samples.getLast? = some latest ∧ latest.recvTsUs = now) :
    latest.recvTsUs = now := by
  obtain ⟨last, hl, hrecv⟩ := hlast
  cases hl.symm.trans (latestWindow_last h.window)
  exact hrecv

/-- The prices of the quote are tradeable, as those that `PriceTick::checked` makes are. -/
def Priced (q : Quote) : Prop :=
  ∀ price, q.bid = some price ∨ q.ask = some price → PriceTick.checked price.ticks = .ok price

/-- The sum of two prices does not abort in the build. -/
def Summable (b : Build) (q : Quote) : Prop := b.overflowChecks = false ∨ Priced q

/-- A middle price is computed. -/
theorem quoteMid_total {q : Quote} (hq : Summable b q) :
    ∃ mid : Option F, quoteMid b q = .ok mid := by
  unfold quoteMid
  cases hbid : q.bid with
  | none => exact ⟨_, rfl⟩
  | some bid =>
    cases hask : q.ask with
    | none => exact ⟨_, rfl⟩
    | some ask =>
      obtain ⟨sum, hsum⟩ : ∃ sum, b.arith i32 (bid.ticks + ask.ticks) = .ok sum := by
        rcases hq with hb | hq
        · exact Build.arith_unchecked hb ..
        · have hb := (PriceTick.checked_ok (hq bid (.inl hbid))).2
          have ha := (PriceTick.checked_ok (hq ask (.inr hask))).2
          refine ⟨_, Build.arith_of_fits ?_⟩
          simp only [MIN_PRICE_TICK, MAX_PRICE_TICK, Fits, i32_lo, i32_hi] at ha hb ⊢
          omega
      dsimp only
      rw [hsum]
      split <;> exact ⟨_, rfl⟩

section
variable [Exact F] {latest windowBase : SignalPoint F} {cutoff : Int} {hint : Option F} {pYes : F}

/-- The literal is exact. -/
@[simp] theorem val_zero : Exact.val (0.0 : F) = 0 := by
  rw [Exact.literal]
  norm_num

/-- The literal is exact. -/
@[simp] theorem val_one : Exact.val (1.0 : F) = 1 := by
  rw [Exact.literal]
  norm_num

/-- The literal is exact. -/
@[simp] theorem val_hundred : Exact.val (100.0 : F) = 100 := by
  rw [Exact.literal]
  norm_num

/-- A probability lies between zero and one. -/
theorem probYes_bounds {microprice : F} {ts : TsUs}
    (h : engine.probYesWith cdf b microprice ts tteUs hint = .ok (some pYes)) :
    0 ≤ Exact.val pYes ∧ Exact.val pYes ≤ 1 := by
  unfold probYesWith at h
  split at h
  · cases h
  obtain ⟨c, -, h⟩ := Except.ok_bind_inv h
  obtain ⟨sigma, -, h⟩ := Except.ok_bind_inv h
  obtain ⟨implied, -, h⟩ := Except.ok_bind_inv h
  obtain ⟨sigmaEff, h⟩ : ∃ sigmaEff : F, (if !isFinite sigmaEff || le sigmaEff 1e-9 then pure none
      else
        let z := (microprice - engine.strike) / sigmaEff
        if !isFinite z then pure none
        else do
          let floor ← F64.clamp engine.cfg.probFloor 0.0 1.0
          let ceil ← F64.clamp engine.cfg.probCeil floor 1.0
          return some (← F64.clamp (cdf z) floor ceil)) = Except.ok (some pYes) := ⟨_, h⟩
  split at h
  · cases h
  dsimp only at h
  split at h
  · cases h
  obtain ⟨floor, hfloor, h⟩ := Except.ok_bind_inv h
  obtain ⟨ceil, hceil, h⟩ := Except.ok_bind_inv h
  obtain ⟨p, hp, h⟩ := Except.ok_bind_inv h
  cases h
  have hlo := (clamp_bounds hfloor).1
  have hhi := (clamp_bounds hceil).2
  rw [val_zero] at hlo
  rw [val_one] at hhi
  exact ⟨hlo.trans (clamp_bounds hp).1, (clamp_bounds hp).2.trans hhi⟩

/-- The sign that a side looks at the move with. -/
def sideSign : OutcomeSide → ℚ
  | .yes => 1
  | .no => -1

/-- What `opposes_side` compares where the latest sample was received now. -/
theorem opposesSide_of_window (side : OutcomeSide)
    (hwindow : engine.latestWindow b = .ok (some (latest, windowBase)))
    (hcutoff : b.arith i64 (latest.tsUs.micros - engine.cfg.maxWindowUs) = .ok cutoff)
    (hrecv : latest.recvTsUs = now) :
    ∃ opposes, engine.opposesSide b side now = .ok (some opposes) ∧
      (opposes = true ↔
        sideSign side * (Exact.val latest.microprice - Exact.val windowBase.microprice) ≤
            -Exact.val engine.cfg.minMoveUsd ∧
          sideSign side * Exact.val (engine.ofiSumSince cutoff) ≤ -Exact.val engine.cfg.minAbsOfi ∧
          sideSign side * Exact.val latest.imbalance ≤ -Exact.val engine.cfg.minImbalance) := by
  obtain ⟨hlag, hfresh⟩ := lag_fresh (b := b) engine hrecv
  simp only [opposesSide, hwindow, hcutoff, hlag, Except.ok_bind, hfresh, Bool.false_eq_true,
    if_false]
  refine ⟨_, rfl, ?_⟩
  simp only [Bool.and_eq_true, Exact.le_iff, Exact.mul, Exact.neg, Exact.sub, and_assoc]
  cases side <;> simp [sideSign, Exact.neg]

/-- The bounds that a decision's move, order flow and imbalance keep. -/
theorem Decided.pressed
    (h : engine.Decided cdf b yesQuote noQuote tteUs intent latest windowBase cutoff hint pYes) :
    Exact.val engine.cfg.minMoveUsd ≤
        sideSign intent.side * (Exact.val latest.microprice - Exact.val windowBase.microprice) ∧
      Exact.val engine.cfg.minAbsOfi ≤
        sideSign intent.side * Exact.val (engine.ofiSumSince cutoff) ∧
      Exact.val engine.cfg.minImbalance ≤ sideSign intent.side * Exact.val latest.imbalance := by
  have hmove := h.move
  rw [Exact.lt_false_iff, Exact.abs, Exact.sub] at hmove
  have hside := h.side
  have hpressure := h.pressure
  by_cases hpos : lt 0.0 (latest.microprice - windowBase.microprice) = true
  · rw [if_pos hpos] at hside
    rw [Exact.lt_iff, Exact.sub, val_zero] at hpos
    rw [hside] at hpressure ⊢
    rw [abs_of_pos hpos] at hmove
    simp only [pressureAgainst, Bool.or_eq_false_iff, Exact.lt_false_iff] at hpressure
    simpa only [sideSign, one_mul] using ⟨hmove, hpressure⟩
  · rw [if_neg hpos] at hside
    rw [Exact.lt_iff, Exact.sub, val_zero, not_lt] at hpos
    rw [hside] at hpressure ⊢
    rw [abs_of_nonpos hpos] at hmove
    simp only [pressureAgainst, Bool.or_eq_false_iff, Exact.lt_false_iff, Exact.neg] at hpressure
    simp only [sideSign, neg_one_mul]
    exact ⟨hmove, le_neg_of_le_neg hpressure.1, le_neg_of_le_neg hpressure.2⟩

/-- The other side has the other sign. -/
theorem sideSign_other (side : OutcomeSide) : sideSign side.other = -sideSign side := by
  cases side <;> simp [sideSign, OutcomeSide.other]

/-- The judgement at the instant of a decision. -/
theorem Decided.opposes
    (h : engine.Decided cdf b yesQuote noQuote tteUs intent latest windowBase cutoff hint pYes)
    (hmin : 0 < Exact.val engine.cfg.minMoveUsd) (hrecv : latest.recvTsUs = now) :
    engine.opposesSide b intent.side.other now = .ok (some true) ∧
      engine.opposesSide b intent.side now = .ok (some false) := by
  obtain ⟨hmove, hofi, himbalance⟩ := h.pressed
  obtain ⟨other, hother, hiff⟩ :=
    opposesSide_of_window intent.side.other h.window h.cutoffUs hrecv
  obtain ⟨own, hown, hiff'⟩ := opposesSide_of_window intent.side h.window h.cutoffUs hrecv
  rw [sideSign_other] at hiff
  rw [hother, hown]
  have htrue : other = true := by
    rw [hiff]
    refine ⟨?_, ?_, ?_⟩ <;> linarith
  have hfalse : own = false := by
    rw [Bool.eq_false_iff, Ne, hiff']
    rintro ⟨hagainst, -, -⟩
    linarith
  rw [htrue, hfalse]
  exact ⟨rfl, rfl⟩

/-- The value of a side in ticks, within the range of prices. -/
theorem sideTicks_bounds (side : OutcomeSide) (h : 0 ≤ Exact.val pYes ∧ Exact.val pYes ≤ 1) :
    0 ≤ Exact.val (sideTicks pYes side) ∧ Exact.val (sideTicks pYes side) ≤ 100 := by
  obtain ⟨h₀, h₁⟩ := h
  cases side <;> simp only [sideTicks, Exact.mul, Exact.sub, val_one, val_hundred] <;>
    constructor <;> linarith

/-- Rounded down before or after the price is taken off. -/
theorem floor_sideTicks {side : OutcomeSide} {ticks : Int}
    (h : 0 ≤ Exact.val pYes ∧ Exact.val pYes ≤ 1) (hlo : 1 ≤ ticks) (hhi : ticks ≤ 99) :
    floorI32 (sideTicks pYes side) =
      ticks + floorI32 (sideTicks pYes side - ofInt ticks) := by
  obtain ⟨h₀, h₁⟩ := sideTicks_bounds side h
  have hfloor :
      0 ≤ ⌊Exact.val (sideTicks pYes side)⌋ ∧ ⌊Exact.val (sideTicks pYes side)⌋ ≤ 100 := by
    refine ⟨Int.floor_nonneg.2 h₀, ?_⟩
    exact_mod_cast (Int.floor_le _).trans h₁
  rw [Exact.floorI32, Exact.floorI32, Exact.sub, Exact.ofInt, Int.floor_sub_intCast,
    saturate_of_fits, saturate_of_fits]
  · ring
  · simp only [Fits, i32_lo, i32_hi]
    omega
  · simp only [Fits, i32_lo, i32_hi]
    omega

/-- The fair value at the instant of a decision. -/
theorem Decided.fair
    (h : engine.Decided cdf b yesQuote noQuote tteUs intent latest windowBase cutoff hint pYes)
    (hrecv : latest.recvTsUs = now) {impliedHint : Option F}
    (himplied : impliedPYesFor b yesQuote noQuote = .ok impliedHint) :
    engine.fairTicksForSideWith cdf b intent.side now tteUs impliedHint =
      .ok (some (intent.edgePrice.ticks + intent.edgeTicks)) := by
  obtain ⟨hlag, hfresh⟩ := lag_fresh (b := b) engine hrecv
  have hhint : (if engine.cfg.useImpliedSigma then impliedHint else none) = hint := by
    have hinted := h.hinted
    unfold decisionHint at hinted
    split at hinted
    · next huse =>
      rw [himplied] at hinted
      cases hinted
      exact if_pos huse
    · next huse =>
      cases hinted
      exact if_neg huse
  obtain ⟨hlo, hhi⟩ := (PriceTick.checked_ok h.price).2
  simp only [fairTicksForSideWith, h.window, hlag, Except.ok_bind, hfresh, Bool.false_eq_true,
    if_false, hhint, h.prob]
  rw [h.edge, ← floor_sideTicks (probYes_bounds h.prob) hlo hhi]
  cases intent.side <;> rfl

/-- The bounds of the hint are in order, so that clamping does not abort. -/
theorem clamp_hint_total (p : F) : ∃ q, F64.clamp p 1e-6 (1.0 - 1e-6) = .ok q := by
  have hle : le (1e-6 : F) (1.0 - 1e-6) = true := by
    rw [Exact.le_iff, Exact.sub, val_one, Exact.literal]
    norm_num
  exact ⟨_, if_pos hle⟩

/-- The implied probability is computed. -/
theorem impliedPYesFor_total (hyes : Summable b yesQuote) (hno : Summable b noQuote) :
    ∃ hint : Option F, impliedPYesFor b yesQuote noQuote = .ok hint := by
  obtain ⟨yes, hyes⟩ := quoteMid_total (F := F) (b := b) hyes
  obtain ⟨no, hno⟩ := quoteMid_total (F := F) (b := b) hno
  simp only [impliedPYesFor, hyes, hno, Except.ok_bind]
  cases yes with
  | none =>
    cases no with
    | none => exact ⟨_, rfl⟩
    | some n =>
      obtain ⟨p, hp⟩ := clamp_hint_total (1.0 - n)
      exact ⟨some p, by simp only [hp, Except.ok_bind]; rfl⟩
  | some y =>
    cases no with
    | none =>
      obtain ⟨p, hp⟩ := clamp_hint_total y
      exact ⟨some p, by simp only [hp, Except.ok_bind]; rfl⟩
    | some n =>
      obtain ⟨p, hp⟩ := clamp_hint_total (y / (y + n))
      simp only [hp, Except.ok_bind]
      split <;> exact ⟨_, rfl⟩

/-- At the instant of an entry, the exit model judges against the side that was not bought and not
against the one that was, and its fair value of that one is the price of the entry plus its edge.
The implied probability that it is given is there, unless a build with overflow checks aborts on the
sum of two prices that are not tradeable. -/
theorem exit_agrees_with_entry (cdf : F → F) (b : Build) (engine engine' : SignalEngine F)
    (sample : BinanceSample F) (market : MarketContext) (yesQuote noQuote : Quote) (now : TsUs)
    (tteUs : Int) (intent : BuyIntent) (hmin : 0 < Exact.val engine.cfg.minMoveUsd)
    (h : engine.onSampleWith cdf b sample market yesQuote noQuote now tteUs =
      .ok (engine', some intent)) :
    engine'.opposesSide b intent.side.other now = .ok (some true) ∧
      engine'.opposesSide b intent.side now = .ok (some false) ∧
      (∀ hint, impliedPYesFor b yesQuote noQuote = .ok hint →
        engine'.fairTicksForSideWith cdf b intent.side now tteUs hint =
          .ok (some (intent.edgePrice.ticks + intent.edgeTicks))) ∧
      (Summable b yesQuote → Summable b noQuote →
        ∃ hint : Option F, impliedPYesFor b yesQuote noQuote = .ok hint) := by
  obtain ⟨hdecide, hcfg, hlast⟩ := onSample_some h
  obtain ⟨⟨latest, windowBase, cutoff, hint, pYes, hdecided⟩, -⟩ := decideLatest_some hdecide
  have hrecv := hdecided.recv hlast
  obtain ⟨hother, hown⟩ := hdecided.opposes (by rwa [hcfg]) hrecv
  exact ⟨hother, hown, fun impliedHint himplied => hdecided.fair hrecv himplied,
    impliedPYesFor_total⟩

end

end

/-- A quote of two prices, seen at `second`. -/
def quoteOf (bid ask : Int) (second : Int) : Quote :=
  { bid := some ⟨bid⟩, ask := some ⟨ask⟩, askDepth := .empty, tick := ⟨1⟩
    tsUs := ⟨second * 1000000⟩ }

/-- A sample with three times as much on the bid as on the ask, a dollar above it. -/
def risingSample (second updateId : Int) (bid : Rat) : BinanceSample Rat :=
  { tsUs := ⟨second * 1000000⟩, updateId := updateId, bid := bid, ask := bid + 1, bidQty := 3
    askQty := 1, microprice := bid + 0.75 }

/-- The market of the example. -/
def market₀ : MarketContext :=
  { slug := "btc-updown-5m-700", conditionId := ⟨"c1"⟩, yesToken := ⟨"up"⟩, noToken := ⟨"down"⟩
    endTs := 1000, slugTs := 700 }

/-- The engine with a strike and one sample. -/
def engine₀ (cfg : SignalConfig Rat) : SignalEngine Rat :=
  (((SignalEngine.new cfg).setStrike 100001.75 true).push (risingSample 899 1 100000)).1

/-- A rise of a dollar is bought, and the exit model agrees. -/
theorem exit_agrees_with_entry_example :
    ∃ cfg : SignalConfig Rat, Config.runtimeEnvShape.signalConfig = .ok cfg ∧
      ∃ engine' intent,
        (engine₀ cfg).onSampleWith phi ⟨false⟩ (risingSample 900 2 100001) market₀
            (quoteOf 39 40 900) (quoteOf 59 60 900) ⟨900000000⟩ 100000000 =
          .ok (engine', some intent) ∧
        engine'.opposesSide ⟨false⟩ intent.side.other ⟨900000000⟩ = .ok (some true) := by
  have h : (Config.runtimeEnvShape.signalConfig).Succeeds fun cfg =>
      0 < (engine₀ cfg).cfg.minMoveUsd ∧
      ((engine₀ cfg).onSampleWith phi ⟨false⟩ (risingSample 900 2 100001) market₀
          (quoteOf 39 40 900) (quoteOf 59 60 900) ⟨900000000⟩ 100000000).Succeeds
        fun r => r.2.isSome := by
    decide +kernel
  obtain ⟨cfg, hcfg, hmin, hrun⟩ := h.exists
  obtain ⟨⟨engine', intent⟩, hrun, hsome⟩ := hrun.exists
  obtain ⟨intent, rfl⟩ := Option.isSome_iff_exists.1 hsome
  exact ⟨cfg, hcfg, engine', intent, hrun,
    (exit_agrees_with_entry phi ⟨false⟩ _ engine' _ market₀ _ _ _ _ intent hmin hrun).1⟩

end SignalEngine

end Polyrust
