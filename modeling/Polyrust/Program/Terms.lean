import Polyrust.Program.Posted
import Polyrust.Runtime.Slippage

/-!
# The terms of what is posted

A program in shadow mode posts nothing and claims nothing (`shadow_posts_nothing`). A live one posts
a BUY within the price band of the configuration, for at most its notional and one step of the price
lattice (`buys_within_limits`), and a SELL for all whole size quanta that were owned, at what was
the best bid less the slippage, when its plan was made again (`sells_what_is_owned`).
-/

namespace Polyrust

open IntWidth F64

/-! ## What a BUY costs -/

section
variable {b : Build} {inp : BuyCanonicalInput} {target : BuyCanonicalTarget}

/-- A target costs exactly its price, and at most one step of the lattice more than asked for. -/
theorem canonicalBuyTarget_bounded (hT : 1 ≤ inp.targetMakerCents)
    (h : canonicalBuyTargetForNotional b inp = .ok (.ok target)) :
    inp.price.ticks * target.size.units = 10000 * target.makerAmount.cents ∧
      target.makerAmount.cents ≤ inp.targetMakerCents + makerStep inp.price.ticks := by
  obtain ⟨hp, hfits, -, hmaker, hsize⟩ := canonicalBuyTargetForNotional_ok h
  obtain ⟨-, hexact⟩ := makerCentsFor_some hmaker
  have hpos : 0 < inp.price.ticks := by omega
  have hquantum := sizeQuantum_pos inp.price.ticks
  have hstep := makerStep_pos hpos
  refine ⟨hexact, ?_⟩
  rcases hsize with hfloor | hceil
  · rw [floorToMultiple_eq hquantum (rawSize_nonneg hp.1 hT)] at hfloor
    have hpoint : inp.price.ticks * (floorPoint inp).size.units =
        10000 * (floorPoint inp).makerAmount.cents := latticePoint_exact ..
    have hle := @floorPoint_maker_le inp hp
    have hsame : (floorPoint inp).size.units = target.size.units := hfloor.symm
    rw [hsame] at hpoint
    omega
  · rcases ceilToMultiple_ok hquantum (sizeQuantum_le _) hfits hceil with ⟨-, hup⟩ | hone
    · have hpoint : inp.price.ticks * (ceilPoint inp).size.units =
          10000 * (ceilPoint inp).makerAmount.cents := latticePoint_exact ..
      have hle := @ceilPoint_maker_le inp hp
      have hsame : (ceilPoint inp).size.units = target.size.units := hup.symm
      rw [hsame] at hpoint
      omega
    · have hmul := mul_le_mul_of_nonneg_left hone hpos.le
      rw [price_mul_sizeQuantum] at hmul
      omega

end

/-! ## What a SELL sells -/

/-- A plan is for all whole size quanta, and there is one at least. -/
theorem planSellAtBid_size {b : Build} {inv : Inventory} {state : RuntimeState} {token : TokenId}
    {slip : Int} {plan : SellPlan} (hfits : i64.Fits (inv.balance token))
    (h : planSellAtBid b token state inv slip = .ok (some plan)) :
    plan.size = inv.sellable token ∧ 0 < plan.size.units := by
  obtain ⟨-, -, hnn, hquanta⟩ := sellable_spec hfits
  have hunits : i64.Fits ((inv.sellable token).units * 100) := by
    simp only [Fits, i64_lo, i64_hi] at hquanta ⊢
    omega
  rw [planSellAtBid] at h
  split at h
  · split at h
    · next position hposition =>
      rw [Inventory.position] at hposition
      split at hposition
      · cases hposition
      cases hposition
      split at h
      · cases h
      next hpos =>
      obtain ⟨limitTicks, -, h⟩ := Except.ok_bind_inv h
      dsimp only at h
      split at h
      · next limit hlimit =>
        rw [Build.arith_of_fits hunits, Except.ok_bind, canonicalSellParams_of_quanta] at h
        dsimp only at h
        rw [if_neg hpos] at h
        cases h
        exact ⟨rfl, not_le.1 hpos⟩
      · cases h
    · cases h
  · cases h

/-! ## What is decided -/

/-- The limit of a decision is in the band. -/
theorem SignalEngine.decideLatest_band {F : Type} [F64 F] {cdf : F → F} {b : Build}
    {engine : SignalEngine F} {market : MarketContext} {yesQuote noQuote : Quote} {now : TsUs}
    {tteUs : Int} {intent : BuyIntent}
    (h : engine.decideLatestWith cdf b market yesQuote noQuote now tteUs = .ok (some intent)) :
    engine.cfg.minBuyLimit.ticks ≤ intent.limit.ticks ∧
      intent.limit.ticks ≤ engine.cfg.maxBuyLimit.ticks := by
  unfold decideLatestWith at h
  split at h
  · cases h
  obtain ⟨window, -, h⟩ := Except.ok_bind_inv h
  rcases window with _ | ⟨latest, windowBase⟩
  · cases h
  dsimp only at h
  split at h
  · cases h
  generalize (if lt 0.0 (latest.microprice - windowBase.microprice) = true
    then OutcomeSide.yes else OutcomeSide.no) = side at h
  obtain ⟨cutoff, -, h⟩ := Except.ok_bind_inv h
  split at h
  · cases h
  obtain ⟨entryAsk, -, h⟩ := Except.ok_bind_inv h
  cases entryAsk with
  | none => cases h
  | some entryAsk =>
  obtain ⟨quoteAge, -, h⟩ := Except.ok_bind_inv h
  split at h
  · cases h
  split at h
  · split at h
    · split at h
      · cases h
      next hband =>
      obtain ⟨slippageUp, -, h⟩ := Except.ok_bind_inv h
      split at h
      · split at h
        · rw [Except.ite_bind] at h
          obtain ⟨hint, -, h⟩ := Except.ok_bind_inv h
          obtain ⟨pYes, -, h⟩ := Except.ok_bind_inv h
          cases pYes with
          | none => cases h
          | some pYes =>
          rw [not_or, not_lt, not_lt] at hband
          cases side <;>
          · dsimp only at h
            split at h
            · cases h
            cases h
            exact hband
        · cases h
      · cases h
    · cases h
  · cases h

/-! ## What the core is made with -/

section
variable {F : Type} {pl : Platform}

/-- A trade keeps the policy. -/
theorem RuntimeCore.tradeStep_buyPolicy (core : RuntimeCore F) (trade : UserTrade) :
    (core.tradeStep trade).buyPolicy = core.buyPolicy := by
  obtain ⟨trackers, he⟩ := tradeStep_eq core trade
  rw [he]

/-- A submit keeps the policy. -/
theorem RuntimeSystem.submit_buyPolicy (s : RuntimeSystem F) (intent : BuyIntent) (now : TsUs) :
    (s.submit intent now).core.buyPolicy = s.core.buyPolicy := by
  rw [submit]
  split <;> rfl

variable [F64 F]

/-- No operation changes the policy of a BUY. -/
theorem RuntimeCore.step_buyPolicy {core core' : RuntimeCore F} {op : Op F}
    (h : core.step pl op = .ok core') : core'.buyPolicy = core.buyPolicy := by
  cases op with
  | applyMarketRaw raw tsUs =>
    obtain ⟨⟨c, r⟩, hc, h⟩ := Except.ok_bind_inv h
    cases h
    obtain ⟨state, rfl⟩ := applyMarketRaw_eq hc
    rfl
  | applyUserRawWithStates raw tsUs =>
    obtain ⟨⟨c, r⟩, hc, h⟩ := Except.ok_bind_inv h
    cases h
    rw [applyUserRawWithStates_run hc]
    exact Machine.run_invariant (I := fun c : RuntimeCore F => c.buyPolicy = core.buyPolicy)
      (fun c trade ih _ => (c.tradeStep_buyPolicy trade).trans ih) rfl
      (Machine.along_true core _)
  | planExits now =>
    obtain ⟨⟨c, r⟩, hc, h⟩ := Except.ok_bind_inv h
    cases h
    obtain ⟨trackers, rfl⟩ := (planExits_judged hc).eq
    rfl
  | setStrike strike reset =>
    cases h
    cases reset <;> rfl
  | _ =>
    cases h
    rfl

/-- Every step keeps the policy. -/
theorem RuntimeSystem.step_buyPolicy {s s' : RuntimeSystem F} {op : Op F}
    (h : s.step pl op = .ok s') : s'.core.buyPolicy = s.core.buyPolicy := by
  cases op with
  | core op =>
    obtain ⟨core, hcore, h⟩ := Except.ok_bind_inv h
    cases h
    exact RuntimeCore.step_buyPolicy hcore
  | binanceSample sample now =>
    obtain ⟨signal, -, rfl | ⟨intent, -, -, -, rfl⟩⟩ := binanceSample_cases h
    · rfl
    · exact submit_buyPolicy _ intent now
  | resolve index outcome rtt now =>
    rcases resolve_cases h with rfl | ⟨id, ewma, -, rfl⟩ <;> rfl
  | abandon index =>
    cases h
    rw [abandon]
    split <;> rfl

end

/-- A limit has as many ticks as it has cents. -/
theorem Config.priceLimit_ticks {name : String} {cents : Int} {price : PriceTick}
    (h : Config.priceLimit name cents = .ok price) : price.ticks = cents := by
  unfold priceLimit at h
  split at h
  · next hprice =>
    cases h
    exact (PriceTick.checked_ok hprice).1
  · cases h

/-- A system that goes on running stays reachable. -/
theorem RuntimeSystem.Reachable.trans {F : Type} [F64 F] {pl : Platform} {config : Config F}
    {s s' : RuntimeSystem F} (h : Reachable pl config s)
    (h' : Machine.ReachesM (RuntimeSystem.step pl) s s') : Reachable pl config s' := by
  obtain ⟨core, ops, hnew, hrun⟩ := h
  obtain ⟨ops', hrun'⟩ := h'
  exact ⟨core, ops ++ ops', hnew, Machine.runM_append.2 ⟨s, hrun, hrun'⟩⟩

/-- The policy is that of the configuration. -/
theorem RuntimeSystem.Reachable.buyPolicy {F : Type} [F64 F] {pl : Platform} {config : Config F}
    {s : RuntimeSystem F} (h : Reachable pl config s) :
    s.core.buyPolicy = config.buySubmitPolicy := by
  obtain ⟨core, ops, hnew, hrun⟩ := h
  exact Machine.ReachesM.invariant (s := RuntimeSystem.init config core) ⟨ops, hrun⟩
    (I := fun s => s.core.buyPolicy = config.buySubmitPolicy)
    (fun _ _ _ hs hstep => (RuntimeSystem.step_buyPolicy hstep).trans hs)
    (RuntimeCore.new_returns hnew).1

/-- The limits of the signal configuration are those of the configuration. -/
theorem Config.signalConfig_band {F : Type} {config : Config F} {signalConfig : SignalConfig F}
    (h : config.signalConfig = .ok signalConfig) :
    signalConfig.minBuyLimit.ticks = config.minBuyLimitCents ∧
      signalConfig.maxBuyLimit.ticks = config.maxBuyLimitCents := by
  obtain ⟨minBuyLimit, hmin, h⟩ := Except.ok_bind_inv h
  obtain ⟨maxBuyLimit, hmax, h⟩ := Except.ok_bind_inv h
  cases h
  exact ⟨Config.priceLimit_ticks hmin, Config.priceLimit_ticks hmax⟩

namespace Program

section
variable {F Key Point : Type} [F64 F] {lib : SigningLib Key Point} {pl : Platform}
  {s s' : Program F Key} {setup : Setup F} {ops : List (Op F)}

/-! ## Shadow mode -/

/-- Nothing is sold without a signer. -/
structure NoneSold (s : Program F Key) : Prop where
  exits : s.exits = []
  selling : s.selling = none
  sells : s.sells = []

/-- No step sells without a signer. -/
theorem Moves.noneSold {op : Op F} (h : s.Moves lib pl op s') (hs : s.signer = none → s.NoneSold) :
    s'.signer = none → s'.NoneSold := by
  intro hnone
  have hbefore := hs (h.signer.symm.trans hnone)
  cases h with
  | planned now core exits hsigner h =>
    rw [show s.signer = none from hnone] at hsigner
    cases hsigner
  | refreshed exit exits plan hselling hexits hplan =>
    rw [hbefore.exits] at hexits
    cases hexits
  | dropped plan nowMs hselling => exact ⟨hbefore.exits, rfl, hbefore.sells⟩
  | signed signer plan nowMs prepared hsigner hselling h => cases hsigner.symm.trans hnone
  | sold index task htask =>
    rw [hbefore.sells] at htask
    cases htask
  | idle | plain | decided | spawned | panicked | settled | bought =>
    exact ⟨hbefore.exits, hbefore.selling, hbefore.sells⟩

/-- Without a signer nothing waits to be signed or posted. -/
theorem Runs.noneSold (h : Runs lib pl setup ops s) : s.signer = none → s.NoneSold := by
  obtain ⟨core, s₀, hnew, hstart, hrun⟩ := h
  have hstarted := start_ok hstart
  have hbegin : s₀.signer = none → s₀.NoneSold :=
    fun _ => ⟨hstarted.exits, hstarted.selling, hstarted.sells⟩
  exact Machine.ReachesM.invariant (I := fun s => s.signer = none → s.NoneSold) ⟨ops, hrun⟩
    (fun _ _ _ hs hstep => (step_moves hstep).noneSold hs) hbegin

/-- In every run in shadow mode nothing is posted and no task is spawned, nothing waits to be sold,
no submit is in flight and none is pending in the inventory. -/
theorem shadow_posts_nothing (h : Runs lib pl setup ops s)
    (hshadow : setup.config.allowLiveOrders = false) :
    s.posted = [] ∧ s.buys = [] ∧ s.exits = [] ∧ s.selling = none ∧ s.sells = [] ∧
      s.tasks.runtime.inFlight = [] ∧ ∀ id, s.tasks.core.inventory.pending.lookup id = none := by
  have hnone : s.signer = none := by
    have hsome := h.signer.1
    rw [hshadow] at hsome
    exact Option.isSome_eq_false_iff.1 hsome |> Option.isNone_iff_eq_none.1
  obtain ⟨hlive, hzero⟩ := h.runtime.shadow hshadow
  have hclaims := h.runtime.claimInv (by rw [hzero]; decide)
  obtain ⟨hflight, hpending⟩ := hclaims.shadow hlive
  obtain ⟨-, -, -, -, -, hwired, -⟩ := h.tasks
  obtain ⟨hexits, hselling, hsells⟩ := h.noneSold hnone
  refine ⟨?_, ?_, hexits, hselling, hsells, hflight, hpending⟩
  · refine List.eq_nil_iff_forall_not_mem.2 fun p hp => ?_
    obtain ⟨signer, hsigner, -⟩ := h.owner hp
    cases hnone.symm.trans hsigner
  · refine List.map_eq_nil_iff.1 (hwired.inFlight.trans hflight)

/-! ## A BUY -/

/-- The task has the policy of the configuration, and a limit in its band. -/
structure Within (config : Config F) (task : BuyTask) : Prop where
  policy : task.policy = config.buySubmitPolicy
  lower : config.minBuyLimitCents ≤ task.intent.limit.ticks
  upper : task.intent.limit.ticks ≤ config.maxBuyLimitCents

/-- The program buys with the settings of the configuration. -/
structure Bounded (pl : Platform) (config : Config F) (s : Program F Key) : Prop where
  reachable : RuntimeSystem.Reachable pl config s.tasks.runtime
  buys : ∀ task ∈ s.buys, Within config task
  posted : ∀ p ∈ s.posted, ∀ task, p.task? = some task → Within config task

/-- A decision is made by the core that is there, within the band of the configuration. -/
theorem decision_within {runtime : RuntimeSystem F} {config : Config F} {sample : BinanceSample F}
    {now : TsUs} {core : RuntimeCore F} {intent : BuyIntent}
    (hs : RuntimeSystem.Reachable pl config runtime)
    (h : decision pl runtime sample now = .ok (core, some intent)) :
    core.buyPolicy = config.buySubmitPolicy ∧ config.minBuyLimitCents ≤ intent.limit.ticks ∧
      intent.limit.ticks ≤ config.maxBuyLimitCents := by
  rw [decision] at h
  split at h
  · cases h
  · obtain ⟨⟨engine, -, rfl⟩, -⟩ := RuntimeCore.onBinanceSample_spec h
    obtain ⟨signal, market, yesQuote, noQuote, -, -, honSample⟩ :=
      RuntimeCore.onBinanceSample_some h
    obtain ⟨hdecide, hcfg, -⟩ := SignalEngine.onSample_some honSample
    have hband := SignalEngine.decideLatest_band hdecide
    obtain ⟨signalConfig, hsignal, hconfigured⟩ := hs.configured
    obtain ⟨hmin, hmax⟩ := Config.signalConfig_band hsignal
    rw [hcfg, hconfigured.cfg, hmin, hmax] at hband
    exact ⟨hs.buyPolicy, hband⟩

/-- Every step spawns and posts BUYs within the band only. -/
theorem Moves.bounded {config : Config F} {op : Op F} (h : s.Moves lib pl op s')
    (hs : s.Bounded pl config) : s'.Bounded pl config := by
  have hruntime : True ∧
      Machine.ReachesM (RuntimeSystem.step pl) s.tasks.runtime s'.tasks.runtime :=
    h.tasks.refines trivial fun _ _ _ _ hstep => ⟨trivial, TaskSystem.step_runtime hstep⟩
  have hreach := hs.reachable.trans hruntime.2
  cases h with
  | spawned sample now core intent hpushed h =>
    refine ⟨hreach, ?_, hs.posted⟩
    intro task htask
    rcases (s.decided core).spawn_buys intent now with hbuys | ⟨-, hbuys⟩
    · rw [hbuys] at htask
      exact hs.buys task htask
    · rw [hbuys] at htask
      rcases List.mem_append.1 htask with htask | htask
      · exact hs.buys task htask
      · obtain ⟨hpolicy, hlower, hupper⟩ := decision_within hs.reachable h
        rw [List.mem_singleton.1 htask]
        exact ⟨hpolicy, hlower, hupper⟩
  | panicked index task nowMs htask hstage =>
    refine ⟨hreach, ?_, hs.posted⟩
    intro t ht
    rcases List.mem_or_eq_of_mem_set ht with ht | rfl
    · exact hs.buys t ht
    · obtain ⟨hpolicy, hlower, hupper⟩ := hs.buys task (List.mem_of_getElem? htask)
      exact ⟨hpolicy, hlower, hupper⟩
  | settled index task background runtime htask hop h =>
    exact ⟨hreach, fun t ht => hs.buys t ((List.eraseIdx_sublist ..).subset ht), hs.posted⟩
  | bought signer index task nowMs prepared hsigner htask hstage h =>
    have hwithin := hs.buys task (List.mem_of_getElem? htask)
    refine ⟨hreach, ?_, ?_⟩
    · intro t ht
      rcases List.mem_or_eq_of_mem_set ht with ht | rfl
      · exact hs.buys t ht
      · exact ⟨hwithin.policy, hwithin.lower, hwithin.upper⟩
    · intro p hp t ht
      rcases List.mem_append.1 hp with hp | hp
      · exact hs.posted p hp t ht
      · rw [List.mem_singleton.1 hp] at ht
        cases ht
        exact hwithin
  | sold index task htask =>
    refine ⟨hreach, hs.buys, ?_⟩
    intro p hp t ht
    rcases List.mem_append.1 hp with hp | hp
    · exact hs.posted p hp t ht
    · rw [List.mem_singleton.1 hp] at ht
      cases ht
  | idle | plain | decided | planned | refreshed | dropped | signed =>
    exact ⟨hreach, hs.buys, hs.posted⟩

/-- In every run, the BUY tasks are within the limits. -/
theorem Runs.bounded (h : Runs lib pl setup ops s) : s.Bounded pl setup.config := by
  obtain ⟨core, s₀, hnew, hstart, hrun⟩ := h
  have hstarted := start_ok hstart
  have hbegin : s₀.Bounded pl setup.config := by
    refine ⟨⟨core, [], hnew, ?_⟩, ?_, ?_⟩
    · rw [hstarted.tasks]
      rfl
    · simp [hstarted.buys]
    · simp [hstarted.posted]
  exact Machine.ReachesM.invariant (I := Bounded pl setup.config) ⟨ops, hrun⟩
    (fun _ _ _ hs hstep => (step_moves hstep).bounded hs) hbegin

/-! ## A SELL -/

/-- The step makes this plan, when this is the next salt of a SELL. -/
def Refreshes (plan : SellPlan) (salt : BitVec 64) (s : Program F Key) (op : Op F)
    (s' : Program F Key) : Prop :=
  op = .refreshSell ∧ s.selling = none ∧ s'.selling = some plan ∧ s.sellId = salt

/-- What such a step has made is a plan of the core that was there. -/
theorem Refreshes.planned {plan : SellPlan} {salt : BitVec 64} {op : Op F}
    (h : Refreshes plan salt s op s') (hmoves : s.Moves lib pl op s') :
    s.tasks.core.refreshSellPlan pl.build plan.token = .ok (some plan) := by
  obtain ⟨rfl, hnone, hsome, -⟩ := h
  cases hmoves with
  | refreshed exit exits refreshed hselling hexits hplan =>
    obtain rfl : refreshed = some plan := hsome
    have htoken := (planSellAtBid_some hplan).1
    rwa [← htoken] at hplan
  | idle | settled => cases hnone.symm.trans hsome

/-- The plans of the SELLs were made in the run, each for its salt. -/
structure Planned (lib : SigningLib Key Point) (pl : Platform) (s₀ : Program F Key)
    (ops : List (Op F)) (s : Program F Key) : Prop where
  selling : ∀ plan, s.selling = some plan →
    Machine.OnceM (step lib pl) (Refreshes plan s.sellId) s₀ ops
  orders : ∀ plan inputs body, .sell plan inputs body ∈ s.orders →
    Machine.OnceM (step lib pl) (Refreshes plan inputs.salt) s₀ ops

/-- A plan is signed with the salt it was made for. -/
theorem Planned.step {s₀ : Program F Key} {op : Op F} (hs : Planned lib pl s₀ ops s)
    (hrun : Machine.runM (Program.step lib pl) s₀ ops = .ok s) (h : s.step lib pl op = .ok s') :
    Planned lib pl s₀ (ops ++ [op]) s' := by
  have hselling : ∀ plan, s.selling = some plan →
      Machine.OnceM (Program.step lib pl) (Refreshes plan s.sellId) s₀ (ops ++ [op]) :=
    fun plan hplan => (hs.selling plan hplan).append _
  have horders : ∀ plan inputs body, .sell plan inputs body ∈ s.orders →
      Machine.OnceM (Program.step lib pl) (Refreshes plan inputs.salt) s₀ (ops ++ [op]) :=
    fun plan inputs body hp => (hs.orders plan inputs body hp).append _
  cases step_moves h with
  | bought signer index task nowMs prepared hsigner htask hstage _ =>
    refine ⟨hselling, fun plan inputs body hp => ?_⟩
    rw [orders_posted, List.mem_append, List.mem_singleton] at hp
    rcases hp with hp | hp
    · exact horders plan inputs body hp
    · cases hp
  | refreshed exit exits refreshed hnone hexits hplan =>
    refine ⟨fun plan hplan => ?_, horders⟩
    exact .last hrun h ⟨rfl, hnone, hplan, rfl⟩
  | dropped plan nowMs _ => exact ⟨nofun, horders⟩
  | signed signer plan nowMs prepared hsigner hplan _ =>
    refine ⟨nofun, fun plan' inputs body hp => ?_⟩
    simp only [Program.orders, List.map_append, List.map_singleton, List.mem_append,
      List.mem_singleton] at hp
    rcases hp with (hp | hp) | hp
    · exact horders plan' inputs body (List.mem_append.2 (.inl hp))
    · cases hp
      exact hselling plan hplan
    · exact horders plan' inputs body (List.mem_append.2 (.inr hp))
  | sold index task htask =>
    refine ⟨hselling, fun plan inputs body hp => ?_⟩
    exact horders plan inputs body ((postSell_orders htask).mem_iff.1 hp)
  | idle | plain | decided | spawned | planned | panicked | settled =>
    exact ⟨hselling, horders⟩

/-- A run of the program, and in it the step that made the plan of a SELL again: what was done
before it, and the state it was done in. -/
structure RefreshedIn (lib : SigningLib Key Point) (pl : Platform) (setup : Setup F)
    (plan : SellPlan) (salt : BitVec 64) (before : List (Op F)) (s : Program F Key) : Prop where
  run : Runs lib pl setup before s
  step : ∃ s', s.step lib pl .refreshSell = .ok s' ∧ s.selling = none ∧ s'.selling = some plan
  salt : s.sellId = salt

/-- The plan of a SELL was made again in the run that posts it. -/
theorem Runs.refreshed (h : Runs lib pl setup ops s) {plan : SellPlan} {inputs : SignInputs}
    {body : SignedFakOrderBody} (hp : .sell plan inputs body ∈ s.posted) :
    ∃ before after s₁, ops = before ++ .refreshSell :: after ∧
      RefreshedIn lib pl setup plan inputs.salt before s₁ ∧
      s₁.tasks.core.refreshSellPlan pl.build plan.token = .ok (some plan) := by
  obtain ⟨core, s₀, hnew, hstart, hrun⟩ := h
  have hstarted := start_ok hstart
  have hbegin : Planned lib pl s₀ [] s₀ := by
    refine ⟨fun plan hplan => ?_, fun plan inputs body hp => ?_⟩
    · rw [hstarted.selling] at hplan
      cases hplan
    · rw [Program.orders, hstarted.sells, hstarted.posted] at hp
      cases hp
  have hplanned : Planned lib pl s₀ ops s :=
    Machine.runM_history hbegin (fun _ _ _ _ hs hrun h => hs.step hrun h) hrun
  obtain ⟨before, op, after, s₁, s₂, rfl, hbefore, hstep, hrefreshes⟩ :=
    hplanned.orders plan inputs body (List.mem_append.2 (.inr hp))
  have hplan := hrefreshes.planned (step_moves hstep)
  obtain ⟨rfl, hnone, hsome, hsalt⟩ := hrefreshes
  exact ⟨before, after, s₁, rfl, ⟨⟨core, s₀, hnew, hstart, hbefore⟩, ⟨s₂, hstep, hnone, hsome⟩,
    hsalt⟩, hplan⟩

/-! ## The orders -/

section
variable [AddCommGroup Point] [Module (ZMod secp256k1Order) Point]
  {curve : Ecdsa.Curve secp256k1Order Point} {fromSlice : Signing.JsonReader}

/-- In every run of an accepted environment, a posted BUY is an order for the token of its intent,
in the price band of the configuration, that pays exactly its limit for what it takes, and at most
one step of the price lattice more than the configured notional. -/
theorem buys_within_limits (hlib : Auth.RecoverableSigning lib curve)
    (hread : Signing.Readable lib fromSlice) {parseF64 : List Char → Option F}
    {lookup : String → Option String}
    (henv : (Config.fromLookup pl.build parseF64 lookup).Returns setup.config)
    (h : Runs lib pl setup ops s) {task : BuyTask} {inputs : SignInputs} {body : SignedFakOrderBody}
    (hp : .buy task inputs body ∈ s.posted) :
    ∃ signer order, s.signer = some signer ∧
      (Posted.buy task inputs body).IsFor lib curve fromSlice signer order ∧
      lib.fromDecStr task.intent.token.str = some order.tokenId ∧
      setup.config.minBuyLimitCents ≤ task.intent.limit.ticks ∧
      task.intent.limit.ticks ≤ setup.config.maxBuyLimitCents ∧
      100 * (order.makerAmount.toNat : Int) = task.intent.limit.ticks * order.takerAmount.toNat ∧
      (order.makerAmount.toNat : Int) ≤
        10000 * (setup.config.usdcPerTradeCents + makerStep task.intent.limit.ticks) := by
  obtain ⟨signer, hsigner, hsigned, haddress⟩ := h.owner hp
  obtain ⟨prepared, hprepared, rfl⟩ := hsigned
  obtain ⟨target, htarget, hsign⟩ := prepareBuySubmit_ok hprepared
  obtain ⟨order, hsigns, howns, htoken, hside, hmaker, htaker⟩ :=
    OrderSigner.signFakBuy_signs hlib hread haddress hsign
  obtain ⟨hpolicy, hlower, hupper⟩ := h.bounded.posted _ hp task rfl
  have husdc := (Config.fromLookup_ensures setup.config henv).usdc
  rw [hpolicy] at htarget
  obtain ⟨hexact, hbound⟩ := canonicalBuyTarget_bounded (by
    change 1 ≤ setup.config.usdcPerTradeCents
    omega) htarget
  replace hexact : task.intent.limit.ticks * target.size.units =
    10000 * target.makerAmount.cents := hexact
  replace hbound : target.makerAmount.cents ≤
    setup.config.usdcPerTradeCents + makerStep task.intent.limit.ticks := hbound
  refine ⟨signer, order, hsigner, ⟨hsigns, howns, hside⟩, htoken, hlower, hupper, ?_, ?_⟩
  · rw [hmaker, htaker]
    linarith
  · rw [hmaker]
    omega

/-- In every run of an accepted environment, the plan of a posted SELL was made again in a step of
the run, for the salt of its order. The order is for all whole size quanta that were owned at that
moment of a token of the market that was active then, at a price between 1 and 99 cents; with a
slippage that is not negative, that is what was the best bid less the slippage, or 1 if that is
more. -/
theorem sells_what_is_owned (hlib : Auth.RecoverableSigning lib curve)
    (hread : Signing.Readable lib fromSlice) {parseF64 : List Char → Option F}
    {lookup : String → Option String}
    (henv : (Config.fromLookup pl.build parseF64 lookup).Returns setup.config)
    (h : Runs lib pl setup ops s) {plan : SellPlan} {inputs : SignInputs}
    {body : SignedFakOrderBody} (hp : .sell plan inputs body ∈ s.posted) :
    ∃ before after s₁, ops = before ++ .refreshSell :: after ∧
      RefreshedIn lib pl setup plan inputs.salt before s₁ ∧
      ∃ signer order bid, s.signer = some signer ∧
        (Posted.sell plan inputs body).IsFor lib curve fromSlice signer order ∧
        lib.fromDecStr plan.token.str = some order.tokenId ∧
        s₁.tasks.core.state.BestBid plan.token bid ∧
        0 < order.makerAmount.toNat ∧
        (order.makerAmount.toNat : Int) ≤ (s₁.tasks.core.inventory.ownedAtoms plan.token).atoms ∧
        (s₁.tasks.core.inventory.ownedAtoms plan.token).atoms < order.makerAmount.toNat + 10000 ∧
        100 * (order.takerAmount.toNat : Int) = plan.price.ticks * order.makerAmount.toNat ∧
        1 ≤ plan.price.ticks ∧ plan.price.ticks ≤ 99 ∧
        (0 ≤ setup.config.sellSlippageCents →
          plan.price.ticks = max (bid.ticks - setup.config.sellSlippageCents) 1) := by
  obtain ⟨before, after, s₁, hops, hrefreshed, hplan⟩ := h.refreshed hp
  obtain ⟨signer, hsigner, ⟨prepared, hprepared, rfl⟩, haddress⟩ := h.owner hp
  obtain ⟨order, hsigns, howns, htoken, hside, hmaker, htaker⟩ :=
    OrderSigner.signFakSell_signs hlib hread haddress (SellPlan.sign_ok hprepared)
  obtain ⟨-, bid, limitTicks, hbid, hlimit, hprice⟩ := planSellAtBid_some hplan
  obtain ⟨signalConfig, -, hconfigured⟩ := hrefreshed.run.runtime.configured
  obtain ⟨ledger, hledger⟩ := hrefreshed.run.runtime.inventory
  have hfits : i64.Fits (s₁.tasks.core.inventory.balance plan.token) := by
    change i64.Fits (s₁.tasks.runtime.core.inventory.balance plan.token)
    rw [hledger]
    exact Inventory.balance_fits ledger plan.token
  obtain ⟨hle, hlt, -, -⟩ := sellable_spec hfits
  obtain ⟨hsize, hpos⟩ := planSellAtBid_size hfits hplan
  rw [← hsize] at hle hlt
  obtain ⟨hticks, hlow, hhigh⟩ := PriceTick.checked_ok hprice
  rw [← hticks] at hlow hhigh
  refine ⟨before, after, s₁, hops, hrefreshed, signer, order, bid, hsigner,
    ⟨hsigns, howns, hside⟩, htoken, bestBid_iff.1 hbid, ?_, ?_, ?_, ?_, hlow, hhigh, ?_⟩
  · omega
  · omega
  · omega
  · rw [hmaker, htaker]
    ring
  · intro hslip
    have hbidRange := hconfigured.priced.bid hbid
    have hslipFits := (Config.fromLookup_ensures setup.config henv).fits
      setup.config.sellSlippageCents (by simp)
    rw [show s₁.tasks.core.sellSlippageTicks = _ from hconfigured.slippage] at hlimit
    simp only [PriceTick.InRange, MIN_PRICE_TICK, MAX_PRICE_TICK] at hbidRange
    simp only [Fits, i32_lo, i32_hi] at hslipFits
    rw [Build.arith_of_fits (by simp only [Fits, i32_lo, i32_hi]; omega)] at hlimit
    cases hlimit
    exact hticks

end

end

/-! ### A run that buys -/

/-- The number of the point that the BUY is signed with. -/
def keyOneBuyR : Nat := 0x574b2d9a34c59277a39e3d60dab8311eed31a7d4566e97f65eaa7b84b1212a10

/-- The logarithm of that point. -/
def keyOneBuyNonce : Nat := 0x7c97ec430ac6d7d31082cfa1d433fb94e06010e1207ec16c730f6d1365ac799a

/-- Three shares, bought for 43 cents each. -/
def keyOneBuy : Signing.KeyOneOrder where
  words :=
    let address := Bytes.natFromBe Auth.keyOneAddress.toList
    [0, address, address, 11, 1290000, 3000000, 0, 0, 1777000000000, 0, 0]
  hash := 0x5c2bea4955b5ce1493fd51f0d071d554544c7a96d98bcef162eb6aa11f6d4ab4
  digest := 0x996f4b01a7be18fa26e0b5d16353a9bbcf975cfbd6a87768c33b0f7422f1456c
  signature :=
    { r := keyOneBuyR
      s := 0x7bb6ed71d6b9b25347cd3906bac1d1f5dd95b9b39d114a5d55f24934228bf74f
      r_range := by decide +kernel
      s_range := by decide +kernel }

/-- The nonce of the BUY has an inverse. -/
theorem isUnit_keyOneBuyNonce : IsUnit (keyOneBuyNonce : ZMod secp256k1Order) :=
  Ecdsa.Curve.isUnit_of_mul_mod
    0xe0879a818bf4b779f8ab156b1ac6986e6dfed2f4416c75979e127ad5c19f274 (by decide +kernel)

/-- The group by discrete logarithms, as far as the BUY is signed in it. -/
def keyOneBuyCurve : Ecdsa.Curve secp256k1Order (ZMod secp256k1Order) :=
  .ofLog secp256k1Order keyOneBuyR keyOneBuyNonce isUnit_keyOneBuyNonce

/-- The one signature of the BUY recovers to the key one. -/
theorem keyOneBuy_signs : Auth.RecoverableSigning keyOneBuy.lib keyOneBuyCurve :=
  Signing.KeyOneOrder.lib_signs (Ecdsa.Curve.ofLog_recovers rfl rfl (by decide +kernel))

/-- An environment with the required variables and three cents of slippage, in which orders are
live. -/
def liveEnv (name : String) : Option String :=
  if name = "POLY_ALLOW_LIVE_ORDERS" then some "true"
  else RuntimeSystem.slippageEnv "0.03" "0.03" name

/-- The key one with a configuration. -/
def keyOneWith (config : Config Rat) : Setup Rat := { keyOneSetup with config := config }

/-- The BUY is posted, within the limits of the environment. -/
theorem buys_within_limits_buy :
    ∃ (config : Config Rat) (s : Program Rat Unit) (task : BuyTask) (inputs : SignInputs)
      (body : SignedFakOrderBody) (signer : OrderSigner Unit) (order : OrderV2),
      (Config.fromLookup ⟨false⟩ (fun _ => none) liveEnv).Returns config ∧
      Runs keyOneBuy.lib (.reading [numberedBooks]) (keyOneWith config) buyOps s ∧
      .buy task inputs body ∈ s.posted ∧
      (Posted.buy task inputs body).IsFor keyOneBuy.lib keyOneBuyCurve keyOneBuy.fromSlice signer
        order ∧
      (order.makerAmount.toNat : Int) ≤
        10000 * (config.usdcPerTradeCents + makerStep task.intent.limit.ticks) := by
  have h : (Config.fromLookup (F := Rat) ⟨false⟩ (fun _ => none) liveEnv).run.Succeeds fun r =>
      r.Succeeds fun config => (RuntimeCore.new config).Succeeds fun core =>
        (start keyOneBuy.lib config core keyOneSetup.credentials keyOneSetup.privateKey
          keyOneSetup.funder keyOneSetup.kind keyOneSetup.submitter).Succeeds fun s₀ =>
        (Machine.runM (step keyOneBuy.lib (.reading [numberedBooks])) s₀ buyOps).Succeeds
          fun s => (s.posted.map Posted.side) = [.buy] := by
    simp only [Platform.reading_eq, buyOps, Json.Value.toBytes_eq]
    decide +kernel
  obtain ⟨r, hr, h⟩ := h.exists
  obtain ⟨config, rfl, hcore⟩ := h.exists
  obtain ⟨core, hnew, hbegin⟩ := hcore.exists
  obtain ⟨s₀, hstart, hend⟩ := hbegin.exists
  obtain ⟨s, hrun, hposted⟩ := hend.exists
  have henv : (Config.fromLookup (Platform.reading [numberedBooks]).build (fun _ => none)
      liveEnv).Returns (keyOneWith config).config := hr
  have hruns : Runs keyOneBuy.lib (.reading [numberedBooks]) (keyOneWith config) buyOps s :=
    ⟨core, s₀, hnew, hstart, hrun⟩
  obtain ⟨p, hp, hside⟩ := List.exists_of_mem_map (hposted ▸ List.mem_singleton_self _)
  cases p with
  | sell => cases hside
  | buy task inputs body =>
    obtain ⟨signer, order, -, hfor, -, -, -, -, hmaker⟩ :=
      buys_within_limits keyOneBuy_signs keyOneBuy.lib_reads henv hruns hp
    exact ⟨config, s, task, inputs, body, signer, order, hr, hruns, hp, hfor, hmaker⟩

/-- The same run in shadow mode decides to buy, and posts nothing. -/
theorem shadow_posts_nothing_buy :
    ∃ s : Program Rat Unit, s.signalId = 1 ∧ s.posted = [] ∧
      ∀ id, s.tasks.core.inventory.pending.lookup id = none := by
  let setup := keyOneWith { Config.runtimeEnvShape with allowLiveOrders := false }
  have h : (RuntimeCore.new setup.config).Succeeds fun core =>
      (start keyOneBuy.lib setup.config core setup.credentials setup.privateKey setup.funder
        setup.kind setup.submitter).Succeeds fun s₀ =>
      (Machine.runM (step keyOneBuy.lib (.reading [numberedBooks])) s₀ buyOps).Succeeds fun s =>
        s.signalId = 1 := by
    simp only [Platform.reading_eq, buyOps, Json.Value.toBytes_eq]
    decide +kernel
  obtain ⟨core, hnew, hbegin⟩ := h.exists
  obtain ⟨s₀, hstart, hend⟩ := hbegin.exists
  obtain ⟨s, hrun, hdecided⟩ := hend.exists
  have hruns : Runs keyOneBuy.lib (.reading [numberedBooks]) setup buyOps s :=
    ⟨core, s₀, hnew, hstart, hrun⟩
  obtain ⟨hposted, -, -, -, -, -, hpending⟩ := shadow_posts_nothing hruns rfl
  exact ⟨s, hdecided, hposted, hpending⟩

/-- Two shares more, bought later. -/
def laterTrade : Json.Value :=
  .object [("event_type", .string "trade"), ("id", .string "t2"), ("asset_id", .string "11"),
    ("side", .string "BUY"), ("size", .string "2"), ("price", .string "0.50"),
    ("status", .string "MATCHED")]

/-- The later trade arrives when the plan of the SELL is made and its order is not posted yet. -/
def lateOps : List (Op Rat) :=
  sellOps.dropLast ++ [.task (.onEvent laterTrade.toBytes 31000001), .postSell 0]

/-- The five shares are sold for the bid of 39 cents less three. A second trade, which arrives
before the order is posted, is not in it. -/
theorem sells_what_is_owned_sell :
    ∃ (config : Config Rat) (s s₁ : Program Rat Unit) (plan : SellPlan) (inputs : SignInputs)
      (body : SignedFakOrderBody) (signer : OrderSigner Unit) (order : OrderV2)
      (before : List (Op Rat)),
      (Config.fromLookup ⟨false⟩ (fun _ => none) liveEnv).Returns config ∧
      Runs Signing.keyOneSell.lib (.reading [numberedBook, numberedTrade, laterTrade])
        (keyOneWith config) lateOps s ∧
      RefreshedIn Signing.keyOneSell.lib (.reading [numberedBook, numberedTrade, laterTrade])
        (keyOneWith config) plan inputs.salt before s₁ ∧
      (Posted.sell plan inputs body).IsFor Signing.keyOneSell.lib Signing.keyOneSellCurve
        Signing.keyOneSell.fromSlice signer order ∧
      (order.makerAmount.toNat : Int) ≤ (s₁.tasks.core.inventory.ownedAtoms plan.token).atoms ∧
      (s₁.tasks.core.inventory.ownedAtoms plan.token).atoms < order.makerAmount.toNat + 10000 ∧
      (s.tasks.core.inventory.ownedAtoms ⟨"11"⟩).atoms = 7000000 := by
  have h : (Config.fromLookup (F := Rat) ⟨false⟩ (fun _ => none) liveEnv).run.Succeeds fun r =>
      r.Succeeds fun config => (RuntimeCore.new config).Succeeds fun core =>
        (start Signing.keyOneSell.lib config core keyOneSetup.credentials keyOneSetup.privateKey
          keyOneSetup.funder keyOneSetup.kind keyOneSetup.submitter).Succeeds fun s₀ =>
        (Machine.runM (step Signing.keyOneSell.lib
          (.reading [numberedBook, numberedTrade, laterTrade])) s₀ lateOps).Succeeds fun s =>
            s.posted.map Posted.side = [.sell] ∧
              (s.tasks.core.inventory.ownedAtoms ⟨"11"⟩).atoms = 7000000 := by
    simp only [Platform.reading_eq, lateOps, sellOps, Json.Value.toBytes_eq]
    decide +kernel
  obtain ⟨r, hr, h⟩ := h.exists
  obtain ⟨config, rfl, hcore⟩ := h.exists
  obtain ⟨core, hnew, hbegin⟩ := hcore.exists
  obtain ⟨s₀, hstart, hend⟩ := hbegin.exists
  obtain ⟨s, hrun, hposted, howned⟩ := hend.exists
  have henv : (Config.fromLookup
      (Platform.reading [numberedBook, numberedTrade, laterTrade]).build (fun _ => none)
      liveEnv).Returns (keyOneWith config).config := hr
  have hruns : Runs Signing.keyOneSell.lib (.reading [numberedBook, numberedTrade, laterTrade])
      (keyOneWith config) lateOps s := ⟨core, s₀, hnew, hstart, hrun⟩
  obtain ⟨p, hp, hside⟩ := List.exists_of_mem_map (hposted ▸ List.mem_singleton_self _)
  cases p with
  | buy => cases hside
  | sell plan inputs body =>
    obtain ⟨before, after, s₁, -, hrefreshed, signer, order, bid, -, hfor, -, -, -, hle, hlt, -⟩ :=
      sells_what_is_owned Signing.keyOneSell_signs Signing.keyOneSell.lib_reads henv hruns hp
    exact ⟨config, s, s₁, plan, inputs, body, signer, order, before, hr, hruns, hrefreshed, hfor,
      hle, hlt, howned⟩

end Program

end Polyrust
