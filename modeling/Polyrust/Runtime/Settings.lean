import Polyrust.Market.Prices
import Polyrust.Runtime.System

/-!
# What the runtime takes from the configuration

The signal configuration, the slippage of a SELL and the entry gates are set once, when the core is
made, and the prices that the state holds are in range. Every step of the runtime keeps these
(`Follows`), so every reachable core has the settings of the configuration (`Configured`).
-/

namespace Polyrust

namespace RuntimeCore

/-- The later core has the settings of the earlier one, and no price out of range if the earlier one
has none. -/
structure Follows {F : Type} (core core' : RuntimeCore F) : Prop where
  cfg : core'.signal.cfg = core.signal.cfg
  slippage : core'.sellSlippageTicks = core.sellSlippageTicks
  gates : core'.entryGates = core.entryGates
  priced : core.state.Priced → core'.state.Priced

/-- The core has the settings of the configuration, and no price out of range. -/
structure Configured {F : Type} (config : Config F) (signalConfig : SignalConfig F)
    (core : RuntimeCore F) : Prop where
  cfg : core.signal.cfg = { signalConfig with maxSamples := max signalConfig.maxSamples 8 }
  slippage : core.sellSlippageTicks = config.sellSlippageCents
  gates : core.entryGates =
    { rttCeilingUs := config.rttCeilingUs
      polyDriftWindowUs := config.polyDriftWindowUs
      polyDriftBlockUpTicks := config.polyDriftBlockUpTicks
      polyDriftBlockDownTicks := config.polyDriftBlockDownTicks
      polyDriftSafetyBps := config.polyDriftSafetyBps
      polyDriftMinCleanEdgeTicks := config.polyDriftMinCleanEdgeTicks }
  priced : core.state.Priced

section
variable {F : Type} {core core' core'' : RuntimeCore F}

/-- A core follows itself. -/
theorem Follows.refl (core : RuntimeCore F) : core.Follows core := ⟨rfl, rfl, rfl, id⟩

/-- A core follows over two changes. -/
theorem Follows.trans (h : core.Follows core') (h' : core'.Follows core'') :
    core.Follows core'' :=
  ⟨h'.cfg.trans h.cfg, h'.slippage.trans h.slippage, h'.gates.trans h.gates, h'.priced ∘ h.priced⟩

/-- A core that follows a configured one is configured in the same way. -/
theorem Configured.follows {config : Config F} {signalConfig : SignalConfig F}
    (h : core.Configured config signalConfig) (hf : core.Follows core') :
    core'.Configured config signalConfig :=
  ⟨hf.cfg.trans h.cfg, hf.slippage.trans h.slippage, hf.gates.trans h.gates, hf.priced h.priced⟩

/-- A frame of the market channel keeps the settings. -/
theorem applyMarketRaw_follows {pl : Platform} {raw : List UInt8} {tsUs : TsUs}
    {r : Except RuntimeError Nat} (h : core.applyMarketRaw pl raw tsUs = .ok (core', r)) :
    core.Follows core' := by
  obtain ⟨events, hevents, h⟩ := Except.ok_bind_inv h
  cases events with
  | error e =>
    cases h
    exact .refl core
  | ok events =>
    cases h
    exact ⟨rfl, rfl, rfl, fun hp =>
      hp.applyMarketEvents (Market.parseMarketEvents_inRange hevents) tsUs⟩

/-- A trade keeps the settings. -/
theorem tradeStep_follows (core : RuntimeCore F) (trade : UserTrade) :
    core.Follows (core.tradeStep trade) := by
  obtain ⟨trackers, he⟩ := tradeStep_eq core trade
  rw [he]
  exact ⟨rfl, rfl, rfl, id⟩

variable [F64 F]

/-- Every operation on the core keeps the settings. -/
theorem step_follows {pl : Platform} {op : Op F} (h : core.step pl op = .ok core') :
    core.Follows core' := by
  cases op with
  | applyMarketRaw raw tsUs =>
    obtain ⟨⟨c, r⟩, hc, h⟩ := Except.ok_bind_inv h
    cases h
    exact applyMarketRaw_follows hc
  | applyUserRawWithStates raw tsUs =>
    obtain ⟨⟨c, r⟩, hc, h⟩ := Except.ok_bind_inv h
    cases h
    rw [applyUserRawWithStates_run hc]
    exact Machine.run_invariant (I := core.Follows)
      (fun c trade ih _ => ih.trans (tradeStep_follows c trade)) (.refl core)
      (Machine.along_true core _)
  | planExits now =>
    obtain ⟨⟨c, r⟩, hc, h⟩ := Except.ok_bind_inv h
    cases h
    obtain ⟨trackers, rfl⟩ := (planExits_judged hc).eq
    exact ⟨rfl, rfl, rfl, id⟩
  | setMarket market =>
    cases h
    exact ⟨rfl, rfl, rfl, fun _ => .of_empty rfl rfl⟩
  | markMarketInactive =>
    cases h
    exact ⟨rfl, rfl, rfl, fun _ => .of_empty rfl rfl⟩
  | setStrike strike reset =>
    cases h
    cases reset <;> exact ⟨rfl, rfl, rfl, id⟩
  | _ =>
    cases h
    exact ⟨rfl, rfl, rfl, id⟩

/-- A new core has the settings of its configuration. -/
theorem Configured.new {config : Config F} (h : RuntimeCore.new config = .ok core) :
    ∃ signalConfig, config.signalConfig = .ok signalConfig ∧
      core.Configured config signalConfig := by
  obtain ⟨signalConfig, hsignal, h⟩ := Except.ok_bind_inv h
  cases h
  exact ⟨signalConfig, hsignal, rfl, rfl, rfl, .of_empty rfl rfl⟩

end

end RuntimeCore

namespace RuntimeSystem

section
variable {F : Type} {s s' : RuntimeSystem F} {pl : Platform}

/-- A submit keeps the settings. -/
theorem submit_follows (s : RuntimeSystem F) (intent : BuyIntent) (now : TsUs) :
    s.core.Follows (s.submit intent now).core := by
  rw [submit]
  split
  · exact ⟨rfl, rfl, rfl, id⟩
  · exact .refl s.core

variable [F64 F]

/-- Every step of the runtime keeps the settings. -/
theorem step_follows {op : Op F} (h : s.step pl op = .ok s') : s.core.Follows s'.core := by
  cases op with
  | core op =>
    obtain ⟨core, hcore, h⟩ := Except.ok_bind_inv h
    cases h
    exact RuntimeCore.step_follows hcore
  | binanceSample sample now =>
    obtain ⟨signal, hsame, rfl | ⟨intent, -, -, -, rfl⟩⟩ := binanceSample_cases h
    · exact ⟨hsame.cfg, rfl, rfl, id⟩
    · have hsubmit := submit_follows { s with core := { s.core with signal := signal } } intent now
      exact ⟨hsubmit.cfg.trans hsame.cfg, hsubmit.slippage, hsubmit.gates, hsubmit.priced⟩
  | resolve index outcome rtt now =>
    rcases resolve_cases h with rfl | ⟨id, ewma, -, rfl⟩
    · exact .refl _
    · exact ⟨rfl, rfl, rfl, fun hp => hp⟩
  | abandon index =>
    cases h
    rw [abandon]
    split
    · exact .refl s.core
    · exact ⟨rfl, rfl, rfl, id⟩

/-- Every reachable core has the settings of the configuration. -/
theorem Reachable.configured {config : Config F} (h : Reachable pl config s) :
    ∃ signalConfig, config.signalConfig = .ok signalConfig ∧
      s.core.Configured config signalConfig := by
  obtain ⟨core, ops, hnew, hrun⟩ := h
  obtain ⟨signalConfig, hsignal, hcore⟩ := RuntimeCore.Configured.new hnew
  refine ⟨signalConfig, hsignal, ?_⟩
  exact Machine.runM_invariant
    (I := fun s : RuntimeSystem F => s.core.Configured config signalConfig)
    (fun _ _ _ ih _ hstep => ih.follows (step_follows hstep)) hcore
    (Machine.alongM_true _ ops) hrun

end

end RuntimeSystem

end Polyrust
