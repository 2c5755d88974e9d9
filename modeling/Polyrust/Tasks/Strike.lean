import Polyrust.Runtime.Latency
import Polyrust.Tasks

/-!
# The strike and the active market

A rotation replaces the market under the lock of the core and the pending anchor under the lock of
the anchor, one after the other. A tick between the two still finds the anchor of the market before,
and a strike that was resolved before the rotation may reach the core after it; in both cases the
strike of one market is used for another. Where neither happens, the strike is always zero or that
of the active market (`strike_of_active_market`).
-/

namespace Polyrust

open IntWidth F64

/-- The pending anchor is the one of the active market. -/
def Maintenance.anchorSet : Maintenance → Bool
  | .idle | .pendingSet _ => true
  | .rotated | .locked | .read .. => false

namespace TaskSystem

section
variable {F : Type} {pl : Platform} {s s' : TaskSystem F}

/-- The active market starts at `slugTs`. -/
def ActiveSlug (s : TaskSystem F) (slugTs : Int) : Prop := s.market.map (·.slugTs) = some slugTs

instance (slugTs : Int) : Decidable (s.ActiveSlug slugTs) := inferInstanceAs (Decidable (_ = _))

/-- No task holds a lock. -/
def Unlocked (s : TaskSystem F) : Prop :=
  s.maintenance.holdsAnchor = false ∧ s.binance.holdsAnchor = false

instance : Decidable s.Unlocked := inferInstanceAs (Decidable (_ ∧ _))

/-- A strike that was resolved for another market than `discovered` is on its way to the core. -/
def Overtaken (s : TaskSystem F) (discovered : MarketContext) : Bool :=
  match s.binance with
  | .resolved _ slugTs _ _ => slugTs ≠ discovered.slugTs
  | .idle | .pushed .. => false

/-- What a step leaves alone that moves neither market nor strike nor anchor. -/
structure SameAnchor (s s' : TaskSystem F) : Prop where
  market : s'.market = s.market
  strike : s'.core.signal.strike = s.core.signal.strike
  anchor : s'.anchor = s.anchor
  maintenance : s'.maintenance = s.maintenance
  binance : s'.binance = .idle ∨ s'.binance = s.binance
  strikeFor : s'.strikeFor = s.strikeFor

/-- A step that leaves the market keeps the start of it. -/
theorem SameAnchor.activeSlug (h : SameAnchor s s') {slugTs : Int} (ha : s.ActiveSlug slugTs) :
    s'.ActiveSlug slugTs := by
  rwa [ActiveSlug, h.market]

variable [F64 F]

/-- The strike is zero, or it was resolved while the start of the active market was pending. -/
def StrikeOfMarket (s : TaskSystem F) : Prop :=
  s.core.signal.strike = 0.0 ∨ ∃ slugTs, s.strikeFor = some slugTs ∧ s.ActiveSlug slugTs

/-- The core was rotated and the anchor was not, and a tick has the samples to resolve the anchor of
the market before. -/
def StaleTick (s : TaskSystem F) (sample : BinanceSample F) (now : TsUs) : Prop :=
  s.maintenance = .rotated ∧ 0 < s.anchor.pendingSlugTs ∧ ¬s.ActiveSlug s.anchor.pendingSlugTs ∧
    MIN_ANCHOR_SAMPLES ≤ ((s.pushed sample).candidates now.micros).length

instance (sample : BinanceSample F) (now : TsUs) : Decidable (s.StaleTick sample now) :=
  inferInstanceAs (Decidable (_ ∧ _))

/-- The operation does not fall between the two halves of a rotation, or between the two halves of
the callback. -/
def Timely (s : TaskSystem F) : Op F → Prop
  | .rotate isRotation discovered =>
    s.rotates isRotation discovered.market = true → s.Overtaken discovered.market = false
  | .pushTick sample now => ¬s.StaleTick sample now
  | _ => True

instance : ∀ op : Op F, Decidable (s.Timely op)
  | .rotate _ _ => inferInstanceAs (Decidable (_ → _))
  | .pushTick _ _ => inferInstanceAs (Decidable (¬_))
  | .lockAnchor | .readMarket | .setPending | .subscribeUser | .setStrike | .decideEntry
  | .connect | .connectFailed | .sendAuth | .sendAuthFailed | .onAuthenticated | .onEvent _ _
  | .takeSubscribe | .sendSubscribe | .connectionLost | .onDisconnect | .background _ =>
    inferInstanceAs (Decidable True)

/-! ## The invariant -/

/-- The strike, a resolved strike on its way, the pending anchor and the market that the maintenance
task has read all belong to the active market; the anchor lags behind from the rotation of the core
until `set_pending`. -/
structure StrikeInv (s : TaskSystem F) : Prop where
  strike : s.StrikeOfMarket
  resolved : ∀ strike slugTs sample now, s.binance = .resolved strike slugTs sample now →
    s.ActiveSlug slugTs
  pending : s.maintenance.anchorSet = true →
    s.anchor.pendingSlugTs ≤ 0 ∨ s.ActiveSlug s.anchor.pendingSlugTs
  read : ∀ slugTs id, s.maintenance = .read slugTs id → slugTs ≤ 0 ∨ s.ActiveSlug slugTs

/-- A step that moves neither market nor strike nor anchor keeps them together. -/
theorem StrikeInv.of_sameAnchor (hs : s.StrikeInv) (h : SameAnchor s s') : s'.StrikeInv where
  strike := by
    rcases hs.strike with hz | ⟨slugTs, hfor, ha⟩
    · exact .inl (h.strike.trans hz)
    · exact .inr ⟨slugTs, h.strikeFor.trans hfor, h.activeSlug ha⟩
  resolved strike slugTs sample now hb := by
    rcases h.binance with hb' | hb'
    · cases hb'.symm.trans hb
    · exact h.activeSlug (hs.resolved strike slugTs sample now (hb'.symm.trans hb))
  pending hm := by
    rw [h.maintenance] at hm
    rw [h.anchor]
    exact (hs.pending hm).imp_right h.activeSlug
  read slugTs id hm := by
    rw [h.maintenance] at hm
    exact (hs.read slugTs id hm).imp_right h.activeSlug

/-- At the start there is no strike. -/
theorem StrikeInv.start (config : Config F) {core : RuntimeCore F}
    (hnew : RuntimeCore.new config = .ok core) : (start config core).StrikeInv where
  strike := by
    obtain ⟨signalConfig, -, hnew⟩ := Except.ok_bind_inv hnew
    cases hnew
    exact .inl rfl
  resolved := nofun
  pending _ := .inl le_rfl
  read := nofun

/-- A rotation resets the strike. -/
theorem StrikeInv.rotate (hs : s.StrikeInv) {isRotation : Bool} {discovered : MarketContext}
    (hok : s.rotates isRotation discovered = true → s.Overtaken discovered = false) :
    (s.rotate isRotation discovered).StrikeInv := by
  rw [TaskSystem.rotate]
  split
  · next hr =>
    exact {
      strike := .inl rfl
      resolved := by
        intro strike slugTs sample now hb
        have hover := hok hr
        simp only [withCore] at hb
        simp only [Overtaken, hb, decide_eq_false_iff_not, not_not] at hover
        exact congrArg some hover.symm
      pending := nofun
      read := nofun }
  · exact hs

/-- `set_pending` brings the anchor back to the active market. -/
theorem StrikeInv.setPending (hs : s.StrikeInv) : s.setPending.StrikeInv := by
  rw [TaskSystem.setPending]
  split
  · next slugTs id hm =>
    exact ⟨hs.strike, hs.resolved, fun _ => hs.read slugTs id hm, nofun⟩
  · exact hs

/-- What the maintenance task reads is the active market. -/
theorem StrikeInv.readMarket (hs : s.StrikeInv) : s.readMarket.StrikeInv := by
  rw [TaskSystem.readMarket]
  split
  · refine ⟨hs.strike, hs.resolved, nofun, ?_⟩
    intro slugTs id hm
    cases hm
    rw [ActiveSlug]
    cases hmarket : s.market with
    | none => exact .inl le_rfl
    | some m => exact .inr (congrArg (Option.map _) hmarket)
  · exact hs

/-- A lock moves nothing. -/
theorem StrikeInv.lockAnchor (hs : s.StrikeInv) : s.lockAnchor.StrikeInv := by
  rw [TaskSystem.lockAnchor]
  split
  · split
    · exact hs
    · exact ⟨hs.strike, hs.resolved, nofun, nofun⟩
  · exact hs

/-- The frame for the user feed moves nothing. -/
theorem StrikeInv.subscribeUser (hs : s.StrikeInv) : s.subscribeUser.StrikeInv := by
  rw [TaskSystem.subscribeUser]
  split
  · next id hm => exact ⟨hs.strike, hs.resolved, fun _ => hs.pending (by rw [hm]; rfl), nofun⟩
  · exact hs

/-- What a tick may resolve is the anchor of the active market. -/
theorem StrikeInv.pushTick (hs : s.StrikeInv) {sample : BinanceSample F} {now : TsUs}
    (hok : ¬s.StaleTick sample now) : (s.pushTick sample now).StrikeInv := by
  have hpush : (s.pushed sample).pendingSlugTs = s.anchor.pendingSlugTs :=
    AnchorBuffer.push_pendingSlugTs ..
  rw [TaskSystem.pushTick]
  split
  · split
    · exact hs
    · next hlock =>
      rcases (s.pushed sample).tryResolve_cases now.micros with hr | ⟨hpos, hr | ⟨hlen, hr⟩⟩
      · simp only [hr]
        exact ⟨hs.strike, nofun, fun hm => hpush ▸ hs.pending hm, hs.read⟩
      · simp only [hr]
        exact ⟨hs.strike, nofun, fun _ => .inl le_rfl, hs.read⟩
      · have hactive : s.ActiveSlug s.anchor.pendingSlugTs := by
          rw [hpush] at hpos
          cases hm : s.maintenance with
          | idle => exact (hs.pending (by rw [hm]; rfl)).resolve_left (not_le.2 hpos)
          | rotated => exact by_contra fun ha => hok ⟨hm, hpos, ha, hlen⟩
          | locked | read | pendingSet => simp [hm, Maintenance.holdsAnchor] at hlock
        simp only [hr]
        refine ⟨hs.strike, ?_, fun _ => .inl le_rfl, hs.read⟩
        intro strike slugTs sample now hb
        cases hb
        exact hactive
  · exact hs

/-- The strike that was resolved is of the active market, as no rotation comes between. -/
theorem StrikeInv.setStrike (hs : s.StrikeInv) : s.setStrike.StrikeInv := by
  rw [TaskSystem.setStrike]
  split
  · next strike slugTs sample now hb =>
    exact ⟨.inr ⟨slugTs, rfl, hs.resolved strike slugTs sample now hb⟩, nofun, hs.pending, hs.read⟩
  · exact hs

/-- Every timely step keeps the invariant. -/
theorem StrikeInv.step (hs : s.StrikeInv) {op : Op F} (hok : s.Timely op)
    (h : s.step pl op = .ok s') : s'.StrikeInv := by
  cases op with
  | rotate isRotation discovered =>
    cases h
    exact hs.rotate hok
  | lockAnchor =>
    cases h
    exact hs.lockAnchor
  | readMarket =>
    cases h
    exact hs.readMarket
  | setPending =>
    cases h
    exact hs.setPending
  | subscribeUser =>
    cases h
    exact hs.subscribeUser
  | pushTick sample now =>
    cases h
    exact hs.pushTick hok
  | setStrike =>
    cases h
    exact hs.setStrike
  | decideEntry =>
    obtain ⟨runtime, binance, rfl, hb, hscope⟩ := decideEntry_eq h
    exact hs.of_sameAnchor ⟨hscope.market, hscope.strike, rfl, rfl, hb, rfl⟩
  | onEvent raw now =>
    obtain ⟨core, rfl, hmarket, hstrike, -⟩ := onEvent_eq h
    exact hs.of_sameAnchor ⟨hmarket, hstrike, rfl, rfl, .inr rfl, rfl⟩
  | background op =>
    obtain ⟨runtime, hr, h⟩ := Except.ok_bind_inv h
    cases h
    have hscope := background_sameScope hr
    exact hs.of_sameAnchor ⟨hscope.market, hscope.strike, rfl, rfl, .inr rfl, rfl⟩
  | connect | connectFailed | sendAuth | sendAuthFailed | onAuthenticated | takeSubscribe
  | sendSubscribe | connectionLost | onDisconnect =>
    cases h
    refine hs.of_sameAnchor ?_
    simp only [connect, connectFailed, sendAuth, sendAuthFailed, onAuthenticated, takeSubscribe,
      sendSubscribe, connectionLost, onDisconnect]
    split <;> exact ⟨rfl, rfl, rfl, rfl, .inr rfl, rfl⟩

/-- In every run of the tasks in which no rotation overtakes a resolved strike, and no tick resolves
the anchor between a rotation and its `set_pending`, the strike is zero or belongs to the active
market. -/
theorem strike_of_active_market (pl : Platform) (config : Config F) (core : RuntimeCore F)
    (ops : List (Op F)) (s : TaskSystem F) (hnew : RuntimeCore.new config = .ok core)
    (htimely : Machine.AlongM (step pl) Timely (start config core) ops)
    (hrun : Machine.runM (step pl) (start config core) ops = .ok s) : s.StrikeOfMarket := by
  have hs : s.StrikeInv :=
    Machine.runM_invariant (fun _ _ _ hs hok h => StrikeInv.step hs hok h)
      (StrikeInv.start config hnew) htimely hrun
  exact hs.strike

end

/-! ## A short market -/

/-- A market of five seconds, and the one after it. -/
def shortMarket : Discovered :=
  ⟨{ RuntimeCore.upDownMarket with slugTs := 995 }, by decide⟩

/-- The market of the next window. -/
def nextMarket : Discovered :=
  ⟨{ slug := "btc-updown-5m-1000", conditionId := ⟨"c2"⟩, yesToken := ⟨"up2"⟩
     noToken := ⟨"down2"⟩, endTs := 1300, slugTs := 1000 }, by decide⟩

/-- The rotation to a market, without interruption. -/
def rotation (discovered : Discovered) : List (Op Rat) :=
  [.rotate true discovered, .lockAnchor, .readMarket, .setPending, .subscribeUser]

/-- A tick at `tsUs`, with more on the bid than on the ask. -/
def tickAt (tsUs updateId : Int) (bid : Rat) : Op Rat :=
  .pushTick { RuntimeSystem.bidSample 0 updateId bid with tsUs := ⟨tsUs⟩ } ⟨tsUs⟩

/-- Two ticks in the first moments of the market, one less than the anchor needs. -/
def shortOps : List (Op Rat) :=
  rotation shortMarket ++
    [tickAt 995000000 1 100001, .decideEntry, tickAt 995100000 2 100001, .decideEntry]

/-- With the third tick the strike is set, for the active market. -/
theorem strike_of_active_market_example :
    ∃ s : TaskSystem Rat, s.core.signal.strike = 100001.75 ∧ s.StrikeOfMarket := by
  have h : (RuntimeCore.new Config.runtimeEnvShape).Succeeds fun core =>
      Machine.AlongM (step (.reading [])) Timely (start Config.runtimeEnvShape core)
          (shortOps ++ [tickAt 995200000 3 100001, .setStrike]) ∧
        (Machine.runM (step (.reading [])) (start Config.runtimeEnvShape core)
          (shortOps ++ [tickAt 995200000 3 100001, .setStrike])).Succeeds
            fun s => s.core.signal.strike = 100001.75 := by
    decide +kernel
  obtain ⟨core, hnew, htimely, hrun⟩ := h.exists
  obtain ⟨s, hrun, hstrike⟩ := hrun.exists
  exact ⟨s, hstrike, strike_of_active_market _ _ core _ s hnew htimely hrun⟩

/-- The third tick comes after the rotation of the core and before that of the anchor: the strike of
the market before is used for the new one. -/
theorem strike_of_other_market :
    ¬ ∀ (pl : Platform) (config : Config Rat) (core : RuntimeCore Rat) (ops : List (Op Rat))
      (s : TaskSystem Rat), RuntimeCore.new config = .ok core →
        Machine.runM (step pl) (start config core) ops = .ok s → s.Unlocked →
          s.StrikeOfMarket := by
  intro h
  have hrun : (RuntimeCore.new Config.runtimeEnvShape).Succeeds fun core =>
      (Machine.runM (step (.reading [])) (start Config.runtimeEnvShape core)
        (shortOps ++ [.rotate true nextMarket, tickAt 995200000 3 100001, .setStrike])).Succeeds
          fun s => s.Unlocked ∧ s.core.signal.strike = 100001.75 ∧ s.strikeFor = some 995 ∧
            ¬s.ActiveSlug 995 := by
    decide +kernel
  obtain ⟨core, hnew, hrun⟩ := hrun.exists
  obtain ⟨s, hrun, hunlocked, hstrike, hfor, hactive⟩ := hrun.exists
  rcases h _ _ core _ s hnew hrun hunlocked with hz | ⟨slugTs, hslug, ha⟩
  · rw [hstrike] at hz
    exact absurd hz (by decide +kernel)
  · rw [hfor] at hslug
    cases hslug
    exact hactive ha

end TaskSystem

end Polyrust
