import Polyrust.Config
import Polyrust.Lib.Refusal

/-!
# Valid configurations

What the checks of `from_lookup` leave of the configurations: amounts and ticks of 32 bits, most of
them with a sign. No check looks at the sign of the two slippages.
-/

namespace Polyrust

open IntWidth ExceptT

namespace Config

/-- The values of the configuration pass the checks of their variables. -/
structure Valid {F : Type} (config : Config F) : Prop where
  usdc : 100 ≤ config.usdcPerTradeCents
  band : config.minBuyLimitCents < config.maxBuyLimitCents
  fits : ∀ v ∈ [config.minBuyLimitCents, config.maxBuyLimitCents, config.decisionMinEdgeCents,
    config.entrySlippageCents, config.sellSlippageCents, config.exitDropTicks, config.exitArmTicks,
    config.exitStopTicks, config.exitEdgeTicks, config.polyDriftBlockUpTicks,
    config.polyDriftBlockDownTicks, config.polyDriftSafetyBps,
    config.polyDriftMinCleanEdgeTicks], i32.Fits v
  positive : ∀ v ∈ [config.minDecisionTteUs, config.exitDropTicks, config.exitStopTicks,
    config.exitHoldUs, config.signalQuoteAgeUs], 0 < v
  nonneg : ∀ v ∈ [config.exitArmTicks, config.rttCeilingUs, config.polyDriftWindowUs,
    config.polyDriftBlockUpTicks, config.polyDriftBlockDownTicks, config.polyDriftSafetyBps,
    config.polyDriftMinCleanEdgeTicks], 0 ≤ v

/-! ## What a step ensures -/

/-- After the check, its condition does not hold. -/
theorem refuseIf_ensures (c : Bool) (e : ConfigError) :
    (refuseIf c e).Ensures fun _ => c = false := by
  cases c with
  | false => exact fun _ _ => rfl
  | true => nofun

/-- After the check, the value is positive. -/
theorem refuseNonPositive_ensures (name : String) (v : Int) :
    (refuseNonPositive name v).Ensures fun _ => 0 < v := by
  intro a h
  exact Int.not_le.1 (of_decide_eq_false (refuseIf_ensures _ _ a h))

/-- After the check, the value is not negative. -/
theorem refuseNegative_ensures (name : String) (v : Int) :
    (refuseNegative name v).Ensures fun _ => 0 ≤ v := by
  intro a h
  exact Int.not_lt.1 (of_decide_eq_false (refuseIf_ensures _ _ a h))

/-- After the conversion, the value fits 32 bits. -/
theorem intoI32_ensures (name : String) (v : Int) : (intoI32 name v).Ensures i32.Fits := by
  intro a h
  unfold intoI32 at h
  split at h
  · next value hv =>
    cases h
    obtain ⟨rfl, hfits⟩ := checked_eq_some.1 hv
    exact hfits
  · cases h

section
variable {F : Type} [F64 F] {b : Build} {parseF64 : List Char → Option F}
variable {lookup : String → Option String} {config : Config F}

/-- An optional amount fits 32 bits. -/
theorem optionalCents_ensures (name : String) (d : Int) :
    (optionalCents b lookup name d).Ensures i32.Fits :=
  ensures_bind (ensures_true _) fun _ _ => intoI32_ensures name _

/-- An optional number of ticks fits 32 bits. -/
theorem optionalTicks_ensures (name : String) (d : Int) :
    (optionalTicks lookup name d).Ensures i32.Fits := intoI32_ensures name _

/-- An accepted environment makes a valid configuration. -/
theorem fromLookup_ensures : (fromLookup b parseF64 lookup).Ensures Valid := by
  unfold fromLookup
  -- the size of a BUY
  refine ensures_bind (ensures_true _) fun _ _ => ensures_bind (ensures_true _) fun usdc _ => ?_
  refine ensures_bind (refuseIf_ensures _ _) fun _ husdc => ?_
  refine ensures_bind (ensures_true _) fun _ _ => ?_
  -- the band of the prices
  refine ensures_bind (ensures_true _) fun _ _ => ensures_bind (ensures_true _) fun _ _ => ?_
  refine ensures_bind (intoI32_ensures _ _) fun lower hlower => ?_
  refine ensures_bind (optionalCents_ensures _ _) fun upper hupper => ?_
  refine ensures_bind (refuseIf_ensures _ _) fun _ hband => ?_
  -- the time to the end of the market
  refine ensures_bind (ensures_true _) fun tte _ => ?_
  refine ensures_bind (refuseNonPositive_ensures _ _) fun _ htte => ?_
  -- edge and slippage
  refine ensures_bind (optionalCents_ensures _ _) fun edge hedge => ?_
  refine ensures_bind (optionalCents_ensures _ _) fun entry hentry => ?_
  refine ensures_bind (optionalCents_ensures _ _) fun sell hsell => ?_
  -- exits
  refine ensures_bind (optionalTicks_ensures _ _) fun drop hdrop => ?_
  refine ensures_bind (refuseNonPositive_ensures _ _) fun _ hdrop' => ?_
  refine ensures_bind (optionalTicks_ensures _ _) fun arm harm => ?_
  refine ensures_bind (refuseNegative_ensures _ _) fun _ harm' => ?_
  refine ensures_bind (optionalTicks_ensures _ _) fun stop hstop => ?_
  refine ensures_bind (refuseNonPositive_ensures _ _) fun _ hstop' => ?_
  refine ensures_bind (optionalTicks_ensures _ _) fun exitEdge hexitEdge => ?_
  refine ensures_bind (refuseNonPositive_ensures _ _) fun _ hhold => ?_
  -- the entry gates
  refine ensures_bind (refuseNonPositive_ensures _ _) fun _ hage => ?_
  refine ensures_bind (refuseNegative_ensures _ _) fun _ hrtt => ?_
  refine ensures_bind (refuseNegative_ensures _ _) fun _ hwindow => ?_
  refine ensures_bind (optionalTicks_ensures _ _) fun up hup => ?_
  refine ensures_bind (refuseNegative_ensures _ _) fun _ hup' => ?_
  refine ensures_bind (optionalTicks_ensures _ _) fun down hdown => ?_
  refine ensures_bind (refuseNegative_ensures _ _) fun _ hdown' => ?_
  refine ensures_bind (optionalTicks_ensures _ _) fun bps hbps => ?_
  refine ensures_bind (refuseNegative_ensures _ _) fun _ hbps' => ?_
  refine ensures_bind (optionalTicks_ensures _ _) fun clean hclean => ?_
  refine ensures_bind (refuseNegative_ensures _ _) fun _ hclean' => ?_
  refine ensures_pure ⟨?_, ?_, ?_, ?_, ?_⟩
  · exact Int.not_lt.1 (of_decide_eq_false husdc)
  · exact Int.not_le.1 (of_decide_eq_false hband)
  · simp only [List.forall_mem_cons, List.not_mem_nil, false_implies, implies_true, and_true]
    exact ⟨hlower, hupper, hedge, hentry, hsell, hdrop, harm, hstop, hexitEdge, hup, hdown, hbps,
      hclean⟩
  · simp only [List.forall_mem_cons, List.not_mem_nil, false_implies, implies_true, and_true]
    exact ⟨htte, hdrop', hstop', hhold, hage⟩
  · simp only [List.forall_mem_cons, List.not_mem_nil, false_implies, implies_true, and_true]
    exact ⟨harm', hrtt, hwindow, hup', hdown', hbps', hclean'⟩

end

end Config

end Polyrust
