import Polyrust.Inventory.Machine
import Polyrust.Runtime

/-!
# The rounds of the exit loop

`plan_exits` judges every position of the active market by its bid, its tracker, and two answers of
the signal engine: the fair value and whether the pressure opposes the side. A round is stated here
for arbitrary answers (`planExitWith`), of which those of the engine are one choice (`planExit_eq`),
and what it can do is said once (`planExitWith_cases`).
-/

namespace Polyrust

open IntWidth

namespace RuntimeCore

section
variable {F : Type}

/-! ## The judgement with given answers -/

/-- One round of the loop of `plan_exits`, with these answers of `fair_ticks_for_side` and
`opposes_side`. -/
def planExitWith (b : Build) (core : RuntimeCore F) (nowTsUs : Int) (token : TokenId)
    (fairTicks : Option Int) (opposes : Option Bool) :
    Exec (RuntimeCore F × Option ExitDecision) := do
  let cleared := { core with exitTrackers := core.exitTrackers.erase token }
  let some position := core.inventory.position token | return (cleared, none)
  if position.sellable.units ≤ 0 then return (cleared, none)
  let some bid := (core.state.quoteForToken token).bind (·.bid) | return (core, none)
  let some tracker := core.exitTrackers.lookup token | return (core, none)
  let tracker := { tracker with peakBid := tracker.peakBid.max bid }
  let core := { core with exitTrackers := core.exitTrackers.modify token fun _ => tracker }
  let holdUs := i64.saturatingSub nowTsUs tracker.fillTsUs
  let fairMinusBidTicks ← fairTicks.mapM fun fair => b.arith i32 (fair - bid.ticks)
  let some reason ← core.exitReason b tracker bid fairTicks opposes holdUs | return (core, none)
  let some plan ← planSellAtBid b token core.state core.inventory core.sellSlippageTicks
    | return (core, none)
  return (core, some
    { plan := plan, reason := reason, entryPrice := tracker.entryPrice
      entryBid := tracker.entryBid, peakBid := tracker.peakBid, bid := bid
      fairTicks := fairTicks, fairMinusBidTicks := fairMinusBidTicks, opposes := opposes
      holdUs := holdUs })

/-- `plan_exits` with these answers for the two sides. -/
def planExitsWith (b : Build) (core : RuntimeCore F) (nowTsUs : Int)
    (fairTicks : OutcomeSide → Option Int) (opposes : OutcomeSide → Option Bool) :
    Exec (RuntimeCore F × List ExitDecision) := do
  let some market := core.state.market | return (core, [])
  let (core, yes) ←
    core.planExitWith b nowTsUs market.yesToken (fairTicks .yes) (opposes .yes)
  let (core, no) ← core.planExitWith b nowTsUs market.noToken (fairTicks .no) (opposes .no)
  return (core, yes.toList ++ no.toList)

end

section
variable {F : Type} [F64 F] {b : Build} {core core' : RuntimeCore F} {now : Int}
variable {fairTicks : Option Int} {opposes : Option Bool}

/-- A round of `plan_exits` is the one with the answers of the engine. -/
theorem planExit_eq {market : MarketContext} {hint : Option F} {token : TokenId}
    {side : OutcomeSide}
    (hfair : core.signal.fairTicksForSide b side ⟨now⟩
      (i64.saturatingSub (i64.saturatingMul market.endTs 1000000) now) hint = .ok fairTicks)
    (hopposes : core.signal.opposesSide b side ⟨now⟩ = .ok opposes) :
    core.planExit b market hint now token side =
      core.planExitWith b now token fairTicks opposes := by
  rw [planExit, planExitWith]
  cases core.inventory.position token with
  | none => rfl
  | some position =>
    dsimp only
    split
    · rfl
    · cases (core.state.quoteForToken token).bind (·.bid) with
      | none => rfl
      | some bid =>
        dsimp only
        rw [hfair, hopposes]
        rfl

/-- A round that returns is one with some answers: it may return before it asks for them. -/
theorem planExit_ok {market : MarketContext} {hint : Option F} {token : TokenId}
    {side : OutcomeSide} {decision : Option ExitDecision}
    (h : core.planExit b market hint now token side = .ok (core', decision)) :
    ∃ fairTicks opposes,
      core.planExitWith b now token fairTicks opposes = .ok (core', decision) := by
  by_cases hasked : (∃ position, core.inventory.position token = some position ∧
      ¬position.sellable.units ≤ 0) ∧
      ∃ bid, (core.state.quoteForToken token).bind (·.bid) = some bid
  · obtain ⟨⟨position, hpos, hs⟩, bid, hbid⟩ := hasked
    have hround := h
    rw [planExit, hpos] at hround
    simp only [hs, hbid, if_false] at hround
    obtain ⟨fairTicks, hfair, hround⟩ := Except.ok_bind_inv hround
    obtain ⟨opposes, hopposes, -⟩ := Except.ok_bind_inv hround
    exact ⟨fairTicks, opposes, planExit_eq hfair hopposes ▸ h⟩
  · refine ⟨none, none, ?_⟩
    rw [← h, planExit, planExitWith]
    cases hpos : core.inventory.position token with
    | none => rfl
    | some position =>
      dsimp only
      split
      · rfl
      · next hs =>
        cases hbid : (core.state.quoteForToken token).bind (·.bid) with
        | none => rfl
        | some bid => exact absurd ⟨⟨position, hpos, hs⟩, bid, hbid⟩ hasked

end

section
variable {F : Type} {b : Build} {core core' : RuntimeCore F} {now : Int} {token : TokenId}
variable {fairTicks : Option Int} {opposes : Option Bool} {decision : Option ExitDecision}

/-! ## One round -/

/-- The tracker after it has seen a bid. -/
def raised (tracker : ExitTracker) (bid : PriceTick) : ExitTracker :=
  { tracker with peakBid := tracker.peakBid.max bid }

/-- How long the position has been held. -/
def holdUs (now : Int) (tracker : ExitTracker) : Int := i64.saturatingSub now tracker.fillTsUs

/-- The round gets to a decision: the token has something to sell, a bid and a tracker, and the
tracker sees the bid. -/
structure Judges (b : Build) (core : RuntimeCore F) (now : Int) (token : TokenId)
    (fairTicks : Option Int) (opposes : Option Bool) (core' : RuntimeCore F)
    (decision : Option ExitDecision) (bid : PriceTick) (tracker : ExitTracker) : Prop where
  sells : 1 ≤ (core.inventory.sellable token).units
  quoted : (core.state.quoteForToken token).bind (·.bid) = some bid
  tracked : core.exitTrackers.lookup token = some tracker
  eq : core' =
    { core with exitTrackers := core.exitTrackers.modify token fun _ => raised tracker bid }
  decided : ∃ reason,
    core.exitReason b (raised tracker bid) bid fairTicks opposes (holdUs now tracker) =
        .ok reason ∧
      (reason = none ∧ decision = none ∨
        ∃ why plan fairMinusBid, reason = some why ∧
          planSellAtBid b token core.state core.inventory core.sellSlippageTicks = .ok plan ∧
          decision = plan.map fun plan =>
            { plan := plan, reason := why, entryPrice := tracker.entryPrice
              entryBid := tracker.entryBid, peakBid := tracker.peakBid.max bid, bid := bid
              fairTicks := fairTicks, fairMinusBidTicks := fairMinusBid, opposes := opposes
              holdUs := holdUs now tracker })

/-- The round returns before: there is nothing to sell, and the tracker goes, or there is no bid or
no tracker. -/
structure Passes (core : RuntimeCore F) (token : TokenId) (core' : RuntimeCore F)
    (decision : Option ExitDecision) : Prop where
  undecided : decision = none
  why : (core.inventory.sellable token).units ≤ 0 ∧
      core' = { core with exitTrackers := core.exitTrackers.erase token } ∨
    1 ≤ (core.inventory.sellable token).units ∧ core' = core ∧
      ((core.state.quoteForToken token).bind (·.bid) = none ∨
        core.exitTrackers.lookup token = none)

/-- What a round does. -/
theorem planExitWith_cases
    (h : core.planExitWith b now token fairTicks opposes = .ok (core', decision)) :
    core.Passes token core' decision ∨
      ∃ bid tracker, core.Judges b now token fairTicks opposes core' decision bid tracker := by
  rw [planExitWith] at h
  cases hpos : core.inventory.position token with
  | none =>
    rw [hpos] at h
    cases h
    exact .inl ⟨rfl, .inl ⟨Inventory.sellable_of_position_none hpos, rfl⟩⟩
  | some position =>
  rw [hpos] at h
  dsimp only at h
  split at h
  · next hs =>
    cases h
    exact .inl ⟨rfl, .inl ⟨Inventory.sellable_of_position hpos ▸ hs, rfl⟩⟩
  next hs =>
  rw [Inventory.sellable_of_position hpos] at hs
  cases hbid : (core.state.quoteForToken token).bind (·.bid) with
  | none =>
    rw [hbid] at h
    cases h
    exact .inl ⟨rfl, .inr ⟨by omega, rfl, .inl hbid⟩⟩
  | some bid =>
  rw [hbid] at h
  cases htracker : core.exitTrackers.lookup token with
  | none =>
    rw [htracker] at h
    cases h
    exact .inl ⟨rfl, .inr ⟨by omega, rfl, .inr htracker⟩⟩
  | some tracker =>
  rw [htracker] at h
  obtain ⟨fairMinusBid, -, h⟩ := Except.ok_bind_inv h
  obtain ⟨reason, hreason, h⟩ := Except.ok_bind_inv h
  right
  refine ⟨bid, tracker, ?_⟩
  cases reason with
  | none =>
    cases h
    exact ⟨by omega, hbid, htracker, rfl, _, hreason, .inl ⟨rfl, rfl⟩⟩
  | some why =>
    obtain ⟨plan, hplan, h⟩ := Except.ok_bind_inv h
    cases plan with
    | none =>
      cases h
      exact ⟨by omega, hbid, htracker, rfl, _, hreason,
        .inr ⟨why, none, fairMinusBid, rfl, hplan, rfl⟩⟩
    | some plan =>
      cases h
      exact ⟨by omega, hbid, htracker, rfl, _, hreason,
        .inr ⟨why, some plan, fairMinusBid, rfl, hplan, rfl⟩⟩

end

/-! ## The call -/

section
variable {F : Type} [F64 F] {b : Build} {core core' : RuntimeCore F}

/-- In an active market `plan_exits` is its two rounds, with one hint. -/
theorem planExits_rounds {market : MarketContext} {now : Int} {decisions : List ExitDecision}
    (hm : core.state.market = some market)
    (h : core.planExits b now = .ok (core', decisions)) :
    ∃ hint core₁ yes no, core.planExit b market hint now market.yesToken .yes = .ok (core₁, yes) ∧
      core₁.planExit b market hint now market.noToken .no = .ok (core', no) ∧
      decisions = yes.toList ++ no.toList := by
  rw [planExits, hm] at h
  replace h : ∃ hint, (do
      let first ← core.planExit b market hint now market.yesToken .yes
      let second ← first.1.planExit b market hint now market.noToken .no
      return (second.1, first.2.toList ++ second.2.toList)) = .ok (core', decisions) := by
    dsimp only at h
    split at h
    · obtain ⟨hint, -, h⟩ := Except.ok_bind_inv h
      exact ⟨hint, h⟩
    · exact ⟨none, h⟩
  obtain ⟨hint, h⟩ := h
  obtain ⟨⟨core₁, yes⟩, hyes, h⟩ := Except.ok_bind_inv h
  obtain ⟨⟨core₂, no⟩, hno, h⟩ := Except.ok_bind_inv h
  cases h
  exact ⟨hint, core₁, yes, no, hyes, hno, rfl⟩

/-- A call of `plan_exits` that returns is one with some answers. -/
theorem planExits_ok {now : Int} {decisions : List ExitDecision}
    (h : core.planExits b now = .ok (core', decisions)) :
    ∃ fair opposed, core.planExitsWith b now fair opposed = .ok (core', decisions) := by
  cases hm : core.state.market with
  | none =>
    refine ⟨fun _ => none, fun _ => none, ?_⟩
    rw [planExitsWith, hm]
    rwa [planExits, hm] at h
  | some market =>
    obtain ⟨hint, core₁, yes, no, hyes, hno, rfl⟩ := planExits_rounds hm h
    obtain ⟨fairYes, opposedYes, hyes⟩ := planExit_ok hyes
    obtain ⟨fairNo, opposedNo, hno⟩ := planExit_ok hno
    refine ⟨OutcomeSide.pick fairYes fairNo, OutcomeSide.pick opposedYes opposedNo, ?_⟩
    rw [planExitsWith, hm]
    dsimp only [OutcomeSide.pick]
    rw [hyes, Except.ok_bind, hno]
    rfl

end

end RuntimeCore

end Polyrust
