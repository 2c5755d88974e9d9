import Polyrust.Runtime.Exits

/-!
# Exit decisions

When the exit loop sells, for arbitrary answers of the signal engine: where a token has something to
sell, a bid, a tracker and a plan, and a reason is due (`Due`). A call judges both tokens of the
market one after the other; each decision is about the core as it is before the call (`Ahead`).
-/

namespace Polyrust

open IntWidth

namespace RuntimeCore

section
variable {F : Type} {b : Build} {core core' : RuntimeCore F} {now : Int} {token : TokenId}
variable {fairTicks : Option Int} {opposes : Option Bool} {decision : Option ExitDecision}

/-! ## The reasons -/

/-- The position is supported: the fair value is above the bid by more than the edge, and the
pressure does not oppose it. -/
def Supported (core : RuntimeCore F) (bid : PriceTick) (fairTicks : Option Int)
    (opposes : Option Bool) : Prop :=
  (∃ fair, fairTicks = some fair ∧ bid.ticks + core.exitEdgeTicks < fair) ∧ opposes ≠ some true

/-- There is a reason to sell at the bid: the bid has dropped to the stop and the position is not
supported; the fair value does not exceed the line and the pressure opposes the side; or the holding
time is over and no fair value exceeds the line. -/
def Due (core : RuntimeCore F) (now : Int) (tracker : ExitTracker) (bid : PriceTick)
    (fairTicks : Option Int) (opposes : Option Bool) : Prop :=
  core.exitStopTicks ≤ tracker.entryBid.ticks - bid.ticks ∧
      ¬core.Supported bid fairTicks opposes ∨
    (∃ fair, fairTicks = some fair ∧ fair ≤ bid.ticks + core.exitEdgeTicks) ∧
      opposes = some true ∨
    core.exitHoldUs ≤ holdUs now tracker ∧
      ∀ fair, fairTicks = some fair → fair ≤ bid.ticks + core.exitEdgeTicks

/-- A supported position is not due. -/
theorem Supported.not_due {tracker : ExitTracker} {bid : PriceTick}
    (h : core.Supported bid fairTicks opposes) :
    ¬core.Due now tracker bid fairTicks opposes := by
  obtain ⟨⟨fair, hfair, hlt⟩, hopposes⟩ := h
  rintro (⟨-, hsupport⟩ | ⟨-, htrue⟩ | ⟨-, hle⟩)
  · exact hsupport ⟨⟨fair, hfair, hlt⟩, hopposes⟩
  · exact hopposes htrue
  · exact (hle fair hfair).not_gt hlt

/-- The sums of ticks that decide are 32-bit numbers. -/
structure TickSums (core : RuntimeCore F) (tracker : ExitTracker) (bid : PriceTick)
    (fairTicks : Option Int) : Prop where
  drop : i32.Fits (tracker.entryBid.ticks - bid.ticks)
  edge : fairTicks.isSome → i32.Fits (bid.ticks + core.exitEdgeTicks)

/-- The fair value and the line it is compared with. -/
theorem TickSums.line {tracker : ExitTracker} {bid : PriceTick}
    (h : core.TickSums tracker bid fairTicks) (b : Build) :
    (fairTicks.mapM fun fair => do
      return (fair, ← b.arith i32 (bid.ticks + core.exitEdgeTicks)) : Exec _) =
      .ok (fairTicks.map fun fair => (fair, bid.ticks + core.exitEdgeTicks)) := by
  cases fairTicks with
  | none => rfl
  | some fair =>
    simp only [Option.mapM_some, Build.arith_of_fits (h.edge rfl), Except.ok_bind]
    rfl

/-- `exit_reason` finds a reason exactly where one is due. -/
theorem exitReason_isSome {tracker : ExitTracker} {bid : PriceTick} {reason : Option ExitReason}
    (hsums : core.TickSums tracker bid fairTicks)
    (h : core.exitReason b (raised tracker bid) bid fairTicks opposes (holdUs now tracker) =
      .ok reason) :
    reason.isSome ↔ core.Due now tracker bid fairTicks opposes := by
  have hdrop : i32.Fits ((raised tracker bid).entryBid.ticks - bid.ticks) := hsums.drop
  rw [exitReason, Build.arith_of_fits hdrop, Except.ok_bind] at h
  obtain ⟨profit, -, h⟩ := Except.ok_bind_inv h
  obtain ⟨peakDrop, -, h⟩ := Except.ok_bind_inv h
  rw [hsums.line, Except.ok_bind] at h
  simp only [Option.any_map, Option.all_map] at h
  have hsupports : (fairTicks.any fun fair => decide (bid.ticks + core.exitEdgeTicks < fair) &&
      opposes != some true) = false ↔ ¬core.Supported bid fairTicks opposes := by
    rw [Bool.eq_false_iff]
    refine not_congr ?_
    cases fairTicks <;> simp [Supported]
  have hvalue : (fairTicks.any fun fair => decide (fair ≤ bid.ticks + core.exitEdgeTicks) &&
      opposes == some true) = true ↔
      (∃ fair, fairTicks = some fair ∧ fair ≤ bid.ticks + core.exitEdgeTicks) ∧
        opposes = some true := by
    cases fairTicks <;> simp
  have hboundary : (fairTicks.all fun fair => decide (fair ≤ bid.ticks + core.exitEdgeTicks)) =
      true ↔ ∀ fair, fairTicks = some fair → fair ≤ bid.ticks + core.exitEdgeTicks := by
    cases fairTicks <;> simp
  simp only [hvalue, hboundary] at h
  split_ifs at h with hstop hval hdropped hhold
  · cases h
    exact iff_of_true rfl (.inl ⟨hstop.1, hsupports.1 hstop.2⟩)
  · cases h
    exact iff_of_true rfl (.inr (.inl hval))
  · cases h
    exact iff_of_true rfl (.inr (.inl hval))
  · cases h
    exact iff_of_true rfl (.inr (.inr hhold))
  · cases h
    refine iff_of_false nofun ?_
    rintro (⟨hdue, hsupport⟩ | hvalued | hheld)
    · exact hstop ⟨hdue, hsupports.2 hsupport⟩
    · exact hval hvalued
    · exact hhold hheld

/-! ## The trackers after a round -/

/-- The tracker of a token of the active market after `plan_exits`. -/
def seen (core : RuntimeCore F) (token : TokenId) : Option ExitTracker :=
  if (core.inventory.sellable token).units ≤ 0 then none
  else match (core.state.quoteForToken token).bind (·.bid) with
    | some bid => (core.exitTrackers.lookup token).map (raised · bid)
    | none => core.exitTrackers.lookup token

/-- A round leaves its token with the tracker it has seen, and the others as they are. -/
theorem planExitWith_lookup
    (h : core.planExitWith b now token fairTicks opposes = .ok (core', decision)) :
    core'.exitTrackers.lookup token = core.seen token ∧
      ∀ t, t ≠ token → core'.exitTrackers.lookup t = core.exitTrackers.lookup t := by
  rcases planExitWith_cases h with ⟨-, ⟨hs, rfl⟩ | ⟨hs, rfl, hnone⟩⟩ | ⟨bid, tracker, hj⟩
  · rw [seen, if_pos hs]
    exact ⟨AList.lookup_erase _ _, fun t hne => AList.lookup_erase_ne hne⟩
  · refine ⟨?_, fun _ _ => rfl⟩
    rw [seen, if_neg (by omega)]
    rcases hnone with hbid | htracker
    · rw [hbid]
    · rw [htracker]
      split <;> rfl
  · obtain ⟨hs, hbid, htracker, rfl, -⟩ := hj
    rw [seen, if_neg (by omega), hbid]
    dsimp only
    rw [HashMap.lookup_modify_self, htracker]
    exact ⟨rfl, fun t hne => HashMap.lookup_modify_ne hne _ _⟩

/-! ## Both rounds -/

/-- The core between the rounds: only trackers have changed, each to the one that has been seen. -/
structure Ahead (core core₁ : RuntimeCore F) : Prop where
  eq : ∃ trackers, core₁ = { core with exitTrackers := trackers }
  lookup : ∀ token, core₁.exitTrackers.lookup token = core.exitTrackers.lookup token ∨
    core₁.exitTrackers.lookup token = core.seen token

/-- A core is not behind itself. -/
theorem Ahead.refl (core : RuntimeCore F) : core.Ahead core := ⟨⟨_, rfl⟩, fun _ => .inl rfl⟩

/-- A round of one token does not go back. -/
theorem Ahead.of_round
    (h : core.planExitWith b now token fairTicks opposes = .ok (core', decision)) :
    core.Ahead core' := by
  obtain ⟨hself, hothers⟩ := planExitWith_lookup h
  refine ⟨?_, fun t => ?_⟩
  · rcases planExitWith_cases h with ⟨-, ⟨-, rfl⟩ | ⟨-, rfl, -⟩⟩ | ⟨bid, tracker, hj⟩
    · exact ⟨_, rfl⟩
    · exact ⟨_, rfl⟩
    · exact ⟨_, hj.eq⟩
  · rcases eq_or_ne t token with rfl | hne
    · exact .inr hself
    · exact .inl (hothers t hne)

/-- A maximum that has been taken is taken. -/
theorem PriceTick.max_max (p q : PriceTick) : (p.max q).max q = p.max q := by
  unfold PriceTick.max
  split_ifs <;> rfl

/-- The two trackers are of the same fill, and have the same peak once they have seen the bid. -/
structure SameFill (bid : PriceTick) (tracker tracker₁ : ExitTracker) : Prop where
  price : tracker₁.entryPrice = tracker.entryPrice
  entry : tracker₁.entryBid = tracker.entryBid
  ts : tracker₁.fillTsUs = tracker.fillTsUs
  peak : tracker₁.peakBid.max bid = tracker.peakBid.max bid

/-- The tracker of a token that is judged, before the first round. -/
theorem Ahead.tracker {core₁ : RuntimeCore F} {bid : PriceTick} {tracker₁ : ExitTracker}
    (h : core.Ahead core₁) (hs : 1 ≤ (core.inventory.sellable token).units)
    (hbid : (core.state.quoteForToken token).bind (·.bid) = some bid)
    (h₁ : core₁.exitTrackers.lookup token = some tracker₁) :
    ∃ tracker, core.exitTrackers.lookup token = some tracker ∧ SameFill bid tracker tracker₁ := by
  rcases h.lookup token with hsame | hseen
  · exact ⟨tracker₁, hsame ▸ h₁, rfl, rfl, rfl, rfl⟩
  · rw [hseen, seen, if_neg (by omega), hbid] at h₁
    obtain ⟨tracker, htracker, rfl⟩ := Option.map_eq_some_iff.1 h₁
    exact ⟨tracker, htracker, rfl, rfl, rfl, PriceTick.max_max _ _⟩

/-- What has been seen does not change when it is seen again. -/
theorem Ahead.seen_eq {core₁ : RuntimeCore F} (h : core.Ahead core₁) (token : TokenId) :
    core₁.seen token = core.seen token := by
  obtain ⟨trackers, rfl⟩ := h.eq
  have hlookup := h.lookup token
  dsimp only [seen] at hlookup ⊢
  split_ifs at hlookup ⊢ with hs
  · rfl
  · cases hbid : (core.state.quoteForToken token).bind (·.bid) with
    | none =>
      rw [hbid] at hlookup
      exact hlookup.elim id id
    | some bid =>
      have hraised : ∀ tracker : ExitTracker,
          raised (raised tracker bid) bid = raised tracker bid := fun tracker => by
        rw [raised, raised, PriceTick.max_max]
      rw [hbid] at hlookup
      dsimp only at hlookup ⊢
      rcases hlookup with hsame | hseen
      · rw [hsame]
      · rw [hseen, Option.map_map]
        exact congrArg (fun f => Option.map f _) (funext hraised)

/-- A tracker of a token that has something to sell is still there. -/
theorem Ahead.tracked {core₁ : RuntimeCore F} (h : core.Ahead core₁)
    (hs : 1 ≤ (core.inventory.sellable token).units)
    (ht : (core.exitTrackers.lookup token).isSome) :
    (core₁.exitTrackers.lookup token).isSome := by
  rcases h.lookup token with hsame | hseen
  · rwa [hsame]
  · rw [hseen, seen, if_neg (by omega)]
    split
    · rwa [Option.isSome_map]
    · exact ht

/-- The token is sold: it has something to sell, a bid, a tracker and a plan, and there is a
reason. -/
def Exits (b : Build) (core : RuntimeCore F) (now : Int) (token : TokenId)
    (fairTicks : Option Int) (opposes : Option Bool) : Prop :=
  1 ≤ (core.inventory.sellable token).units ∧ ∃ bid tracker plan,
    (core.state.quoteForToken token).bind (·.bid) = some bid ∧
      core.exitTrackers.lookup token = some tracker ∧
      planSellAtBid b token core.state core.inventory core.sellSlippageTicks = .ok (some plan) ∧
      core.Due now tracker bid fairTicks opposes

/-- The decision is about this bid of the token and this tracker, as they are before the call. -/
structure DecidedOn (b : Build) (core : RuntimeCore F) (token : TokenId) (d : ExitDecision)
    (tracker : ExitTracker) : Prop where
  sells : 1 ≤ (core.inventory.sellable token).units
  quoted : (core.state.quoteForToken token).bind (·.bid) = some d.bid
  tracked : core.exitTrackers.lookup token = some tracker
  plan : planSellAtBid b token core.state core.inventory core.sellSlippageTicks =
    .ok (some d.plan)
  entryPrice : d.entryPrice = tracker.entryPrice
  entryBid : d.entryBid = tracker.entryBid
  peakBid : d.peakBid = tracker.peakBid.max d.bid

/-- A reason for one tracker of a fill is one for the other. -/
theorem SameFill.due_iff {bid : PriceTick} {tracker tracker₁ : ExitTracker}
    (h : SameFill bid tracker tracker₁) :
    core.Due now tracker₁ bid fairTicks opposes ↔ core.Due now tracker bid fairTicks opposes := by
  rw [Due, Due, h.entry, holdUs, holdUs, h.ts]

/-- Which tokens a round decides to sell, from the core before the call. -/
theorem Ahead.decides {core₁ core₂ : RuntimeCore F} (h : core.Ahead core₁)
    (hsums : ∀ bid tracker, (core.state.quoteForToken token).bind (·.bid) = some bid →
      core.exitTrackers.lookup token = some tracker → core.TickSums tracker bid fairTicks)
    (hround : core₁.planExitWith b now token fairTicks opposes = .ok (core₂, decision)) :
    decision.isSome ↔ core.Exits b now token fairTicks opposes := by
  obtain ⟨trackers, he⟩ := h.eq
  rcases planExitWith_cases hround with ⟨rfl, hwhy⟩ | ⟨bid, tracker₁, hj⟩
  · refine iff_of_false nofun ?_
    rintro ⟨hs, bid, tracker, plan, hbid, htracker, -, -⟩
    have hkept := h.tracked hs (htracker ▸ rfl)
    rw [he] at hwhy hkept
    rcases hwhy with ⟨hle, -⟩ | ⟨-, -, hnone | hnone⟩
    · dsimp only at hle
      omega
    · cases hnone.symm.trans hbid
    · rw [hnone] at hkept
      cases hkept
  · subst he
    obtain ⟨tracker, htracker, hsame⟩ := h.tracker hj.sells hj.quoted hj.tracked
    obtain ⟨hdrop, hedge⟩ := hsums bid tracker hj.quoted htracker
    obtain ⟨reason, hreason, hdecision⟩ := hj.decided
    have hdue : reason.isSome ↔ core.Due now tracker bid fairTicks opposes :=
      (exitReason_isSome ⟨hsame.entry ▸ hdrop, hedge⟩ hreason).trans hsame.due_iff
    rcases hdecision with ⟨rfl, rfl⟩ | ⟨why, plan, fairMinusBid, rfl, hplan, rfl⟩
    · refine iff_of_false nofun ?_
      rintro ⟨-, bid', tracker', -, hbid', htracker', -, hdue'⟩
      cases hj.quoted.symm.trans hbid'
      cases htracker.symm.trans htracker'
      cases hdue.2 hdue'
    · rw [Option.isSome_map, Option.isSome_iff_exists]
      refine ⟨?_, ?_⟩
      · rintro ⟨p, rfl⟩
        exact ⟨hj.sells, bid, tracker, p, hj.quoted, htracker, hplan, hdue.1 rfl⟩
      · rintro ⟨-, -, -, p, -, -, hp, -⟩
        exact ⟨p, Except.ok.inj (hplan.symm.trans hp)⟩

/-- What a decision of a round is about, from the core before the call. -/
theorem Ahead.decided {core₁ core₂ : RuntimeCore F} {d : ExitDecision} (h : core.Ahead core₁)
    (hround : core₁.planExitWith b now token fairTicks opposes = .ok (core₂, some d)) :
    ∃ tracker, core.DecidedOn b token d tracker := by
  obtain ⟨trackers, rfl⟩ := h.eq
  rcases planExitWith_cases hround with ⟨hnone, -⟩ | ⟨bid, tracker₁, hj⟩
  · cases hnone
  · obtain ⟨tracker, htracker, hsame⟩ := h.tracker hj.sells hj.quoted hj.tracked
    obtain ⟨reason, -, ⟨-, hnone⟩ | ⟨why, plan, fairMinusBid, -, hplan, hdecision⟩⟩ := hj.decided
    · cases hnone
    · obtain ⟨p, rfl, rfl⟩ := Option.map_eq_some_iff.1 hdecision.symm
      exact ⟨tracker, hj.sells, hj.quoted, htracker, hplan, hsame.price, hsame.entry, hsame.peak⟩

variable {market : MarketContext} {fair : OutcomeSide → Option Int}
variable {opposed : OutcomeSide → Option Bool} {decisions : List ExitDecision}

/-- The decisions are those of the two rounds, each on a core that differs from the one before the
call in what has been seen. -/
theorem planExitsWith_rounds (h : core.planExitsWith b now fair opposed = .ok (core', decisions))
    (hm : core.state.market = some market) :
    ∃ decided : OutcomeSide → Option ExitDecision,
      decisions = (decided .yes).toList ++ (decided .no).toList ∧
      ∀ side token, core.state.tokenForSide side = some token → ∃ core₁ core₂, core.Ahead core₁ ∧
        core₁.planExitWith b now token (fair side) (opposed side) = .ok (core₂, decided side) := by
  rw [planExitsWith, hm] at h
  obtain ⟨⟨core₁, yes⟩, hyes, h⟩ := Except.ok_bind_inv h
  obtain ⟨⟨core₂, no⟩, hno, h⟩ := Except.ok_bind_inv h
  cases h
  refine ⟨OutcomeSide.pick yes no, rfl, fun side token htoken => ?_⟩
  rw [RuntimeState.tokenForSide, hm] at htoken
  cases side with
  | yes =>
    cases htoken
    exact ⟨core, core₁, .refl core, hyes⟩
  | no =>
    cases htoken
    exact ⟨core₁, _, .of_round hyes, hno⟩

/-- The trackers after both rounds. -/
theorem planExitsWith_lookup
    (h : core.planExitsWith b now fair opposed = .ok (core', decisions)) (token : TokenId) :
    core'.exitTrackers.lookup token =
      if (core.state.sideForToken token).isSome then core.seen token
      else core.exitTrackers.lookup token := by
  rw [planExitsWith] at h
  cases hm : core.state.market with
  | none =>
    rw [hm] at h
    cases h
    rw [RuntimeState.sideForToken, hm]
    rfl
  | some market =>
    rw [hm] at h
    obtain ⟨⟨core₁, yes⟩, hyes, h⟩ := Except.ok_bind_inv h
    obtain ⟨⟨core₂, no⟩, hno, h⟩ := Except.ok_bind_inv h
    cases h
    obtain ⟨hyesSelf, hyesOthers⟩ := planExitWith_lookup hyes
    obtain ⟨hnoSelf, hnoOthers⟩ := planExitWith_lookup hno
    rw [RuntimeState.sideForToken, hm, Option.bind_some]
    by_cases hn : token = market.noToken
    · rw [hn, hnoSelf, (Ahead.of_round hyes).seen_eq]
      split_ifs <;> first | rfl | contradiction
    · rw [hnoOthers token hn, if_neg hn]
      by_cases hy : token = market.yesToken
      · rw [if_pos hy, hy, hyesSelf]
        rfl
      · rw [if_neg hy, hyesOthers token hy]
        rfl

end

end RuntimeCore

end Polyrust
