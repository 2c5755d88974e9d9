import Polyrust.Runtime.Exits
import Polyrust.Runtime.Ledger
import Polyrust.Signing

/-!
# A SELL sells what there is

From the balance to the order and back: a SELL is planned for the whole size quanta of the balance,
signed for as many atoms, and the trade that fills it leaves less than a quantum, which is neither
planned for again nor tracked.
-/

namespace Polyrust

open IntWidth

/-! ## The plan -/

/-- The best bid of a token of the active market. -/
def RuntimeState.BestBid (state : RuntimeState) (token : TokenId) (bid : PriceTick) : Prop :=
  (∃ market, state.market = some market ∧ (token = market.yesToken ∨ token = market.noToken)) ∧
    ∃ quote, state.quotes.lookup token = some quote ∧ quote.bid = some bid

/-- The bid of the quote is the best bid. -/
theorem bestBid_iff {state : RuntimeState} {token : TokenId} {bid : PriceTick} :
    (state.quoteForToken token).bind (·.bid) = some bid ↔ state.BestBid token bid := by
  have hside : (∃ side, state.sideForToken token = some side) ↔
      ∃ market, state.market = some market ∧
        (token = market.yesToken ∨ token = market.noToken) := by
    cases hm : state.market with
    | none => simp [RuntimeState.sideForToken, hm]
    | some market =>
      simp only [RuntimeState.sideForToken, hm, Option.bind_some, Option.some.injEq,
        exists_eq_left']
      split_ifs with hy hn <;> simp [*]
  rw [RuntimeState.BestBid, ← hside]
  cases hs : state.sideForToken token with
  | none => simp [RuntimeState.quoteForToken, hs]
  | some side =>
    simp only [RuntimeState.quoteForToken, hs, Option.bind_some, Option.some.injEq,
      exists_eq', true_and]
    exact Option.bind_eq_some_iff

/-- What there is of a token is in range, so its size quanta are. -/
theorem sellable_spec {inv : Inventory} {token : TokenId} (h : i64.Fits (inv.balance token)) :
    (inv.sellable token).units * 10000 ≤ (inv.ownedAtoms token).atoms ∧
      (inv.ownedAtoms token).atoms < (inv.sellable token).units * 10000 + 10000 ∧
      0 ≤ (inv.sellable token).units ∧ i64.Fits ((inv.sellable token).units * 10000) := by
  simp only [Fits, i64_lo, i64_hi] at h ⊢
  simp only [Inventory.sellable, Inventory.ownedAtoms]
  omega

section
variable {b : Build} {inv : Inventory} {state : RuntimeState} {token : TokenId} {slip : Int}

/-- Less than a size quantum is not planned for. -/
theorem planSellAtBid_dust (h : (inv.ownedAtoms token).atoms < 10000) :
    planSellAtBid b token state inv slip = .ok none := by
  have hs : (inv.sellable token).units ≤ 0 := by
    simp only [Inventory.ownedAtoms] at h
    simp only [Inventory.sellable]
    omega
  rw [planSellAtBid]
  cases (state.quoteForToken token).bind (·.bid) with
  | none => rfl
  | some bid =>
    dsimp only
    cases hp : inv.position token with
    | none => rfl
    | some position =>
      dsimp only
      rw [Inventory.sellable_of_position hp, if_pos hs]
      rfl

/-- Without a bid there is no plan. -/
theorem planSellAtBid_no_bid (h : (state.quoteForToken token).bind (·.bid) = none) :
    planSellAtBid b token state inv slip = .ok none := by
  rw [planSellAtBid, h]
  rfl

/-- A plan is for the token it is asked for, at the bid less the slippage but a tick at least. -/
theorem planSellAtBid_some {plan : SellPlan}
    (h : planSellAtBid b token state inv slip = .ok (some plan)) :
    plan.token = token ∧ ∃ bid limitTicks,
      (state.quoteForToken token).bind (·.bid) = some bid ∧
        b.arith i32 (bid.ticks - slip) = .ok limitTicks ∧
        PriceTick.checked (max limitTicks 1) = .ok plan.price := by
  rw [planSellAtBid] at h
  cases hbid : (state.quoteForToken token).bind (·.bid) with
  | none =>
    rw [hbid] at h
    cases h
  | some bid =>
    rw [hbid] at h
    dsimp only at h
    split at h
    · split at h
      · cases h
      · obtain ⟨limitTicks, hlimit, h⟩ := Except.ok_bind_inv h
        split at h
        · next limit hchecked =>
          obtain ⟨atoms, -, h⟩ := Except.ok_bind_inv h
          split at h
          · cases h
          · cases h
            refine ⟨rfl, bid, limitTicks, rfl, hlimit, ?_⟩
            exact Except.toOption_eq_some hchecked
        · cases h
    · cases h

/-- A size quantum or more is sold at the bid less the slippage, unless that is above the highest
price. -/
theorem planSellAtBid_eq {bid : PriceTick} (h : i64.Fits (inv.balance token))
    (ho : 10000 ≤ (inv.ownedAtoms token).atoms)
    (hb : (state.quoteForToken token).bind (·.bid) = some bid)
    (hfit : i32.Fits (bid.ticks - slip)) :
    planSellAtBid b token state inv slip =
      .ok (if max (bid.ticks - slip) 1 ≤ 99 then
        some ⟨token, ⟨max (bid.ticks - slip) 1⟩, inv.sellable token⟩
      else none) := by
  obtain ⟨hle, hlt, hnn, hsf⟩ := sellable_spec h
  have hpos : inv.position token =
      some { ownedAtoms := inv.ownedAtoms token, sellable := inv.sellable token } := by
    rw [Inventory.position, if_neg (by omega)]
  have hunits : ¬ (inv.sellable token).units ≤ 0 := by omega
  have hunitsf : i64.Fits ((inv.sellable token).units * 100) := by
    simp only [Fits, i64_lo, i64_hi] at hsf ⊢
    omega
  have hprice : PriceTick.checked (max (bid.ticks - slip) 1) =
      if max (bid.ticks - slip) 1 ≤ 99 then .ok ⟨max (bid.ticks - slip) 1⟩
      else .error (.priceOutOfRange (max (bid.ticks - slip) 1)) := by
    rw [PriceTick.checked, MIN_PRICE_TICK, MAX_PRICE_TICK]
    simp only [le_max_right, true_and]
  rw [planSellAtBid, hb, hpos]
  simp only [hunits, if_false, Build.arith_of_fits hfit, Except.ok_bind, hprice]
  rcases le_or_gt (max (bid.ticks - slip) 1) 99 with h99 | h99
  · simp only [h99, if_true, Except.toOption, Build.arith_of_fits hunitsf, Except.ok_bind,
      canonicalSellParams_of_quanta, hunits, if_false]
    rfl
  · simp only [not_le.2 h99, if_false, Except.toOption]
    rfl

end

/-! ## The fill -/

/-- The MATCHED event, under a trade id not seen before, of a SELL of this many atoms. -/
structure UserTrade.Fills (trade : UserTrade) (inv : Inventory) (token : TokenId) (atoms : Int) :
    Prop where
  fresh : inv.trades.lookup trade.tradeId = none
  token : trade.token = token
  side : trade.side = .sell
  status : trade.status = .matched
  size : trade.sizeAtoms = ⟨atoms⟩

/-- There is nothing left of the token to sell, and no SELL is planned for it. -/
structure Inventory.Exhausted (b : Build) (inv : Inventory) (state : RuntimeState)
    (token : TokenId) : Prop where
  sellable : inv.sellable token = ⟨0⟩
  owned : (inv.ownedAtoms token).atoms < 10000
  plan : ∀ slip, planSellAtBid b token state inv slip = .ok none

section
variable {b : Build} {inv : Inventory} {state : RuntimeState} {token : TokenId} {trade : UserTrade}

/-- A fill that is new has a record of its own. -/
theorem UserTrade.Fills.record {atoms : Int} (h : trade.Fills inv token atoms) :
    inv.recordOf trade = ⟨token, .sell, ⟨atoms⟩, false, false⟩ := by
  rw [Inventory.recordOf, h.fresh, Option.getD_none, h.token, h.side, h.size]

/-- A fill takes from the balance. -/
theorem UserTrade.Fills.delta {atoms : Int} (h : trade.Fills inv token atoms) :
    (inv.recordOf trade).delta trade.status = some .sell := by
  rw [h.record, h.status]
  rfl

/-- The SELL of all size quanta leaves less than one. -/
theorem UserTrade.Fills.exhausted (hf : i64.Fits (inv.balance token))
    (ho : 10000 ≤ (inv.ownedAtoms token).atoms)
    (h : trade.Fills inv token ((inv.sellable token).units * 10000)) :
    (inv.applyUserTrade trade).1.Exhausted b state token := by
  have hbal := inv.applyUserTrade_balance trade token
  rw [h.delta, h.record] at hbal
  dsimp only at hbal
  rw [if_pos rfl] at hbal
  obtain ⟨hle, hlt, hnn, -⟩ := sellable_spec hf
  have howned : (inv.ownedAtoms token).atoms = inv.balance token := by
    simp only [Inventory.ownedAtoms] at ho ⊢
    omega
  have hafter : (inv.applyUserTrade trade).1.balance token =
      inv.balance token - (inv.sellable token).units * 10000 := by
    rw [hbal, changedBalance]
    dsimp only
    simp only [Fits, i64_lo, i64_hi] at hf
    rw [saturatingSub, saturate_of_fits (by simp only [Fits, i64_lo, i64_hi]; omega)]
    omega
  have hdust : ((inv.applyUserTrade trade).1.ownedAtoms token).atoms < 10000 := by
    rw [Inventory.ownedAtoms, hafter]
    dsimp only
    omega
  refine ⟨?_, hdust, fun slip => planSellAtBid_dust hdust⟩
  rw [Inventory.sellable, hafter]
  congr 1
  omega

/-- The fill of a SELL clears the tracker of its token when nothing is left to sell. -/
theorem UserTrade.Fills.untracked {F : Type} {core : RuntimeCore F} {atoms : Int}
    (h : trade.Fills core.inventory token atoms)
    (hs : ((core.inventory.applyUserTrade trade).1.sellable token) = ⟨0⟩) :
    (core.tradeStep trade).exitTrackers.lookup token = none := by
  rw [RuntimeCore.tradeStep_exitTrackers h.delta, h.record]
  dsimp only
  rw [hs, if_pos le_rfl]
  exact AList.lookup_erase _ _

end

/-! ## The round trip -/

namespace RuntimeSystem

section
variable {F : Type}

/-- What a SELL plan promises: its price and its size, the amounts it is signed for, and what its
fill leaves, applied to the inventory alone or as a frame of the user channel. -/
structure Exhausts (pl : Platform) (core : RuntimeCore F) (token : TokenId) (slip : Int)
    (plan : SellPlan) : Prop where
  onToken : plan.token = token
  price : ∃ bid, core.state.BestBid token bid ∧ plan.price.ticks = max (bid.ticks - slip) 1
  size_le : plan.size.units * 10000 ≤ (core.inventory.ownedAtoms token).atoms
  lt_size : (core.inventory.ownedAtoms token).atoms < plan.size.units * 10000 + 10000
  signed : ∃ order, signFakSell plan.price plan.size = .ok order ∧
    (order.makerAmount : Int) = plan.size.units * 10000 ∧
    100 * (order.takerAmount : Int) = plan.price.ticks * order.makerAmount ∧
    ∀ trade, trade.Fills core.inventory token order.makerAmount →
      (core.inventory.applyUserTrade trade).1.Exhausted pl.build core.state token ∧
      ∀ raw tsUs, User.parseUserMessage pl raw tsUs = .ok (.ok (.trades [trade])) →
        ∃ core' states,
          core.applyUserRawWithStates pl raw tsUs = .ok (core', .ok (.trades [trade], states)) ∧
          core'.inventory.Exhausted pl.build core'.state token ∧
          core'.exitTrackers.lookup token = none

/-- The plan for all size quanta at a price in range keeps what it promises. -/
theorem exhausts_of_plan {pl : Platform} {core : RuntimeCore F} {token : TokenId} {slip : Int}
    {bid : PriceTick} (hf : i64.Fits (core.inventory.balance token))
    (ho : 10000 ≤ (core.inventory.ownedAtoms token).atoms) (hb : core.state.BestBid token bid)
    (h99 : max (bid.ticks - slip) 1 ≤ 99) :
    Exhausts pl core token slip
      ⟨token, ⟨max (bid.ticks - slip) 1⟩, core.inventory.sellable token⟩ := by
  obtain ⟨hle, hlt, -, hsf⟩ := sellable_spec hf
  have hunits : 0 < (core.inventory.sellable token).units := by omega
  have hunitsf : i64.Fits (core.inventory.sellable token).units := by
    simp only [Fits, i64_lo, i64_hi] at hsf ⊢
    omega
  have hprice : 0 < max (bid.ticks - slip) 1 := by omega
  have hsign := @signFakSell_of_pos ⟨max (bid.ticks - slip) 1⟩ _ hprice h99 hunits hunitsf
  have hmaker : (((core.inventory.sellable token).units * 10000).toNat : Int) =
      (core.inventory.sellable token).units * 10000 := Int.toNat_of_nonneg (by omega)
  refine ⟨rfl, ⟨bid, hb, rfl⟩, hle, hlt, _, hsign, hmaker, ?_, ?_⟩
  · have hpos := mul_pos hprice hunits
    dsimp only
    rw [hmaker, Int.toNat_of_nonneg (by omega)]
    ring
  · intro trade hfill
    rw [hmaker] at hfill
    have hex : (core.inventory.applyUserTrade trade).1.Exhausted pl.build core.state token :=
      hfill.exhausted hf ho
    refine ⟨hex, fun raw tsUs hparse => ⟨core.tradeStep trade, [(core.applyTrade trade).2], ?_, ?_,
      hfill.untracked hex.sellable⟩⟩
    · rw [RuntimeCore.applyUserRawWithStates, hparse]
      rfl
    · rw [RuntimeCore.tradeStep_inventory]
      obtain ⟨trackers, he⟩ := core.tradeStep_eq trade
      rw [he]
      exact hex

variable [F64 F]

/-- In every reachable state a SELL is planned exactly when a size quantum or more is owned of a
token of the active market whose bid, less the slippage, is a price; it is for all quanta there are,
and its fill leaves less than one. -/
theorem sell_exhausts (pl : Platform) (config : Config F) (s : RuntimeSystem F)
    (hs : Reachable pl config s) (token : TokenId) (slip : Int)
    (hfit : ∀ bid, s.core.state.BestBid token bid → i32.Fits (bid.ticks - slip)) :
    ∃ plan, planSellAtBid pl.build token s.core.state s.core.inventory slip = .ok plan ∧
      (plan.isSome ↔ 10000 ≤ (s.core.inventory.ownedAtoms token).atoms ∧
        ∃ bid, s.core.state.BestBid token bid ∧ max (bid.ticks - slip) 1 ≤ 99) ∧
      ∀ p ∈ plan, Exhausts pl s.core token slip p := by
  obtain ⟨ops, hops⟩ := hs.inventory
  have hf : i64.Fits (s.core.inventory.balance token) := by
    rw [hops]
    exact Inventory.balance_fits ops token
  have hbest := @bestBid_iff s.core.state token
  rcases lt_or_ge (s.core.inventory.ownedAtoms token).atoms 10000 with ho | ho
  · exact ⟨none, planSellAtBid_dust ho, ⟨nofun, fun h => absurd h.1 (not_le.2 ho)⟩, nofun⟩
  cases hbid : (s.core.state.quoteForToken token).bind (·.bid) with
  | none =>
    refine ⟨none, planSellAtBid_no_bid hbid, ⟨nofun, ?_⟩, nofun⟩
    rintro ⟨-, bid, hb, -⟩
    rw [hbest.2 hb] at hbid
    cases hbid
  | some bid =>
    have hb := hbest.1 hbid
    have hunique {bid' : PriceTick} (hb' : s.core.state.BestBid token bid') : bid' = bid :=
      Option.some.inj ((hbest.2 hb').symm.trans hbid)
    refine ⟨_, planSellAtBid_eq hf ho hbid (hfit bid hb), ?_⟩
    split_ifs with h99
    · refine ⟨⟨fun _ => ⟨ho, bid, hb, h99⟩, fun _ => rfl⟩, ?_⟩
      rintro p ⟨⟩
      exact exhausts_of_plan hf ho hb h99
    · refine ⟨⟨nofun, ?_⟩, nofun⟩
      rintro ⟨-, bid', hb', h99'⟩
      rw [hunique hb'] at h99'
      exact absurd h99' h99

end

/-- Five shares of `up`, bought, with a bid on the book. -/
def boughtOps : List (Op Rat) :=
  [.core (.setMarket RuntimeCore.upDownMarket), .core (.applyMarketRaw bookFrame.toBytes ⟨1⟩),
    .core (.applyUserRawWithStates (RuntimeCore.upFrame "t1" "BUY" "MATCHED").toBytes 2)]

/-- The five shares are sold at three cents less than the bid. -/
theorem sell_exhausts_example :
    ∃ s : RuntimeSystem Rat,
      Reachable (.reading (bookFrame :: RuntimeCore.upFrames)) Config.runtimeEnvShape s ∧
        (∀ bid, s.core.state.BestBid ⟨"up"⟩ bid → i32.Fits (bid.ticks - 3)) ∧
        ∃ plan, planSellAtBid ⟨false⟩ ⟨"up"⟩ s.core.state s.core.inventory 3 = .ok (some plan) ∧
          plan.price = ⟨36⟩ ∧ plan.size = ⟨500⟩ ∧
          Exhausts (.reading (bookFrame :: RuntimeCore.upFrames)) s.core ⟨"up"⟩ 3 plan := by
  have h : (RuntimeCore.new Config.runtimeEnvShape).Succeeds fun core =>
      (Machine.runM (step (.reading (bookFrame :: RuntimeCore.upFrames)))
        (init Config.runtimeEnvShape core) boughtOps).Succeeds fun s =>
          (s.core.state.quoteForToken ⟨"up"⟩).bind (·.bid) = some ⟨39⟩ ∧
            planSellAtBid ⟨false⟩ ⟨"up"⟩ s.core.state s.core.inventory 3 =
              .ok (some ⟨⟨"up"⟩, ⟨36⟩, ⟨500⟩⟩) := by
    simp only [Platform.reading_eq, boughtOps, Json.Value.toBytes_eq]
    decide +kernel
  obtain ⟨s, hs, hbid, hplan⟩ := exists_reachable h
  have hfit : ∀ bid, s.core.state.BestBid ⟨"up"⟩ bid → i32.Fits (bid.ticks - 3) := by
    intro bid hb
    cases (bestBid_iff.2 hb).symm.trans hbid
    decide
  obtain ⟨plan, hp, -, hex⟩ := sell_exhausts _ _ s hs ⟨"up"⟩ 3 hfit
  cases hp.symm.trans hplan
  exact ⟨s, hs, hfit, _, hplan, rfl, rfl, hex _ rfl⟩

end RuntimeSystem

end Polyrust
