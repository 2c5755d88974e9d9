import Polyrust.Inventory.Lifecycle
import Polyrust.Runtime.Machine

/-!
# Positions and their exit trackers

`planExits` passes over a token without a tracker, so a position is sold only while it has one. A
BUY that becomes inventory sets the tracker, and the tracker goes when nothing is left to sell. A
FAILED event that takes back a SELL adds to the balance and sets no tracker (`Strands`); in a run
without such an event every position keeps its tracker (`sellable_tracked`).
-/

namespace Polyrust

open IntWidth

namespace RuntimeCore

section
variable {F : Type} {core : RuntimeCore F} {trade : UserTrade}

/-- Whatever can be sold has a tracker, and no recorded size is negative. -/
structure Tracked (core : RuntimeCore F) : Prop where
  tracked : ∀ token, 1 ≤ (core.inventory.sellable token).units →
    (core.exitTrackers.lookup token).isSome
  sizes : ∀ id record, core.inventory.trades.lookup id = some record → 0 ≤ record.sizeAtoms.atoms

/-- The event takes back the SELL of a token without tracker, and leaves something of it to sell. -/
def Strands (core : RuntimeCore F) (trade : UserTrade) : Prop :=
  let record := core.inventory.recordOf trade
  trade.status = .failed ∧ record.side = .sell ∧ record.applied = true ∧ record.finalized = false ∧
    core.exitTrackers.lookup record.token = none ∧
    10000 ≤ i64.saturatingAdd (core.inventory.balance record.token) record.sizeAtoms.atoms

instance (core : RuntimeCore F) (trade : UserTrade) : Decidable (core.Strands trade) :=
  inferInstanceAs (Decidable (_ ∧ _))

/-- No trade of a user frame strands a position. -/
def KeepsTrackers (pl : Platform) (core : RuntimeCore F) : Op F → Prop
  | .applyUserRawWithStates raw tsUs =>
    Machine.Along tradeStep (fun core trade => ¬core.Strands trade) core (frameTrades pl raw tsUs)
  | _ => True

instance (pl : Platform) (core : RuntimeCore F) (op : Op F) :
    Decidable (KeepsTrackers pl core op) :=
  match op with
  | .applyUserRawWithStates .. => inferInstanceAs (Decidable (Machine.Along _ _ _ _))
  | .applyMarketRaw .. | .planExits _ | .releaseMarketScope _ | .setMarket _ | .markMarketInactive
  | .setStrike .. | .setUserWssTrusted _ | .expireStaleEntryClaims _ | .rehash _ =>
    inferInstanceAs (Decidable True)

/-! ## One trade -/

/-- The trackers after a trade whose record has a delta. -/
theorem tradeStep_exitTrackers {side : OrderSide}
    (hd : (core.inventory.recordOf trade).delta trade.status = some side) :
    let record := core.inventory.recordOf trade
    let inv := (core.inventory.applyUserTrade trade).1
    (core.tradeStep trade).exitTrackers =
      match record.side with
      | .buy =>
        if (trade.status = .matched ∨ trade.status = .confirmed) ∧
            0 < (inv.sellable record.token).units then
          let currentBid :=
            ((core.state.quoteForToken record.token).bind (·.bid)).getD trade.price
          core.exitTrackers.insert record.token
            { entryPrice := trade.price, entryBid := currentBid
              peakBid := currentBid.max trade.price, fillTsUs := trade.tsUs }
        else core.exitTrackers
      | .sell =>
        if (inv.sellable record.token).units ≤ 0 then core.exitTrackers.erase record.token
        else core.exitTrackers := by
  obtain ⟨htoken, hside, hstatus⟩ := core.inventory.applyUserTrade_state trade
  have hchanged := core.inventory.applyUserTrade_inventoryChanged trade
  rw [hd, Option.isSome_some] at hchanged
  simp only [tradeStep, applyTrade, trackUserTradeForExit, hchanged, htoken, hside, hstatus,
    Bool.not_true, Bool.false_eq_true, if_false]
  cases (core.inventory.recordOf trade).side with
  | buy =>
    dsimp only
    split_ifs <;> rfl
  | sell =>
    dsimp only
    split_ifs <;> rfl

/-- A trade whose record has no delta changes neither trackers nor balances. -/
theorem tradeStep_of_no_delta (hd : (core.inventory.recordOf trade).delta trade.status = none) :
    (core.tradeStep trade).exitTrackers = core.exitTrackers ∧
      ∀ token, (core.tradeStep trade).inventory.balance token = core.inventory.balance token := by
  have hchanged := core.inventory.applyUserTrade_inventoryChanged trade
  rw [hd] at hchanged
  refine ⟨?_, fun token => ?_⟩
  · simp only [tradeStep, applyTrade, trackUserTradeForExit, hchanged]
    rfl
  · rw [tradeStep_inventory, Inventory.applyUserTrade_balance, hd]

/-- A trade moves the tracker and the balance of the token of its record only. -/
theorem tradeStep_ne {token : TokenId} (hne : token ≠ (core.inventory.recordOf trade).token) :
    (core.tradeStep trade).exitTrackers.lookup token = core.exitTrackers.lookup token ∧
      (core.tradeStep trade).inventory.balance token = core.inventory.balance token := by
  cases hd : (core.inventory.recordOf trade).delta trade.status with
  | none =>
    obtain ⟨htrackers, hbalance⟩ := tradeStep_of_no_delta hd
    exact ⟨by rw [htrackers], hbalance token⟩
  | some side =>
    refine ⟨?_, ?_⟩
    · rw [tradeStep_exitTrackers hd]
      dsimp only
      split
      · split_ifs
        · exact AList.lookup_insert_ne hne
        · rfl
      · split_ifs
        · exact AList.lookup_erase_ne hne
        · rfl
    · rw [tradeStep_inventory, Inventory.applyUserTrade_balance, hd]
      exact if_neg hne

/-- The balance of the token of the record after a trade with a delta. -/
theorem tradeStep_balance {side : OrderSide}
    (hd : (core.inventory.recordOf trade).delta trade.status = some side) :
    (core.tradeStep trade).inventory.balance (core.inventory.recordOf trade).token =
      changedBalance (core.inventory.balance (core.inventory.recordOf trade).token)
        (core.inventory.recordOf trade).sizeAtoms side := by
  rw [tradeStep_inventory, Inventory.applyUserTrade_balance, hd]
  exact if_pos rfl

/-- A change on the SELL side adds nothing that can be sold. -/
theorem le_balance_of_sell {b : Int} {size : SharesAtoms} (hs : 0 ≤ size.atoms)
    (h : 10000 ≤ changedBalance b size .sell) : 10000 ≤ b := by
  simp only [changedBalance, saturatingSub, saturate, i64_lo, i64_hi] at h
  omega

/-- The sizes of the records stay non-negative. -/
theorem Tracked.sizes_tradeStep (h : core.Tracked) (hsize : 0 ≤ trade.sizeAtoms.atoms) :
    0 ≤ (core.inventory.recordOf trade).sizeAtoms.atoms ∧
      ∀ id record, (core.tradeStep trade).inventory.trades.lookup id = some record →
        0 ≤ record.sizeAtoms.atoms := by
  have hrecord : 0 ≤ (core.inventory.recordOf trade).sizeAtoms.atoms := by
    rw [Inventory.recordOf]
    cases hl : core.inventory.trades.lookup trade.tradeId with
    | none => exact hsize
    | some record => exact h.sizes _ _ hl
  refine ⟨hrecord, fun id record hl => ?_⟩
  rw [tradeStep_inventory, Inventory.applyUserTrade_trades] at hl
  by_cases hid : id = trade.tradeId
  · rw [hid, AList.lookup_insert] at hl
    cases hl
    exact hrecord
  · rw [AList.lookup_insert_ne hid] at hl
    exact h.sizes id record hl

/-- A stranded position has no tracker. -/
theorem Strands.not_tracked (h : core.Strands trade) : ¬(core.tradeStep trade).Tracked := by
  obtain ⟨hstatus, hside, happlied, hfinal, hnone, hbalance⟩ := h
  intro h'
  have hd := TradeRecord.delta_reverse hstatus happlied hfinal
  have hsell : 1 ≤ ((core.tradeStep trade).inventory.sellable
      (core.inventory.recordOf trade).token).units := by
    rw [Inventory.one_le_sellable, tradeStep_balance hd, hside]
    exact hbalance
  have hsome := h'.tracked _ hsell
  rw [tradeStep_exitTrackers hd, hside] at hsome
  rw [tradeStep_inventory] at hsell
  dsimp only at hsome
  rw [if_neg (by omega), hnone] at hsome
  cases hsome

/-- The token of a trade that strands no position has its tracker after it. -/
theorem Tracked.tradeStep_self (h : core.Tracked) (hsize : 0 ≤ trade.sizeAtoms.atoms)
    (hns : ¬core.Strands trade)
    (hs : 1 ≤ ((core.tradeStep trade).inventory.sellable
      (core.inventory.recordOf trade).token).units) :
    ((core.tradeStep trade).exitTrackers.lookup (core.inventory.recordOf trade).token).isSome := by
  obtain ⟨hrecord, -⟩ := h.sizes_tradeStep hsize
  cases hd : (core.inventory.recordOf trade).delta trade.status with
  | none =>
    obtain ⟨htrackers, hbalance⟩ := tradeStep_of_no_delta hd
    rw [Inventory.one_le_sellable, hbalance, ← Inventory.one_le_sellable] at hs
    rw [htrackers]
    exact h.tracked _ hs
  | some side =>
    have hpos := hs
    rw [tradeStep_inventory] at hpos
    rw [Inventory.one_le_sellable, tradeStep_balance hd] at hs
    rw [tradeStep_exitTrackers hd]
    cases hside : (core.inventory.recordOf trade).side with
    | buy =>
      dsimp only
      split_ifs with hc
      · rw [AList.lookup_insert]
        rfl
      · -- the BUY is taken back
        rcases TradeRecord.delta_cases hd with ⟨hst, -⟩ | ⟨-, -, -, hrev⟩
        · exact absurd ⟨hst, by omega⟩ hc
        · rw [hrev, hside] at hs
          exact h.tracked _ (Inventory.one_le_sellable.2 (le_balance_of_sell hrecord hs))
    | sell =>
      dsimp only
      rw [if_neg (by omega)]
      rcases TradeRecord.delta_cases hd with ⟨-, hsame⟩ | ⟨hst, happlied, hfinal, hrev⟩
      · rw [hsame, hside] at hs
        exact h.tracked _ (Inventory.one_le_sellable.2 (le_balance_of_sell hrecord hs))
      · rw [hrev, hside] at hs
        by_contra hnone
        exact hns ⟨hst, hside, happlied, hfinal, by simpa using hnone, hs⟩

/-- A trade keeps every position tracked exactly when it does not strand one. -/
theorem tracked_tradeStep_iff (h : core.Tracked) (hsize : 0 ≤ trade.sizeAtoms.atoms) :
    (core.tradeStep trade).Tracked ↔ ¬core.Strands trade := by
  refine ⟨fun h' hstrands => hstrands.not_tracked h', fun hns => ⟨fun token hs => ?_, ?_⟩⟩
  · rcases eq_or_ne token (core.inventory.recordOf trade).token with rfl | hne
    · exact h.tradeStep_self hsize hns hs
    · obtain ⟨hlookup, hbalance⟩ := tradeStep_ne hne
      rw [Inventory.one_le_sellable, hbalance, ← Inventory.one_le_sellable] at hs
      rw [hlookup]
      exact h.tracked token hs
  · exact (h.sizes_tradeStep hsize).2

/-! ## Runs -/

variable {core' : RuntimeCore F}

/-- Other trackers for the same inventory, none of them lost by a position. -/
theorem Tracked.of_judged (h : core.Tracked) (hj : ExitsJudged core core') : core'.Tracked := by
  obtain ⟨⟨trackers, rfl⟩, hkept⟩ := hj
  exact ⟨fun token hs => hkept token hs (h.tracked token hs), h.sizes⟩

/-- Dropping markets drops the balances with the trackers. -/
theorem Tracked.releaseMarketScope (h : core.Tracked) (active : List TokenId) :
    (core.releaseMarketScope active).Tracked := by
  refine ⟨fun token hs => ?_, h.sizes⟩
  have hs' : 10000 ≤ (core.inventory.releaseMarketScope active).balance token :=
    Inventory.one_le_sellable.1 hs
  rw [Inventory.releaseMarketScope_balance] at hs'
  split_ifs at hs' with hmem
  · have hsome := h.tracked token (Inventory.one_le_sellable.2 hs')
    obtain ⟨tracker, ht⟩ := Option.isSome_iff_exists.1 hsome
    simp [RuntimeCore.releaseMarketScope, ht, hmem]
  · omega

/-- An inventory with the same balances and records. -/
theorem Tracked.of_ledger {inv : Inventory} (h : core.Tracked)
    (howned : inv.ownedByToken = core.inventory.ownedByToken)
    (htrades : inv.trades = core.inventory.trades) :
    ({ core with inventory := inv } : RuntimeCore F).Tracked := by
  refine ⟨fun token hs => h.tracked token ?_, fun id record hl => h.sizes id record ?_⟩
  · rw [Inventory.one_le_sellable, Inventory.balance, howned] at hs
    exact Inventory.one_le_sellable.2 hs
  · rwa [htrades] at hl

variable [F64 F] {pl : Platform} {op : Op F}

/-- One operation that strands no position. -/
theorem Tracked.step (h : core.Tracked) (hk : KeepsTrackers pl core op)
    (hstep : core.step pl op = .ok core') : core'.Tracked := by
  cases op with
  | applyMarketRaw raw tsUs =>
    obtain ⟨⟨c, r⟩, hc, hstep⟩ := Except.ok_bind_inv hstep
    cases hstep
    obtain ⟨state, rfl⟩ := applyMarketRaw_eq hc
    exact ⟨h.tracked, h.sizes⟩
  | applyUserRawWithStates raw tsUs =>
    obtain ⟨⟨c, r⟩, hc, hstep⟩ := Except.ok_bind_inv hstep
    cases hstep
    rw [applyUserRawWithStates_run hc]
    refine Machine.run_invariant (fun c trade ih hok => ?_) h
      (Machine.Along.and hk (Machine.along_of_forall
        (fun trade hmem _ => frameTrades_sizes trade hmem) core))
    exact (tracked_tradeStep_iff ih hok.2).2 hok.1
  | planExits now =>
    obtain ⟨⟨c, r⟩, hc, hstep⟩ := Except.ok_bind_inv hstep
    cases hstep
    exact h.of_judged (planExits_judged hc)
  | releaseMarketScope active =>
    cases hstep
    exact h.releaseMarketScope active
  | rehash pending =>
    cases hstep
    exact h.of_ledger (Inventory.step_owned_of_not_trade rfl fun _ he => by cases he)
      (Inventory.step_trades_of_not_trade rfl)
  | _ =>
    cases hstep
    exact ⟨h.tracked, h.sizes⟩

/-- A new core owns nothing. -/
theorem Tracked.new {config : Config F} (h : RuntimeCore.new config = .ok core) : core.Tracked := by
  obtain ⟨signalConfig, -, h⟩ := Except.ok_bind_inv h
  cases h
  refine ⟨fun token hs => ?_, fun id record hl => by cases hl⟩
  have hzero : (0 : Int) ≥ 10000 := Inventory.one_le_sellable.1 hs
  omega

/-- In every run whose user frames strand no position, whatever can be sold has a tracker. -/
theorem sellable_tracked (pl : Platform) (config : Config F) (core₀ core : RuntimeCore F)
    (ops : List (Op F)) (hnew : RuntimeCore.new config = .ok core₀)
    (hok : Machine.AlongM (RuntimeCore.step pl) (KeepsTrackers pl) core₀ ops)
    (hrun : Machine.runM (RuntimeCore.step pl) core₀ ops = .ok core) (token : TokenId)
    (hs : 1 ≤ (core.inventory.sellable token).units) :
    ∃ tracker, core.exitTrackers.lookup token = some tracker := by
  have htracked : core.Tracked :=
    Machine.runM_invariant (fun _ _ _ ih hk hstep => ih.step hk hstep) (.new hnew) hok hrun
  exact Option.isSome_iff_exists.1 (htracked.tracked token hs)

end

/-- A trade event on five shares of `up`, as the user channel sends it. -/
def upFrame (id side status : String) : Json.Value :=
  .object [("event_type", .string "trade"), ("id", .string id), ("asset_id", .string "up"),
    ("side", .string side), ("size", .string "5"), ("price", .string "0.50"),
    ("status", .string status)]

/-- A BUY, a SELL of all of it, and the SELL taken back. -/
def upFrames : List Json.Value :=
  [upFrame "t1" "BUY" "MATCHED", upFrame "t2" "SELL" "MATCHED", upFrame "t2" "SELL" "FAILED"]

/-- The BUY alone, then a round of the exit loop. -/
def buyOps : List (Op Rat) :=
  [.setMarket upDownMarket, .applyUserRawWithStates (upFrame "t1" "BUY" "MATCHED").toBytes 0,
    .planExits 1]

/-- The position has its tracker. -/
theorem sellable_tracked_example :
    ∃ core₀ core, RuntimeCore.new Config.runtimeEnvShape = .ok core₀ ∧
      Machine.runM (step (.reading upFrames)) core₀ buyOps = .ok core ∧
      1 ≤ (core.inventory.sellable ⟨"up"⟩).units ∧
      ∃ tracker, core.exitTrackers.lookup ⟨"up"⟩ = some tracker := by
  have h : (RuntimeCore.new Config.runtimeEnvShape).Succeeds fun core₀ =>
      Machine.AlongM (step (.reading upFrames)) (KeepsTrackers (.reading upFrames)) core₀ buyOps ∧
      (Machine.runM (step (.reading upFrames)) core₀ buyOps).Succeeds fun core =>
        1 ≤ (core.inventory.sellable ⟨"up"⟩).units := by
    simp only [Platform.reading_eq, buyOps, Json.Value.toBytes_eq]
    decide +kernel
  obtain ⟨core₀, hnew, hok, hrun⟩ := h.exists
  obtain ⟨core, hrun, hs⟩ := hrun.exists
  exact ⟨core₀, core, hnew, hrun, hs, sellable_tracked _ _ core₀ core _ hnew hok hrun _ hs⟩

/-- The SELL clears the position and its tracker, and its FAILED event brings back the position
only. -/
theorem position_stranded :
    ¬ ∀ (pl : Platform) (config : Config Rat) (core₀ core : RuntimeCore Rat) (ops : List (Op Rat)),
      RuntimeCore.new config = .ok core₀ → Machine.runM (step pl) core₀ ops = .ok core →
        ∀ token, 1 ≤ (core.inventory.sellable token).units →
          ∃ tracker, core.exitTrackers.lookup token = some tracker := by
  intro h
  have hrun : (RuntimeCore.new Config.runtimeEnvShape).Succeeds fun core₀ =>
      (Machine.runM (step (.reading upFrames)) core₀ [.setMarket upDownMarket,
        .applyUserRawWithStates (upFrame "t1" "BUY" "MATCHED").toBytes 0,
        .applyUserRawWithStates (upFrame "t2" "SELL" "MATCHED").toBytes 1,
        .applyUserRawWithStates (upFrame "t2" "SELL" "FAILED").toBytes 2]).Succeeds fun core =>
          1 ≤ (core.inventory.sellable ⟨"up"⟩).units ∧
            core.exitTrackers.lookup ⟨"up"⟩ = none := by
    simp only [Platform.reading_eq, Json.Value.toBytes_eq]
    decide +kernel
  obtain ⟨core₀, hnew, hrun⟩ := hrun.exists
  obtain ⟨core, hrun, hs, hnone⟩ := hrun.exists
  obtain ⟨tracker, ht⟩ := h _ _ _ _ _ hnew hrun _ hs
  rw [hnone] at ht
  cases ht

end RuntimeCore

end Polyrust
