import Mathlib.Algebra.BigOperators.Group.Finset.Basic
import Mathlib.Algebra.BigOperators.Group.Finset.Piecewise
import Polyrust.Inventory.History

/-!
# What the trade events of a run leave owned

The balances of a run are the contributions of its trade ids (`ownedAtoms_eq_counted`), as long as
no change of a balance saturates or stops at zero. What a trade id contributes is settled by its
events; which of them still moves the balance after a terminal one is `terminal_final_iff`, and when
a FAILED event takes back exactly what MATCHED gave is `failed_undoes_matched_iff`.
-/

namespace Polyrust

open IntWidth

/-! ## Conservation -/

namespace Inventory

/-- What the trade events of a run add up to, on one token. -/
def ledger (t : TokenId) (ops : List Op) : Int :=
  ∑ id ∈ tradeIds ops, netSize t (eventsOf id ops)

/-- The change of a balance neither saturates nor stops at zero. -/
def ExactChange (balance : Int) (size : SharesAtoms) : OrderSide → Prop
  | .buy => balance + size.atoms ≤ i64.hi
  | .sell => size.atoms ≤ balance

/-- The operation's change of a balance, if it makes one, is exact. -/
def ExactDelta (inv : Inventory) : Op → Prop
  | .applyUserTrade trade =>
    ∀ side ∈ (inv.recordOf trade).delta trade.status,
      ExactChange (inv.balance (inv.recordOf trade).token) (inv.recordOf trade).sizeAtoms side
  | _ => True

instance (balance : Int) (size : SharesAtoms) :
    ∀ side, Decidable (ExactChange balance size side)
  | .buy => inferInstanceAs (Decidable (_ ≤ _))
  | .sell => inferInstanceAs (Decidable (_ ≤ _))

instance (inv : Inventory) (op : Op) : Decidable (ExactDelta inv op) :=
  match op with
  | .applyUserTrade _ => inferInstanceAs (Decidable (∀ side ∈ _, ExactChange _ _ side))
  | .setUserWssTrusted _ | .claimEntry .. | .markSubmitAccepted .. | .markSubmitUnknown ..
  | .releaseClaim _ | .expireUnknowns _ | .expirePending _ | .releaseMarketScope _
  | .recordBuySubmitOutcome .. | .expireStaleEntryClaims _ | .rehash _ =>
    inferInstanceAs (Decidable True)

section
variable {ops : List Op}

/-- A change of a balance leaves a 64-bit integer. -/
theorem changedBalance_fits (b : Int) (size : SharesAtoms) (side : OrderSide) :
    i64.Fits (changedBalance b size side) := by
  cases side with
  | buy => exact saturate_fits _
  | sell =>
    obtain ⟨-, hhi⟩ := saturate_fits (w := i64) (b - size.atoms)
    exact ⟨le_trans (by decide) (le_max_right _ _), max_le hhi (by decide)⟩

/-- A balance does not fall below zero. -/
theorem changedBalance_nonneg {b : Int} {size : SharesAtoms} {side : OrderSide} (hb : 0 ≤ b)
    (hs : 0 ≤ size.atoms) : 0 ≤ changedBalance b size side := by
  cases side with
  | buy => exact le_trans (by decide) (saturate_mono (w := i64) (x := 0) (by omega))
  | sell => exact le_max_right _ _

/-- The balance after dropping markets: zero, or what it was. -/
theorem releaseMarketScope_balance (inv : Inventory) (active : List TokenId) (t : TokenId) :
    (inv.releaseMarketScope active).balance t = if t ∈ active then inv.balance t else 0 := by
  simp only [balance, releaseMarketScope, HashMap.lookup_retain]
  cases inv.ownedByToken.lookup t <;> by_cases ht : t ∈ active <;> simp [ht, Option.filter]

/-- Every balance is a 64-bit integer. -/
theorem balance_fits (ops : List Op) (t : TokenId) : i64.Fits ((runOps ops).balance t) := by
  have hzero : i64.Fits 0 := by decide
  refine Machine.run_invariant (I := fun inv => ∀ t, i64.Fits (inv.balance t)) ?_
    (fun _ => hzero) (Machine.along_true new ops) t
  intro inv op ih _ t
  cases htr : op.trade? with
  | some trade =>
    obtain rfl := Op.trade?_eq_some htr
    simp only [step]
    rw [applyUserTrade_balance]
    split
    · split_ifs
      · exact changedBalance_fits ..
      · exact ih t
    · exact ih t
  | none =>
    by_cases hrel : ∃ active, op = .releaseMarketScope active
    · obtain ⟨active, rfl⟩ := hrel
      simp only [step]
      rw [releaseMarketScope_balance]
      split_ifs
      · exact ih t
      · exact hzero
    · rw [balance, step_owned_of_not_trade htr fun active he => hrel ⟨active, he⟩]
      exact ih t

/-- An exact change adds its signed size. -/
theorem changedBalance_exact {b : Int} {size : SharesAtoms} {side : OrderSide} (hb : i64.Fits b)
    (h0 : 0 ≤ b) (hs : 0 ≤ size.atoms) (h : ExactChange b size side) :
    changedBalance b size side = b + side.signed size := by
  obtain ⟨-, hhi⟩ := hb
  have hfits : i64.Fits (b + side.signed size) := by
    cases side with
    | buy => exact ⟨by simp only [OrderSide.signed, i64_lo]; omega, h⟩
    | sell =>
      simp only [ExactChange] at h
      simp only [OrderSide.signed, Fits, i64_lo]
      omega
  cases side with
  | buy => exact saturate_of_fits hfits
  | sell =>
    have hsub : i64.saturatingSub b size.atoms = b - size.atoms := saturate_of_fits hfits
    simp only [ExactChange] at h
    simp only [changedBalance, hsub, OrderSide.signed]
    omega

/-- Sums over a set that gains one index: only the term at that index changes. -/
theorem sum_insert_change {ι : Type} [DecidableEq ι] {s : Finset ι} {f f' : ι → Int} {i : ι}
    (hne : ∀ j, j ≠ i → f' j = f j) (h0 : i ∉ s → f i = 0) :
    ∑ j ∈ insert i s, f' j = ∑ j ∈ s, f j + (f' i - f i) := by
  have hold : ∑ j ∈ s, f j = ∑ j ∈ insert i s, f j :=
    (Finset.sum_insert_of_eq_zero_if_notMem h0).symm
  have hdiff : ∑ j ∈ insert i s, (f' j - f j) = f' i - f i :=
    Finset.sum_eq_single_of_mem i (Finset.mem_insert_self i s) fun j _ hj => by
      rw [hne j hj, sub_self]
  rw [hold, ← hdiff, Finset.sum_sub_distrib]
  omega

/-- What is no trade adds none. -/
theorem tradeIds_concat_of_not_trade {op : Op} (h : op.trade? = none) :
    tradeIds (ops ++ [op]) = tradeIds ops := by
  simp [tradeIds, tradeEvents_concat, h]

/-- A trade is known from then on. -/
theorem tradeIds_concat_trade (trade : UserTrade) :
    tradeIds (ops ++ [.applyUserTrade trade]) = insert trade.tradeId (tradeIds ops) := by
  ext id
  simp [tradeIds, tradeEvents_concat, Op.trade?, eq_comm]

/-- What is no trade is no entry of the ledger. -/
theorem ledger_concat_of_not_trade (t : TokenId) {op : Op} (h : op.trade? = none) :
    ledger t (ops ++ [op]) = ledger t ops := by
  rw [ledger, tradeIds_concat_of_not_trade h]
  exact Finset.sum_congr rfl fun id _ => by rw [eventsOf_concat_of_not_trade id ops h]

/-- A trade event moves the ledger by the change of its id's contribution. -/
theorem ledger_concat_trade (ops : List Op) (t : TokenId) (trade : UserTrade) :
    ledger t (ops ++ [.applyUserTrade trade]) =
      ledger t ops + (netSize t (eventsOf trade.tradeId ops ++ [trade]) -
        netSize t (eventsOf trade.tradeId ops)) := by
  rw [ledger, tradeIds_concat_trade, ← eventsOf_concat_self]
  refine sum_insert_change (fun j hj => by rw [eventsOf_concat_ne hj]) fun hmem => ?_
  rw [mem_tradeIds, not_not] at hmem
  rw [hmem, netSize_nil]

/-- The size of a record is that of a trade event. -/
theorem recordOf_size_nonneg {trade : UserTrade}
    (h : ∀ e ∈ tradeEvents (ops ++ [.applyUserTrade trade]), 0 ≤ e.sizeAtoms.atoms) :
    0 ≤ ((runOps ops).recordOf trade).sizeAtoms.atoms := by
  have htrade : trade ∈ tradeEvents (ops ++ [.applyUserTrade trade]) := by
    simp [tradeEvents_concat, Op.trade?]
  rw [recordOf_runOps]
  cases hes : eventsOf trade.tradeId ops with
  | nil => exact h trade htrade
  | cons e es =>
    have he : e ∈ eventsOf trade.tradeId ops := by rw [hes]; exact List.mem_cons_self ..
    refine h e ?_
    rw [tradeEvents_concat]
    exact List.mem_append_left _ (List.mem_of_mem_filter he)

/-- The balances are the ledger, as long as every change of a balance is exact. -/
theorem runOps_balance (hscope : ∀ active, .releaseMarketScope active ∉ ops)
    (hsize : ∀ e ∈ tradeEvents ops, 0 ≤ e.sizeAtoms.atoms)
    (hexact : Machine.Along step ExactDelta new ops) (t : TokenId) :
    (runOps ops).balance t = ledger t ops ∧ 0 ≤ (runOps ops).balance t := by
  induction ops using List.reverseRecOn generalizing t with
  | nil => exact ⟨rfl, le_refl _⟩
  | append_singleton ops op ih =>
    rw [Machine.along_append] at hexact
    obtain ⟨hexact, hop, -⟩ := hexact
    have hscope' : ∀ active, Op.releaseMarketScope active ∉ ops := fun active hm =>
      hscope active (List.mem_append_left _ hm)
    have hsize' : ∀ e ∈ tradeEvents ops, 0 ≤ e.sizeAtoms.atoms := fun e he =>
      hsize e (by rw [tradeEvents_concat]; exact List.mem_append_left _ he)
    have ih := ih hscope' hsize' hexact
    rw [runOps, Machine.run_concat]
    cases htr : op.trade? with
    | none =>
      have hrel : ∀ active, op ≠ .releaseMarketScope active := fun active he =>
        hscope active (by simp [he])
      rw [ledger_concat_of_not_trade t htr, balance, step_owned_of_not_trade htr hrel]
      exact ih t
    | some trade =>
      obtain rfl := Op.trade?_eq_some htr
      obtain ⟨hbal, h0⟩ := ih t
      have hledger := ledger_concat_trade ops t trade
      rw [netSize_concat t _ trade (recordOf_runOps ops trade).symm] at hledger
      simp only [step]
      rw [applyUserTrade_balance, hledger]
      cases hd : ((runOps ops).recordOf trade).delta trade.status with
      | none => exact ⟨by simp [hbal], h0⟩
      | some side =>
        by_cases ht : t = ((runOps ops).recordOf trade).token
        · have hch := hop side hd
          rw [← ht] at hch
          have heq := changedBalance_exact (balance_fits ops t) h0 (recordOf_size_nonneg hsize) hch
          dsimp only
          rw [if_pos ht, if_pos ht]
          exact ⟨by rw [heq, hbal]; omega, changedBalance_nonneg h0 (recordOf_size_nonneg hsize)⟩
        · dsimp only
          rw [if_neg ht, if_neg ht]
          exact ⟨by rw [hbal]; omega, h0⟩

/-- The operation is a trade event. -/
def Op.isTrade (op : Op) : Bool := op.trade?.isSome

/-- Balances and records of a run are those of its trade events alone. -/
theorem runOps_trades_only (hscope : ∀ active, .releaseMarketScope active ∉ ops) :
    (runOps ops).ownedByToken = (runOps (ops.filter Op.isTrade)).ownedByToken ∧
      (runOps ops).trades = (runOps (ops.filter Op.isTrade)).trades := by
  induction ops using List.reverseRecOn with
  | nil => exact ⟨rfl, rfl⟩
  | append_singleton ops op ih =>
    obtain ⟨howned, htrades⟩ := ih fun active hm => hscope active (List.mem_append_left _ hm)
    rw [List.filter_append, runOps, Machine.run_concat]
    cases htr : op.trade? with
    | none =>
      have hrel : ∀ active, op ≠ .releaseMarketScope active := fun active he =>
        hscope active (by simp [he])
      rw [step_owned_of_not_trade htr hrel, step_trades_of_not_trade htr]
      simpa [Op.isTrade, htr] using ⟨howned, htrades⟩
    | some trade =>
      obtain rfl := Op.trade?_eq_some htr
      have hrec : (runOps ops).recordOf trade =
          (runOps (ops.filter Op.isTrade)).recordOf trade := by
        rw [recordOf, htrades]
        rfl
      have hf : [Op.applyUserTrade trade].filter Op.isTrade = [.applyUserTrade trade] := rfl
      rw [hf, runOps, Machine.run_concat]
      simp only [step, applyUserTrade_owned, applyUserTrade_trades]
      rw [hrec, howned, htrades]
      exact ⟨rfl, rfl⟩

/-- Inventory conservation: the atoms owned of a token are the sizes of the counted BUY trades minus
those of the counted SELL trades, and no operation but the trade events has a part in it. -/
theorem ownedAtoms_eq_counted (ops : List Op) (hscope : ∀ active, .releaseMarketScope active ∉ ops)
    (hsize : ∀ e ∈ tradeEvents ops, 0 ≤ e.sizeAtoms.atoms)
    (hexact : Machine.Along step ExactDelta new ops) (t : TokenId) :
    ((runOps ops).ownedAtoms t).atoms =
        ∑ id ∈ tradeIds ops, countedSize t .buy (eventsOf id ops) -
          ∑ id ∈ tradeIds ops, countedSize t .sell (eventsOf id ops) ∧
      (runOps ops).ownedAtoms t = (runOps (ops.filter Op.isTrade)).ownedAtoms t := by
  obtain ⟨hbal, h0⟩ := runOps_balance hscope hsize hexact t
  refine ⟨?_, ?_⟩
  · rw [← Finset.sum_sub_distrib]
    calc ((runOps ops).ownedAtoms t).atoms = (runOps ops).balance t := max_eq_left h0
      _ = ∑ id ∈ tradeIds ops, netSize t (eventsOf id ops) := hbal
  · rw [ownedAtoms, ownedAtoms, balance, balance, (runOps_trades_only hscope).1]

/-- A BUY and a SELL trade of one token, the SELL taken back, with a claim between them. -/
theorem ownedAtoms_eq_counted_example :
    let ops : List Op :=
      [.applyUserTrade (upTrade "t1" none .buy 50000 .matched),
        .claimEntry ⟨"up"⟩ .buy ⟨50000⟩ 1,
        .applyUserTrade (upTrade "t2" none .sell 20000 .matched),
        .applyUserTrade (upTrade "t1" none .buy 50000 .confirmed),
        .applyUserTrade (upTrade "t2" none .sell 20000 .failed)]
    ((runOps ops).ownedAtoms ⟨"up"⟩).atoms =
      ∑ id ∈ tradeIds ops, countedSize ⟨"up"⟩ .buy (eventsOf id ops) -
        ∑ id ∈ tradeIds ops, countedSize ⟨"up"⟩ .sell (eventsOf id ops) :=
  (ownedAtoms_eq_counted _ (by simp) (by decide) (by decide) _).1

end

/-! ## Terminal events -/

/-- The flags of the record of a trade id that has events. -/
theorem recordOf_flags (ops : List Op) (trade : UserTrade)
    (hne : eventsOf trade.tradeId ops ≠ []) :
    ((runOps ops).recordOf trade).applied =
        ((eventsOf trade.tradeId ops).any fun e => e.status.applying) ∧
      ((runOps ops).recordOf trade).finalized =
        (eventsOf trade.tradeId ops).any fun e => e.status.terminal := by
  rw [recordOf_runOps]
  cases hes : eventsOf trade.tradeId ops with
  | nil => exact absurd hes hne
  | cons e es => exact ⟨rfl, rfl⟩

/-- After a terminal event of its trade id, an event changes the inventory exactly when it is the
first MATCHED or CONFIRMED one: a FAILED that came first does not stop it. -/
theorem terminal_final_iff (ops : List Op) (trade : UserTrade)
    (hterm : ∃ e ∈ eventsOf trade.tradeId ops, e.status.terminal = true) :
    ((∀ t, ((runOps ops).applyUserTrade trade).1.ownedAtoms t = (runOps ops).ownedAtoms t) ∧
        ((runOps ops).applyUserTrade trade).2.inventoryChanged = false) ↔
      trade.status.applying = false ∨
        ∃ e ∈ eventsOf trade.tradeId ops, e.status.applying = true := by
  obtain ⟨x, hx, hxt⟩ := hterm
  obtain ⟨ha, hf⟩ := recordOf_flags ops trade (List.ne_nil_of_mem hx)
  have hfinal : ((runOps ops).recordOf trade).finalized = true := by
    rw [hf]
    exact List.any_eq_true.2 ⟨x, hx, hxt⟩
  rw [← List.any_eq_true (p := fun e : UserTrade => e.status.applying), ← ha,
    applyUserTrade_inventoryChanged]
  refine ⟨?_, ?_⟩
  · rintro ⟨-, hsame⟩
    by_contra hc
    obtain ⟨hs, hna⟩ := not_or.1 hc
    rw [TradeRecord.delta_apply (Bool.of_not_eq_false hs) (Bool.of_not_eq_true hna)] at hsame
    cases hsame
  · intro h
    have hd : ((runOps ops).recordOf trade).delta trade.status = none := by
      refine TradeRecord.delta_none (fun ⟨hs, hna⟩ => ?_) fun ⟨_, _, hopen⟩ => ?_
      · rcases h with h | h
        · rw [h] at hs; cases hs
        · rw [h] at hna; cases hna
      · rw [hfinal] at hopen; cases hopen
    refine ⟨fun t => ?_, by rw [hd]; rfl⟩
    rw [ownedAtoms, applyUserTrade_balance, hd]
    rfl

/-- CONFIRMED delivered twice. -/
theorem terminal_final_iff_example :
    let ops : List Op := [.applyUserTrade (upTrade "t1" none .buy 50000 .confirmed)]
    let again := upTrade "t1" none .buy 50000 .confirmed
    (∀ t, ((runOps ops).applyUserTrade again).1.ownedAtoms t = (runOps ops).ownedAtoms t) ∧
      ((runOps ops).applyUserTrade again).2.inventoryChanged = false :=
  (terminal_final_iff _ _ ⟨_, List.mem_singleton_self _, rfl⟩).2
    (.inr ⟨_, List.mem_singleton_self _, rfl⟩)

/-- FAILED followed by MATCHED: the trade id is final, and its size is owned. -/
theorem terminal_not_final :
    ¬ ∀ (ops : List Op) (trade : UserTrade),
      (∃ e ∈ eventsOf trade.tradeId ops, e.status.terminal = true) →
        (∀ t, ((runOps ops).applyUserTrade trade).1.ownedAtoms t = (runOps ops).ownedAtoms t) ∧
          ((runOps ops).applyUserTrade trade).2.inventoryChanged = false := by
  intro h
  have := (h [.applyUserTrade (upTrade "t1" none .buy 50000 .failed)]
    (upTrade "t1" none .buy 50000 .matched) (by decide)).2
  revert this
  decide

/-! ## A MATCHED event that fails -/

section
variable {b : Int} {size : SharesAtoms}

/-- No addition that a change and its reversal make exceeds the range of a balance. -/
def AdditionsFit (balance : Int) (size : SharesAtoms) : OrderSide → Prop
  | .buy => balance + size.atoms ≤ i64.hi
  | .sell => max (balance - size.atoms) 0 + size.atoms ≤ i64.hi

instance (balance : Int) (size : SharesAtoms) :
    ∀ side, Decidable (AdditionsFit balance size side)
  | .buy => inferInstanceAs (Decidable (_ ≤ _))
  | .sell => inferInstanceAs (Decidable (_ ≤ _))

/-- Taking back a bought size leaves what was owned. -/
theorem changedBalance_buy_sell (hb : i64.Fits b) (hs : 0 ≤ size.atoms)
    (hfit : b + size.atoms ≤ i64.hi) :
    max (changedBalance (changedBalance b size .buy) size .sell) 0 = max b 0 := by
  obtain ⟨hlo, hhi⟩ := hb
  have hadd : i64.saturatingAdd b size.atoms = b + size.atoms :=
    saturate_of_fits ⟨by omega, hfit⟩
  have hsub : i64.saturatingSub (b + size.atoms) size.atoms = b := by
    rw [saturatingSub, add_sub_cancel_right]
    exact saturate_of_fits ⟨hlo, hhi⟩
  simp only [changedBalance, hadd, hsub]
  omega

/-- Taking back a sold size gives back all of it, also what was not owned. -/
theorem changedBalance_sell_buy (hb : i64.Fits b) (hs : 0 ≤ size.atoms)
    (hfit : max (b - size.atoms) 0 + size.atoms ≤ i64.hi) :
    max (changedBalance (changedBalance b size .sell) size .buy) 0 =
      max (max b 0) size.atoms := by
  obtain ⟨hlo, hhi⟩ := hb
  have hsub : max (i64.saturatingSub b size.atoms) 0 = max (b - size.atoms) 0 := by
    simp only [saturatingSub, saturate, i64_lo, i64_hi] at *
    omega
  have hadd : i64.saturatingAdd (max (b - size.atoms) 0) size.atoms =
      max (b - size.atoms) 0 + size.atoms := by
    refine saturate_of_fits ⟨?_, hfit⟩
    rw [i64_lo]
    omega
  simp only [changedBalance, hsub, hadd]
  omega

/-- What is owned after a new trade id is MATCHED and then FAILED. -/
theorem ownedAtoms_matched_failed {inv : Inventory} {m f : UserTrade}
    (hm : m.status = .matched) (hf : f.status = .failed) (hid : f.tradeId = m.tradeId)
    (hnew : inv.trades.lookup m.tradeId = none) (t : TokenId) :
    (((inv.applyUserTrade m).1.applyUserTrade f).1.ownedAtoms t).atoms =
      if t = m.token then
        max (changedBalance (changedBalance (inv.balance t) m.sizeAtoms m.side) m.sizeAtoms
          m.side.reverse) 0
      else (inv.ownedAtoms t).atoms := by
  have hrm : inv.recordOf m = firstRecord m := by rw [recordOf, hnew]; rfl
  have hrf : (inv.applyUserTrade m).1.recordOf f = (firstRecord m).after .matched := by
    refine recordOf_of_lookup ?_
    rw [applyUserTrade_trades, hid, AList.lookup_insert, hrm, hm]
  have hdm : (firstRecord m).delta m.status = some m.side :=
    TradeRecord.delta_apply (by rw [hm]; rfl) rfl
  have hdf : ((firstRecord m).after .matched).delta f.status = some m.side.reverse :=
    TradeRecord.delta_reverse hf rfl rfl
  rw [ownedAtoms, applyUserTrade_balance, hrf, hdf, applyUserTrade_balance, hrm, hdm]
  by_cases ht : t = m.token
  · subst ht
    simp [firstRecord, TradeRecord.after]
  · simp [firstRecord, TradeRecord.after, ht, ownedAtoms]

/-- A FAILED event undoes the MATCHED event of a new trade id exactly when the trade is a BUY or
the sold size was owned: a SELL that stopped at zero comes back in full. -/
theorem failed_undoes_matched_iff (ops : List Op) (m f : UserTrade) (hm : m.status = .matched)
    (hf : f.status = .failed) (hid : f.tradeId = m.tradeId) (hnew : m.tradeId ∉ tradeIds ops)
    (hsize : 0 ≤ m.sizeAtoms.atoms)
    (hfit : AdditionsFit ((runOps ops).balance m.token) m.sizeAtoms m.side) :
    (∀ t, (((runOps ops).applyUserTrade m).1.applyUserTrade f).1.ownedAtoms t =
        (runOps ops).ownedAtoms t) ↔
      m.side = .buy ∨ m.sizeAtoms.atoms ≤ ((runOps ops).ownedAtoms m.token).atoms := by
  have hlookup : (runOps ops).trades.lookup m.tradeId = none := by
    rw [mem_tradeIds, not_not] at hnew
    rw [runOps_trades, hnew]
    rfl
  have hafter := ownedAtoms_matched_failed hm hf hid hlookup
  have hb := balance_fits ops m.token
  have hown : ∀ t, (((runOps ops).applyUserTrade m).1.applyUserTrade f).1.ownedAtoms t =
      (runOps ops).ownedAtoms t ↔
      ((((runOps ops).applyUserTrade m).1.applyUserTrade f).1.ownedAtoms t).atoms =
        ((runOps ops).ownedAtoms t).atoms := fun t => by
    cases h : (((runOps ops).applyUserTrade m).1.applyUserTrade f).1.ownedAtoms t
    cases h' : (runOps ops).ownedAtoms t
    simp
  cases hside : m.side with
  | buy =>
    rw [hside] at hfit
    refine ⟨fun _ => .inl rfl, fun _ t => ?_⟩
    rw [hown, hafter, hside]
    split_ifs with ht
    · subst ht
      exact changedBalance_buy_sell hb hsize hfit
    · rfl
  | sell =>
    rw [hside] at hfit
    have hself := hafter m.token
    rw [if_pos rfl, hside] at hself
    rw [show OrderSide.sell.reverse = .buy from rfl, changedBalance_sell_buy hb hsize hfit] at hself
    refine ⟨?_, ?_⟩
    · intro h
      have hm := congrArg SharesAtoms.atoms (h m.token)
      rw [hself] at hm
      refine .inr ?_
      simp only [ownedAtoms] at hm ⊢
      omega
    · rintro (h | h) t
      · cases h
      · rw [hown]
        by_cases ht : t = m.token
        · subst ht
          rw [hself]
          simp only [ownedAtoms] at h ⊢
          omega
        · rw [hafter, if_neg ht]

/-- A SELL of owned atoms that fails. -/
theorem failed_undoes_matched_iff_example :
    let ops : List Op := [.applyUserTrade (upTrade "t1" none .buy 50000 .matched)]
    let m := upTrade "t2" none .sell 20000 .matched
    let f := upTrade "t2" none .sell 20000 .failed
    ∀ t, (((runOps ops).applyUserTrade m).1.applyUserTrade f).1.ownedAtoms t =
      (runOps ops).ownedAtoms t :=
  (failed_undoes_matched_iff [.applyUserTrade (upTrade "t1" none .buy 50000 .matched)]
    (upTrade "t2" none .sell 20000 .matched) (upTrade "t2" none .sell 20000 .failed) rfl rfl rfl
    (by decide) (by decide) (by decide)).2 (.inr (by decide))

/-- A SELL of atoms that are not owned stops at zero, and its failure adds them. -/
theorem failed_not_undoes_matched :
    ¬ ∀ (ops : List Op) (m f : UserTrade), m.status = .matched → f.status = .failed →
      f.tradeId = m.tradeId → m.tradeId ∉ tradeIds ops → 0 ≤ m.sizeAtoms.atoms →
        AdditionsFit ((runOps ops).balance m.token) m.sizeAtoms m.side →
          ∀ t, (((runOps ops).applyUserTrade m).1.applyUserTrade f).1.ownedAtoms t =
            (runOps ops).ownedAtoms t := by
  intro h
  have := h [] (upTrade "t1" none .sell 20000 .matched) (upTrade "t1" none .sell 20000 .failed)
    rfl rfl rfl (by decide) (by decide) (by decide) ⟨"up"⟩
  revert this
  decide

end

end Inventory

end Polyrust
