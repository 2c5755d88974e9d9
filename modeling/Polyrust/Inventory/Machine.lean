import Polyrust.Lib.Run
import Polyrust.Submit

/-!
# The inventory as a state machine

The operations the tasks of the runtime perform on the inventory, as the labels of one machine, and
what each operation does to the three parts of the state: the balances, the trade records and the
pending submits. A trade event changes the balance of one token, by the delta of its record
(`applyUserTrade_balance`), and the pending submit it matches (`applyUserTrade_pending_some`).

`rehash` is not an operation of the code: it is the iteration order of the pending map changing
between two operations.
-/

namespace Polyrust

namespace Inventory

/-- The operations on the inventory. -/
inductive Op where
  | setUserWssTrusted (trusted : Bool)
  | claimEntry (token : TokenId) (side : OrderSide) (sizeAtoms : SharesAtoms) (nowTsUs : Int)
  | markSubmitAccepted (id : SubmitId) (orderId : OrderId) (nowTsUs : Int)
  | markSubmitUnknown (id : SubmitId) (nowTsUs : Int)
  | releaseClaim (id : SubmitId)
  | expireUnknowns (olderThanTsUs : Int)
  | expirePending (olderThanTsUs : Int)
  | applyUserTrade (trade : UserTrade)
  | releaseMarketScope (activeTokens : List TokenId)
  | recordBuySubmitOutcome (id : SubmitId) (outcome : SubmitOutcome) (nowTsUs : Int)
  | expireStaleEntryClaims (nowTsUs : Int)
  | rehash (pending : HashMap SubmitId PendingSubmit)

/-- The inventory after an operation. -/
def step (inv : Inventory) : Op → Inventory
  | .setUserWssTrusted trusted => inv.setUserWssTrusted trusted
  | .claimEntry token side size now => (inv.claimEntry token side size now).1
  | .markSubmitAccepted id orderId now => inv.markSubmitAccepted id orderId now
  | .markSubmitUnknown id now => inv.markSubmitUnknown id now
  | .releaseClaim id => inv.releaseClaim id
  | .expireUnknowns cutoff => inv.expireUnknowns cutoff
  | .expirePending cutoff => inv.expirePending cutoff
  | .applyUserTrade trade => (inv.applyUserTrade trade).1
  | .releaseMarketScope active => inv.releaseMarketScope active
  | .recordBuySubmitOutcome id outcome now => Polyrust.recordBuySubmitOutcome inv id outcome now
  | .expireStaleEntryClaims now => Polyrust.expireStaleEntryClaims inv now
  | .rehash pending =>
    if inv.pending.Reordered pending then { inv with pending := pending } else inv

/-- The inventory after the operations `ops`, performed in order from the empty one. -/
abbrev runOps (ops : List Op) : Inventory := Machine.run step new ops

/-- A trade event on the token `up`, for the runs on fixed inputs. -/
def upTrade (id : String) (taker : Option String) (side : OrderSide) (size : Int)
    (status : TradeStatus) : UserTrade :=
  ⟨⟨id⟩, ⟨"up"⟩, taker.map OrderId.mk, side, ⟨size⟩, ⟨5000⟩, status, 0⟩

end Inventory

/-! ## The ledger side of a trade event -/

/-- The side of the balance change an event of this status makes, if it makes one. -/
def TradeRecord.delta (r : TradeRecord) (status : TradeStatus) : Option OrderSide :=
  if (status = .matched ∨ status = .confirmed) ∧ r.applied = false then some r.side
  else if status = .failed ∧ r.applied = true ∧ r.finalized = false then some r.side.reverse
  else none

/-- The record after an event of this status. -/
def TradeRecord.after (r : TradeRecord) (status : TradeStatus) : TradeRecord :=
  { r with
    applied := r.applied || status == .matched || status == .confirmed
    finalized := r.finalized || status.terminal }

/-- The balance after a change. -/
def changedBalance (entry : Int) (size : SharesAtoms) : OrderSide → Int
  | .buy => IntWidth.i64.saturatingAdd entry size.atoms
  | .sell => max (IntWidth.i64.saturatingSub entry size.atoms) 0

/-- A record has a delta where the event applies it, on its side, and where a FAILED event takes it
back, on the other side. -/
theorem TradeRecord.delta_cases {r : TradeRecord} {s : TradeStatus} {side : OrderSide}
    (h : r.delta s = some side) :
    ((s = .matched ∨ s = .confirmed) ∧ side = r.side) ∨
      (s = .failed ∧ r.applied = true ∧ r.finalized = false ∧ side = r.side.reverse) := by
  rw [delta] at h
  split_ifs at h with h1 h2
  · exact .inl ⟨h1.1, (Option.some.inj h).symm⟩
  · exact .inr ⟨h2.1, h2.2.1, h2.2.2, (Option.some.inj h).symm⟩

namespace Inventory

section
variable {inv : Inventory}

/-- The balance of the token is changed. -/
@[simp] theorem lookup_applyInventoryDelta_self (owned : HashMap TokenId Int) (token : TokenId)
    (side : OrderSide) (size : SharesAtoms) :
    (applyInventoryDelta owned token side size).lookup token =
      some (changedBalance ((owned.lookup token).getD 0) size side) := by
  cases side <;> simp [applyInventoryDelta, changedBalance]

/-- The balances of the others are not. -/
theorem lookup_applyInventoryDelta_ne {token t : TokenId} (h : t ≠ token)
    (owned : HashMap TokenId Int) (side : OrderSide) (size : SharesAtoms) :
    (applyInventoryDelta owned token side size).lookup t = owned.lookup t := by
  cases side <;> simp [applyInventoryDelta, AList.lookup_insert_ne h]

/-- The balances after a trade event: one change, on the side of the record's delta. -/
theorem applyUserTrade_owned (inv : Inventory) (trade : UserTrade) :
    (inv.applyUserTrade trade).1.ownedByToken =
      match (inv.recordOf trade).delta trade.status with
      | some side =>
        applyInventoryDelta inv.ownedByToken (inv.recordOf trade).token side
          (inv.recordOf trade).sizeAtoms
      | none => inv.ownedByToken := by
  simp only [applyUserTrade]
  generalize inv.recordOf trade = r
  obtain ⟨token, side, size, applied, finalized⟩ := r
  cases trade.status <;> cases side <;> cases applied <;> cases finalized <;> rfl

/-- The record of a trade id after an event. -/
theorem applyUserTrade_trades (inv : Inventory) (trade : UserTrade) :
    (inv.applyUserTrade trade).1.trades =
      inv.trades.insert trade.tradeId ((inv.recordOf trade).after trade.status) := by
  simp only [applyUserTrade]
  generalize inv.recordOf trade = r
  obtain ⟨token, side, size, applied, finalized⟩ := r
  cases trade.status <;> cases side <;> cases applied <;> cases finalized <;> rfl

/-- An event reports a changed inventory exactly when its record has a delta. -/
theorem applyUserTrade_inventoryChanged (inv : Inventory) (trade : UserTrade) :
    (inv.applyUserTrade trade).2.inventoryChanged =
      ((inv.recordOf trade).delta trade.status).isSome := by
  simp only [applyUserTrade]
  generalize inv.recordOf trade = r
  obtain ⟨token, side, size, applied, finalized⟩ := r
  cases trade.status <;> cases side <;> cases applied <;> cases finalized <;> rfl

/-- The token, side and size an event reports are those of its record. -/
theorem applyUserTrade_state (inv : Inventory) (trade : UserTrade) :
    (inv.applyUserTrade trade).2.token = (inv.recordOf trade).token ∧
      (inv.applyUserTrade trade).2.side = (inv.recordOf trade).side ∧
      (inv.applyUserTrade trade).2.status = trade.status := by
  simp only [applyUserTrade]
  generalize inv.recordOf trade = r
  refine ⟨?_, ?_, trivial⟩
  · split_ifs <;> rfl
  · split_ifs <;> rfl

/-- The balance of a token after a trade event. -/
theorem applyUserTrade_balance (inv : Inventory) (trade : UserTrade) (t : TokenId) :
    (inv.applyUserTrade trade).1.balance t =
      match (inv.recordOf trade).delta trade.status with
      | some side =>
        if t = (inv.recordOf trade).token then
          changedBalance (inv.balance t) (inv.recordOf trade).sizeAtoms side
        else inv.balance t
      | none => inv.balance t := by
  simp only [balance, applyUserTrade_owned]
  cases (inv.recordOf trade).delta trade.status with
  | none => rfl
  | some side =>
    dsimp only
    split
    · next ht => subst ht; simp
    · next ht => rw [lookup_applyInventoryDelta_ne ht]

/-- The record of a trade id that has one. -/
theorem recordOf_of_lookup {trade : UserTrade} {r : TradeRecord}
    (h : inv.trades.lookup trade.tradeId = some r) : inv.recordOf trade = r := by
  simp [recordOf, h]

/-! ## What can be sold -/

/-- Something can be sold from a hundredth of a share on. -/
theorem one_le_sellable {token : TokenId} :
    1 ≤ (inv.sellable token).units ↔ 10000 ≤ inv.balance token := by
  simp only [sellable]
  omega

/-- A token without a position has nothing to sell. -/
theorem sellable_of_position_none {token : TokenId}
    (h : inv.position token = none) : (inv.sellable token).units ≤ 0 := by
  by_contra hs
  simp only [sellable] at hs
  rw [position, if_neg] at h
  · cases h
  · simp only [ownedAtoms]
    omega

/-- A position shows what can be sold. -/
theorem sellable_of_position {token : TokenId} {position : PositionView}
    (h : inv.position token = some position) : position.sellable = inv.sellable token := by
  simp only [Inventory.position] at h
  split at h
  · cases h
  · cases h
    rfl

/-! ## The pending side of a trade event -/

/-- The submit a trade is matched to: the first one that carries its order id, else the first one on
its token and side. -/
theorem matchPendingSubmit_fst (pending : HashMap SubmitId PendingSubmit) (trade : UserTrade) :
    (matchPendingSubmit pending trade).1 =
      (trade.takerOrderId.bind fun oid => pending.findKey? fun _ p => p.carries oid).or
        (pending.findKey? fun _ p => p.onLegOf trade) := by
  unfold matchPendingSubmit
  dsimp only
  split <;> rfl

/-- The submit that is matched is accepted, and no other. -/
theorem matchPendingSubmit_snd (pending : HashMap SubmitId PendingSubmit) (trade : UserTrade) :
    (matchPendingSubmit pending trade).2 =
      match (matchPendingSubmit pending trade).1 with
      | some i => pending.modify i fun p => p.accept trade
      | none => pending := by
  rw [matchPendingSubmit_fst]
  unfold matchPendingSubmit
  dsimp only
  split <;> next h => rw [h]

/-- The submit a trade is matched to is pending, and it carries the trade's order id or is on the
trade's token and side. -/
theorem matchPendingSubmit_some {pending : HashMap SubmitId PendingSubmit} {trade : UserTrade}
    {id : SubmitId} (h : (matchPendingSubmit pending trade).1 = some id) :
    ∃ p, pending.lookup id = some p ∧
      ((∃ oid, trade.takerOrderId = some oid ∧ p.carries oid = true) ∨ p.onLegOf trade = true) := by
  rw [matchPendingSubmit_fst, Option.or_eq_some_iff] at h
  rcases h with h | ⟨-, h⟩
  · obtain ⟨oid, ho, hf⟩ := Option.bind_eq_some_iff.1 h
    obtain ⟨p, hp, hc⟩ := HashMap.findKey?_some hf
    exact ⟨p, hp, .inl ⟨oid, ho, hc⟩⟩
  · obtain ⟨p, hp, hl⟩ := HashMap.findKey?_some h
    exact ⟨p, hp, .inr hl⟩

/-- A trade reports the submit that it is matched to. -/
theorem applyUserTrade_matchedSubmit (inv : Inventory) (trade : UserTrade) :
    (inv.applyUserTrade trade).2.matchedSubmit = (matchPendingSubmit inv.pending trade).1 := rfl

/-- A trade event that matches no submit leaves the pending submits alone. -/
theorem applyUserTrade_pending_none {trade : UserTrade}
    (h : (matchPendingSubmit inv.pending trade).1 = none) :
    (inv.applyUserTrade trade).1.pending = inv.pending := by
  have hs := matchPendingSubmit_snd inv.pending trade
  simp only [applyUserTrade]
  simp only [h] at hs ⊢
  exact hs

/-- A trade event that matches `id` accepts it, and then removes it on a terminal status. -/
theorem applyUserTrade_pending_some {trade : UserTrade} {id : SubmitId}
    (h : (matchPendingSubmit inv.pending trade).1 = some id) :
    (inv.applyUserTrade trade).1.pending =
      if trade.status.terminal then (inv.pending.modify id fun p => p.accept trade).erase id
      else inv.pending.modify id fun p => p.accept trade := by
  have hs := matchPendingSubmit_snd inv.pending trade
  obtain ⟨p, hp, -⟩ := matchPendingSubmit_some h
  have hmem : id ∈ inv.pending.modify id fun p => p.accept trade := by
    rw [← AList.lookup_isSome, HashMap.lookup_modify_self, hp]; rfl
  simp only [applyUserTrade]
  simp only [h] at hs ⊢
  simp only [hs, hmem, decide_true, Bool.and_true]

/-- A trade event changes or removes no other submit than the one it matches. -/
theorem applyUserTrade_pending_ne {trade : UserTrade} {id : SubmitId}
    (h : (matchPendingSubmit inv.pending trade).1 ≠ some id) :
    (inv.applyUserTrade trade).1.pending.lookup id = inv.pending.lookup id := by
  cases hm : (matchPendingSubmit inv.pending trade).1 with
  | none => rw [applyUserTrade_pending_none hm]
  | some id' =>
    have hne : id ≠ id' := fun he => h (by rw [hm, he])
    rw [applyUserTrade_pending_some hm]
    split
    · rw [AList.lookup_erase_ne hne, HashMap.lookup_modify_ne hne]
    · rw [HashMap.lookup_modify_ne hne]

/-- The submit a trade event matches, after the event. -/
theorem applyUserTrade_pending_self {trade : UserTrade} {id : SubmitId}
    (h : (matchPendingSubmit inv.pending trade).1 = some id) :
    (inv.applyUserTrade trade).1.pending.lookup id =
      if trade.status.terminal then none
      else (inv.pending.lookup id).map fun p => p.accept trade := by
  rw [applyUserTrade_pending_some h]
  split
  · exact AList.lookup_erase ..
  · exact HashMap.lookup_modify_self ..

end

end Inventory

end Polyrust
