import Polyrust.Lib.HashMap
import Polyrust.Text
import Polyrust.Types

/-!
# WSS-authoritative inventory and pending submits

The inventory (`inventory.rs`): the balances that user-WSS trades own, the record kept of every
trade id, and the pending BUY submits that HTTP outcomes and trades are matched to. The pending map
is a hash map, and `matchPendingSubmit` takes the first entry of an iteration over it, so the order
of its entries is part of the state (`HashMap`).
-/

namespace Polyrust

open IntWidth

/-- The life of a submit, from its claim to the HTTP outcome or to a matching trade. -/
inductive SubmitStatus where
  | pending
  | accepted
  | unknown
  | expiredUnknown
  deriving DecidableEq, Repr

/-- `SubmitStatus::blocks_entry`. -/
def SubmitStatus.blocksEntry : SubmitStatus → Bool
  | .pending | .accepted | .unknown => true
  | .expiredUnknown => false

/-- `SubmitStatus::matchable`. -/
def SubmitStatus.matchable : SubmitStatus → Bool
  | .pending | .accepted | .unknown | .expiredUnknown => true

/-- The id of a submit. -/
structure SubmitId where
  str : String
  deriving DecidableEq, Repr

/-- A BUY that was claimed and that no terminal event has ended. -/
structure PendingSubmit where
  id : SubmitId
  token : TokenId
  side : OrderSide
  sizeAtoms : SharesAtoms
  orderId : Option OrderId
  status : SubmitStatus
  createdTsUs : Int
  updatedTsUs : Int
  deriving DecidableEq, Repr

/-- The status of a trade at the venue. -/
inductive TradeStatus where
  | matched
  | mined
  | confirmed
  | failed
  | retrying
  | other
  deriving DecidableEq, Repr

/-- `TradeStatus::from_venue`. -/
def TradeStatus.fromVenue (s : String) : TradeStatus :=
  match String.ofList (Text.toAsciiUppercase (Text.trim s.toList)) with
  | "MATCHED" => .matched
  | "MINED" => .mined
  | "CONFIRMED" => .confirmed
  | "FAILED" => .failed
  | "RETRYING" => .retrying
  | _ => .other

/-- `TradeStatus::terminal`. -/
def TradeStatus.terminal : TradeStatus → Bool
  | .confirmed | .failed => true
  | _ => false

/-- A trade event of the user channel. -/
structure UserTrade where
  tradeId : TradeId
  token : TokenId
  takerOrderId : Option OrderId
  side : OrderSide
  sizeAtoms : SharesAtoms
  price : PriceTick
  status : TradeStatus
  tsUs : Int
  deriving DecidableEq, Repr

/-- What `applyUserTrade` reports of a trade after an event. -/
structure TradeState where
  tradeId : TradeId
  token : TokenId
  side : OrderSide
  sizeAtoms : SharesAtoms
  status : TradeStatus
  applied : Bool
  inventoryChanged : Bool
  finalized : Bool
  matchedSubmit : Option SubmitId
  deriving DecidableEq, Repr

/-- What the inventory keeps of a trade id. -/
structure TradeRecord where
  token : TokenId
  side : OrderSide
  sizeAtoms : SharesAtoms
  applied : Bool
  finalized : Bool
  deriving DecidableEq, Repr

/-- What is owned of a token, and what of it can be sold. -/
structure PositionView where
  ownedAtoms : SharesAtoms
  sellable : Shares2
  deriving DecidableEq, Repr

/-- The balances, the trades they come from, and the pending submits. -/
structure Inventory where
  userWssTrusted : Bool
  nextSubmitId : Nat
  ownedByToken : HashMap TokenId Int
  trades : HashMap TradeId TradeRecord
  pending : HashMap SubmitId PendingSubmit
  deriving DecidableEq

/-- The largest value of the submit counter, a 64-bit unsigned integer. -/
def MAX_SUBMIT_COUNTER : Nat := 18446744073709551615

/-- The id issued at the value `n` of the submit counter. -/
def submitId (n : Nat) : SubmitId := ⟨"s" ++ n.repr⟩

/-- The submit as a trade matched to it leaves it. -/
def PendingSubmit.accept (p : PendingSubmit) (trade : UserTrade) : PendingSubmit :=
  { p with
    status := .accepted
    orderId := if p.orderId.isNone then trade.takerOrderId else p.orderId
    updatedTsUs := trade.tsUs }

/-- The submit is known to the venue under this order id. -/
def PendingSubmit.carries (p : PendingSubmit) (oid : OrderId) : Bool :=
  p.orderId == some oid && p.status.matchable

/-- The submit is on the token and the side of the trade. -/
def PendingSubmit.onLegOf (p : PendingSubmit) (trade : UserTrade) : Bool :=
  p.status.matchable && p.token == trade.token && p.side == trade.side

/-- `Inventory::match_pending_submit`: the submit with the trade's order id, else the first one on
its token and side, in the iteration order of `pending`; the submit found becomes accepted. -/
def matchPendingSubmit (pending : HashMap SubmitId PendingSubmit) (trade : UserTrade) :
    Option SubmitId × HashMap SubmitId PendingSubmit :=
  let byOrder := trade.takerOrderId.bind fun oid => pending.findKey? fun _ p => p.carries oid
  let id := byOrder.or (pending.findKey? fun _ p => p.onLegOf trade)
  match id with
  | some i => (id, pending.modify i fun p => p.accept trade)
  | none => (id, pending)

/-- `apply_inventory_delta`: an addition saturates, a subtraction stops at zero. -/
def applyInventoryDelta (owned : HashMap TokenId Int) (token : TokenId) (side : OrderSide)
    (size : SharesAtoms) : HashMap TokenId Int :=
  let entry := (owned.lookup token).getD 0
  match side with
  | .buy => owned.insert token (i64.saturatingAdd entry size.atoms)
  | .sell => owned.insert token (max (i64.saturatingSub entry size.atoms) 0)

namespace Inventory

/-- `Inventory::new`. -/
def new : Inventory := ⟨false, 0, ∅, ∅, ∅⟩

/-- `Inventory::set_user_wss_trusted`. -/
def setUserWssTrusted (inv : Inventory) (trusted : Bool) : Inventory :=
  { inv with userWssTrusted := trusted }

/-- `Inventory::claim_entry`: a pending submit under the next id. -/
def claimEntry (inv : Inventory) (token : TokenId) (side : OrderSide) (sizeAtoms : SharesAtoms)
    (nowTsUs : Int) : Inventory × SubmitId :=
  let next := min (inv.nextSubmitId + 1) MAX_SUBMIT_COUNTER
  let id := submitId next
  let pending : PendingSubmit :=
    { id := id, token := token, side := side, sizeAtoms := sizeAtoms, orderId := none,
      status := .pending, createdTsUs := nowTsUs, updatedTsUs := nowTsUs }
  ({ inv with nextSubmitId := next, pending := inv.pending.insert id pending }, id)

/-- `Inventory::mark_submit_accepted`. -/
def markSubmitAccepted (inv : Inventory) (id : SubmitId) (orderId : OrderId) (nowTsUs : Int) :
    Inventory :=
  { inv with
    pending := inv.pending.modify id fun p =>
      { p with orderId := some orderId, status := .accepted, updatedTsUs := nowTsUs } }

/-- `Inventory::mark_submit_unknown`; it asks nothing of the status before. -/
def markSubmitUnknown (inv : Inventory) (id : SubmitId) (nowTsUs : Int) : Inventory :=
  { inv with
    pending := inv.pending.modify id fun p =>
      { p with status := .unknown, updatedTsUs := nowTsUs } }

/-- `Inventory::release_claim`. -/
def releaseClaim (inv : Inventory) (id : SubmitId) : Inventory :=
  { inv with pending := inv.pending.erase id }

/-- `Inventory::expire_unknowns`. -/
def expireUnknowns (inv : Inventory) (olderThanTsUs : Int) : Inventory :=
  { inv with
    pending := inv.pending.mapValues fun _ p =>
      if p.status = .unknown ∧ p.updatedTsUs ≤ olderThanTsUs then
        { p with status := .expiredUnknown }
      else p }

/-- `Inventory::expire_pending`. -/
def expirePending (inv : Inventory) (olderThanTsUs : Int) : Inventory :=
  { inv with
    pending := inv.pending.retain fun _ p =>
      !(p.status == .pending && decide (p.createdTsUs ≤ olderThanTsUs)) }

/-- The record of the trade's id, or the one its first event makes. -/
def recordOf (inv : Inventory) (trade : UserTrade) : TradeRecord :=
  (inv.trades.lookup trade.tradeId).getD
    { token := trade.token, side := trade.side, sizeAtoms := trade.sizeAtoms, applied := false,
      finalized := false }

/-- `Inventory::apply_user_trade`. -/
def applyUserTrade (inv : Inventory) (trade : UserTrade) : Inventory × TradeState :=
  let (matchedSubmit, pending) := matchPendingSubmit inv.pending trade
  -- a matched submit leaves the pending map on a terminal status only
  let pending : HashMap SubmitId PendingSubmit :=
    match matchedSubmit with
    | some id =>
      if trade.status.terminal && decide (id ∈ pending) then pending.erase id else pending
    | none => pending
  let record := inv.recordOf trade
  let inventoryApplying :=
    match record.side with
    | .buy => trade.status == .matched || trade.status == .confirmed
    | .sell => trade.status == .matched || trade.status == .confirmed
  let applying := inventoryApplying && !record.applied
  let owned :=
    if applying then
      applyInventoryDelta inv.ownedByToken record.token record.side record.sizeAtoms
    else inv.ownedByToken
  let record := if applying then { record with applied := true } else record
  -- a FAILED event after the apply point takes the change back
  let reversing := trade.status == .failed && record.applied && !record.finalized
  let owned :=
    if reversing then
      applyInventoryDelta owned record.token record.side.reverse record.sizeAtoms
    else owned
  let record := if trade.status.terminal then { record with finalized := true } else record
  ({ inv with
      ownedByToken := owned, trades := inv.trades.insert trade.tradeId record, pending := pending },
    { tradeId := trade.tradeId, token := record.token, side := record.side,
      sizeAtoms := record.sizeAtoms, status := trade.status, applied := record.applied,
      inventoryChanged := applying || reversing, finalized := record.finalized,
      matchedSubmit := matchedSubmit })

/-- The balance entry of a token, zero when there is none. -/
def balance (inv : Inventory) (token : TokenId) : Int := (inv.ownedByToken.lookup token).getD 0

/-- `Inventory::sellable`. -/
def sellable (inv : Inventory) (token : TokenId) : Shares2 := ⟨max (inv.balance token) 0 / 10000⟩

/-- `Inventory::owned_atoms`. -/
def ownedAtoms (inv : Inventory) (token : TokenId) : SharesAtoms := ⟨max (inv.balance token) 0⟩

/-- `Inventory::position`. -/
def position (inv : Inventory) (token : TokenId) : Option PositionView :=
  let owned := inv.ownedAtoms token
  if owned.atoms ≤ 0 then none
  else some { ownedAtoms := owned, sellable := inv.sellable token }

/-- `Inventory::has_entry_exposure_or_pending`: BUY is blocked while the user channel is not
trusted, while more than dust is owned, and while a pending submit of the token blocks entry. -/
def hasEntryExposureOrPending (inv : Inventory) (token : TokenId) : Bool :=
  if !inv.userWssTrusted then true
  else
    decide (10000 ≤ (inv.ownedAtoms token).atoms) ||
      inv.pending.anyValue fun p => p.token == token && p.status.blocksEntry

/-- `Inventory::release_market_scope`. -/
def releaseMarketScope (inv : Inventory) (activeTokens : List TokenId) : Inventory :=
  { inv with
    ownedByToken := inv.ownedByToken.retain fun token _ => decide (token ∈ activeTokens)
    pending := inv.pending.retain fun _ p => decide (p.token ∈ activeTokens) }

end Inventory

end Polyrust
