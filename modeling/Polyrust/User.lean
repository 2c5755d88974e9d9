import Polyrust.Decimal
import Polyrust.Inventory
import Polyrust.Json

/-!
# The user channel

The parser of user-channel frames (`user.rs`): trade events become inventory input, authentication
messages are reported, everything else is `other`. A frame that is not JSON is not an error, and a
batch is refused as a whole on its first malformed trade.
-/

namespace Polyrust

open Json

/-- What a frame of the user channel is parsed as. -/
inductive UserMessage where
  | trades (trades : List UserTrade)
  | authSuccess
  | authError (msg : String)
  | other
  deriving DecidableEq, Repr

/-- Why a frame cannot be parsed. -/
inductive UserParseError where
  | invalidJson (e : String)
  | missingField (name : String)
  | invalidSide (side : String)
  | invalidPrice (e : TypeError)
  | invalidSize (e : TypeError)
  deriving DecidableEq, Repr

namespace User

/-- `optional_str`: the string under the first key that has one, unless it is empty. -/
def optionalStr (value : Value) (keys : List String) : Option String :=
  (keys.findSome? fun key => (value.get key).bind Value.asStr).filter fun s => !s.isEmpty

/-- `required_str`. -/
def requiredStr (value : Value) (keys : List String) (name : String) :
    Except UserParseError String :=
  match optionalStr value keys with
  | some s => .ok s
  | none => .error (.missingField name)

/-- `optional_i64`: the integer under the first key that has one, as a number or in a string. -/
def optionalI64 (value : Value) (keys : List String) : Option Int :=
  keys.findSome? fun key => do
    let v ← value.get key
    v.asI64.or ((v.asStr).bind fun s => parseI64 s.toList)

/-- `is_trade_event`. -/
def isTradeEvent (value : Value) : Bool :=
  (optionalStr value ["event_type", "eventType", "type"]).any fun s =>
    Text.eqIgnoreAsciiCase s.toList "trade".toList

/-- `parse_side`. -/
def parseSide (raw : String) : Except UserParseError OrderSide :=
  match String.ofList (Text.toAsciiUppercase (Text.trim raw.toList)) with
  | "BUY" => .ok .buy
  | "SELL" => .ok .sell
  | _ => .error (.invalidSide raw)

/-- The fields of a trade event that are texts: trade id, asset id, side, size, price. -/
def tradeFields (value : Value) :
    Except UserParseError (String × String × OrderSide × String × String) := do
  let tradeId ← requiredStr value ["trade_id", "tradeId", "id"] "trade_id"
  let token ← requiredStr value ["asset_id", "assetId", "token_id", "tokenId"] "asset_id"
  let side ← parseSide (← requiredStr value ["side"] "side")
  let sizeRaw ← requiredStr value ["size", "amount"] "size"
  let priceRaw ← requiredStr value ["price"] "price"
  return (tradeId, token, side, sizeRaw, priceRaw)

/-- `parse_trade_value`: none for an event that is no trade. -/
def parseTradeValue (b : Build) (value : Value) (fallbackTsUs : Int) :
    Exec (Except UserParseError (Option UserTrade)) := do
  if !isTradeEvent value then return .ok none
  match tradeFields value with
  | .error e => return .error e
  | .ok (tradeId, token, side, sizeRaw, priceRaw) =>
    let statusRaw := (optionalStr value ["status"]).getD "MATCHED"
    let tsUs := (optionalI64 value ["ts_us", "timestamp_us", "timestampUs"]).getD fallbackTsUs
    let takerOrderId :=
      optionalStr value ["taker_order_id", "takerOrderId", "order_id", "orderId", "orderID"]
    match ← SharesAtoms.parseDecimal b sizeRaw.toList with
    | .error e => return .error (.invalidSize e)
    | .ok sizeAtoms =>
      match ← PriceTick.parseDecimal b priceRaw.toList with
      | .error e => return .error (.invalidPrice e)
      | .ok price =>
        return .ok (some
          { tradeId := ⟨tradeId⟩
            token := ⟨token⟩
            takerOrderId := takerOrderId.map OrderId.mk
            side := side
            sizeAtoms := sizeAtoms
            price := price
            status := TradeStatus.fromVenue statusRaw
            tsUs := tsUs })

/-- The trades of the items, in order, up to the first item that is refused. -/
def parseTradeItems (b : Build) (tsUs : Int) :
    List Value → Exec (Except UserParseError (List UserTrade))
  | [] => return .ok []
  | item :: items => do
    match ← parseTradeValue b item tsUs with
    | .error e => return .error e
    | .ok trade =>
      match ← parseTradeItems b tsUs items with
      | .error e => return .error e
      | .ok trades => return .ok (trade.toList ++ trades)

/-- The authentication message of a frame, if its event name makes it one. -/
def authMessage (value : Value) : Option UserMessage := do
  let event ← optionalStr value ["event_type", "eventType", "event", "type"]
  if Text.eqIgnoreAsciiCase event.toList "auth".toList then
    match optionalStr value ["status"] with
    | some s =>
      if Text.eqIgnoreAsciiCase s.toList "SUCCESS".toList then return .authSuccess
      else if Text.eqIgnoreAsciiCase s.toList "ERROR".toList ||
          Text.eqIgnoreAsciiCase s.toList "FAILURE".toList then
        return .authError ((optionalStr value ["message", "msg"]).getD s)
      else return .other
    | none => return .other
  else if Text.eqIgnoreAsciiCase event.toList "error".toList then
    return .authError ((optionalStr value ["message", "msg"]).getD "unknown error")
  else if Text.eqIgnoreAsciiCase event.toList "success".toList then return .authSuccess
  else none

/-- `parse_user_message`. -/
def parseUserMessage (pl : Platform) (raw : List UInt8) (tsUs : Int) :
    Exec (Except UserParseError UserMessage) := do
  match pl.fromSlice raw with
  | .error _ => return .ok .other
  | .ok value =>
    match authMessage value with
    | some msg => return .ok msg
    | none =>
      let items :=
        match value with
        | .array items => items
        | other => [other]
      match ← parseTradeItems pl.build tsUs items with
      | .error e => return .error e
      | .ok [] => return .ok .other
      | .ok trades => return .ok (.trades trades)

/-! ## Parsed trades -/

section
variable {pl : Platform} {b : Build} {tsUs : Int}

/-- What a parsed trade was read from. -/
theorem parseTradeValue_inv {value : Value} {trade : UserTrade}
    (h : parseTradeValue b value tsUs = .ok (.ok (some trade))) :
    isTradeEvent value = true ∧
    trade.takerOrderId = (optionalStr value
      ["taker_order_id", "takerOrderId", "order_id", "orderId", "orderID"]).map OrderId.mk ∧
    ∃ sizeRaw priceRaw,
      tradeFields value =
        .ok (trade.tradeId.str, trade.token.str, trade.side, sizeRaw, priceRaw) ∧
      SharesAtoms.parseDecimal b sizeRaw.toList = .ok (.ok trade.sizeAtoms) ∧
      PriceTick.parseDecimal b priceRaw.toList = .ok (.ok trade.price) := by
  unfold parseTradeValue at h
  split at h
  · cases h
  · rename_i hevent
    cases hf : tradeFields value with
    | error e => rw [hf] at h; cases h
    | ok fields =>
      obtain ⟨tradeId, token, side, sizeRaw, priceRaw⟩ := fields
      rw [hf] at h
      obtain ⟨size, hs, h⟩ := Except.ok_bind_inv h
      cases size with
      | error e => cases h
      | ok sizeAtoms =>
        obtain ⟨price, hp, h⟩ := Except.ok_bind_inv h
        cases price with
        | error e => cases h
        | ok price =>
          cases h
          refine ⟨?_, rfl, sizeRaw, priceRaw, rfl, hs, hp⟩
          simpa using hevent

/-- A parsed trade has no negative size. -/
theorem parseTradeValue_size {value : Value} {trade : UserTrade}
    (h : parseTradeValue b value tsUs = .ok (.ok (some trade))) : 0 ≤ trade.sizeAtoms.atoms := by
  obtain ⟨-, -, _, _, -, hs, -⟩ := parseTradeValue_inv h
  exact SharesAtoms.parseDecimal_nonneg hs

/-- The sizes of parsed trades are not negative. -/
theorem parseTradeItems_sizes {items : List Value} {trades : List UserTrade}
    (h : parseTradeItems b tsUs items = .ok (.ok trades)) :
    ∀ trade ∈ trades, 0 ≤ trade.sizeAtoms.atoms := by
  induction items generalizing trades with
  | nil =>
    cases h
    intro trade ht
    cases ht
  | cons item items ih =>
    obtain ⟨head, hhead, h⟩ := Except.ok_bind_inv h
    cases head with
    | error e => cases h
    | ok head =>
      obtain ⟨rest, hrest, h⟩ := Except.ok_bind_inv h
      cases rest with
      | error e => cases h
      | ok rest =>
        cases h
        intro trade ht
        rcases List.mem_append.1 ht with ht | ht
        · rw [Option.mem_toList] at ht
          rw [ht] at hhead
          exact parseTradeValue_size hhead
        · exact ih hrest trade ht

/-- An authentication message carries no trades. -/
theorem authMessage_ne_trades {value : Value} {trades : List UserTrade} :
    authMessage value ≠ some (.trades trades) := by
  intro h
  obtain ⟨event, -, h⟩ := Option.bind_eq_some_iff.1 h
  split at h
  · split at h
    · split at h
      · cases h
      · split at h <;> cases h
    · cases h
  · split at h
    · cases h
    · split at h <;> cases h

/-- No trade of a frame has a negative size. -/
theorem parseUserMessage_sizes {raw : List UInt8} {trades : List UserTrade}
    (h : parseUserMessage pl raw tsUs = .ok (.ok (.trades trades))) :
    ∀ trade ∈ trades, 0 ≤ trade.sizeAtoms.atoms := by
  unfold parseUserMessage at h
  cases hv : pl.fromSlice raw with
  | error e => rw [hv] at h; cases h
  | ok value =>
    rw [hv] at h
    dsimp only at h
    cases ha : authMessage value with
    | some msg =>
      rw [ha] at h
      cases h
      exact absurd ha authMessage_ne_trades
    | none =>
      rw [ha] at h
      obtain ⟨items, hitems, h⟩ := Except.ok_bind_inv h
      cases items with
      | error e => cases h
      | ok items =>
        cases items with
        | nil => cases h
        | cons trade rest =>
          cases h
          exact parseTradeItems_sizes hitems

end

end User

end Polyrust
