import Polyrust.Decimal
import Polyrust.Json
import Polyrust.Signal

/-!
# Binance frames

The parser of best-bid-and-offer frames (`binance.rs`): the binary frames (SBE, template 10001)
carry an event time, the JSON frames (`@bookTicker`) need not. A parsed ticker becomes the sample
that the Binance task works with.
-/

namespace Polyrust

open IntWidth F64

/-- The best prices of the exchange, as a frame has them. -/
structure BinanceBookTicker (F : Type) where
  eventTime : TsUs
  updateId : Int
  bid : F
  ask : F
  bidQty : F
  askQty : F

/-- Why a frame cannot be parsed. -/
inductive BinanceParseError where
  | invalidJson (e : String)
  | missingField (key : String)
  | invalidNumber (key : String)
  | sbeTooShort
  | sbeBadTemplate (id : Nat)
  deriving DecidableEq, Repr

/-- The functions of the standard library that make floating-point numbers of texts and powers. -/
structure FloatLib (F : Type) where
  /-- `str::parse::<f64>` -/
  parse : List Char → Option F
  /-- `f64::powi` -/
  powi : F → Int → F

namespace Binance

/-! ## Bytes -/

/-- The slice of `len` bytes from `start` on. -/
def slice (raw : List UInt8) (start len : Nat) : Exec (List UInt8) :=
  if start + len ≤ raw.length then .ok ((raw.drop start).take len) else .error .outOfBounds

/-- The number of little-endian bytes. -/
def natFromLe : List UInt8 → Nat
  | [] => 0
  | byte :: bytes => byte.toNat + 256 * natFromLe bytes

/-- The number in two's complement of little-endian bytes. -/
def intFromLe (bytes : List UInt8) : Int :=
  let n := natFromLe bytes
  if n < 2 ^ (8 * bytes.length - 1) then n else n - 2 ^ (8 * bytes.length)

/-- The signed number in `len` bytes from `start` on. -/
def readInt (raw : List UInt8) (start len : Nat) : Exec Int := do
  return intFromLe (← slice raw start len)

section
variable {F : Type} [F64 F] (lib : FloatLib F)

/-- `mantissa_to_f64`. -/
def mantissaToF64 (mantissa exponent : Int) : F := ofInt mantissa * lib.powi 10.0 exponent

/-- `parse_sbe_best_bid_ask`. -/
def parseSbeBestBidAsk (raw : List UInt8) :
    Exec (Except BinanceParseError (Option (BinanceBookTicker F))) := do
  if raw.length < 59 then return .error .sbeTooShort
  let blockLength := natFromLe (← slice raw 0 2)
  if blockLength ≠ 50 then return .ok none
  let templateId := natFromLe (← slice raw 2 2)
  if templateId ≠ 10001 then return .error (.sbeBadTemplate templateId)
  let base := 8
  let eventTime ← readInt raw base 8
  let updateId ← readInt raw (base + 8) 8
  let priceExp ← readInt raw (base + 16) 1
  let qtyExp ← readInt raw (base + 17) 1
  let bidMantissa ← readInt raw (base + 18) 8
  let bidQtyMantissa ← readInt raw (base + 26) 8
  let askMantissa ← readInt raw (base + 34) 8
  let askQtyMantissa ← readInt raw (base + 42) 8
  if eventTime ≤ 0 ∨ updateId ≤ 0 then return .error (.invalidNumber "eventTime")
  let bid := mantissaToF64 lib bidMantissa priceExp
  let ask := mantissaToF64 lib askMantissa priceExp
  let bidQty := mantissaToF64 lib bidQtyMantissa qtyExp
  let askQty := mantissaToF64 lib askQtyMantissa qtyExp
  if le bid 0.0 || le ask 0.0 || le bidQty 0.0 || le askQty 0.0 || lt ask bid then
    return .error (.invalidNumber "bid/ask")
  return .ok (some
    { eventTime := ⟨eventTime⟩, updateId := updateId, bid := bid, ask := ask, bidQty := bidQty
      askQty := askQty })

/-! ## JSON -/

/-- `parse_positive_i64_json`. -/
def parsePositiveI64Json (value : Json.Value) (key : String) : Except BinanceParseError Int := do
  let some raw := value.get key | throw (.missingField key)
  let n? :=
    match raw with
    | .number n => n.asI64
    | .string s => parseI64 s.toList
    | _ => none
  let some n := n? | throw (.invalidNumber key)
  if 0 < n then return n else throw (.invalidNumber key)

/-- `Number::as_f64`. -/
def asF64 : Json.Number → Option F
  | .posInt n => some (ofInt n)
  | .negInt n => some (ofInt n)
  | .float text => lib.parse text.toList

/-- `parse_positive_f64_json`. -/
def parsePositiveF64Json (value : Json.Value) (key : String) : Except BinanceParseError F := do
  let some raw := value.get key | throw (.missingField key)
  let n? :=
    match raw with
    | .number n => asF64 lib n
    | .string s => lib.parse s.toList
    | _ => none
  let some n := n? | throw (.invalidNumber key)
  if isFinite n && lt 0.0 n then return n else throw (.invalidNumber key)

/-- `normalize_epoch_to_us`: milliseconds or microseconds. -/
def normalizeEpochToUs (ts : Int) : Except BinanceParseError Int :=
  if ts ≤ 0 then throw (.invalidNumber "E")
  else if ts < 100000000000000 then
    match i64.checked (ts * 1000) with
    | some us => return us
    | none => throw (.invalidNumber "E")
  else return ts

/-- The value of a frame, or what it wraps. -/
def unwrapData (value : Json.Value) : Json.Value := (value.get "data").getD value

/-- The value is an object of another event, or none of a ticker. -/
def notTicker (value : Json.Value) : Bool :=
  match value with
  | .object _ =>
    (((value.get "e").bind Json.Value.asStr).any fun eventType =>
        !Text.eqIgnoreAsciiCase eventType.toList "bookTicker".toList) ||
      ["u", "b", "B", "a", "A"].all fun key => (value.get key).isNone
  | _ => true

/-- The event time of a JSON frame; zero where it has none. -/
def jsonEventTime (value : Json.Value) : Except BinanceParseError Int :=
  match parsePositiveI64Json value "E" with
  | .ok et => normalizeEpochToUs et
  | .error (.missingField _) => .ok 0
  | .error e => .error e

/-- `parse_book_ticker_json`. -/
def parseBookTickerJson (pl : Platform) (raw : List UInt8) :
    Except BinanceParseError (Option (BinanceBookTicker F)) := do
  match pl.fromSlice raw with
  | .error e => throw (.invalidJson e)
  | .ok value =>
    let value := unwrapData value
    if notTicker value then return none
    let eventTime ← jsonEventTime value
    let updateId ← parsePositiveI64Json value "u"
    let bid ← parsePositiveF64Json lib value "b"
    let bidQty ← parsePositiveF64Json lib value "B"
    let ask ← parsePositiveF64Json lib value "a"
    let askQty ← parsePositiveF64Json lib value "A"
    if lt ask bid then throw (.invalidNumber "b")
    return some
      { eventTime := ⟨eventTime⟩, updateId := updateId, bid := bid, ask := ask, bidQty := bidQty
        askQty := askQty }

/-- The frame starts as a binary one: block length 50, template 10001. -/
def isSbe (raw : List UInt8) : Bool := raw.take 4 == [0x32, 0x00, 0x11, 0x27]

/-- `parse_book_ticker`. -/
def parseBookTicker (pl : Platform) (raw : List UInt8) :
    Exec (Except BinanceParseError (Option (BinanceBookTicker F))) :=
  if isSbe raw then parseSbeBestBidAsk lib raw else return parseBookTickerJson lib pl raw

end

end Binance

namespace BinanceBookTicker

section
variable {F : Type} [F64 F]

/-- `BinanceBookTicker::microprice`. -/
def microprice (ticker : BinanceBookTicker F) : Option F :=
  let denom := ticker.bidQty + ticker.askQty
  if !isFinite denom || le denom 0.0 then none
  else
    let px := (ticker.bid * ticker.askQty + ticker.ask * ticker.bidQty) / denom
    if isFinite px && lt 0.0 px then some px else none

/-- `BinanceBookTicker::sample`. -/
def sample (ticker : BinanceBookTicker F) : Option (BinanceSample F) := do
  return { tsUs := ticker.eventTime, updateId := ticker.updateId, bid := ticker.bid
           ask := ticker.ask, bidQty := ticker.bidQty, askQty := ticker.askQty
           microprice := ← ticker.microprice }

end

end BinanceBookTicker

end Polyrust
