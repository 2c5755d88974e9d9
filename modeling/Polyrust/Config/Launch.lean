import Polyrust.Config
import Polyrust.Gamma.Discover
import Polyrust.Signing.Order

/-!
# The launch configuration

The endpoints, the market window and the kind of the signatures (`LaunchConfig`, `config.rs`). A
blank variable counts as one that is not set.
-/

namespace Polyrust

open Config

/-- The window is positive. -/
structure LaunchConfig where
  binanceWsUrl : String
  polyMarketWsUrl : String
  polyUserWsUrl : String
  marketSlugFmt : String
  marketWindowS : Int
  clobUrl : String
  gammaUrl : String
  polySignatureKind : SignatureKind
  polyFunder : Option String
  window_pos : 0 < marketWindowS

namespace LaunchConfig

/-- Nothing but white space. -/
def isBlank (s : String) : Bool := (Text.trim s.toList).isEmpty

/-- The kind that a text in capitals names. -/
def signatureKindOf (text : String) : Except ConfigError SignatureKind :=
  match text with
  | "EOA" => .ok .eoa
  | "POLYGON_GNO_SAFE" | "POLY_GNOSIS_SAFE" => .ok .polyGnosisSafe
  | "POLY_PROXY" => .ok .polyProxy
  | other => .error (.invalid "POLY_SIGNATURE_KIND" ("unsupported value=" ++ other))

section
variable (lookup : String → Option String)

/-- `required_string`. -/
def requiredString (name : String) : Except ConfigError String :=
  match ((lookup name).map fun s => String.ofList (Text.trim s.toList)).filter (!·.isEmpty) with
  | some s => .ok s
  | none => .error (.missing name)

/-- A variable that is not blank. -/
def textLookup (name : String) : Option String := (lookup name).filter fun s => !isBlank s

/-- `LaunchConfig::from_lookup`. -/
def fromLookup : Except ConfigError LaunchConfig := do
  let symbol ← requiredString lookup "MINIRUST_BINANCE_SYMBOL"
  let symbol := String.ofList (Text.toAsciiLowercase symbol.toList)
  let binanceWsUrl := (textLookup lookup "MINIRUST_BINANCE_WS_URL").getD
    ("wss://stream-sbe.binance.com:9443/ws/" ++ symbol ++ "@bestBidAsk")
  let polyMarketWsUrl := (textLookup lookup "MINIRUST_POLY_MARKET_WS_URL").getD
    "wss://ws-subscriptions-clob.polymarket.com/ws/market"
  let polyUserWsUrl := (textLookup lookup "MINIRUST_POLY_USER_WS_URL").getD
    "wss://ws-subscriptions-clob.polymarket.com/ws/user"
  let marketSlugFmt :=
    (textLookup lookup "MINIRUST_MARKET_SLUG_FMT").getD "btc-updown-5m-\x7bts\x7d"
  let marketWindowS := (envI64Lookup lookup "MINIRUST_MARKET_WINDOW_S").getD 300
  if hwindow : marketWindowS ≤ 0 then
    throw (.invalid "MINIRUST_MARKET_WINDOW_S" ("non_positive value=" ++ marketWindowS.repr))
  else
    let clobUrl := (textLookup lookup "MINIRUST_CLOB_URL").getD "https://clob.polymarket.com"
    let gammaUrl :=
      (textLookup lookup "MINIRUST_GAMMA_URL").getD "https://gamma-api.polymarket.com"
    let kindText := (textLookup lookup "POLY_SIGNATURE_KIND").getD "EOA"
    let polySignatureKind ←
      signatureKindOf (String.ofList (Text.toAsciiUppercase kindText.toList))
    return {
      binanceWsUrl, polyMarketWsUrl, polyUserWsUrl, marketSlugFmt, marketWindowS, clobUrl, gammaUrl
      polySignatureKind, polyFunder := textLookup lookup "POLY_FUNDER"
      window_pos := Int.not_le.1 hwindow }

end

/-- The client of the market task. -/
def gamma (launch : LaunchConfig) : Gamma.GammaClient where
  clobUrl := launch.clobUrl
  gammaUrl := launch.gammaUrl
  slugFmt := launch.marketSlugFmt
  windowS := launch.marketWindowS
  window_pos := launch.window_pos

section
variable {lookup : String → Option String} {launch : LaunchConfig}

/-- Where the URL of the venue and the funder of the orders are read. -/
theorem fromLookup_ok (h : fromLookup lookup = .ok launch) :
    launch.clobUrl = (textLookup lookup "MINIRUST_CLOB_URL").getD "https://clob.polymarket.com" ∧
      launch.polyFunder = textLookup lookup "POLY_FUNDER" := by
  unfold fromLookup at h
  obtain ⟨symbol, -, h⟩ := Except.ok_bind_inv h
  dsimp only at h
  split at h
  · cases h
  obtain ⟨kind, -, h⟩ := Except.ok_bind_inv h
  cases h
  exact ⟨rfl, rfl⟩

/-- A text that is not blank is the one that is looked up. -/
theorem textLookup_eq_some {name value : String} (h : textLookup lookup name = some value) :
    lookup name = some value :=
  (Option.filter_eq_some_iff.1 h).1

end

end LaunchConfig

end Polyrust
