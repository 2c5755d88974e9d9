import Polyrust.Auth.Agreement
import Polyrust.Config.Valid
import Polyrust.Orders.Returns
import Polyrust.Runtime

/-!
# Preparing submits

The order of a BUY intent, sized for the configured notional and signed (`prepare_buy_submit`), and
the order of a SELL plan. No check of the configuration bounds the notional from above, so that
preparing a BUY may abort the program: it returns, for every price of the band, up to a bound on the
notional and on the overrun (`prepareBuySubmit_returns_iff`).
-/

namespace Polyrust

open IntWidth Bytes

/-- A signed BUY, with the claim it is for. -/
structure PreparedBuySubmit where
  submitId : SubmitId
  body : SignedFakOrderBody
  deriving DecidableEq, Repr

/-- A signed SELL. -/
structure PreparedSellSubmit where
  body : SignedFakOrderBody
  deriving DecidableEq, Repr

/-- What a BUY of an intent is sized from. -/
def BuySubmitPolicy.input (policy : BuySubmitPolicy) (limit : PriceTick) : BuyCanonicalInput :=
  { price := limit, targetMakerCents := policy.targetMakerCents
    minSizeTakerUnits := policy.minSizeTakerUnits, minMakerCents := policy.minMakerCents
    maxOverrunCents := policy.maxOverrunCents, maxOverrunBps := policy.maxOverrunBps }

section
variable {Key Point : Type} (lib : SigningLib Key Point)

/-- `prepare_buy_submit`. -/
def prepareBuySubmit (b : Build) (intent : BuyIntent) (policy : BuySubmitPolicy)
    (signer : OrderSigner Key) (signInputs : SignInputs) (claimId : SubmitId) :
    Exec (Except RuntimeError PreparedBuySubmit) := do
  match ← canonicalBuyTargetForNotional b (policy.input intent.limit) with
  | .error e => return .error (.buyCanonical e)
  | .ok target =>
    match signer.signFakBuy lib intent.token target signInputs with
    | .error e => return .error (.signing e)
    | .ok body => return .ok ⟨claimId, body⟩

/-- `SellPlan::sign`. -/
def SellPlan.sign (plan : SellPlan) (signer : OrderSigner Key) (signInputs : SignInputs) :
    Except RuntimeError PreparedSellSubmit :=
  match signer.signFakSell lib plan.token plan.price plan.size signInputs with
  | .error e => .error (.signing e)
  | .ok body => .ok ⟨body⟩

/-- Signing does not abort: a BUY is prepared where it is sized. -/
theorem prepareBuySubmit_returns {b : Build} {intent : BuyIntent} {policy : BuySubmitPolicy}
    {signer : OrderSigner Key} {signInputs : SignInputs} {claimId : SubmitId} :
    (∃ r, prepareBuySubmit lib b intent policy signer signInputs claimId = .ok r) ↔
      ∃ r, canonicalBuyTargetForNotional b (policy.input intent.limit) = .ok r := by
  rw [prepareBuySubmit]
  refine ⟨?_, ?_⟩
  · rintro ⟨r, h⟩
    obtain ⟨result, hresult, -⟩ := Except.ok_bind_inv h
    exact ⟨result, hresult⟩
  · rintro ⟨result, hresult⟩
    rw [hresult, Except.ok_bind]
    split
    · exact ⟨_, rfl⟩
    · split
      · exact ⟨_, rfl⟩
      · exact ⟨_, rfl⟩

end

/-- A price limit that is accepted is tradeable. -/
theorem Config.priceLimit_returns {name : String} {cents : Int} {price : PriceTick}
    (h : Config.priceLimit name cents = .ok price) : 1 ≤ cents ∧ cents ≤ 99 := by
  unfold priceLimit at h
  split at h
  · next hprice =>
    unfold PriceTick.checked at hprice
    split at hprice
    · next hrange => exact hrange
    · cases hprice
  · cases h

section
variable {F : Type} [F64 F]

/-- The core of a configuration has its policy, and its band is tradeable. -/
theorem RuntimeCore.new_returns {config : Config F} {core : RuntimeCore F}
    (h : RuntimeCore.new config = .ok core) :
    core.buyPolicy = config.buySubmitPolicy ∧ 1 ≤ config.minBuyLimitCents ∧
      config.maxBuyLimitCents ≤ 99 := by
  obtain ⟨signalConfig, hsignal, h⟩ := Except.ok_bind_inv h
  cases h
  obtain ⟨lower, hlower, hsignal⟩ := Except.ok_bind_inv hsignal
  obtain ⟨upper, hupper, -⟩ := Except.ok_bind_inv hsignal
  exact ⟨rfl, (Config.priceLimit_returns hlower).1, (Config.priceLimit_returns hupper).2⟩

/-- Of an accepted configuration, preparing a BUY at a price of the band returns in every build if
and only if the notional is within the bound of that price, and the overrun leaves room above it. -/
theorem prepareBuySubmit_returns_iff {b₀ : Build} {parseF64 : List Char → Option F}
    {lookup : String → Option String} {config : Config F} {core : RuntimeCore F}
    (hload : (Config.fromLookup b₀ parseF64 lookup).Returns config)
    (hcore : RuntimeCore.new config = .ok core) (intent : BuyIntent)
    (hlo : config.minBuyLimitCents ≤ intent.limit.ticks)
    (hhi : intent.limit.ticks ≤ config.maxBuyLimitCents) {Key Point : Type}
    (lib : SigningLib Key Point) (signer : OrderSigner Key) (signInputs : SignInputs)
    (claimId : SubmitId) :
    (∀ b, ∃ r, prepareBuySubmit lib b intent core.buyPolicy signer signInputs claimId = .ok r) ↔
      config.usdcPerTradeCents ≤ notionalLimit intent.limit.ticks ∧
        config.usdcPerTradeCents + config.maxNotionalOverrunCents ≤ i64.hi := by
  obtain ⟨hpolicy, hmin, hmax⟩ := RuntimeCore.new_returns hcore
  have husdc := (Config.fromLookup_ensures config hload).usdc
  have hp : 1 ≤ intent.limit.ticks ∧ intent.limit.ticks ≤ 99 := ⟨by omega, by omega⟩
  have hT : 1 ≤ (config.buySubmitPolicy.input intent.limit).targetMakerCents := by
    have heq : (config.buySubmitPolicy.input intent.limit).targetMakerCents =
        config.usdcPerTradeCents := rfl
    omega
  -- a dollar buys more than the smallest size at every price
  have hsize : 100 ≤ (config.buySubmitPolicy.input intent.limit).rawSize := by
    have hraw := @rawSize_nonneg (config.buySubmitPolicy.input intent.limit) hp.1 hT
    have hcovers : 10000 * config.usdcPerTradeCents ≤
        intent.limit.ticks * (config.buySubmitPolicy.input intent.limit).rawSize :=
      (@rawSize_bounds (config.buySubmitPolicy.input intent.limit) hp.1).1
    have hcost := mul_le_mul_of_nonneg_right hp.2 hraw
    omega
  simp only [prepareBuySubmit_returns, hpolicy]
  exact @canonicalBuyTargetForNotional_returns_iff (config.buySubmitPolicy.input intent.limit)
    hp hT hsize

end

/-- An environment with a notional, in dollars, and the band from 35 to 60 cents. -/
def notionalEnv (usdc : String) (name : String) : Option String :=
  [("MINIMAL_USDC_PER_TRADE", usdc), ("MINIMAL_MIN_BUY_LIMIT", "0.35"),
    ("MINIMAL_DECISION_MIN_TTE_US", "45000000")].lookup name

/-- An intent at fifty cents. -/
def fiftyIntent : BuyIntent :=
  { side := .yes, token := ⟨"yes"⟩, limit := ⟨50⟩, edgePrice := ⟨50⟩, edgeTicks := 5 }

/-- The library on the key one. -/
def keyOneSigningLib : SigningLib Unit (ZMod secp256k1Order) :=
  Auth.keyOneLib Auth.keyOneSignature.neg Auth.evenPoint.flip

/-- The signer of the key one. -/
def keyOneSigner : OrderSigner Unit where
  signingKey := ()
  address := Auth.keyOneAddress
  apiKey := "00000000-0000-0000-0000-000000000001"
  maker := Auth.keyOneAddress
  signatureKind := .eoa
  domainSeparator := ⟨natToBe 32 0, length_natToBe 32 0⟩

/-- The configuration of such an environment. -/
theorem notionalEnv_returns (usdc : String) (cents : Int)
    (h : (Config.fromLookup (F := Rat) ⟨true⟩ (fun _ => none) (notionalEnv usdc)).run.Succeeds
      fun r => r.Succeeds fun config => config.usdcPerTradeCents = cents ∧
        config.maxNotionalOverrunCents = 1 ∧ config.minBuyLimitCents = 35 ∧
        config.maxBuyLimitCents = 60 ∧ (RuntimeCore.new config).Succeeds fun _ => True) :
    ∃ config core,
      (Config.fromLookup (F := Rat) ⟨true⟩ (fun _ => none) (notionalEnv usdc)).Returns config ∧
        RuntimeCore.new config = .ok core ∧ config.usdcPerTradeCents = cents ∧
        config.maxNotionalOverrunCents = 1 ∧ config.minBuyLimitCents = 35 ∧
        config.maxBuyLimitCents = 60 := by
  obtain ⟨r, hr, hok⟩ := h.exists
  obtain ⟨config, rfl, husdc, hoverrun, hmin, hmax, hnew⟩ := hok.exists
  obtain ⟨core, hcore, -⟩ := hnew.exists
  exact ⟨config, core, hr, hcore, husdc, hoverrun, hmin, hmax⟩

/-- With a notional of 1.01 dollars a BUY is prepared. -/
theorem prepareBuySubmit_returns_small :
    ∃ config core, (Config.fromLookup (F := Rat) ⟨true⟩ (fun _ => none)
        (notionalEnv "1.01")).Returns config ∧ RuntimeCore.new config = .ok core ∧
      ∀ b, ∃ r, prepareBuySubmit keyOneSigningLib b fiftyIntent core.buyPolicy keyOneSigner
        ⟨1, 1777000000000⟩ ⟨"submit-1"⟩ = .ok r := by
  obtain ⟨config, core, hload, hcore, husdc, hoverrun, hmin, hmax⟩ :=
    notionalEnv_returns "1.01" 101 (by decide +kernel)
  refine ⟨config, core, hload, hcore, (prepareBuySubmit_returns_iff hload hcore fiftyIntent ?_ ?_
    keyOneSigningLib keyOneSigner _ _).2 ⟨?_, ?_⟩⟩
  · rw [hmin]
    decide
  · rw [hmax]
    decide
  · rw [husdc]
    decide +kernel
  · rw [husdc, hoverrun]
    decide

/-- With a notional of a quadrillion dollars, which is accepted, it is not. -/
theorem prepareBuySubmit_aborts :
    ¬ ∀ (lookup : String → Option String) (config : Config Rat) (core : RuntimeCore Rat)
        (intent : BuyIntent) (signInputs : SignInputs),
      (Config.fromLookup ⟨true⟩ (fun _ => none) lookup).Returns config →
      RuntimeCore.new config = .ok core → config.minBuyLimitCents ≤ intent.limit.ticks →
      intent.limit.ticks ≤ config.maxBuyLimitCents →
      ∀ b, ∃ r, prepareBuySubmit keyOneSigningLib b intent core.buyPolicy keyOneSigner signInputs
        ⟨"submit-1"⟩ = .ok r := by
  intro h
  obtain ⟨config, core, hload, hcore, husdc, -, hmin, hmax⟩ :=
    notionalEnv_returns "1000000000000000" 100000000000000000 (by decide +kernel)
  have hreturns := h _ config core fiftyIntent ⟨1, 1777000000000⟩ hload hcore
    (by rw [hmin]; decide) (by rw [hmax]; decide) ⟨false⟩
  rw [prepareBuySubmit_returns] at hreturns
  have hp : (1 : Int) ≤ 50 ∧ (50 : Int) ≤ 99 := by decide
  obtain ⟨hnumer, -⟩ := fits_of_returns hp hreturns
  have htarget : (core.buyPolicy.input fiftyIntent.limit).targetMakerCents =
      100000000000000000 := by
    rw [(RuntimeCore.new_returns hcore).1, ← husdc]
    rfl
  rw [htarget] at hnumer
  exact absurd hnumer (by decide)

end Polyrust
