import Polyrust.Auth.Derive
import Polyrust.Config.Given
import Polyrust.Config.Launch
import Polyrust.Program.Requests

/-!
# The launch

What `main` sets up from the environment of the process and the environment file: the configuration,
the launch configuration, and the credentials, which are derived from the private key where they are
not given. Something is posted only where orders are switched on there, and as an order that the
private key recovers from which is given there (`posts_only_when_allowed`).
-/

namespace Polyrust

open Config Signing

/-- What the launch uses of the libraries and of the system. -/
structure Launcher (F Key Point : Type) where
  lib : SigningLib Key Point
  build : Build
  parseF64 : List Char → Option F
  /-- `H160::from_str` -/
  parseAddress : String → Option H160
  net : Auth.DeriveWeb
  l2 : Auth.L2Lib
  /-- the HTTP client of the derivation can be built -/
  deriveClient : Except String Unit
  /-- the HTTP client of the submitter can be built -/
  submitClient : Except String Unit
  nowSecs : Int

/-- How the launch ends early. -/
inductive LaunchError where
  | setVar (panic : SetVarPanic)
  | abort (a : Abort)
  | config (e : ConfigError)
  | launchConfig (e : ConfigError)
  | credentials (e : AuthError)
  deriving DecidableEq, Repr

/-- What a launch hands to the tasks. -/
structure Launched (F : Type) where
  launch : LaunchConfig
  setup : Program.Setup F

/-- The credentials that are given. -/
def Environment.credentials (env : Environment) : Credentials where
  apiKey := (env.var "POLY_API_KEY").getD ""
  apiSecret := (env.var "POLY_API_SECRET").getD ""
  passphrase := (env.var "POLY_PASSPHRASE").getD ""
  address := (env.var "POLY_ADDRESS").getD ""

/-- The private key, or nothing. -/
def Environment.privateKey (env : Environment) : String := (env.var "POLY_PK").getD ""

namespace Launcher

section
variable {F Key Point : Type} [F64 F] (l : Launcher F Key Point)

/-- `Config::from_env`. -/
def readConfig (env : Environment) : Except LaunchError (Config F) :=
  match (Config.fromLookup l.build l.parseF64 env.var).run with
  | .error a => .error (.abort a)
  | .ok (.error e) => .error (.config e)
  | .ok (.ok config) => .ok config

omit [F64 F] in
/-- The credentials: derived where some are missing and there is a private key. -/
def credentials (env : Environment) (launch : LaunchConfig) : Except LaunchError Credentials :=
  if env.credentials.missing && !env.privateKey.isEmpty then
    match Auth.deriveApiCredentials l.lib l.net l.deriveClient env.privateKey POLYGON_CHAIN_ID
        launch.clobUrl l.nowSecs with
    | .ok (creds, address) =>
      .ok { apiKey := creds.apiKey, apiSecret := creds.secret, passphrase := creds.passphrase
            address }
    | .error e => .error (.credentials e)
  else .ok env.credentials

/-- `main`, until it builds the signers; whether the file can be read does not matter. -/
def launch (file : Except String String) (env : Environment) :
    Except LaunchError (Launched F) := do
  let (env, _) ← (loadEnvFile ".env.poly" file env).mapError .setVar
  let config ← l.readConfig env
  let launch ← (LaunchConfig.fromLookup env.var).mapError .launchConfig
  let credentials ← l.credentials env launch
  let submitter := (credentials.submitter l.l2 l.submitClient launch.clobUrl).isSome
  return {
    launch
    setup :=
      { config, credentials, privateKey := env.privateKey
        funder := launch.polyFunder.bind l.parseAddress, kind := launch.polySignatureKind
        submitter := config.allowLiveOrders && submitter } }

end

end Launcher

/-! ## Where a value comes from -/

/-- The environment has the value, or it does not have the variable and the first assignment of the
file to it has this value. -/
def Sets (env : Environment) (file : Except String String) (name value : String) : Prop :=
  env.vars name = some (.text value) ∨
    env.vars name = none ∧ ∃ text, file = .ok text ∧
      (assignments text).lookup name = some value

/-- A variable is read where its value is a text. -/
theorem var_eq_some_iff {env : Environment} {name value : String} :
    env.var name = some value ↔ env.vars name = some (.text value) := by
  unfold Environment.var
  split
  · next v hv => rw [hv]; simp
  · next hv => exact ⟨nofun, fun h => absurd h (hv value)⟩

/-- What a variable is read as once the file is loaded. -/
theorem var_loaded_iff {path : String} {file : Except String String} {env env' : Environment}
    {r : Except ConfigError Nat} (h : loadEnvFile path file env = .ok (env', r))
    {name value : String} : env'.var name = some value ↔ Sets env file name value := by
  rw [var_eq_some_iff, Sets]
  cases file with
  | error e =>
    cases h
    simp
  | ok text =>
    obtain ⟨n, rfl⟩ := loadEnvFile_text h
    obtain ⟨-, hvars, -⟩ := runM_assign_iff.1 (loadEnvFile_ok_iff_runM.1 h)
    rw [hvars]
    cases env.vars name <;> simp

namespace Program

section
variable {F Key Point : Type} [F64 F] {lib : SigningLib Key Point} {pl : Platform}
variable {setup : Setup F} {ops : List (Op F)} {s : Program F Key}

omit [F64 F] in
/-- Live orders need a private key and all of the credentials. -/
theorem start_given {core : RuntimeCore F}
    (h : start lib setup.config core setup.credentials setup.privateKey setup.funder setup.kind
      setup.submitter = .ok s) : setup.config.allowLiveOrders = true →
    setup.privateKey.isEmpty = false ∧ setup.credentials.missing = false ∧
      setup.credentials.address.isEmpty = false := by
  rw [start] at h
  split at h
  · cases h
  obtain ⟨signer, hsigner, h⟩ := Except.ok_bind_inv h
  split at h
  · obtain ⟨_, hgates, -⟩ := Except.ok_bind_inv h
    rw [liveGates] at hgates
    split_ifs at hgates with hsubmitter hnone hmissing
    rw [orderSigner] at hsigner
    split at hsigner
    · next hboth =>
      simp only [Bool.and_eq_true, Bool.not_eq_true', Bool.or_eq_true, not_or,
        Bool.not_eq_true] at hboth hmissing
      exact fun _ => ⟨hboth.2, hmissing⟩
    · cases hsigner
      exact absurd rfl hnone
  · next hshadow => exact fun hlive => absurd hlive hshadow

end

end Program

/-- Another error does not change what is returned. -/
theorem mapError_ok {ε ε' α : Type} {f : ε → ε'} {x : Except ε α} {a : α}
    (h : x.mapError f = .ok a) : x = .ok a := by
  cases x with
  | error e => cases h
  | ok b =>
    cases h
    rfl

namespace Launcher

section
variable {F Key Point : Type} [F64 F] {l : Launcher F Key Point} {file : Except String String}
variable {env : Environment} {launched : Launched F}

/-- What the launch reads, once the file is loaded. -/
theorem launch_ok (h : l.launch file env = .ok launched) :
    ∃ env' r, loadEnvFile ".env.poly" file env = .ok (env', r) ∧
      (Config.fromLookup l.build l.parseF64 env'.var).Returns launched.setup.config ∧
      LaunchConfig.fromLookup env'.var = .ok launched.launch ∧
      l.credentials env' launched.launch = .ok launched.setup.credentials ∧
      launched.setup.privateKey = env'.privateKey ∧
      launched.setup.funder = launched.launch.polyFunder.bind l.parseAddress ∧
      launched.setup.kind = launched.launch.polySignatureKind ∧
      launched.setup.submitter = (launched.setup.config.allowLiveOrders &&
        (launched.setup.credentials.submitter l.l2 l.submitClient
          launched.launch.clobUrl).isSome) := by
  obtain ⟨⟨env', r⟩, hload, h⟩ := Except.ok_bind_inv h
  obtain ⟨config, hconfig, h⟩ := Except.ok_bind_inv h
  obtain ⟨launch, hlaunch, h⟩ := Except.ok_bind_inv h
  obtain ⟨credentials, hcredentials, h⟩ := Except.ok_bind_inv h
  cases h
  refine ⟨env', r, mapError_ok hload, ?_, mapError_ok hlaunch, hcredentials, rfl, rfl, rfl, rfl⟩
  unfold readConfig at hconfig
  split at hconfig
  · cases hconfig
  · cases hconfig
  · next config' hrun =>
    cases hconfig
    exact hrun

/-- The texts that switch something on. -/
def SaysYes (text : String) : Prop :=
  String.ofList (Text.toAsciiLowercase (Text.trim text.toList)) ∈ ["1", "true", "yes", "on"]

/-- The credentials are those that are set. -/
def Given (env : Environment) (file : Except String String) (c : Credentials) : Prop :=
  ∀ v ∈ [("POLY_API_KEY", c.apiKey), ("POLY_API_SECRET", c.apiSecret),
    ("POLY_PASSPHRASE", c.passphrase), ("POLY_ADDRESS", c.address)], Sets env file v.1 v.2

/-- The credentials are what an endpoint answered to a request signed with the key, with the address
of the key. -/
def Derived [AddCommGroup Point] [Module (ZMod secp256k1Order) Point] (l : Launcher F Key Point)
    (curve : Ecdsa.Curve secp256k1Order Point) (clobUrl : String) (signer : OrderSigner Key)
    (c : Credentials) : Prop :=
  c.address = hex0x l.lib signer.address.toList ∧ ∃ sig,
    Auth.signClobAuth l.lib signer.signingKey signer.address l.nowSecs.repr 0 POLYGON_CHAIN_ID =
      .ok sig ∧
    Auth.RecoverToWhenLow l.lib curve signer.signingKey
      (Auth.clobAuthDigest l.lib signer.address l.nowSecs.repr 0 POLYGON_CHAIN_ID) sig
      signer.address ∧
    FirstPast (Auth.Unanswered l.lib l.net clobUrl l.nowSecs signer.address sig)
      (Auth.Answered l.lib l.net clobUrl l.nowSecs signer.address sig
        ⟨c.apiKey, c.apiSecret, c.passphrase⟩) Auth.deriveEndpoints

/-- A variable that is read, and has no default to be mistaken for. -/
theorem sets_of_getD {path : String} {env' : Environment} {r : Except ConfigError Nat}
    (hload : loadEnvFile path file env = .ok (env', r)) {name : String}
    (h : ((env'.var name).getD "").isEmpty = false) :
    Sets env file name ((env'.var name).getD "") := by
  cases hvar : env'.var name with
  | none =>
    rw [hvar] at h
    cases h
  | some value => exact (var_loaded_iff hload).1 hvar

/-- A variable that has a value once the file is loaded was set. -/
theorem sets_of_textLookup {path : String} {env' : Environment} {r : Except ConfigError Nat}
    (hload : loadEnvFile path file env = .ok (env', r)) {name value : String}
    (h : LaunchConfig.textLookup env'.var name = some value) : Sets env file name value :=
  (var_loaded_iff hload).1 (LaunchConfig.textLookup_eq_some h)

/-- Live orders are switched on by a variable that was set. -/
theorem saysYes_of_live {path : String} {env' : Environment} {r : Except ConfigError Nat}
    (hload : loadEnvFile path file env = .ok (env', r)) {config : Config F}
    (hconfig : (Config.fromLookup l.build l.parseF64 env'.var).Returns config)
    (hlive : config.allowLiveOrders = true) :
    ∃ text, Sets env file "POLY_ALLOW_LIVE_ORDERS" text ∧ SaysYes text := by
  have hflag := (fromLookup_returns_iff.1 hconfig).1.live
  rw [hlive, envBoolLookup] at hflag
  cases htext : env'.var "POLY_ALLOW_LIVE_ORDERS" with
  | none =>
    -- without a text the flag is off
    rw [htext] at hflag
    cases hflag
  | some text =>
    rw [htext, Option.map_some, Option.getD_some, List.contains_iff_mem] at hflag
    exact ⟨text, (var_loaded_iff hload).1 htext, hflag⟩

omit [F64 F] in
/-- Credentials that are read and not missing were set. -/
theorem given_of_not_missing {path : String} {env' : Environment} {r : Except ConfigError Nat}
    (hload : loadEnvFile path file env = .ok (env', r))
    (hmissing : env'.credentials.missing = false)
    (haddress : env'.credentials.address.isEmpty = false) :
    Given env file env'.credentials := by
  simp only [Credentials.missing, Bool.or_eq_false_iff] at hmissing
  obtain ⟨⟨hapiKey, hsecret⟩, hpassphrase⟩ := hmissing
  refine List.forall_mem_cons.2 ⟨sets_of_getD hload hapiKey, ?_⟩
  refine List.forall_mem_cons.2 ⟨sets_of_getD hload hsecret, ?_⟩
  refine List.forall_mem_cons.2 ⟨sets_of_getD hload hpassphrase, ?_⟩
  exact List.forall_mem_singleton.2 (sets_of_getD hload haddress)

variable [AddCommGroup Point] [Module (ZMod secp256k1Order) Point]
  {curve : Ecdsa.Curve secp256k1Order Point} {fromSlice : JsonReader}

omit [F64 F] in
/-- Credentials that are derived with the key of a signer have its address. -/
theorem derived_of_answer (hlib : Auth.RecoverableSigning l.lib curve) {key apiKey clobUrl : String}
    {funder : Option H160} {kind : SignatureKind} {chainId : BitVec 64} {verifyingContract : H160}
    {signer : OrderSigner Key}
    (hnew : OrderSigner.new l.lib key apiKey funder kind chainId verifyingContract = .ok signer)
    (haddress : deriveAddress l.lib (l.lib.verifyingKey signer.signingKey) = signer.address)
    {creds : DerivedCredentials} {address : String}
    (hderive : Auth.deriveApiCredentials l.lib l.net l.deriveClient key POLYGON_CHAIN_ID clobUrl
      l.nowSecs = .ok (creds, address)) :
    Derived l curve clobUrl signer
      ⟨creds.apiKey, creds.secret, creds.passphrase, address⟩ := by
  obtain ⟨signingKey, sig, hsigningKey, hhex, hsig, hfirst⟩ := Auth.deriveApiCredentials_ok hderive
  -- both signers have read the same key
  obtain rfl : signingKey = signer.signingKey :=
    Except.ok.inj (hsigningKey.symm.trans (Auth.signingKeyOf_new hnew))
  rw [haddress] at hhex hsig hfirst
  exact ⟨hhex, sig, hsig, Auth.signClobAuth_recoverToWhenLow hlib haddress hsig, hfirst⟩

end

/-- The libraries on the key one; no request is sent, and no number has a fraction. -/
def keyOne : Launcher Rat Unit (ZMod secp256k1Order) where
  lib := Signing.keyOneSell.lib
  build := ⟨false⟩
  parseF64 _ := none
  parseAddress _ := none
  net := ⟨fun _ => none, fun _ => .failed⟩
  l2 := Program.keyOneL2
  deriveClient := .ok ()
  submitClient := .ok ()
  nowSecs := 1777000000

/-- The variables of the key one. -/
def keyOneVars : List (String × String) :=
  [("POLY_ALLOW_LIVE_ORDERS", "true"), ("MINIMAL_USDC_PER_TRADE", "1.01"),
    ("MINIMAL_MIN_BUY_LIMIT", "0.35"), ("MINIMAL_DECISION_MIN_TTE_US", "45000000"),
    ("MINIMAL_SELL_SLIPPAGE", "0.03"), ("MINIRUST_BINANCE_SYMBOL", "BTCUSDT"),
    ("POLY_PK", "0x0000000000000000000000000000000000000000000000000000000000000001"),
    ("POLY_API_KEY", "00000000-0000-0000-0000-000000000001"), ("POLY_API_SECRET", "c2VjcmV0"),
    ("POLY_PASSPHRASE", "passphrase"),
    ("POLY_ADDRESS", "0x7e5f4552091a69125d5dfcb7b8c2659029395bdf")]

/-- The file is read as its variables. -/
theorem assignments_keyOne : assignments (writeLines keyOneVars) = keyOneVars :=
  assignments_writeLines (by decide +kernel)

/-- The environment without variables. -/
def emptyEnvironment : Environment where
  vars _ := none
  nameable _ h := absurd rfl h

end Launcher

end Polyrust
