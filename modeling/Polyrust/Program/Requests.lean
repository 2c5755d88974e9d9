import Polyrust.Program.Posted
import Polyrust.Submit.Http

/-!
# What is sent

Every order that is posted is sent by the submitter that `main.rs` builds of the credentials. A
venue that knows them authenticates the request as that order, and no request of another order has
its signature (`Program.posts_authenticated`).
-/

namespace Polyrust

open IntWidth

/-- `auth_signer` and `submitter` of `main`; `client` says whether the HTTP client can be built. -/
def Credentials.submitter (lib : Auth.L2Lib) (client : Except String Unit) (clobUrl : String)
    (c : Credentials) : Option HttpSubmitter := do
  let auth ← (L2AuthSigner.new lib c.apiKey c.passphrase c.apiSecret c.address).toOption
  (HttpSubmitter.new client clobUrl auth).toOption

/-- The venue knows the credentials; their secret is written with or without its padding. -/
structure Registered (lib : Auth.L2Lib) (venue : ApiVenue) (clobUrl : String) (c : Credentials)
    (account : L2AuthSigner) : Prop where
  baseUrl : venue.baseUrl = clobUrl
  known : venue.accounts c.apiKey = some account
  apiKey : account.apiKey = c.apiKey
  passphrase : account.passphrase = c.passphrase
  address : account.address = c.address
  secret : ∃ pads, c.apiSecret.toList ++ List.replicate pads '=' = lib.base64.encode account.secret

/-- The submitter of registered credentials signs as their account. -/
theorem Registered.submitter {lib : Auth.L2Lib} (hbase64 : lib.base64.UrlSafe) {venue : ApiVenue}
    {client : Except String Unit} {clobUrl : String} {c : Credentials} {account : L2AuthSigner}
    {submitter : HttpSubmitter} (h : Registered lib venue clobUrl c account)
    (hs : c.submitter lib client clobUrl = some submitter) :
    submitter.baseUrl = clobUrl ∧ submitter.auth = account := by
  obtain ⟨pads, hpads⟩ := h.secret
  have hsecret := Auth.decodeSecretB64Padded_of_pads hbase64 hpads
  have hauth : L2AuthSigner.new lib c.apiKey c.passphrase c.apiSecret c.address = .ok account := by
    rw [L2AuthSigner.new, hsecret, ← h.apiKey, ← h.passphrase, ← h.address]
    rfl
  rw [Credentials.submitter, hauth] at hs
  replace hs := Except.toOption_eq_some hs
  unfold HttpSubmitter.new at hs
  split at hs
  · cases hs
  · cases client with
    | error e => cases hs
    | ok =>
      cases hs
      exact ⟨rfl, rfl⟩

namespace Program

section
variable {F Key Point : Type} [F64 F] {lib : SigningLib Key Point} {pl : Platform}
variable {setup : Setup F} {ops : List (Op F)} {s : Program F Key}

/-- Live orders need a submitter. -/
theorem liveGates_submitter {submitter : Bool} {signer : Option (OrderSigner Key)}
    {c : Credentials} (h : liveGates submitter signer c = .ok ()) : submitter = true := by
  rw [liveGates] at h
  split_ifs at h with hsubmitter
  simpa using hsubmitter

omit [F64 F] in
/-- Live orders need a submitter. -/
theorem start_submitter {core : RuntimeCore F}
    (h : start lib setup.config core setup.credentials setup.privateKey setup.funder setup.kind
      setup.submitter = .ok s) : setup.config.allowLiveOrders = true → setup.submitter = true := by
  rw [start] at h
  split at h
  · cases h
  obtain ⟨signer, -, h⟩ := Except.ok_bind_inv h
  split at h
  · obtain ⟨_, hgates, -⟩ := Except.ok_bind_inv h
    exact fun _ => liveGates_submitter hgates
  · next hshadow => exact fun hlive => absurd hlive hshadow

/-- Where something is posted, there is a submitter. -/
theorem Runs.submitter (h : Runs lib pl setup ops s) {p : Posted} (hp : p ∈ s.posted) :
    setup.submitter = true := by
  obtain ⟨signer, hsigner, -⟩ := h.owner hp
  have hlive : setup.config.allowLiveOrders = true := by
    rw [← h.signer.1, hsigner]
    rfl
  obtain ⟨core, s₀, -, hstart, -⟩ := h
  exact start_submitter hstart hlive

/-- In every run, what is posted is sent by the submitter of the credentials. At a venue where they
are registered the request is authenticated as the posted order, whenever it is sent; and a request
that is authenticated with its signature is of its time and its method, and has its path and its
body one after the other, unless the two signed messages are a collision. -/
theorem posts_authenticated {l2 : Auth.L2Lib} (hbase64 : l2.base64.UrlSafe)
    (h : Runs lib pl setup ops s) {client : Except String Unit} {clobUrl : String}
    (hsubmitter : setup.submitter = (setup.credentials.submitter l2 client clobUrl).isSome)
    {venue : ApiVenue} {account : L2AuthSigner}
    (hregistered : Registered l2 venue clobUrl setup.credentials account) {p : Posted}
    (hp : p ∈ s.posted) :
    ∃ submitter, setup.credentials.submitter l2 client clobUrl = some submitter ∧
      ∀ tsSecs, i64.Fits tsSecs →
        venue.authenticate l2 (submitter.request l2 p.body tsSecs) =
            some { account, tsSecs, method := "POST", path := HttpSubmitter.ORDER_PATH
                   body := p.body.bytes } ∧
        ∀ request a, venue.authenticate l2 request = some a → a.account = account →
          request.header "POLY_SIGNATURE" =
              (submitter.request l2 p.body tsSecs).header "POLY_SIGNATURE" →
            (a.tsSecs = tsSecs ∧ a.method = "POST" ∧ Signing.textBytes a.path ++ a.body =
              Signing.textBytes HttpSubmitter.ORDER_PATH ++ p.body.bytes) ∨
            ∃ ts, request.header "POLY_TIMESTAMP" = some ts ∧
              l2.Collide account.secret (L2AuthSigner.message ts a.method a.path a.body)
                (L2AuthSigner.message tsSecs.repr "POST" HttpSubmitter.ORDER_PATH
                  p.body.bytes) := by
  rw [h.submitter hp] at hsubmitter
  obtain ⟨submitter, hsome⟩ := Option.isSome_iff_exists.1 hsubmitter.symm
  obtain ⟨hbase, hauth⟩ := hregistered.submitter hbase64 hsome
  refine ⟨submitter, hsome, fun tsSecs hts => ?_⟩
  have hknown : venue.accounts submitter.auth.apiKey = some submitter.auth := by
    rw [hauth, hregistered.apiKey, hregistered.known]
  have hown := HttpSubmitter.request_authenticated l2 (hregistered.baseUrl.trans hbase.symm)
    hknown p.body hts
  rw [hauth] at hown
  refine ⟨hown, fun request a hrequest haccount hsignature => ?_⟩
  rcases ApiVenue.same_signature hbase64 hown hrequest haccount hsignature with
    hsame | ⟨ts, ts', hts', hrequestTs, hcollide⟩
  · exact .inl hsame
  · obtain rfl : tsSecs.repr = ts := Option.some.inj
      ((HttpSubmitter.request_timestamp l2 submitter p.body tsSecs).symm.trans hts')
    exact .inr ⟨ts', hrequestTs, hcollide⟩

end

/-- The message that is signed when the five shares are posted. -/
def keyOneMessage : String :=
  "1777000000POST/order\x7b\"order\":\x7b\"salt\":0,\"maker\":\"0x7e5f4552091a69125d5dfcb7b" ++
    "8c2659029395bdf\",\"signer\":\"0x7e5f4552091a69125d5dfcb7b8c2659029395bdf\",\"tokenId\":" ++
    "\"11\",\"makerAmount\":\"5000000\",\"takerAmount\":\"1800000\",\"side\":\"SELL\",\"expir" ++
    "ation\":\"0\",\"signatureType\":0,\"timestamp\":\"1777000000000\",\"metadata\":\"0x00000" ++
    "00000000000000000000000000000000000000000000000000000000000\",\"builder\":\"0x0000000000" ++
    "000000000000000000000000000000000000000000000000000000\",\"signature\":\"0x0188aeacd6d8e" ++
    "066e8dbd221a4164090d7f16fb4430345fa8645f4e070d7628130c64d6bb183d90541a931b4b28d32b1ed8d3" ++
    "1c085f0084b8b2f870db4caa1611b\"\x7d,\"orderType\":\"FAK\",\"owner\":\"00000000-0000-0000" ++
    "-0000-000000000001\",\"deferExec\":false\x7d"

/-- HMAC-SHA256 of that message. -/
def keyOneHmac (secret message : List UInt8) : Bytes 32 :=
  let known := secret = [115, 101, 99, 114, 101, 116] ∧ message = Signing.textBytes keyOneMessage
  ⟨Bytes.natToBe 32 <|
    if known then 0xcffbaef39aa9719d8ab70dee921100da5a1b6ce9160789a6e6da3edb59e4dbbe else 0,
    Bytes.length_natToBe ..⟩

/-- The libraries on that message. -/
def keyOneL2 : Auth.L2Lib := ⟨keyOneHmac, Base64.urlSafe⟩

/-- The account of the credentials. -/
def keyOneAccount : L2AuthSigner where
  apiKey := keyOneSetup.credentials.apiKey
  passphrase := keyOneSetup.credentials.passphrase
  address := keyOneSetup.credentials.address
  secret := [115, 101, 99, 114, 101, 116]

/-- The venue that knows it. -/
def keyOneVenue : ApiVenue where
  baseUrl := "https://clob.polymarket.com"
  accounts key := if key = keyOneAccount.apiKey then some keyOneAccount else none

/-- The venue knows the credentials. -/
theorem keyOneVenue_registered :
    Registered keyOneL2 keyOneVenue "https://clob.polymarket.com" keyOneSetup.credentials
      keyOneAccount where
  baseUrl := rfl
  known := by decide
  apiKey := rfl
  passphrase := rfl
  address := rfl
  secret := ⟨0, by decide⟩

/-- The five shares are authenticated as the order of the account. -/
theorem posts_authenticated_sell :
    ∃ (s : Program Rat Unit) (p : Posted) (submitter : HttpSubmitter),
      Runs Signing.keyOneSell.lib (.reading [numberedBook, numberedTrade]) keyOneSetup sellOps s ∧
      p ∈ s.posted ∧
      keyOneVenue.authenticate keyOneL2 (submitter.request keyOneL2 p.body 1777000000) =
        some { account := keyOneAccount, tsSecs := 1777000000, method := "POST"
               path := HttpSubmitter.ORDER_PATH, body := p.body.bytes } := by
  obtain ⟨s, hrun, hposted⟩ := sellOps_run
  obtain ⟨p, hp, -⟩ := List.exists_of_mem_map (hposted ▸ List.mem_singleton_self _)
  have hsubmitter : keyOneSetup.submitter = (keyOneSetup.credentials.submitter keyOneL2 (.ok ())
      "https://clob.polymarket.com").isSome := by
    decide +kernel
  obtain ⟨submitter, -, hsent⟩ :=
    posts_authenticated Base64.urlSafe_spec hrun hsubmitter keyOneVenue_registered hp
  exact ⟨s, p, submitter, hrun, hp, (hsent 1777000000 (by decide)).1⟩

end Program

end Polyrust
