import Polyrust.Auth.Headers
import Polyrust.Lib.FirstPast
import Polyrust.Signing.Venue
import Polyrust.Submit.Http

/-!
# Derived credentials

`derive_api_credentials` (`auth.rs`): the private key signs a request to each of two endpoints until
one answers with credentials. Those that are returned were answered to a request with the address of
the key, which is returned with them (`deriveApiCredentials_ok`).
-/

namespace Polyrust

open Signing

/-- `DerivedCredentials`. -/
structure DerivedCredentials where
  apiKey : String
  secret : String
  passphrase : String
  deriving DecidableEq, Repr

/-- How the sending of a derivation request ends; the body may not be readable. -/
inductive DeriveAnswer where
  | response (status : Nat) (body : Option String)
  | failed
  deriving DecidableEq, Repr

namespace Auth

/-- The endpoints, in the order they are tried. -/
def deriveEndpoints : List (String × String) :=
  [("GET", "/auth/derive-api-key"), ("POST", "/auth/api-key")]

section
variable {Key Point : Type} (lib : SigningLib Key Point)

/-- The private key of a text, with or without `0x`. -/
def signingKeyOf (privateKeyHex : String) : Except AuthError Key := do
  let pkHex := ((Text.stripPrefix "0x".toList privateKeyHex.toList).map String.ofList).getD
    privateKeyHex
  let some pkBytes := lib.hexDecode pkHex | throw .invalidSecretBase64
  if pkBytes.length ≠ 32 then throw .invalidSecretBase64
  let some signingKey := lib.keyFromSlice pkBytes | throw .invalidSecretBase64
  return signingKey

/-- `from_str` is the deserializer of `DerivedCredentials`, `web` answers the requests. -/
structure DeriveWeb where
  fromStr : String → Option DerivedCredentials
  web : HttpRequest → DeriveAnswer

/-- The request to an endpoint. -/
def deriveRequest (clobUrl addressHex sigHex ts : String) (endpoint : String × String) :
    HttpRequest :=
  { method := endpoint.1
    url := clobUrl ++ endpoint.2
    headers := [("POLY_ADDRESS", addressHex), ("POLY_NONCE", "0"), ("POLY_SIGNATURE", sigHex),
      ("POLY_TIMESTAMP", ts)]
    body := [] }

/-- The credentials of a body, none of them empty. -/
def credentialsOf (net : DeriveWeb) (body : String) : Except AuthError DerivedCredentials :=
  match net.fromStr body with
  | none => .error .invalidSecretBase64
  | some creds =>
    if creds.apiKey.isEmpty || creds.secret.isEmpty || creds.passphrase.isEmpty then
      .error .invalidSecretBase64
    else .ok creds

/-- What an endpoint answers to a request that is signed; `now` is the time in seconds. -/
def deriveAnswer (net : DeriveWeb) (clobUrl : String) (now : Int) (address : H160)
    (sig : List UInt8) (endpoint : String × String) : DeriveAnswer :=
  net.web (deriveRequest clobUrl (hex0x lib address.toList) (hex0x lib sig) now.repr endpoint)

/-- The endpoints are tried until one is successful. -/
def tryEndpoints (net : DeriveWeb) (signingKey : Key) (address : H160) (chainId : BitVec 64)
    (clobUrl : String) (now : Int) :
    List (String × String) → Except AuthError DerivedCredentials
  | [] => .error .invalidSecretBase64
  | endpoint :: endpoints => do
    let sig ← signClobAuth lib signingKey address now.repr 0 chainId
    match deriveAnswer lib net clobUrl now address sig endpoint with
    | .response status body =>
      if 200 ≤ status ∧ status < 300 then credentialsOf net (body.getD "")
      else tryEndpoints net signingKey address chainId clobUrl now endpoints
    | .failed => tryEndpoints net signingKey address chainId clobUrl now endpoints

/-- `derive_api_credentials`: the credentials, and the address they belong to; `client` says whether
the HTTP client can be built. -/
def deriveApiCredentials (net : DeriveWeb) (client : Except String Unit) (privateKeyHex : String)
    (chainId : BitVec 64) (clobUrl : String) (now : Int) :
    Except AuthError (DerivedCredentials × String) := do
  let signingKey ← signingKeyOf lib privateKeyHex
  let address := deriveAddress lib (lib.verifyingKey signingKey)
  match client with
  | .error _ => throw .invalidSecretBase64
  | .ok () =>
    let creds ← tryEndpoints lib net signingKey address chainId clobUrl now deriveEndpoints
    return (creds, hex0x lib address.toList)

variable {lib} {net : DeriveWeb} {signingKey : Key} {address : H160} {chainId : BitVec 64}
  {clobUrl : String} {now : Int} {creds : DerivedCredentials}

section
variable (lib net clobUrl now) (address : H160) (sig : List UInt8)

/-- The endpoint does not answer with success. -/
def Unanswered (endpoint : String × String) : Prop :=
  ∀ status body, deriveAnswer lib net clobUrl now address sig endpoint = .response status body →
    ¬(200 ≤ status ∧ status < 300)

/-- The endpoint answers with the credentials. -/
def Answered (creds : DerivedCredentials) (endpoint : String × String) : Prop :=
  ∃ status body, deriveAnswer lib net clobUrl now address sig endpoint = .response status body ∧
    (200 ≤ status ∧ status < 300) ∧ credentialsOf net (body.getD "") = .ok creds

end

/-- The credentials are those of the first endpoint that answers with success. -/
theorem tryEndpoints_ok_iff {sig : List UInt8} {endpoints : List (String × String)}
    (hsig : signClobAuth lib signingKey address now.repr 0 chainId = .ok sig) :
    tryEndpoints lib net signingKey address chainId clobUrl now endpoints = .ok creds ↔
      FirstPast (Unanswered lib net clobUrl now address sig)
        (Answered lib net clobUrl now address sig creds) endpoints := by
  induction endpoints with
  | nil => exact ⟨fun h => (by cases h), fun h => absurd h firstPast_nil⟩
  | cons endpoint endpoints ih =>
    rw [tryEndpoints, hsig, Except.ok_bind, firstPast_cons, ← ih, Unanswered, Answered]
    cases hanswer : deriveAnswer lib net clobUrl now address sig endpoint with
    | failed => simp
    | response status body =>
      dsimp only
      by_cases hsuccess : 200 ≤ status ∧ status < 300
      · rw [if_pos hsuccess]
        refine ⟨fun h => .inl ⟨status, body, rfl, hsuccess, h⟩, ?_⟩
        rintro (⟨_, _, ⟨⟩, -, h⟩ | ⟨hpassed, -⟩)
        · exact h
        · exact absurd hsuccess (hpassed status body rfl)
      · rw [if_neg hsuccess]
        refine ⟨fun h => .inr ⟨?_, h⟩, ?_⟩
        · rintro _ _ ⟨⟩
          exact hsuccess
        · rintro (⟨_, _, ⟨⟩, hsuccess', -⟩ | ⟨-, h⟩)
          · exact absurd hsuccess' hsuccess
          · exact h

/-- A private key that both signers read. -/
theorem signingKeyOf_new {privateKeyHex apiKey : String} {funder : Option H160}
    {kind : SignatureKind} {contract : H160} {signer : OrderSigner Key}
    (h : OrderSigner.new lib privateKeyHex apiKey funder kind chainId contract = .ok signer) :
    signingKeyOf lib privateKeyHex = .ok signer.signingKey := by
  simp only [OrderSigner.new, signingKeyOf] at h ⊢
  generalize ((Text.stripPrefix "0x".toList privateKeyHex.toList).map String.ofList).getD
    privateKeyHex = pkHex at h ⊢
  cases hdecode : lib.hexDecode pkHex with
  | none =>
    rw [hdecode] at h
    cases h
  | some pkBytes =>
    simp only [hdecode] at h ⊢
    by_cases hlen : pkBytes.length ≠ 32
    · rw [if_pos hlen] at h
      cases h
    rw [if_neg hlen] at h ⊢
    cases hkey : lib.keyFromSlice pkBytes with
    | none =>
      rw [hkey] at h
      cases h
    | some signingKey =>
      simp only [hkey] at h ⊢
      by_cases hempty : apiKey.isEmpty = true
      · rw [if_pos hempty] at h
        cases h
      rw [if_neg hempty] at h
      split at h <;> cases h <;> rfl

/-- What is derived: the address of the key, and what the first endpoint that is successful answers
to a request signed with the key. -/
theorem deriveApiCredentials_ok {client : Except String Unit} {privateKeyHex addressHex : String}
    (h : deriveApiCredentials lib net client privateKeyHex chainId clobUrl now =
      .ok (creds, addressHex)) :
    ∃ signingKey sig, signingKeyOf lib privateKeyHex = .ok signingKey ∧
      addressHex = hex0x lib (deriveAddress lib (lib.verifyingKey signingKey)).toList ∧
      signClobAuth lib signingKey (deriveAddress lib (lib.verifyingKey signingKey)) now.repr 0
        chainId = .ok sig ∧
      FirstPast
        (Unanswered lib net clobUrl now (deriveAddress lib (lib.verifyingKey signingKey)) sig)
        (Answered lib net clobUrl now (deriveAddress lib (lib.verifyingKey signingKey)) sig creds)
        deriveEndpoints := by
  obtain ⟨signingKey, hkey, h⟩ := Except.ok_bind_inv h
  cases client with
  | error e => cases h
  | ok =>
    obtain ⟨creds', hcreds, h⟩ := Except.ok_bind_inv h
    cases h
    cases hsig : signClobAuth lib signingKey (deriveAddress lib (lib.verifyingKey signingKey))
        now.repr 0 chainId with
    | error e =>
      rw [deriveEndpoints, tryEndpoints, hsig] at hcreds
      cases hcreds
    | ok sig => exact ⟨signingKey, sig, hkey, rfl, hsig, (tryEndpoints_ok_iff hsig).1 hcreds⟩

end

end Auth

end Polyrust
