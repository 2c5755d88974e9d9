import Polyrust.Auth.Headers
import Polyrust.Submit

/-!
# Posting an order

The request that `submit_order` makes of a signed body, and the outcome that it makes of the answer
(`submit.rs`). The REST interface of the venue, at the base URL that the submitter is built with,
looks up the credentials of a request and computes its signature again: it authenticates every
request of the submitter as what was submitted (`HttpSubmitter.request_authenticated`), and no other
request with its signature (`ApiVenue.same_signature`).
-/

namespace Polyrust

open IntWidth Signing

/-- A request as it is sent; where a header is there twice, the first one counts. -/
structure HttpRequest where
  method : String
  url : String
  headers : List (String × String)
  body : List UInt8
  deriving DecidableEq, Repr

/-- The value of a header; the case of its name does not matter. -/
def HttpRequest.header (request : HttpRequest) (name : String) : Option String :=
  (request.headers.find? fun h => Text.eqIgnoreAsciiCase h.1.toList name.toList).map (·.2)

/-- A header is found among those of distinct names that come first. -/
theorem HttpRequest.header_of_mem {request : HttpRequest} {pairs rest : List (String × String)}
    (h : request.headers = pairs ++ rest)
    (hdistinct : (pairs.map (·.1)).Pairwise fun a b =>
      Text.eqIgnoreAsciiCase a.toList b.toList = false)
    {name value : String} (hmem : (name, value) ∈ pairs) : request.header name = some value := by
  rw [header, h]
  clear h
  induction pairs with
  | nil => cases hmem
  | cons pair pairs ih =>
    obtain ⟨hfirst, hothers⟩ := List.pairwise_cons.1 hdistinct
    rcases List.mem_cons.1 hmem with rfl | hmem
    · have hself : Text.eqIgnoreAsciiCase name.toList name.toList = true := beq_self_eq_true _
      rw [List.cons_append, List.find?_cons, hself]
      rfl
    · have hskip := hfirst name (List.mem_map_of_mem (f := (·.1)) hmem)
      rw [List.cons_append, List.find?_cons, hskip]
      exact ih hothers hmem

/-- How the sending of a request ends. -/
inductive HttpAnswer where
  /-- a response, whose body may not be readable -/
  | response (status : Nat) (body : Except String (List UInt8))
  /-- a transport error, with what `is_timeout`, `is_connect` and `is_request` say of it -/
  | failed (timeout connect request : Bool) (e : String)

/-- Why there is no submitter. -/
inductive SubmitError where
  | buildClient (e : String)
  | invalidBaseUrl
  deriving DecidableEq, Repr

/-- Where orders are sent, and who signs the requests. -/
structure HttpSubmitter where
  baseUrl : String
  auth : L2AuthSigner
  deriving DecidableEq, Repr

namespace HttpSubmitter

/-- The path that orders are posted to. -/
def ORDER_PATH : String := "/order"

/-- `official_default_headers`. -/
def officialDefaultHeaders : List (String × String) :=
  [("User-Agent", "rs_clob_client"), ("Accept", "*/*"), ("Connection", "keep-alive"),
    ("Content-Type", "application/json")]

/-- `HttpSubmitter::new`; `client` says whether the HTTP client can be built. -/
def new (client : Except String Unit) (baseUrl : String) (auth : L2AuthSigner) :
    Except SubmitError HttpSubmitter :=
  if baseUrl.isEmpty || decide ("/".toList <:+ baseUrl.toList) then .error .invalidBaseUrl
  else
    match client with
    | .ok () => .ok { baseUrl, auth }
    | .error e => .error (.buildClient e)

/-- The request of `submit_order`; the client adds those of its default headers that are not
there. -/
def request (lib : Auth.L2Lib) (submitter : HttpSubmitter) (body : SignedFakOrderBody)
    (tsSecs : Int) : HttpRequest :=
  let headers := (submitter.auth.headers lib "POST" ORDER_PATH body.bytes tsSecs).asPairs
  { method := "POST"
    url := submitter.baseUrl ++ ORDER_PATH
    headers := headers ++ officialDefaultHeaders.filter fun h =>
      !headers.any fun h' => Text.eqIgnoreAsciiCase h'.1.toList h.1.toList
    body := body.bytes }

/-- The outcome of `submit_order`. -/
def outcome (pl : Platform) : HttpAnswer → SubmitOutcome
  | .response status (.ok raw) => Submit.classify pl status raw
  | .response status (.error e) => .unknown status (some ("read_body: " ++ e))
  | .failed timeout connect request e =>
    let kind :=
      if timeout then "timeout" else if connect then "connect" else if request then "request"
      else "other"
    .unknown 0 (some ("transport_" ++ kind ++ ": " ++ e))

/-- Only a response whose body is read settles an order. -/
theorem outcome_settled {pl : Platform} {answer : HttpAnswer}
    (h : ∀ status error, outcome pl answer ≠ .unknown status error) :
    ∃ status raw, answer = .response status (.ok raw) ∧
      outcome pl answer = Submit.classify pl status raw := by
  cases answer with
  | response status body =>
    cases body with
    | ok raw => exact ⟨status, raw, rfl, rfl⟩
    | error e => exact absurd rfl (h _ _)
  | failed timeout connect request e => exact absurd rfl (h _ _)

end HttpSubmitter

/-! ## The venue -/

/-- The REST interface at a base URL, with the credentials that it knows by their keys. -/
structure ApiVenue where
  baseUrl : String
  accounts : String → Option L2AuthSigner

/-- What a request is authenticated as. -/
structure Authenticated where
  account : L2AuthSigner
  tsSecs : Int
  method : String
  path : String
  body : List UInt8
  deriving DecidableEq, Repr

namespace ApiVenue

variable (lib : Auth.L2Lib)

/-- The request is one of the account, by its headers, and its signature is that of its time, its
method, its path and its body. -/
def authenticate (venue : ApiVenue) (request : HttpRequest) : Option Authenticated := do
  let path := String.ofList (← Text.stripPrefix venue.baseUrl.toList request.url.toList)
  let ts ← request.header "POLY_TIMESTAMP"
  let tsSecs ← parseI64 ts.toList
  let account ← venue.accounts (← request.header "POLY_API_KEY")
  if request.method.toList.all Char.isUpper && path.toList.head? == some '/' &&
      request.header "POLY_PASSPHRASE" == some account.passphrase &&
      request.header "POLY_ADDRESS" == some account.address &&
      request.header "POLY_SIGNATURE" ==
        some (account.signature lib (L2AuthSigner.message ts request.method path request.body))
  then some { account, tsSecs, method := request.method, path, body := request.body }
  else none

variable {lib}

/-- What a request has to be for it to be authenticated. -/
theorem authenticate_eq_some {venue : ApiVenue} {request : HttpRequest} {a : Authenticated}
    (h : venue.authenticate lib request = some a) :
    ∃ ts, request.header "POLY_TIMESTAMP" = some ts ∧
      L2AuthSigner.WellFormed ts a.method a.path ∧ parseI64 ts.toList = some a.tsSecs ∧
      request.header "POLY_SIGNATURE" =
        some (a.account.signature lib (L2AuthSigner.message ts a.method a.path a.body)) := by
  unfold authenticate at h
  obtain ⟨path, -, h₁⟩ := Option.bind_eq_some_iff.1 h
  obtain ⟨ts, htimestamp, h₂⟩ := Option.bind_eq_some_iff.1 h₁
  obtain ⟨tsSecs, hts, h₃⟩ := Option.bind_eq_some_iff.1 h₂
  obtain ⟨apiKey, -, h₄⟩ := Option.bind_eq_some_iff.1 h₃
  obtain ⟨account, -, h₅⟩ := Option.bind_eq_some_iff.1 h₄
  split at h₅
  · next hchecks =>
    cases h₅
    simp only [Bool.and_eq_true, List.all_eq_true, beq_iff_eq] at hchecks
    obtain ⟨⟨⟨⟨hmethod, hpath⟩, -⟩, -⟩, hsignature⟩ := hchecks
    exact ⟨ts, htimestamp,
      ⟨L2AuthSigner.isDecimal_of_parseI64 hts, hmethod, List.head?_eq_some_iff.1 hpath⟩, hts,
      hsignature⟩
  · cases h₅

/-- Requests of one account with one signature are of one time and one method, and their paths and
bodies together are the same, unless their two messages are a collision. -/
theorem same_signature (hbase64 : lib.base64.UrlSafe) {venue venue' : ApiVenue}
    {request request' : HttpRequest} {a a' : Authenticated}
    (h : venue.authenticate lib request = some a) (h' : venue'.authenticate lib request' = some a')
    (haccount : a'.account = a.account)
    (hsignature : request'.header "POLY_SIGNATURE" = request.header "POLY_SIGNATURE") :
    (a'.tsSecs = a.tsSecs ∧ a'.method = a.method ∧
      textBytes a'.path ++ a'.body = textBytes a.path ++ a.body) ∨
    ∃ ts ts', request.header "POLY_TIMESTAMP" = some ts ∧
      request'.header "POLY_TIMESTAMP" = some ts' ∧
      lib.Collide a.account.secret (L2AuthSigner.message ts' a'.method a'.path a'.body)
        (L2AuthSigner.message ts a.method a.path a.body) := by
  obtain ⟨ts, htimestamp, hwell, hts, hsig⟩ := authenticate_eq_some h
  obtain ⟨ts', htimestamp', hwell', hts', hsig'⟩ := authenticate_eq_some h'
  rw [hsig', hsig, Option.some.injEq, L2AuthSigner.signature, L2AuthSigner.signature,
    haccount] at hsignature
  have htag := hbase64.encode_inj.1 (String.ofList_injective hsignature)
  by_cases hmessage : L2AuthSigner.message ts' a'.method a'.path a'.body =
      L2AuthSigner.message ts a.method a.path a.body
  · obtain ⟨rfl, hmethod, hrest⟩ := (L2AuthSigner.message_inj hwell' hwell).1 hmessage
    exact .inl ⟨Option.some.inj (hts'.symm.trans hts), hmethod, hrest⟩
  · exact .inr ⟨ts, ts', htimestamp, htimestamp', hmessage, Bytes.ext htag⟩

end ApiVenue

namespace HttpSubmitter

/-- No header of a request is there twice. -/
theorem names_distinct : (["POLY_API_KEY", "POLY_PASSPHRASE", "POLY_SIGNATURE", "POLY_TIMESTAMP",
    "POLY_ADDRESS", "Content-Type"] : List String).Pairwise fun a b =>
      Text.eqIgnoreAsciiCase a.toList b.toList = false := by decide

/-- The headers of a request of the submitter. -/
theorem request_header {lib : Auth.L2Lib} {submitter : HttpSubmitter} {body : SignedFakOrderBody}
    {tsSecs : Int} {name value : String} (hmem : (name, value) ∈
      (submitter.auth.headers lib "POST" ORDER_PATH body.bytes tsSecs).asPairs) :
    (submitter.request lib body tsSecs).header name = some value := by
  have hdistinct : ((submitter.auth.headers lib "POST" ORDER_PATH body.bytes
      tsSecs).asPairs.map (·.1)).Pairwise fun a b =>
        Text.eqIgnoreAsciiCase a.toList b.toList = false := names_distinct
  exact HttpRequest.header_of_mem rfl hdistinct hmem

/-- The timestamp of a request is found in its header. -/
theorem request_timestamp (lib : Auth.L2Lib) (submitter : HttpSubmitter)
    (body : SignedFakOrderBody) (tsSecs : Int) :
    (submitter.request lib body tsSecs).header "POLY_TIMESTAMP" = some tsSecs.repr :=
  request_header (.tail _ (.tail _ (.tail _ (.head _))))

/-- At the venue it is built for, every request of the submitter is authenticated as the order that
was submitted. -/
theorem request_authenticated (lib : Auth.L2Lib) {venue : ApiVenue}
    {submitter : HttpSubmitter} (hbase : venue.baseUrl = submitter.baseUrl)
    (haccount : venue.accounts submitter.auth.apiKey = some submitter.auth)
    (body : SignedFakOrderBody) {tsSecs : Int} (hts : i64.Fits tsSecs) :
    venue.authenticate lib (submitter.request lib body tsSecs) =
      some { account := submitter.auth, tsSecs, method := "POST", path := ORDER_PATH
             body := body.bytes } := by
  have hpath : Text.stripPrefix venue.baseUrl.toList
      (submitter.request lib body tsSecs).url.toList = some ORDER_PATH.toList := by
    rw [hbase, request, String.toList_append, Text.stripPrefix,
      if_pos (List.prefix_append _ _), List.drop_left]
  have hkey : (submitter.request lib body tsSecs).header "POLY_API_KEY" =
      some submitter.auth.apiKey := request_header (.head _)
  have hpassphrase : (submitter.request lib body tsSecs).header "POLY_PASSPHRASE" =
      some submitter.auth.passphrase := request_header (.tail _ (.head _))
  have hsignature : (submitter.request lib body tsSecs).header "POLY_SIGNATURE" =
      some (submitter.auth.signature lib
        (L2AuthSigner.message tsSecs.repr "POST" ORDER_PATH body.bytes)) := by
    have hupper : String.ofList (Text.toAsciiUppercase "POST".toList) = "POST" := by decide
    rw [← hupper]
    exact request_header (.tail _ (.tail _ (.head _)))
  have htimestamp := request_timestamp lib submitter body tsSecs
  have haddress : (submitter.request lib body tsSecs).header "POLY_ADDRESS" =
      some submitter.auth.address :=
    request_header (.tail _ (.tail _ (.tail _ (.tail _ (.head _)))))
  unfold ApiVenue.authenticate
  simp only [hpath, htimestamp, hkey, hpassphrase, haddress, hsignature, haccount,
    parseI64_repr hts, Option.bind_eq_bind, Option.bind_some, String.ofList_toList]
  have hmethod : (submitter.request lib body tsSecs).method = "POST" := rfl
  have hbody : (submitter.request lib body tsSecs).body = body.bytes := rfl
  have hupper : "POST".toList.all Char.isUpper = true := by decide
  have hslash : (ORDER_PATH.toList.head? == some '/') = true := by decide
  rw [hmethod, hbody, hupper, hslash]
  simp only [beq_self_eq_true, Bool.and_self, if_true]

end HttpSubmitter

end Polyrust
