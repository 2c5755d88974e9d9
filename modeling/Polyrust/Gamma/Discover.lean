import Mathlib.Data.List.Perm.Basic
import Polyrust.Gamma
import Polyrust.Json
import Polyrust.State

/-!
# Market discovery

What the Gamma client (`gamma.rs`) makes of the answers of the two servers: the window that a server
time falls in, and the market of an event. The tokens of a market come in four encodings, and in any
order; which of them is YES and which is NO depends on neither, as long as the labels say it
(`pair_of_encoding`).
-/

namespace Polyrust

open IntWidth

namespace Gamma

/-! ## The client -/

/-- A token with its label. -/
structure ClobToken where
  tokenId : TokenId
  outcome : String
  deriving DecidableEq, Repr

/-- The client of the launch configuration, which has no window that is not positive. -/
structure GammaClient where
  clobUrl : String
  gammaUrl : String
  slugFmt : String
  windowS : Int
  window_pos : 0 < windowS

/-- What a GET brings back. -/
structure Reply where
  status : Nat
  body : String

/-- `StatusCode::is_success`. -/
def Reply.isSuccess (reply : Reply) : Bool := 200 ≤ reply.status && reply.status < 300

/-- What the servers answer at a time; nothing, where the request or the read of the body fails. -/
abbrev Web : Type := String → Option Reply

/-- A server time in seconds: what looks like milliseconds is divided. -/
def normaliseTime (raw : Int) : Int := if 10000000000 < raw then raw.tdiv 1000 else raw

/-- `GammaClient::get_clob_time`, without its error texts; the status is not looked at. -/
def GammaClient.getClobTime (client : GammaClient) (web : Web) : Option Int := do
  let reply ← web (client.clobUrl ++ "/time")
  let raw ← parseI64 (Text.trim reply.body.toList)
  return normaliseTime raw

/-- `GammaClient::slug_ts`. -/
def GammaClient.slugTs (b : Build) (client : GammaClient) (serverTs : Int) : Exec Int :=
  b.arith i64 (serverTs - serverTs % client.windowS)

/-- `str::replace`, of a text that is not empty; `skip` characters of an occurrence are still to be
passed over. -/
def replaceAll (pat new : List Char) (skip : Nat) : List Char → List Char
  | [] => []
  | c :: rest =>
    match skip with
    | skip + 1 => replaceAll pat new skip rest
    | 0 =>
      if pat <+: c :: rest then new ++ replaceAll pat new (pat.length - 1) rest
      else c :: replaceAll pat new 0 rest

/-- The slug of a window. -/
def GammaClient.slug (client : GammaClient) (slugTs : Int) : String :=
  String.ofList (replaceAll "\x7bts\x7d".toList slugTs.repr.toList 0 client.slugFmt.toList)

/-! ## Tokens -/

section
variable (fromStr : String → Option Json.Value)

/-- A text under one of the keys; the first of them that is there decides. -/
def textAt (obj : Json.Value) (keys : List String) : Option String :=
  (keys.findSome? obj.get).bind Json.Value.asStr

/-- `parse_token_objects`. -/
def parseTokenObjects (arr : List Json.Value) : List ClobToken :=
  arr.filterMap fun obj => do
    let id ← (textAt obj ["id", "tokenId", "token_id"]).filter fun s => !s.isEmpty
    return { tokenId := ⟨id⟩, outcome := (textAt obj ["outcome", "label"]).getD "" }

/-- `Value::is_object`. -/
def isObject : Json.Value → Bool
  | .object _ => true
  | _ => false

/-- The value is read as a list of texts, all of which are texts. -/
def textsOf (value : Json.Value) : Option (List String) :=
  value.asArray.bind fun items => items.mapM Json.Value.asStr

/-- `parse_str_array`: what is no text is left out of an array, but not of a text of one. -/
def parseStrArray (value : Json.Value) : Option (List String) :=
  match value with
  | .array arr => some (arr.filterMap Json.Value.asStr)
  | .string s => (fromStr s).bind textsOf
  | _ => none

/-- The objects that a value lists, itself or in its text, if its first item is one. -/
def objectsOf (value : Json.Value) : Option (List Json.Value) :=
  let items :=
    match value with
    | .string raw => (fromStr raw).bind Json.Value.asArray
    | _ => value.asArray
  items.filter fun arr => (arr.head?.map isObject).getD false

/-- `parse_clob_tokens`. -/
def parseClobTokens (value : Json.Value) (outcomes : Option Json.Value) : Option (List ClobToken) :=
  match objectsOf fromStr value with
  | some arr => some (parseTokenObjects arr)
  | none => do
    let ids ← parseStrArray fromStr value
    let outs := (outcomes.bind (parseStrArray fromStr)).getD []
    return ids.mapIdx fun i id => { tokenId := ⟨id⟩, outcome := outs.getD i "" }

end

/-- The words of the source for YES. -/
def yesKeywords : List (List Char) :=
  ["yes".toList, "up".toList, "above".toList, "higher".toList]

/-- The words of the source for NO. -/
def noKeywords : List (List Char) :=
  ["no".toList, "down".toList, "below".toList, "lower".toList]

/-- The label has one of the keywords, in any case. -/
def ClobToken.says (token : ClobToken) (keywords : List (List Char)) : Bool :=
  keywords.any (Text.contains (Text.toAsciiLowercase token.outcome.toList))

/-- `select_yes_no`. -/
def selectYesNo (tokens : List ClobToken) : Option (ClobToken × ClobToken) := do
  let yes ← tokens.find? fun t => t.says yesKeywords
  let no ← tokens.find? fun t => t.says noKeywords && t.tokenId != yes.tokenId
  return (yes, no)

/-! ## The market of an event -/

/-- A flag that is false where it is missing. -/
def flag (value : Json.Value) (key : String) : Bool :=
  ((value.get key).bind Json.Value.asBool).getD false

/-- The market takes orders. -/
def isOpen (market : Json.Value) : Bool :=
  flag market "active" && flag market "acceptingOrders" && !flag market "closed"

section
variable (b : Build) (fromStr : String → Option Json.Value) (client : GammaClient) (slug : String)
  (slugTs : Int)

/-- The context of a market, whether it has expired or not. -/
def readMarket (market : Json.Value) : Exec (Option MarketContext) := do
  let some conditionId := (textAt market ["conditionId"]).filter fun s => !s.isEmpty | return none
  let some ids := market.get "clobTokenIds" | return none
  let some tokens := parseClobTokens fromStr ids (market.get "outcomes") | return none
  let some (yes, no) := selectYesNo tokens | return none
  let parsed ← parseGammaIso8601 b ((textAt market ["endDate"]).getD "").toList
  -- the fallback is computed whether it is needed or not
  let fallback ← b.arith i64 (slugTs + client.windowS)
  return some
    { slug := slug, conditionId := ⟨conditionId⟩, yesToken := yes.tokenId, noToken := no.tokenId
      endTs := parsed.getD fallback, slugTs := slugTs }

/-- The loop over the markets of an event; `now` is the time of the clock, in seconds. -/
def tryMarkets (now : Int) : List Json.Value → Exec (Option MarketContext)
  | [] => return none
  | market :: markets => do
    if !isOpen market then tryMarkets now markets
    else
      match ← readMarket b fromStr client slug slugTs market with
      | none => return none
      | some ctx => if ctx.endTs ≤ now then tryMarkets now markets else return some ctx

/-- `GammaClient::try_discover_slug`. -/
def GammaClient.tryDiscoverSlug (web : Web) (now : Int) : Exec (Option MarketContext) := do
  let some reply := web (client.gammaUrl ++ "/events/slug/" ++ slug) | return none
  if !reply.isSuccess then return none
  let some event := fromStr reply.body | return none
  if !flag event "active" || flag event "closed" then return none
  let some markets := (event.get "markets").bind Json.Value.asArray | return none
  tryMarkets b fromStr client slug slugTs now markets

end

section
variable (b : Build) (fromStr : String → Option Json.Value) (client : GammaClient)

/-- `GammaClient::discover_for_ts`. -/
def GammaClient.discoverForTs (web : Web) (now slugTs : Int) : Exec (Option MarketContext) :=
  client.tryDiscoverSlug b fromStr (client.slug slugTs) slugTs web now

/-- `GammaClient::discover`: the window of the server time; `later` is what the servers answer after
it was asked for. -/
def GammaClient.discover (web later : Web) (now : Int) : Exec (Option MarketContext) := do
  let some serverTs := client.getClobTime web | return none
  client.discoverForTs b fromStr later now (← client.slugTs b serverTs)

end

/-! ## The window of a server time -/

section
variable {b : Build} {client : GammaClient} {slugTs : Int}

/-- What is read is in range. -/
theorem parseI64_fits {s : List Char} {v : Int} (h : parseI64 s = some v) : i64.Fits v := by
  have hchecked (digits : List Char) (x : Int)
      (h : (if digits.isEmpty || !digits.all Char.isDigit then none else i64.checked x) = some v) :
      i64.Fits v := by
    split at h
    · cases h
    · exact (checked_eq_some.1 h).1 ▸ (checked_eq_some.1 h).2
  unfold parseI64 at h
  split at h
  exact hchecked _ _ h

/-- Seconds from milliseconds are in range. -/
theorem normaliseTime_fits {raw : Int} (h : i64.Fits raw) : i64.Fits (normaliseTime raw) := by
  rw [normaliseTime]
  split
  · next hlarge =>
    have hdiv : raw.tdiv 1000 = raw / 1000 := Int.tdiv_eq_ediv_of_nonneg (by omega)
    simp only [IntWidth.Fits, i64] at h ⊢
    omega
  · exact h

/-- A server time is a 64-bit number. -/
theorem getClobTime_fits {web : Web} {serverTs : Int}
    (h : client.getClobTime web = some serverTs) : i64.Fits serverTs := by
  obtain ⟨reply, -, h⟩ := Option.bind_eq_some_iff.1 h
  obtain ⟨raw, hraw, h⟩ := Option.bind_eq_some_iff.1 h
  cases h
  exact normaliseTime_fits (parseI64_fits hraw)

/-- The window of a server time: what it starts at is a multiple of its length, and the time is in
it. -/
theorem slugTs_window {web : Web} {serverTs : Int}
    (hserver : client.getClobTime web = some serverTs) (hpos : 0 ≤ serverTs)
    (h : client.slugTs b serverTs = .ok slugTs) :
    client.windowS ∣ slugTs ∧ slugTs ≤ serverTs ∧ serverTs < slugTs + client.windowS := by
  have hwindow := client.window_pos
  have hmod := Int.emod_nonneg serverTs hwindow.ne'
  have hlt := Int.emod_lt_of_pos serverTs hwindow
  have hdivides := Int.mul_ediv_add_emod serverTs client.windowS
  have hnonneg := Int.mul_nonneg hwindow.le (Int.ediv_nonneg hpos hwindow.le)
  have hfits : i64.Fits (serverTs - serverTs % client.windowS) := by
    have := (getClobTime_fits hserver).2
    simp only [IntWidth.Fits, i64] at this ⊢
    omega
  rw [GammaClient.slugTs, Build.arith_of_fits hfits] at h
  cases h
  refine ⟨Int.dvd_self_sub_emod, ?_, ?_⟩ <;> omega

end

/-! ## Tokens in any encoding and order -/

section
variable {fromStr : String → Option Json.Value} {tokens tokens' : List ClobToken}

/-- A token as an object. -/
def ClobToken.toObject (token : ClobToken) : Json.Value :=
  .object [("id", .string token.tokenId.str), ("outcome", .string token.outcome)]

/-- An array, or the text of one. -/
inductive Writes (fromStr : String → Option Json.Value) (items : List Json.Value) :
    Json.Value → Prop where
  | array : Writes fromStr items (.array items)
  | text (text : String) (h : fromStr text = some (.array items)) :
    Writes fromStr items (.string text)

/-- The encodings of the tokens: objects, or ids with outcomes beside them. -/
inductive Encodes (fromStr : String → Option Json.Value) (tokens : List ClobToken)
    (value : Json.Value) (outcomes : Option Json.Value) : Prop where
  | objects (h : Writes fromStr (tokens.map ClobToken.toObject) value)
  | columns (outs : Json.Value) (houtcomes : outcomes = some outs)
      (hids : Writes fromStr (tokens.map fun t => .string t.tokenId.str) value)
      (houts : Writes fromStr (tokens.map fun t => .string t.outcome) outs)

/-- The objects of tokens are read as these tokens. -/
theorem parseTokenObjects_toObject (hids : ∀ t ∈ tokens, t.tokenId.str ≠ "") :
    parseTokenObjects (tokens.map ClobToken.toObject) = tokens := by
  induction tokens with
  | nil => rfl
  | cons token tokens ih =>
    obtain ⟨hid, hids⟩ := List.forall_mem_cons.1 hids
    have hread : (textAt token.toObject ["id", "tokenId", "token_id"]).filter
        (fun s => !s.isEmpty) = some token.tokenId.str := by
      refine Option.filter_eq_some_iff.2 ⟨rfl, ?_⟩
      simpa using hid
    have hlabel : textAt token.toObject ["outcome", "label"] = some token.outcome := rfl
    rw [parseTokenObjects] at ih ⊢
    rw [List.map_cons, List.filterMap_cons_some, ih hids]
    rw [hread, hlabel]
    rfl

/-- Texts are read as texts. -/
theorem filterMap_asStr (texts : List String) :
    (texts.map Json.Value.string).filterMap Json.Value.asStr = texts := by
  rw [List.filterMap_map]
  exact List.filterMap_some

/-- Texts are read where every item has to be one. -/
theorem mapM_asStr (texts : List String) :
    (texts.map Json.Value.string).mapM Json.Value.asStr = some texts := by
  induction texts with
  | nil => rfl
  | cons text texts ih =>
    rw [List.map_cons, List.mapM_cons, ih]
    rfl

/-- A column is read as its texts, in both encodings. -/
theorem parseStrArray_writes {texts : List String} {value : Json.Value}
    (h : Writes fromStr (texts.map Json.Value.string) value) :
    parseStrArray fromStr value = some texts := by
  cases h with
  | array => exact congrArg some (filterMap_asStr texts)
  | text text h =>
    rw [parseStrArray, h]
    exact mapM_asStr texts

/-- What is written is listed, if its first item is an object. -/
theorem objectsOf_writes {items : List Json.Value} {value : Json.Value}
    (h : Writes fromStr items value) :
    objectsOf fromStr value = (some items).filter fun arr =>
      (arr.head?.map isObject).getD false := by
  cases h with
  | array => rfl
  | text text h =>
    rw [objectsOf, h]
    rfl

/-- The tokens are read back from every encoding. -/
theorem parseClobTokens_encodes {value : Json.Value} {outcomes : Option Json.Value}
    (hids : ∀ t ∈ tokens, t.tokenId.str ≠ "") (h : Encodes fromStr tokens value outcomes) :
    parseClobTokens fromStr value outcomes = some tokens := by
  rw [parseClobTokens]
  cases h with
  | objects h =>
    rw [objectsOf_writes h]
    cases tokens with
    | nil =>
      have hnone : parseStrArray fromStr value = some [] := parseStrArray_writes h
      rw [List.map_nil, Option.filter_some_neg (by simp)]
      dsimp only
      rw [hnone]
      rfl
    | cons token tokens =>
      rw [Option.filter_some_pos rfl]
      exact congrArg some (parseTokenObjects_toObject hids)
  | columns outs houtcomes hcolumn houts =>
    have hnot : objectsOf fromStr value = none := by
      rw [objectsOf_writes hcolumn]
      cases tokens <;> rfl
    have hidsRead : parseStrArray fromStr value = some (tokens.map fun t => t.tokenId.str) := by
      refine parseStrArray_writes ?_
      rw [List.map_map]
      exact hcolumn
    have houtsRead : parseStrArray fromStr outs = some (tokens.map ClobToken.outcome) := by
      refine parseStrArray_writes ?_
      rw [List.map_map]
      exact houts
    rw [hnot]
    dsimp only
    rw [hidsRead, houtcomes, Option.bind_some, houtsRead, Option.bind_eq_bind, Option.bind_some]
    refine congrArg some (List.ext_getElem (by simp) fun i hi _ => ?_)
    simp only [List.length_mapIdx, List.length_map] at hi
    simp [List.getD_eq_getElem?_getD, hi]

/-- Where one token is named YES, and one of the others NO, these are selected in any order. -/
theorem selectYesNo_perm {yes no : ClobToken}
    (hyes : tokens.filter (fun t => t.says yesKeywords) = [yes])
    (hno : tokens.filter (fun t => t.says noKeywords && t.tokenId != yes.tokenId) = [no])
    (h : tokens'.Perm tokens) : selectYesNo tokens' = some (yes, no) := by
  have hfirst {p : ClobToken → Bool} {t : ClobToken} (hp : tokens.filter p = [t]) :
      tokens'.find? p = some t := by
    have hperm := h.filter p
    rw [hp] at hperm
    rw [← List.head?_filter, List.perm_singleton.1 hperm, List.head?_cons]
  rw [selectYesNo, hfirst hyes, Option.bind_eq_bind, Option.bind_some, hfirst hno]
  rfl

/-- Where one token is named YES, and one of the others NO, these are selected from every encoding
of the tokens in every order. -/
theorem pair_of_encoding {yes no : ClobToken} (hids : ∀ t ∈ tokens, t.tokenId.str ≠ "")
    (hyes : tokens.filter (fun t => t.says yesKeywords) = [yes])
    (hno : tokens.filter (fun t => t.says noKeywords && t.tokenId != yes.tokenId) = [no])
    (hperm : tokens'.Perm tokens) {value : Json.Value} {outcomes : Option Json.Value}
    (h : Encodes fromStr tokens' value outcomes) :
    (parseClobTokens fromStr value outcomes).bind selectYesNo = some (yes, no) := by
  rw [parseClobTokens_encodes (fun t ht => hids t (hperm.mem_iff.1 ht)) h, Option.bind_some]
  exact selectYesNo_perm hyes hno hperm

end

/-- The two tokens of a market, in the order in which NO comes first. -/
def downUp : List ClobToken := [⟨⟨"12"⟩, "Down"⟩, ⟨⟨"11"⟩, "Up"⟩]

/-- A JSON library that reads the texts of these values and refuses all others, for the runs on
fixed inputs. -/
def reading (values : List Json.Value) (text : String) : Option Json.Value :=
  values.find? fun value => value.chars == text.toList

/-- The first value with the characters of the text is read. -/
theorem reading_toText {values : List Json.Value} {value : Json.Value}
    (h : values.find? (fun v => v.chars == value.chars) = some value) :
    reading values value.toText = some value := by
  rw [reading, Json.Value.toText_toList]
  exact h

/-- The objects of the tokens are read from a text. -/
theorem pair_of_encoding_text :
    (parseClobTokens (reading [.array (downUp.map ClobToken.toObject)])
      (.string (Json.Value.array (downUp.map ClobToken.toObject)).toText) none).bind selectYesNo =
        some (⟨⟨"11"⟩, "Up"⟩, ⟨⟨"12"⟩, "Down"⟩) := by
  have hids : ∀ t ∈ downUp, t.tokenId.str ≠ "" := by decide +kernel
  exact pair_of_encoding hids (by decide +kernel) (by decide +kernel) (.refl downUp)
    (.objects (.text _ (reading_toText (by simp))))

end Gamma

end Polyrust
