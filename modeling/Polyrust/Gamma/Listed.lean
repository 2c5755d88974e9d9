import Polyrust.Gamma.Discover
import Polyrust.Gamma.Time
import Polyrust.Lib.FirstPast

/-!
# The markets that are listed

What an event says of its markets, in the terms of its JSON: which of them take orders, their
tokens with the labels beside them, and when they end. The Gamma client finds the first market that
takes orders and has not expired, and a market that cannot be read ends its search
(`discover_for_ts_some_iff`).
-/

namespace Polyrust

open IntWidth

namespace Gamma

section
variable (fromStr : String → Option Json.Value)

/-! ## What a market says -/

/-- What is found at the first of the keys that the object has. -/
def AtFirst (obj : Json.Value) (keys : List String) (value : Json.Value) : Prop :=
  FirstPast (fun key => obj.get key = none) (fun key => obj.get key = some value) keys

/-- The market is active, accepts orders, and is not closed. -/
structure TakesOrders (market : Json.Value) : Prop where
  active : market.get "active" = some (.bool true)
  accepting : market.get "acceptingOrders" = some (.bool true)
  not_closed : market.get "closed" ≠ some (.bool true)

/-- The object names the token; without a label, it is empty. -/
structure ObjectNames (obj : Json.Value) (token : ClobToken) : Prop where
  id : AtFirst obj ["id", "tokenId", "token_id"] (.string token.tokenId.str)
  id_ne : token.tokenId.str ≠ ""
  label : AtFirst obj ["outcome", "label"] (.string token.outcome) ∨
    token.outcome = "" ∧ ∀ label, ¬AtFirst obj ["outcome", "label"] (.string label)

/-- A column of texts: those of an array, or a text of an array that has nothing else. -/
inductive Column : Json.Value → List String → Prop where
  | array {items : List Json.Value} {texts : List String}
    (h : Collects (fun item text => item = .string text) items texts) : Column (.array items) texts
  | text {text : String} {texts : List String}
    (h : fromStr text = some (.array (texts.map .string))) : Column (.string text) texts

/-- The labels beside the ids; there are none where they are no column. -/
inductive Labels : Option Json.Value → List String → Prop where
  | column {outcomes : Json.Value} {labels : List String} (h : Column fromStr outcomes labels) :
    Labels (some outcomes) labels
  | none {outcomes : Option Json.Value}
    (h : ∀ value labels, outcomes = some value → ¬Column fromStr value labels) : Labels outcomes []

/-- The tokens that a value lists: its objects, if its first item is one, and otherwise its ids,
each with the label that stands at the same place. -/
inductive ListsTokens (value : Json.Value) (outcomes : Option Json.Value)
    (tokens : List ClobToken) : Prop where
  | objects (first : List (String × Json.Value)) (items : List Json.Value)
    (hvalue : Writes fromStr (.object first :: items) value)
    (htokens : Collects ObjectNames (.object first :: items) tokens)
  | columns (labels : List String)
    (hnot : ∀ first items, ¬Writes fromStr (.object first :: items) value)
    (hids : Column fromStr value (tokens.map fun token => token.tokenId.str))
    (hlabels : Labels fromStr outcomes labels)
    (hbeside : ∀ (i : Nat) token, tokens[i]? = some token → token.outcome = labels.getD i "")

/-- One of the words is in the label, in any case. -/
def ClobToken.Named (token : ClobToken) (words : List String) : Prop :=
  ∃ word ∈ words, word.toList <:+: Text.toAsciiLowercase token.outcome.toList

/-- The words for the side that wins above the strike. -/
def yesWords : List String := ["yes", "up", "above", "higher"]

/-- The words for the side that wins below it. -/
def noWords : List String := ["no", "down", "below", "lower"]

/-- The first token that is named YES, and the first one with another id that is named NO. -/
structure NamesPair (tokens : List ClobToken) (yes no : ClobToken) : Prop where
  firstYes : FirstPast (fun t => ¬t.Named yesWords) (fun t => t = yes ∧ t.Named yesWords) tokens
  firstNo : FirstPast (fun t => ¬(t.Named noWords ∧ t.tokenId ≠ yes.tokenId))
    (fun t => t = no ∧ t.Named noWords ∧ t.tokenId ≠ yes.tokenId) tokens

/-- What a market says of its condition and of its tokens. -/
structure Describes (market : Json.Value) (ctx : MarketContext) : Prop where
  conditionId : market.get "conditionId" = some (.string ctx.conditionId.str)
  conditionId_ne : ctx.conditionId.str ≠ ""
  tokens : ∃ ids tokens yes no, market.get "clobTokenIds" = some ids ∧
    ListsTokens fromStr ids (market.get "outcomes") tokens ∧ NamesPair tokens yes no ∧
    ctx.yesToken = yes.tokenId ∧ ctx.noToken = no.tokenId
  distinct : ctx.yesToken ≠ ctx.noToken

end

/-- When a market ends: at its end date, or with its window where that cannot be read. The end of
the window is computed in any case. -/
inductive EndsAt (b : Build) (client : GammaClient) (slugTs : Int) (market : Json.Value)
    (endTs : Int) : Prop where
  | date (text : String) (windowEnd : Int) (hdate : market.get "endDate" = some (.string text))
    (hread : parseGammaIso8601 b text.toList = .ok (some endTs))
    (hwindow : b.arith i64 (slugTs + client.windowS) = .ok windowEnd)
  | window (hdate : ∀ text, market.get "endDate" = some (.string text) →
      parseGammaIso8601 b text.toList = .ok none)
    (hwindow : b.arith i64 (slugTs + client.windowS) = .ok endTs)

/-- The market of a window and a slug, as an event lists it. -/
structure Listed (b : Build) (fromStr : String → Option Json.Value) (client : GammaClient)
    (slug : String) (slugTs : Int) (market : Json.Value) (ctx : MarketContext) : Prop where
  slug_eq : ctx.slug = slug
  slugTs_eq : ctx.slugTs = slugTs
  describes : Describes fromStr market ctx
  ends : EndsAt b client slugTs market ctx.endTs

/-! ## What the client reads -/

section
variable {fromStr : String → Option Json.Value}

/-- A value that is read as a text is that text. -/
theorem asStr_eq_some {value : Json.Value} {s : String} :
    value.asStr = some s ↔ value = .string s := by
  cases value <;> simp [Json.Value.asStr]

/-- A value that is read as an array is that array. -/
theorem asArray_eq_some {value : Json.Value} {items : List Json.Value} :
    value.asArray = some items ↔ value = .array items := by
  cases value <;> simp [Json.Value.asArray]

/-- The text at some keys is that of the first key there is. -/
theorem textAt_eq_some {obj : Json.Value} {keys : List String} {s : String} :
    textAt obj keys = some s ↔ AtFirst obj keys (.string s) := by
  rw [textAt, AtFirst, ← findSome?_eq_some_iff_firstPast, Option.bind_eq_some_iff]
  refine ⟨?_, fun h => ⟨_, h, rfl⟩⟩
  rintro ⟨value, hvalue, hs⟩
  rw [hvalue, asStr_eq_some.1 hs]

/-- A single key is the first one, unless the object does not have it. -/
theorem textAt_singleton {obj : Json.Value} {key s : String} :
    textAt obj [key] = some s ↔ obj.get key = some (.string s) := by
  rw [textAt_eq_some, AtFirst, firstPast_cons]
  simp [firstPast_nil]

/-- A flag is set where its value is `true`. -/
theorem flag_iff {value : Json.Value} {key : String} :
    flag value key = true ↔ value.get key = some (.bool true) := by
  rw [flag]
  cases value.get key with
  | none => simp
  | some inner => cases inner <;> simp [Json.Value.asBool]

/-- The markets that the loop does not skip are those that take orders. -/
theorem isOpen_iff {market : Json.Value} : isOpen market = true ↔ TakesOrders market := by
  rw [isOpen, Bool.and_eq_true, Bool.and_eq_true, Bool.not_eq_true', Bool.eq_false_iff, flag_iff,
    flag_iff, ne_eq, flag_iff]
  exact ⟨fun ⟨⟨hactive, haccepting⟩, hclosed⟩ => ⟨hactive, haccepting, hclosed⟩,
    fun ⟨hactive, haccepting, hclosed⟩ => ⟨⟨hactive, haccepting⟩, hclosed⟩⟩

/-- The token of an object. -/
theorem parseTokenObjects_iff {arr : List Json.Value} {tokens : List ClobToken} :
    parseTokenObjects arr = tokens ↔ Collects ObjectNames arr tokens := by
  refine filterMap_eq_iff_collects fun obj token => ?_
  simp only [Option.bind_eq_bind, Option.bind_eq_some_iff, Option.filter_eq_some_iff,
    textAt_eq_some, Option.pure_def, Option.some.injEq]
  refine ⟨?_, fun h => ⟨token.tokenId.str, ⟨h.id, ?_⟩, ?_⟩⟩
  · rintro ⟨id, ⟨hid, hne⟩, rfl⟩
    refine ⟨hid, ?_, ?_⟩
    · rintro rfl
      cases hne
    · cases hlabel : textAt obj ["outcome", "label"] with
      | none =>
        refine .inr ⟨rfl, fun label h => ?_⟩
        rw [textAt_eq_some.2 h] at hlabel
        cases hlabel
      | some label => exact .inl (textAt_eq_some.1 hlabel)
  · simpa using h.id_ne
  · have hlabel : (textAt obj ["outcome", "label"]).getD "" = token.outcome := by
      rcases h.label with hlabel | ⟨hempty, hnone⟩
      · rw [textAt_eq_some.2 hlabel, Option.getD_some]
      · rw [Option.eq_none_iff_forall_ne_some.2 fun label hl => hnone label (textAt_eq_some.1 hl),
          Option.getD_none, hempty]
    rw [hlabel]

/-- A value that is read as texts is an array of them. -/
theorem textsOf_eq_some {value : Json.Value} {texts : List String} :
    textsOf value = some texts ↔ value = .array (texts.map .string) := by
  have hitems : ∀ (items : List Json.Value) (texts : List String),
      items.mapM Json.Value.asStr = some texts ↔ items = texts.map .string := by
    intro items texts
    induction items generalizing texts with
    | nil => cases texts <;> simp
    | cons item items ih =>
      simp only [List.mapM_cons, Option.bind_eq_bind, Option.bind_eq_some_iff, asStr_eq_some, ih,
        Option.pure_def, Option.some.injEq]
      refine ⟨?_, fun h => ?_⟩
      · rintro ⟨text, rfl, texts, rfl, rfl⟩
        rfl
      · cases texts with
        | nil => cases h
        | cons text texts =>
          cases h
          exact ⟨text, rfl, texts, rfl, rfl⟩
  rw [textsOf, Option.bind_eq_some_iff]
  refine ⟨?_, ?_⟩
  · rintro ⟨items, hvalue, h⟩
    rw [asArray_eq_some.1 hvalue, (hitems items texts).1 h]
  · rintro rfl
    exact ⟨_, rfl, (hitems _ texts).2 rfl⟩

/-- The texts that are read are those of a column. -/
theorem parseStrArray_iff {value : Json.Value} {texts : List String} :
    parseStrArray fromStr value = some texts ↔ Column fromStr value texts := by
  have harray : ∀ items : List Json.Value, items.filterMap Json.Value.asStr = texts ↔
      Collects (fun item text => item = .string text) items texts :=
    fun items => filterMap_eq_iff_collects fun item text => asStr_eq_some
  cases value with
  | array items =>
    rw [parseStrArray, Option.some.injEq, harray]
    refine ⟨.array, ?_⟩
    rintro ⟨h⟩
    exact h
  | string s =>
    rw [parseStrArray, Option.bind_eq_some_iff]
    refine ⟨?_, ?_⟩
    · rintro ⟨value, hvalue, htexts⟩
      rw [textsOf_eq_some.1 htexts] at hvalue
      exact .text hvalue
    · rintro ⟨⟩
      next h => exact ⟨_, h, textsOf_eq_some.2 rfl⟩
  | _ => refine ⟨fun h => ?_, fun h => ?_⟩ <;> cases h

/-- The labels that are read are those of the outcomes. -/
theorem parseStrArray_labels {outcomes : Option Json.Value} {labels : List String} :
    (outcomes.bind (parseStrArray fromStr)).getD [] = labels ↔ Labels fromStr outcomes labels := by
  cases hread : outcomes.bind (parseStrArray fromStr) with
  | none =>
    have hnone : ∀ value labels, outcomes = some value → ¬Column fromStr value labels := by
      rintro value labels rfl hcolumn
      rw [Option.bind_some, parseStrArray_iff.2 hcolumn] at hread
      cases hread
    rw [Option.getD_none]
    refine ⟨?_, ?_⟩
    · rintro rfl
      exact .none hnone
    · rintro (hcolumn | -)
      · exact absurd hcolumn (hnone _ _ rfl)
      · rfl
  | some read =>
    obtain ⟨value, rfl, hvalue⟩ := Option.bind_eq_some_iff.1 hread
    rw [Option.getD_some]
    refine ⟨?_, ?_⟩
    · rintro rfl
      exact .column (parseStrArray_iff.1 hvalue)
    · rintro (hcolumn | hnone)
      · exact Option.some.inj (hvalue.symm.trans (parseStrArray_iff.2 hcolumn))
      · exact absurd (parseStrArray_iff.1 hvalue) (hnone _ _ rfl)

/-- The objects of a value, if its first item is one. -/
theorem objectsOf_iff {value : Json.Value} {items : List Json.Value} :
    objectsOf fromStr value = some items ↔
      Writes fromStr items value ∧ ∃ first rest, items = .object first :: rest := by
  have hfirst : (items.head?.map isObject).getD false = true ↔
      ∃ first rest, items = .object first :: rest := by
    cases items with
    | nil => simp
    | cons item rest => cases item <;> simp [isObject]
  unfold objectsOf
  rw [Option.filter_eq_some_iff, hfirst]
  refine and_congr_left fun _ => ?_
  cases value with
  | string s =>
    rw [Option.bind_eq_some_iff]
    refine ⟨?_, ?_⟩
    · rintro ⟨value, hvalue, hitems⟩
      rw [asArray_eq_some.1 hitems] at hvalue
      exact .text s hvalue
    · rintro ⟨⟩
      next h => exact ⟨_, h, rfl⟩
  | array arr =>
    rw [asArray_eq_some]
    refine ⟨?_, ?_⟩
    · rintro ⟨⟩
      exact .array
    · rintro ⟨⟩
      rfl
  | _ => exact ⟨nofun, nofun⟩

/-- The tokens that are read are those that are listed. -/
theorem parseClobTokens_iff {value : Json.Value} {outcomes : Option Json.Value}
    {tokens : List ClobToken} :
    parseClobTokens fromStr value outcomes = some tokens ↔
      ListsTokens fromStr value outcomes tokens := by
  rw [parseClobTokens]
  cases hobjects : objectsOf fromStr value with
  | some items =>
    obtain ⟨hwrites, first, rest, rfl⟩ := objectsOf_iff.1 hobjects
    rw [Option.some.injEq, parseTokenObjects_iff]
    refine ⟨.objects first rest hwrites, ?_⟩
    rintro (⟨first', rest', hwrites', htokens⟩ | ⟨labels, hnot, -⟩)
    · have hsame := hobjects.symm.trans (objectsOf_iff.2 ⟨hwrites', first', rest', rfl⟩)
      rw [Option.some.inj hsame]
      exact htokens
    · exact absurd hwrites (hnot first rest)
  | none =>
    have hnot : ∀ first items, ¬Writes fromStr (.object first :: items) value := by
      intro first items hwrites
      rw [objectsOf_iff.2 ⟨hwrites, first, items, rfl⟩] at hobjects
      cases hobjects
    simp only [Option.bind_eq_bind, Option.bind_eq_some_iff, Option.pure_def, Option.some.injEq]
    refine ⟨?_, ?_⟩
    · rintro ⟨ids, hids, rfl⟩
      refine .columns _ hnot ?_ (parseStrArray_labels.1 rfl) ?_
      · have hsame : (ids.mapIdx fun i id => (ClobToken.mk ⟨id⟩
            (((outcomes.bind (parseStrArray fromStr)).getD []).getD i ""))).map
              (fun token => token.tokenId.str) = ids :=
          List.ext_getElem (by simp) fun i hi hi' => by simp
        rw [hsame]
        exact parseStrArray_iff.1 hids
      · intro i token htoken
        rw [List.getElem?_mapIdx, Option.map_eq_some_iff] at htoken
        obtain ⟨id, -, rfl⟩ := htoken
        rfl
    · rintro (⟨first, items, hwrites, -⟩ | ⟨labels, -, hids, hlabels, hbeside⟩)
      · exact absurd hwrites (hnot first items)
      · refine ⟨_, parseStrArray_iff.2 hids, ?_⟩
        rw [parseStrArray_labels.2 hlabels]
        refine List.ext_getElem (by simp) fun i hi hi' => ?_
        have htoken := hbeside i tokens[i] (List.getElem?_eq_getElem hi')
        rw [List.getElem_mapIdx, List.getElem_map, ← htoken]

/-- The code's words for YES are those. -/
theorem says_yes_iff {token : ClobToken} :
    token.says yesKeywords = true ↔ token.Named yesWords := by
  simp [ ClobToken.says, ClobToken.Named, Text.contains, yesKeywords, yesWords]

/-- The code's words for NO are those. -/
theorem says_no_iff {token : ClobToken} :
    token.says noKeywords = true ↔ token.Named noWords := by
  simp [ ClobToken.says, ClobToken.Named, Text.contains, noKeywords, noWords]

/-- The tokens that are selected are the two that are named. -/
theorem selectYesNo_iff {tokens : List ClobToken} {yes no : ClobToken} :
    selectYesNo tokens = some (yes, no) ↔ NamesPair tokens yes no := by
  have hyes : ∀ y : ClobToken, tokens.find? (fun t => t.says yesKeywords) = some y ↔
      FirstPast (fun t => ¬t.Named yesWords) (fun t => t = y ∧ t.Named yesWords) tokens :=
    fun y => find?_eq_some_iff_firstPast fun t => says_yes_iff
  have hno : ∀ y n : ClobToken,
      tokens.find? (fun t => t.says noKeywords && t.tokenId != y.tokenId) = some n ↔
        FirstPast (fun t => ¬(t.Named noWords ∧ t.tokenId ≠ y.tokenId))
          (fun t => t = n ∧ t.Named noWords ∧ t.tokenId ≠ y.tokenId) tokens := by
    refine fun y n => find?_eq_some_iff_firstPast fun t => ?_
    rw [Bool.and_eq_true, says_no_iff, bne_iff_ne]
  simp only [selectYesNo, Option.bind_eq_bind, Option.bind_eq_some_iff, Option.pure_def,
    Option.some.injEq, Prod.mk.injEq]
  refine ⟨?_, fun h => ⟨yes, (hyes yes).2 h.firstYes, no,
    (hno yes no).2 h.firstNo, rfl, rfl⟩⟩
  rintro ⟨y, hy, n, hn, rfl, rfl⟩
  exact ⟨(hyes y).1 hy, (hno y n).1 hn⟩

/-- The two tokens have different ids. -/
theorem NamesPair.distinct {tokens : List ClobToken} {yes no : ClobToken}
    (h : NamesPair tokens yes no) : yes.tokenId ≠ no.tokenId := by
  obtain ⟨before, token, after, -, -, rfl, -, hne⟩ := h.firstNo
  exact hne.symm

/-! ## The end of a market -/

variable {b : Build} {client : GammaClient} {slugTs : Int} {market : Json.Value} {endTs : Int}

/-- No date is read from nothing. -/
theorem parseGammaIso8601_empty : parseGammaIso8601 b "".toList = .ok none := by
  have hfields : readFields ((timestampBody "".toList).splitOnP isSeparator) = none := by
    decide +kernel
  rw [parseGammaIso8601, hfields]

/-- What is computed for the end of a market. -/
theorem endsAt_iff : EndsAt b client slugTs market endTs ↔ ∃ date windowEnd,
    parseGammaIso8601 b ((textAt market ["endDate"]).getD "").toList = .ok date ∧
    b.arith i64 (slugTs + client.windowS) = .ok windowEnd ∧ date.getD windowEnd = endTs := by
  refine ⟨?_, ?_⟩
  · rintro (⟨text, windowEnd, hdate, hread, hwindow⟩ | ⟨hdate, hwindow⟩)
    · refine ⟨some endTs, windowEnd, ?_, hwindow, rfl⟩
      rw [textAt_singleton.2 hdate]
      exact hread
    · refine ⟨none, endTs, ?_, hwindow, rfl⟩
      cases htext : textAt market ["endDate"] with
      | none => exact parseGammaIso8601_empty
      | some text => exact hdate text (textAt_singleton.1 htext)
  · rintro ⟨date, windowEnd, hread, hwindow, rfl⟩
    cases date with
    | none =>
      refine .window (fun text hdate => ?_) hwindow
      rw [textAt_singleton.2 hdate] at hread
      exact hread
    | some date =>
      cases htext : textAt market ["endDate"] with
      | none =>
        rw [htext, Option.getD_none, parseGammaIso8601_empty] at hread
        cases hread
      | some text =>
        rw [htext] at hread
        exact .date text windowEnd (textAt_singleton.1 htext) hread hwindow

/-- A market with a date at a zone of zero ends at that date. -/
theorem EndsAt.utc (h : EndsAt b client slugTs market endTs) {stamp : Stamp} {zone : Utc}
    (hyear : stamp.date.year ≤ 9999)
    (hdate : market.get "endDate" = some (.string (String.ofList (stamp.render zone.text)))) :
    endTs = stamp.unix := by
  have hutc := (parse_utc b stamp zone).2.1 hyear
  rcases h with ⟨text, windowEnd, htext, hread, -⟩ | ⟨hnone, -⟩
  · cases htext.symm.trans hdate
    rw [String.toList_ofList, hutc] at hread
    exact (Option.some.inj (Except.ok.inj hread)).symm
  · have := hnone _ hdate
    rw [String.toList_ofList, hutc] at this
    cases this

/-- A market without a date ends with its window. -/
theorem EndsAt.undated (h : EndsAt b client slugTs market endTs)
    (hfits : i64.Fits (slugTs + client.windowS))
    (hdate : ∀ text, market.get "endDate" ≠ some (.string text)) :
    endTs = slugTs + client.windowS := by
  rcases h with ⟨text, windowEnd, htext, -⟩ | ⟨-, hwindow⟩
  · exact absurd htext (hdate text)
  · rw [Build.arith_of_fits hfits] at hwindow
    exact (Except.ok.inj hwindow).symm

/-! ## The market that is found -/

variable {slug : String} {now : Int} {ctx : MarketContext}

/-- A market is read as it is listed. -/
theorem readMarket_iff : readMarket b fromStr client slug slugTs market = .ok (some ctx) ↔
    Listed b fromStr client slug slugTs market ctx := by
  have hcondition (s : String) :
      (textAt market ["conditionId"]).filter (fun s => !s.isEmpty) = some s ↔
        market.get "conditionId" = some (.string s) ∧ s ≠ "" := by
    rw [Option.filter_eq_some_iff, textAt_singleton]
    simp
  rw [readMarket]
  refine ⟨fun h => ?_, fun h => ?_⟩
  · split at h
    · next conditionId hread =>
      split at h
      · next ids hids =>
        split at h
        · next tokens htokens =>
          split at h
          · next yes no hselect =>
            obtain ⟨date, hdate, h⟩ := Except.ok_bind_inv h
            obtain ⟨windowEnd, hwindow, h⟩ := Except.ok_bind_inv h
            cases h
            obtain ⟨hread, hne⟩ := (hcondition conditionId).1 hread
            have hpair := selectYesNo_iff.1 hselect
            exact ⟨rfl, rfl, ⟨hread, hne, ⟨ids, tokens, yes, no, hids,
              parseClobTokens_iff.1 htokens, hpair, rfl, rfl⟩, hpair.distinct⟩,
              endsAt_iff.2 ⟨date, windowEnd, hdate, hwindow, rfl⟩⟩
          · cases h
        · cases h
      · cases h
    · cases h
  · obtain ⟨hslug, hslugTs, ⟨hread, hne, ⟨ids, tokens, yes, no, hids, htokens, hpair, hyes, hno⟩,
      -⟩, hends⟩ := h
    obtain ⟨date, windowEnd, hdate, hwindow, hend⟩ := endsAt_iff.1 hends
    simp only [(hcondition ctx.conditionId.str).2 ⟨hread, hne⟩, hids, parseClobTokens_iff.2 htokens,
      selectYesNo_iff.2 hpair, hdate, hwindow, Except.ok_bind]
    rw [hend, ← hyes, ← hno, ← hslug, ← hslugTs]
    rfl

/-- The market takes no orders, or is listed and has expired. -/
def Passed (b : Build) (fromStr : String → Option Json.Value) (client : GammaClient)
    (slug : String) (slugTs now : Int) (market : Json.Value) : Prop :=
  ¬TakesOrders market ∨
    ∃ expired, Listed b fromStr client slug slugTs market expired ∧ expired.endTs ≤ now

/-- The market takes orders, is listed as this one, and has not expired. -/
structure Current (b : Build) (fromStr : String → Option Json.Value) (client : GammaClient)
    (slug : String) (slugTs now : Int) (ctx : MarketContext) (market : Json.Value) : Prop where
  takesOrders : TakesOrders market
  listed : Listed b fromStr client slug slugTs market ctx
  live : now < ctx.endTs

/-- A market that takes orders and cannot be read ends the search. -/
theorem unread_ends {later : Prop} (hopen : TakesOrders market)
    (hunread : ∀ found, readMarket b fromStr client slug slugTs market ≠ .ok (some found)) :
    ¬(Current b fromStr client slug slugTs now ctx market ∨
      Passed b fromStr client slug slugTs now market ∧ later) := by
  rintro (hcurrent | ⟨hclosed | ⟨expired, hlisted, -⟩, -⟩)
  · exact hunread ctx (readMarket_iff.2 hcurrent.listed)
  · exact hclosed hopen
  · exact hunread expired (readMarket_iff.2 hlisted)

/-- The loop finds the first market that takes orders and has not expired; one that cannot be read
ends it. -/
theorem tryMarkets_some_iff {markets : List Json.Value} :
    tryMarkets b fromStr client slug slugTs now markets = .ok (some ctx) ↔
      FirstPast (Passed b fromStr client slug slugTs now)
        (Current b fromStr client slug slugTs now ctx) markets := by
  induction markets with
  | nil => exact ⟨nofun, fun h => absurd h firstPast_nil⟩
  | cons market markets ih =>
    rw [tryMarkets, firstPast_cons, ← ih]
    by_cases hopen : TakesOrders market
    · rw [isOpen_iff.2 hopen]
      simp only [Bool.not_true, Bool.false_eq_true, if_false]
      cases hread : readMarket b fromStr client slug slugTs market with
      | error e =>
        exact iff_of_false nofun <|
          unread_ends hopen fun found hfound => by cases hread.symm.trans hfound
      | ok found =>
        rw [Except.ok_bind]
        cases found with
        | none =>
          exact iff_of_false nofun <|
            unread_ends hopen fun found hfound => by cases hread.symm.trans hfound
        | some found =>
          have hlisted := readMarket_iff.1 hread
          dsimp only
          by_cases hexpired : found.endTs ≤ now
          · rw [if_pos hexpired]
            refine ⟨fun h => .inr ⟨.inr ⟨found, hlisted, hexpired⟩, h⟩, ?_⟩
            rintro (hcurrent | ⟨-, h⟩)
            · cases hread.symm.trans (readMarket_iff.2 hcurrent.listed)
              exact absurd hexpired (not_le.2 hcurrent.live)
            · exact h
          · rw [if_neg hexpired]
            refine ⟨?_, ?_⟩
            · rintro ⟨⟩
              exact .inl ⟨hopen, hlisted, not_le.1 hexpired⟩
            · rintro (hcurrent | ⟨hclosed | ⟨expired, hlisted, hle⟩, -⟩)
              · exact hread.symm.trans (readMarket_iff.2 hcurrent.listed)
              · exact absurd hopen hclosed
              · obtain rfl := Option.some.inj
                  (Except.ok.inj (hread.symm.trans (readMarket_iff.2 hlisted)))
                exact absurd hle hexpired
    · rw [Bool.eq_false_iff.2 fun h => hopen (isOpen_iff.1 h)]
      simp only [Bool.not_false, if_true]
      refine ⟨fun h => .inr ⟨.inl hopen, h⟩, ?_⟩
      rintro (hcurrent | ⟨-, h⟩)
      · exact absurd hcurrent.takesOrders hopen
      · exact h

/-- What the server answers for a slug: the markets of an event that is active and not closed. -/
def GammaClient.Answers (fromStr : String → Option Json.Value) (client : GammaClient) (web : Web)
    (slug : String) (markets : List Json.Value) : Prop :=
  ∃ reply event, web (client.gammaUrl ++ "/events/slug/" ++ slug) = some reply ∧
    (200 ≤ reply.status ∧ reply.status < 300) ∧ fromStr reply.body = some event ∧
    event.get "active" = some (.bool true) ∧ event.get "closed" ≠ some (.bool true) ∧
    event.get "markets" = some (.array markets)

/-- An answer succeeds with a status of the two hundreds. -/
theorem Reply.isSuccess_iff {reply : Reply} :
    reply.isSuccess = true ↔ 200 ≤ reply.status ∧ reply.status < 300 := by
  simp [Reply.isSuccess]

/-- The markets that the server answers are tried. -/
theorem tryDiscoverSlug_answers {web : Web} {markets : List Json.Value}
    (h : client.Answers fromStr web slug markets) :
    client.tryDiscoverSlug b fromStr slug slugTs web now =
      tryMarkets b fromStr client slug slugTs now markets := by
  obtain ⟨reply, event, hreply, hsuccess, hevent, hactive, hclosed, hmarkets⟩ := h
  replace hclosed := Bool.eq_false_iff.2 fun h => hclosed (flag_iff.1 h)
  rw [GammaClient.tryDiscoverSlug]
  simp only [hreply, Reply.isSuccess_iff.2 hsuccess, hevent, flag_iff.2 hactive, hclosed, hmarkets,
    Option.bind_some, Json.Value.asArray, Bool.not_true, Bool.or_self, Bool.false_eq_true, if_false]

/-- What is found for a slug is what is current among the markets that the server answers. -/
theorem tryDiscoverSlug_some_iff {web : Web} :
    client.tryDiscoverSlug b fromStr slug slugTs web now = .ok (some ctx) ↔
      ∃ markets, client.Answers fromStr web slug markets ∧
        FirstPast (Passed b fromStr client slug slugTs now)
          (Current b fromStr client slug slugTs now ctx) markets := by
  simp only [← tryMarkets_some_iff]
  refine ⟨fun h => ?_, ?_⟩
  · rw [GammaClient.tryDiscoverSlug] at h
    split at h
    · next reply hreply =>
      split at h
      · cases h
      next hsuccess =>
      split at h
      · next event hevent =>
        split at h
        · cases h
        next hflags =>
        split at h
        · next markets hmarkets =>
          obtain ⟨value, hvalue, hmarkets⟩ := Option.bind_eq_some_iff.1 hmarkets
          rw [asArray_eq_some.1 hmarkets] at hvalue
          simp only [Bool.or_eq_true, Bool.not_eq_true', not_or, Bool.not_eq_false, flag_iff,
            Reply.isSuccess_iff] at hflags hsuccess
          exact ⟨markets, ⟨reply, event, hreply, hsuccess, hevent, hflags.1, hflags.2, hvalue⟩, h⟩
        · cases h
      · cases h
    · cases h
  · rintro ⟨markets, hanswers, h⟩
    rw [tryDiscoverSlug_answers hanswers]
    exact h

/-- What is found is of its window, has not expired, and is described by a market. -/
theorem tryDiscoverSlug_some {web : Web}
    (h : client.tryDiscoverSlug b fromStr slug slugTs web now = .ok (some ctx)) :
    ctx.slugTs = slugTs ∧ ctx.slug = slug ∧ now < ctx.endTs ∧
      ∃ market, Describes fromStr market ctx := by
  obtain ⟨markets, -, before, market, after, -, -, -, hlisted, hlive⟩ :=
    tryDiscoverSlug_some_iff.1 h
  exact ⟨hlisted.slugTs_eq, hlisted.slug_eq, hlive, market, hlisted.describes⟩

/-- A market is found for a window exactly if the event of its slug, active and not closed, lists
one that takes orders and has not expired, and those that are listed before it take no orders or
have expired. What is found is that very market: its condition and its two tokens, the first that
its label names YES and the first other one that its label names NO, and its end, which is that of a
date at a zone of zero, and of the window where there is no date. -/
theorem discover_for_ts_some_iff (b : Build) (fromStr : String → Option Json.Value)
    (client : GammaClient) (web : Web) (now slugTs : Int) (ctx : MarketContext) :
    (client.discoverForTs b fromStr web now slugTs = .ok (some ctx) ↔
      ∃ markets before market after, client.Answers fromStr web (client.slug slugTs) markets ∧
        markets = before ++ market :: after ∧
        (∀ m ∈ before, ¬TakesOrders m ∨ ∃ expired,
          Listed b fromStr client (client.slug slugTs) slugTs m expired ∧ expired.endTs ≤ now) ∧
        TakesOrders market ∧ Listed b fromStr client (client.slug slugTs) slugTs market ctx ∧
        now < ctx.endTs) ∧
    ∀ market, Listed b fromStr client (client.slug slugTs) slugTs market ctx →
      (∀ (stamp : Stamp) (zone : Utc), stamp.date.year ≤ 9999 →
        market.get "endDate" = some (.string (String.ofList (stamp.render zone.text))) →
          ctx.endTs = stamp.unix) ∧
      (i64.Fits (slugTs + client.windowS) →
        (∀ text, market.get "endDate" ≠ some (.string text)) →
          ctx.endTs = slugTs + client.windowS) := by
  refine ⟨tryDiscoverSlug_some_iff.trans ⟨?_, ?_⟩, fun market hlisted => ⟨?_, ?_⟩⟩
  · rintro ⟨markets, hanswers, before, market, after, he, hbefore, hopen, hlisted, hlive⟩
    exact ⟨markets, before, market, after, hanswers, he, hbefore, hopen, hlisted, hlive⟩
  · rintro ⟨markets, before, market, after, hanswers, he, hbefore, hopen, hlisted, hlive⟩
    exact ⟨markets, hanswers, before, market, after, he, hbefore, hopen, hlisted, hlive⟩
  · exact fun stamp zone hyear hdate => hlisted.ends.utc hyear hdate
  · exact fun hfits hdate => hlisted.ends.undated hfits hdate

end

end Gamma

end Polyrust
