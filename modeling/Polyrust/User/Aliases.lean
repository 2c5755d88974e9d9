import Polyrust.Market
import Polyrust.User

/-!
# Aliases

A field of a frame is looked up under several keys, on the user channel and on the market channel
each with its own `optional_str`. The market channel takes the first text that is not empty. The
user channel takes the first string and refuses it when it is empty, so that an empty alias hides
the later ones (`EmptyHides`): a trade then loses the id of its order, or is not parsed at all.
-/

namespace Polyrust

open Json

/-- The strings that the aliases hold, in the order of the aliases. -/
def aliasStrings (value : Value) (keys : List String) : List String :=
  keys.filterMap fun key => (value.get key).bind Value.asStr

/-- The value of the first alias that is a non-empty string. -/
def firstAlias (value : Value) (keys : List String) : Option String :=
  (aliasStrings value keys).find? fun s => !s.isEmpty

/-- The first string that an alias holds is empty, and another alias holds one that is not. -/
def EmptyHides (value : Value) (keys : List String) : Prop :=
  (aliasStrings value keys).head? = some "" ∧ ∃ s ∈ aliasStrings value keys, s ≠ ""

instance (value : Value) (keys : List String) : Decidable (EmptyHides value keys) :=
  inferInstanceAs (Decidable (_ ∧ _))

/-- The aliases hold no numbers, and no strings with white space around them. -/
structure PlainAliases (value : Value) (keys : List String) : Prop where
  number : ∀ key ∈ keys, ∀ n, value.get key ≠ some (.number n)
  string : ∀ key ∈ keys, ∀ s, value.get key = some (.string s) → Text.trim s.toList = s.toList

section
variable {value : Value} {keys : List String}

/-- The keys of an object whose values are strings without white space around them are plain. -/
theorem plainAliases_of_strings {entries : List (String × Value)}
    (h : ∀ e ∈ entries, ∃ s, e.2 = .string s ∧ Text.trim s.toList = s.toList) :
    PlainAliases (.object entries) keys := by
  have hget : ∀ key v, (Value.object entries).get key = some v →
      ∃ s, v = .string s ∧ Text.trim s.toList = s.toList := by
    intro key v hv
    obtain ⟨e, he, rfl⟩ := Option.map_eq_some_iff.1 hv
    exact h e (List.mem_of_find?_eq_some he)
  refine ⟨fun key _ n hn => ?_, fun key _ s hs => ?_⟩
  · obtain ⟨s, hs, -⟩ := hget key _ hn
    cases hs
  · obtain ⟨t, ht, htrim⟩ := hget key _ hs
    cases ht
    exact htrim

/-- On plain aliases the text of a value is its string. -/
theorem PlainAliases.valueToString_eq (h : PlainAliases value keys) {key : String}
    (hkey : key ∈ keys) :
    (value.get key).bind Market.valueToString = (value.get key).bind Value.asStr := by
  cases hv : value.get key with
  | none => rfl
  | some v =>
    cases v with
    | string s =>
      rw [Option.bind_some, Market.valueToString, h.string key hkey s hv, String.ofList_toList]
      rfl
    | number n => exact absurd hv (h.number key hkey n)
    | null | bool | array | object => rfl

/-- The market channel finds the first alias that is a non-empty string. -/
theorem Market.optionalStr_eq_firstAlias (h : PlainAliases value keys) :
    Market.optionalStr value keys = firstAlias value keys := by
  rw [firstAlias, ← List.head?_filter, aliasStrings, List.filter_filterMap, Market.optionalStr,
    ← List.head?_filterMap]
  refine congrArg List.head? (List.filterMap_congr fun key hkey => ?_)
  rw [h.valueToString_eq hkey]

/-- The user channel finds the first alias that is a string, unless that is empty. -/
theorem User.optionalStr_eq_head (value : Value) (keys : List String) :
    User.optionalStr value keys =
      (aliasStrings value keys).head?.filter fun s => !s.isEmpty := by
  rw [aliasStrings, List.head?_filterMap]
  rfl

/-- A hidden alias is not found on the user channel. -/
theorem EmptyHides.optionalStr_eq_none (h : EmptyHides value keys) :
    User.optionalStr value keys = none := by
  rw [User.optionalStr_eq_head, h.1]
  rfl

/-- What is hidden is there. -/
theorem EmptyHides.firstAlias_ne_none (h : EmptyHides value keys) :
    firstAlias value keys ≠ none := by
  obtain ⟨-, s, hs, hne⟩ := h
  intro hnone
  have hempty := List.find?_eq_none.1 hnone s hs
  simp [hne] at hempty

/-- The user channel misses the first alias that is a non-empty string exactly when an empty one
hides it. -/
theorem User.optionalStr_eq_firstAlias_iff :
    User.optionalStr value keys = firstAlias value keys ↔ ¬EmptyHides value keys := by
  refine ⟨fun he h => ?_, fun h => ?_⟩
  · rw [h.optionalStr_eq_none] at he
    exact h.firstAlias_ne_none he.symm
  · rw [User.optionalStr_eq_head, firstAlias]
    rw [EmptyHides] at h
    revert h
    cases aliasStrings value keys with
    | nil => exact fun _ => rfl
    | cons first later =>
      intro h
      by_cases hfirst : first = ""
      · -- every string is empty, as none is hidden
        subst hfirst
        symm
        refine List.find?_eq_none.2 fun s hs => ?_
        have hs : s = "" := by
          by_contra hne
          exact h ⟨rfl, s, hs, hne⟩
        rw [hs]
        decide
      · simp [hfirst]

/-- On plain aliases the two lookups agree, both on the first alias that is a non-empty string,
exactly when no empty alias hides a later one. -/
theorem alias_resolvers_agree_iff (h : PlainAliases value keys) :
    (User.optionalStr value keys = Market.optionalStr value keys ∧
      Market.optionalStr value keys = firstAlias value keys) ↔ ¬EmptyHides value keys := by
  rw [Market.optionalStr_eq_firstAlias h, User.optionalStr_eq_firstAlias_iff]
  exact and_iff_left rfl

end

/-- The keys for the taker order of a trade. -/
def takerOrderKeys : List String :=
  ["taker_order_id", "takerOrderId", "order_id", "orderId", "orderID"]

/-- A trade whose taker order id is empty, with the id under a later alias. -/
def hiddenOrder : Value := .object [("taker_order_id", .string ""), ("order_id", .string "o1")]

/-- The aliases of the order are plain texts. -/
theorem hiddenOrder_plain : PlainAliases hiddenOrder takerOrderKeys := by
  refine plainAliases_of_strings fun e he => ?_
  rcases List.mem_pair.1 he with rfl | rfl
  · exact ⟨"", rfl, rfl⟩
  · exact ⟨"o1", rfl, by decide⟩

/-- An empty alias hides the order, and the resolvers differ. -/
theorem alias_resolvers_agree_iff_hidden :
    (User.optionalStr hiddenOrder takerOrderKeys = Market.optionalStr hiddenOrder takerOrderKeys ∧
      Market.optionalStr hiddenOrder takerOrderKeys = firstAlias hiddenOrder takerOrderKeys) ↔
    ¬EmptyHides hiddenOrder takerOrderKeys :=
  alias_resolvers_agree_iff hiddenOrder_plain

/-- The id of the order is there and the user channel misses it. -/
theorem alias_resolvers_disagree :
    ¬∀ (value : Value) (keys : List String), PlainAliases value keys →
      User.optionalStr value keys = Market.optionalStr value keys ∧
        Market.optionalStr value keys = firstAlias value keys := by
  intro hall
  obtain ⟨hagree, -⟩ := hall hiddenOrder takerOrderKeys hiddenOrder_plain
  revert hagree
  decide

/-! ## Trades -/

namespace User

variable {b : Build} {tsUs : Int} {value : Value} {keys : List String}

/-- A field whose alias is hidden is reported as missing. -/
theorem requiredStr_of_hidden (h : EmptyHides value keys) (name : String) :
    requiredStr value keys name = .error (.missingField name) := by
  rw [requiredStr, h.optionalStr_eq_none]

/-- A trade whose id is hidden is refused. -/
theorem parseTradeValue_of_hidden_id (hevent : isTradeEvent value = true)
    (h : EmptyHides value ["trade_id", "tradeId", "id"]) :
    parseTradeValue b value tsUs = .ok (.error (.missingField "trade_id")) := by
  have hfields : tradeFields value = .error (.missingField "trade_id") := by
    rw [tradeFields, requiredStr_of_hidden h]
    rfl
  rw [parseTradeValue, hevent, hfields]
  rfl

/-- A trade whose event type is hidden is skipped. -/
theorem parseTradeValue_of_hidden_type (h : EmptyHides value ["event_type", "eventType", "type"]) :
    parseTradeValue b value tsUs = .ok (.ok none) := by
  have hevent : isTradeEvent value = false := by
    rw [isTradeEvent, h.optionalStr_eq_none]
    rfl
  rw [parseTradeValue, hevent]
  rfl

/-- A trade whose order is hidden is parsed as one of no order. -/
theorem parseTradeValue_of_hidden_order {trade : UserTrade} (h : EmptyHides value takerOrderKeys)
    (hparse : parseTradeValue b value tsUs = .ok (.ok (some trade))) :
    trade.takerOrderId = none := by
  obtain ⟨-, horder, -⟩ := parseTradeValue_inv hparse
  rw [horder]
  exact congrArg _ h.optionalStr_eq_none

end User

end Polyrust
