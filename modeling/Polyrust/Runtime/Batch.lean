import Polyrust.Runtime.Exits

/-!
# Batched user frames

A frame of the user channel is one value or an array of values. An array is parsed with one error
path for all its items, and its items are read as trade events only; an item sent as its own frame
has its own error path, may be an authentication message, and may be an array itself. The batch does
what its elements do when both are read as the same trades (`batch_as_elements`), as those are that
are well formed, flat and not named an authentication message (`User.ReadAlike`).
-/

namespace Polyrust

open Json

namespace User

section
variable (b : Build) (tsUs : Int)

/-- The trade that a value is, if it is one. -/
def tradeOf (value : Value) : Option UserTrade :=
  match parseTradeValue b value tsUs with
  | .ok (.ok trade) => trade
  | _ => none

/-- The value is a trade event that is refused. -/
def Malformed (value : Value) : Prop := ∃ e, parseTradeValue b value tsUs = .ok (.error e)

instance (value : Value) : Decidable (Malformed b tsUs value) :=
  match h : parseTradeValue b value tsUs with
  | .ok (.error e) => .isTrue ⟨e, h⟩
  | .ok (.ok _) => .isFalse fun ⟨_, he⟩ => by cases h.symm.trans he
  | .error _ => .isFalse fun ⟨_, he⟩ => by cases h.symm.trans he

/-- The trades that values in one array are read as: none if one of them is malformed. -/
def batchTrades (items : List Value) : List UserTrade :=
  if ∃ item ∈ items, Malformed b tsUs item then [] else items.filterMap (tradeOf b tsUs)

/-- The trades that a value is read as when it is a frame of its own. -/
def elementTrades (value : Value) : List UserTrade :=
  if (authMessage value).isSome then []
  else
    match value with
    | .array items => batchTrades b tsUs items
    | value => (tradeOf b tsUs value).toList

/-- The values are read as the same trades in one array as each on its own, in order. -/
def SameTrades (items : List Value) : Prop :=
  batchTrades b tsUs items = items.flatMap (elementTrades b tsUs)

instance (items : List Value) : Decidable (SameTrades b tsUs items) :=
  inferInstanceAs (Decidable (_ = _))

variable {b tsUs}

/-- What the loop over the items of a frame returns. -/
theorem parseTradeItems_spec {items : List Value} {r : Except UserParseError (List UserTrade)}
    (h : parseTradeItems b tsUs items = .ok r) :
    match r with
    | .ok trades => (∀ item ∈ items, ¬ Malformed b tsUs item) ∧
        trades = items.filterMap (tradeOf b tsUs)
    | .error _ => ∃ item ∈ items, Malformed b tsUs item := by
  induction items generalizing r with
  | nil =>
    cases h
    exact ⟨nofun, rfl⟩
  | cons item items ih =>
    obtain ⟨head, hhead, h⟩ := Except.ok_bind_inv h
    cases head with
    | error e =>
      cases h
      exact ⟨item, List.mem_cons_self .., e, hhead⟩
    | ok trade =>
      obtain ⟨rest, hrest, h⟩ := Except.ok_bind_inv h
      have hitem : ¬ Malformed b tsUs item := by
        rintro ⟨e, he⟩
        cases hhead.symm.trans he
      have htrade : tradeOf b tsUs item = trade := by rw [tradeOf, hhead]
      cases rest with
      | error e =>
        cases h
        obtain ⟨bad, hmem, hbad⟩ := ih hrest
        exact ⟨bad, List.mem_cons_of_mem item hmem, hbad⟩
      | ok trades =>
        cases h
        obtain ⟨hwell, rfl⟩ := ih hrest
        refine ⟨?_, ?_⟩
        · intro i hi
          rcases List.mem_cons.1 hi with rfl | hi
          · exact hitem
          · exact hwell i hi
        · rw [List.filterMap_cons, htrade]
          cases trade <;> rfl

/-- The items of an array mean the same alone: none is malformed, none is an array with trades in
it, and none that is a trade is named an authentication message. -/
structure ReadAlike (b : Build) (tsUs : Int) (items : List Value) : Prop where
  wellFormed : ∀ item ∈ items, ¬Malformed b tsUs item
  flat : ∀ item ∈ items, ∀ nested, item = .array nested → ∀ value ∈ nested,
    tradeOf b tsUs value = none
  named : ∀ item ∈ items, (authMessage item).isSome = true → tradeOf b tsUs item = none

/-- An array is no trade itself. -/
theorem tradeOf_array (nested : List Value) : tradeOf b tsUs (.array nested) = none := rfl

/-- Such items are read as the same trades in one array as each on its own. -/
theorem ReadAlike.sameTrades {items : List Value} (h : ReadAlike b tsUs items) :
    SameTrades b tsUs items := by
  have helement : ∀ item ∈ items, elementTrades b tsUs item = (tradeOf b tsUs item).toList := by
    intro item hitem
    unfold elementTrades
    split
    · next hauth =>
      rw [h.named item hitem hauth]
      rfl
    · split
      · next nested _ =>
        have hnone := h.flat _ hitem nested rfl
        rw [tradeOf_array, batchTrades]
        split
        · rfl
        · exact List.filterMap_eq_nil_iff.2 hnone
      · rfl
  have hwell : ¬∃ item ∈ items, Malformed b tsUs item :=
    fun ⟨item, hitem, hbad⟩ => h.wellFormed item hitem hbad
  rw [SameTrades, batchTrades, if_neg hwell, List.filterMap_eq_flatMap_toList]
  exact (List.flatMap_congr helement).symm

/-- The trades of an array are those that the parser returns. -/
theorem batchTrades_of_parse {items : List Value} {r : Except UserParseError (List UserTrade)}
    (h : parseTradeItems b tsUs items = .ok r) :
    batchTrades b tsUs items = r.toOption.getD [] := by
  have hspec := parseTradeItems_spec h
  cases r with
  | error e => exact if_pos hspec
  | ok trades =>
    obtain ⟨hwell, rfl⟩ := hspec
    exact if_neg fun ⟨item, hmem, hbad⟩ => hwell item hmem hbad

/-- One value in an array of its own. -/
theorem batchTrades_singleton (value : Value) :
    batchTrades b tsUs [value] = (tradeOf b tsUs value).toList := by
  by_cases h : Malformed b tsUs value
  · obtain ⟨e, he⟩ := h
    rw [batchTrades, if_pos ⟨value, List.mem_singleton_self value, e, he⟩, tradeOf, he]
    rfl
  · rw [batchTrades, if_neg (by simpa using h), List.filterMap_cons]
    cases tradeOf b tsUs value <;> rfl

/-- The items of a frame. -/
def frameItems : Value → List Value
  | .array items => items
  | other => [other]

/-- A value on its own is read as the items of its frame are. -/
theorem elementTrades_eq (value : Value) :
    elementTrades b tsUs value =
      if (authMessage value).isSome then [] else batchTrades b tsUs (frameItems value) := by
  cases value with
  | array items => rfl
  | _ =>
    change _ = if _ then [] else batchTrades b tsUs [_]
    rw [batchTrades_singleton]
    rfl

/-- The trades that a parsed frame carries. -/
def messageTrades : Except UserParseError UserMessage → List UserTrade
  | .ok (.trades trades) => trades
  | _ => []

/-- The trades of a frame that is parsed to its end. -/
theorem parseUserMessage_trades {pl : Platform} {raw : List UInt8} {value : Value}
    {msg : Except UserParseError UserMessage} (hv : pl.fromSlice raw = .ok value)
    (h : parseUserMessage pl raw tsUs = .ok msg) :
    messageTrades msg = elementTrades pl.build tsUs value := by
  rw [parseUserMessage, hv] at h
  dsimp only at h
  rw [elementTrades_eq]
  cases ha : authMessage value with
  | some auth =>
    rw [ha] at h
    cases h
    cases auth with
    | trades trades => exact absurd ha authMessage_ne_trades
    | _ => rfl
  | none =>
    rw [ha] at h
    obtain ⟨r, hr, h⟩ := Except.ok_bind_inv h
    rw [Option.isSome_none, if_neg Bool.false_ne_true]
    have hr : parseTradeItems pl.build tsUs (frameItems value) = .ok r := by
      rw [← hr]
      cases value <;> rfl
    rw [batchTrades_of_parse hr]
    cases r with
    | error e =>
      cases h
      rfl
    | ok trades => cases trades <;> (cases h; rfl)

end

end User

namespace RuntimeCore

section
variable {F : Type} {pl : Platform} {tsUs : Int}

/-- The parser reads the frame without aborting. -/
def Parses (pl : Platform) (tsUs : Int) (raw : List UInt8) : Prop :=
  ∃ msg, User.parseUserMessage pl raw tsUs = .ok msg

/-- The trades of a frame that is parsed to its end. -/
theorem frameTrades_eq {raw : List UInt8} {value : Value} (hv : pl.fromSlice raw = .ok value)
    (hr : Parses pl tsUs raw) :
    frameTrades pl raw tsUs = User.elementTrades pl.build tsUs value := by
  obtain ⟨msg, hmsg⟩ := hr
  rw [← User.parseUserMessage_trades hv hmsg, frameTrades, hmsg]
  cases msg with
  | error e => rfl
  | ok msg => cases msg <;> rfl

/-- A frame whose application returns was parsed to its end. -/
theorem parsed_of_applied {core core' : RuntimeCore F} {raw : List UInt8}
    {r : Except RuntimeError (UserMessage × List TradeState)}
    (h : core.applyUserRawWithStates pl raw tsUs = .ok (core', r)) : Parses pl tsUs raw := by
  obtain ⟨msg, hmsg, -⟩ := Except.ok_bind_inv h
  exact ⟨msg, hmsg⟩

/-- The core after a user frame, whatever the frame returns. -/
def userFrameStep (pl : Platform) (tsUs : Int) (core : RuntimeCore F) (raw : List UInt8) :
    Exec (RuntimeCore F) := do
  return (← core.applyUserRawWithStates pl raw tsUs).1

/-- The inventory, the trackers and the market state of the two cores are the same, where the order
of the entries of a map does not count. -/
structure SameView (core core' : RuntimeCore F) : Prop where
  state : core.state = core'.state
  trackers : ∀ token, core.exitTrackers.lookup token = core'.exitTrackers.lookup token
  trusted : core.inventory.userWssTrusted = core'.inventory.userWssTrusted
  counter : core.inventory.nextSubmitId = core'.inventory.nextSubmitId
  owned : ∀ token,
    core.inventory.ownedByToken.lookup token = core'.inventory.ownedByToken.lookup token
  trades : ∀ id, core.inventory.trades.lookup id = core'.inventory.trades.lookup id
  pending : ∀ id, core.inventory.pending.lookup id = core'.inventory.pending.lookup id

/-- A core looks like itself. -/
theorem SameView.refl (core : RuntimeCore F) : SameView core core :=
  ⟨rfl, fun _ => rfl, rfl, rfl, fun _ => rfl, fun _ => rfl, fun _ => rfl⟩

/-- The batch leaves the core as its elements do, one frame after the other, unless the program
aborts on one of them. -/
def BatchAgrees (pl : Platform) (tsUs : Int) (core : RuntimeCore F) (batch : List UInt8)
    (elements : List (List UInt8)) : Prop :=
  ∀ core₁ core₂, userFrameStep pl tsUs core batch = .ok core₁ →
    Machine.runM (userFrameStep pl tsUs) core elements = .ok core₂ → SameView core₁ core₂

/-- A frame performs the trades of its value. -/
theorem userFrameStep_run {core core' : RuntimeCore F} {raw : List UInt8} {value : Value}
    (hv : pl.fromSlice raw = .ok value) (h : userFrameStep pl tsUs core raw = .ok core') :
    core' = Machine.run tradeStep core (User.elementTrades pl.build tsUs value) := by
  obtain ⟨⟨c, r⟩, hc, h⟩ := Except.ok_bind_inv h
  cases h
  rw [← frameTrades_eq hv (parsed_of_applied hc)]
  exact applyUserRawWithStates_run hc

/-- Frames one after the other perform the trades of their values. -/
theorem userFrames_run {core core' : RuntimeCore F} {raws : List (List UInt8)}
    {values : List Value}
    (hv : List.Forall₂ (fun raw value => pl.fromSlice raw = .ok value) raws values)
    (h : Machine.runM (userFrameStep pl tsUs) core raws = .ok core') :
    core' = Machine.run tradeStep core (values.flatMap (User.elementTrades pl.build tsUs)) := by
  induction hv generalizing core with
  | nil =>
    cases h
    rfl
  | cons hv hvs ih =>
    obtain ⟨c, hc, h⟩ := Machine.runM_cons.1 h
    rw [List.flatMap_cons, Machine.run_append, ← userFrameStep_run hv hc]
    exact ih h

/-- The trade ids that are recorded after trades in order. -/
theorem run_trades_isSome (core : RuntimeCore F) (trades : List UserTrade) (id : TradeId) :
    ((Machine.run tradeStep core trades).inventory.trades.lookup id).isSome ↔
      (core.inventory.trades.lookup id).isSome ∨ id ∈ trades.map UserTrade.tradeId := by
  induction trades generalizing core with
  | nil => simp
  | cons trade trades ih =>
    rw [Machine.run_cons, ih, tradeStep_inventory, Inventory.applyUserTrade_trades, List.map_cons,
      List.mem_cons]
    by_cases hid : id = trade.tradeId
    · subst hid
      simp
    · simp [AList.lookup_insert_ne hid, hid]

/-- Trades that lead to the same recorded trades name the same ids, of those not recorded
before. -/
theorem SameView.tradeIds {core : RuntimeCore F} {trades trades' : List UserTrade}
    (h : SameView (Machine.run tradeStep core trades) (Machine.run tradeStep core trades'))
    {id : TradeId} (hnew : core.inventory.trades.lookup id = none) :
    id ∈ trades.map UserTrade.tradeId ↔ id ∈ trades'.map UserTrade.tradeId := by
  have hiff := run_trades_isSome core trades id
  rw [h.trades id, run_trades_isSome core trades' id, hnew] at hiff
  simpa using hiff.symm

/-- A frame that is parsed without aborting is applied without aborting. -/
theorem Parses.step {raw : List UInt8} (h : Parses pl tsUs raw) (core : RuntimeCore F) :
    ∃ core', userFrameStep pl tsUs core raw = .ok core' := by
  obtain ⟨msg, hmsg⟩ := h
  rw [userFrameStep, applyUserRawWithStates, hmsg]
  cases msg with
  | error e => exact ⟨_, rfl⟩
  | ok msg => cases msg <;> exact ⟨_, rfl⟩

/-- Frames that can be parsed are all performed. -/
theorem parses_run {raws : List (List UInt8)} (h : ∀ raw ∈ raws, Parses pl tsUs raw)
    (core : RuntimeCore F) :
    ∃ core', Machine.runM (userFrameStep pl tsUs) core raws = .ok core' := by
  induction raws generalizing core with
  | nil => exact ⟨core, rfl⟩
  | cons raw raws ih =>
    obtain ⟨c, hc⟩ := (h raw (List.mem_cons_self ..)).step core
    obtain ⟨core', hrun⟩ := ih (fun raw hmem => h raw (List.mem_cons_of_mem _ hmem)) c
    exact ⟨core', Machine.runM_cons.2 ⟨c, hc, hrun⟩⟩

/-- The two runs of a batch that is parsed to its end, alone and element by element. -/
theorem batchAgrees_iff {core : RuntimeCore F} {batch : List UInt8} {raws : List (List UInt8)}
    {items : List Value} (hb : pl.fromSlice batch = .ok (.array items))
    (hr : List.Forall₂ (fun raw item => pl.fromSlice raw = .ok item) raws items)
    (hbatch : Parses pl tsUs batch) (hraws : ∀ raw ∈ raws, Parses pl tsUs raw) :
    BatchAgrees pl tsUs core batch raws ↔
      SameView (Machine.run tradeStep core (User.batchTrades pl.build tsUs items))
        (Machine.run tradeStep core (items.flatMap (User.elementTrades pl.build tsUs))) := by
  refine ⟨?_, ?_⟩
  · intro h
    obtain ⟨core₁, h₁⟩ := hbatch.step core
    obtain ⟨core₂, h₂⟩ := parses_run hraws core
    have hview := h core₁ core₂ h₁ h₂
    rwa [userFrameStep_run hb h₁, userFrames_run hr h₂] at hview
  · intro h core₁ core₂ h₁ h₂
    rw [userFrameStep_run hb h₁, userFrames_run hr h₂]
    exact h

/-- A batch leaves the core as its elements do when both are read as the same trades. Where they are
not, the two still name the same new trades if they agree; and with a malformed element they do not
agree as soon as one of the other elements is a trade and the trades are new. -/
theorem batch_as_elements (core : RuntimeCore F) (batch : List UInt8) (raws : List (List UInt8))
    (items : List Value) (hb : pl.fromSlice batch = .ok (.array items))
    (hr : List.Forall₂ (fun raw item => pl.fromSlice raw = .ok item) raws items) :
    (User.SameTrades pl.build tsUs items → BatchAgrees pl tsUs core batch raws) ∧
    (Parses pl tsUs batch → (∀ raw ∈ raws, Parses pl tsUs raw) →
      (BatchAgrees pl tsUs core batch raws → ∀ id, core.inventory.trades.lookup id = none →
        (id ∈ (User.batchTrades pl.build tsUs items).map UserTrade.tradeId ↔
          id ∈ (items.flatMap (User.elementTrades pl.build tsUs)).map UserTrade.tradeId)) ∧
      ((∃ item ∈ items, User.Malformed pl.build tsUs item) →
        (∀ trade ∈ items.flatMap (User.elementTrades pl.build tsUs),
          core.inventory.trades.lookup trade.tradeId = none) →
        (BatchAgrees pl tsUs core batch raws ↔ User.SameTrades pl.build tsUs items))) := by
  have hsame : User.SameTrades pl.build tsUs items → BatchAgrees pl tsUs core batch raws := by
    intro hsame core₁ core₂ h₁ h₂
    rw [userFrameStep_run hb h₁, userFrames_run hr h₂, ← hsame]
    exact .refl _
  refine ⟨hsame, fun hbatch hraws => ⟨?_, ?_⟩⟩
  · intro h id hnew
    exact ((batchAgrees_iff hb hr hbatch hraws).1 h).tradeIds hnew
  · intro hbad hnew
    refine ⟨fun h => ?_, hsame⟩
    have hview := (batchAgrees_iff hb hr hbatch hraws).1 h
    have hnil : User.batchTrades pl.build tsUs items = [] := if_pos hbad
    rw [User.SameTrades, hnil]
    refine (List.eq_nil_iff_forall_not_mem.2 fun trade hmem => ?_).symm
    have hids := (hview.tradeIds (hnew trade hmem)).2 (List.mem_map_of_mem hmem)
    rw [hnil] at hids
    cases hids

end

/-- A BUY whose price has too many digits. -/
def subCentFrame : Value :=
  .object [("event_type", .string "trade"), ("id", .string "t9"), ("asset_id", .string "up"),
    ("side", .string "BUY"), ("size", .string "5"), ("price", .string "0.505")]

/-- The library that reads these values, alone and in one array. -/
def readingBatch (items : List Value) : Platform := .reading (.array items :: items)

/-- The platform reads the array and each of its items. -/
theorem readingBatch_items {items : List Value}
    (h : (Value.array items :: items).Pairwise fun u v => u.toBytes ≠ v.toBytes) :
    (readingBatch items).fromSlice (Value.array items).toBytes = .ok (.array items) ∧
      List.Forall₂ (fun raw item => (readingBatch items).fromSlice raw = .ok item)
        (items.map Value.toBytes) items := by
  refine ⟨Platform.reading_toBytes h (List.mem_cons_self ..), ?_⟩
  rw [List.forall₂_map_left_iff, List.forall₂_same]
  intro item hmem
  exact Platform.reading_toBytes h (List.mem_cons_of_mem _ hmem)

/-- The frames are all trades, each alone. -/
theorem upFrames_readAlike (b : Build) : User.ReadAlike b 0 upFrames where
  wellFormed := by
    obtain ⟨checks⟩ := b
    cases checks <;> decide +kernel
  flat item hitem nested hnested := by
    subst hnested
    revert hitem
    simp [upFrames, upFrame]
  named := by
    obtain ⟨checks⟩ := b
    cases checks <;> decide +kernel

/-- A BUY and its SELL do in one frame what they do in two. -/
theorem batch_as_elements_example :
    ∃ core, RuntimeCore.new Config.runtimeEnvShape = .ok core ∧
      BatchAgrees (readingBatch upFrames) 0 core (Value.array upFrames).toBytes
        (upFrames.map Value.toBytes) := by
  have h : (RuntimeCore.new Config.runtimeEnvShape).Succeeds fun _ => True := by decide +kernel
  obtain ⟨core, hnew, -⟩ := h.exists
  obtain ⟨hb, hr⟩ := readingBatch_items (show (Value.array upFrames :: upFrames).Pairwise
    fun u v => u.toBytes ≠ v.toBytes by simp only [Value.toBytes_eq]; decide +kernel)
  exact ⟨core, hnew, (batch_as_elements core _ _ _ hb hr).1 (upFrames_readAlike _).sameTrades⟩

/-- In one frame with a malformed trade, a BUY is lost. -/
theorem batch_loses_trade :
    ¬ ∀ (pl : Platform) (tsUs : Int) (core : RuntimeCore Rat) (batch : List UInt8)
        (raws : List (List UInt8)) (items : List Value),
      pl.fromSlice batch = .ok (.array items) →
      List.Forall₂ (fun raw item => pl.fromSlice raw = .ok item) raws items →
        BatchAgrees pl tsUs core batch raws := by
  intro h
  let items := [upFrame "t1" "BUY" "MATCHED", subCentFrame]
  have hrun : (RuntimeCore.new Config.runtimeEnvShape).Succeeds fun core =>
      (userFrameStep (readingBatch items) 0 core (Value.array items).toBytes).Succeeds
        (fun core => core.inventory.trades.lookup ⟨"t1"⟩ = none) ∧
      (Machine.runM (userFrameStep (readingBatch items) 0) core
        (items.map Value.toBytes)).Succeeds
          (fun core => core.inventory.trades.lookup ⟨"t1"⟩ ≠ none) := by
    simp only [readingBatch, Platform.reading_eq, Value.toBytes_eq]
    decide +kernel
  obtain ⟨core, -, h₁, h₂⟩ := hrun.exists
  obtain ⟨core₁, h₁, hnone⟩ := h₁.exists
  obtain ⟨core₂, h₂, hsome⟩ := h₂.exists
  obtain ⟨hb, hr⟩ := readingBatch_items (show (Value.array items :: items).Pairwise
    fun u v => u.toBytes ≠ v.toBytes by simp only [Value.toBytes_eq]; decide +kernel)
  have hview := h (readingBatch items) 0 core _ _ items hb hr core₁ core₂ h₁ h₂
  exact hsome ((hview.trades _).symm.trans hnone)

end RuntimeCore

end Polyrust
