import Polyrust.Runtime.Rounds

/-!
# The runtime core as a state machine

What the feeds, the exit loop and the maintenance task do to the core under the lock, as the labels
of one machine whose steps may abort, and what each of them leaves alone. BUY submits are not among
them: they belong to the tasks around the core (`RuntimeSystem`).
-/

namespace Polyrust

namespace RuntimeCore

/-- The operations on the core. `rehash` is the iteration order of the pending submits changing. -/
inductive Op (F : Type) where
  | applyMarketRaw (raw : List UInt8) (tsUs : TsUs)
  | applyUserRawWithStates (raw : List UInt8) (tsUs : Int)
  | planExits (nowTsUs : Int)
  | releaseMarketScope (activeTokens : List TokenId)
  | setMarket (market : MarketContext)
  | markMarketInactive
  | setStrike (strike : F) (resetWindow : Bool)
  | setUserWssTrusted (trusted : Bool)
  | expireStaleEntryClaims (nowTsUs : Int)
  | rehash (pending : HashMap SubmitId PendingSubmit)

/-- A market that ends at second 1000, for the runs on fixed inputs. -/
def upDownMarket : MarketContext :=
  { slug := "btc-updown-5m-700", conditionId := ⟨"c1"⟩, yesToken := ⟨"up"⟩, noToken := ⟨"down"⟩
    endTs := 1000, slugTs := 700 }

section
variable {F : Type}

/-- The core after one trade of a user frame. -/
def tradeStep (core : RuntimeCore F) (trade : UserTrade) : RuntimeCore F :=
  (core.applyTrade trade).1

/-- The trades of a user frame; none in a frame that is refused or is no trade batch. -/
def frameTrades (pl : Platform) (raw : List UInt8) (tsUs : Int) : List UserTrade :=
  match User.parseUserMessage pl raw tsUs with
  | .ok (.ok (.trades trades)) => trades
  | _ => []

variable {pl : Platform} {b : Build} {core core' : RuntimeCore F}

/-! ## Frames of the market channel -/

/-- A market frame changes the runtime state only. -/
theorem applyMarketRaw_eq {raw : List UInt8} {tsUs : TsUs} {r : Except RuntimeError Nat}
    (h : core.applyMarketRaw pl raw tsUs = .ok (core', r)) :
    ∃ state, core' = { core with state := state } := by
  obtain ⟨events, -, h⟩ := Except.ok_bind_inv h
  cases events <;>
  · cases h
    exact ⟨_, rfl⟩

/-! ## User frames -/

/-- The trades are applied one after the other. -/
theorem applyTrades_fst (core : RuntimeCore F) (trades : List UserTrade) :
    (core.applyTrades trades).1 = Machine.run tradeStep core trades := by
  induction trades generalizing core with
  | nil => rfl
  | cons trade trades ih => exact ih (core.tradeStep trade)

/-- A user frame performs its trades, in order. -/
theorem applyUserRawWithStates_run {raw : List UInt8} {tsUs : Int}
    {r : Except RuntimeError (UserMessage × List TradeState)}
    (h : core.applyUserRawWithStates pl raw tsUs = .ok (core', r)) :
    core' = Machine.run tradeStep core (frameTrades pl raw tsUs) := by
  obtain ⟨msg, hmsg, h⟩ := Except.ok_bind_inv h
  rw [frameTrades, hmsg]
  cases msg with
  | error e =>
    cases h
    rfl
  | ok msg =>
    cases msg with
    | trades trades =>
      cases h
      exact applyTrades_fst core trades
    | authSuccess | authError | other =>
      cases h
      rfl

/-- The trades of a frame have sizes that are not negative. -/
theorem frameTrades_sizes {raw : List UInt8} {tsUs : Int} :
    ∀ trade ∈ frameTrades pl raw tsUs, 0 ≤ trade.sizeAtoms.atoms := by
  intro trade hmem
  rw [frameTrades] at hmem
  split at hmem
  · next hmsg => exact User.parseUserMessage_sizes hmsg trade hmem
  · cases hmem

/-- A trade changes trackers and inventory, and nothing else of the core. -/
theorem tradeStep_eq (core : RuntimeCore F) (trade : UserTrade) :
    ∃ trackers, core.tradeStep trade =
      { core with
        inventory := (core.inventory.applyUserTrade trade).1, exitTrackers := trackers } := by
  simp only [tradeStep, applyTrade, trackUserTradeForExit]
  split
  · exact ⟨_, rfl⟩
  · split <;> split <;> exact ⟨_, rfl⟩

/-- A trade is an operation on the inventory. -/
@[simp] theorem tradeStep_inventory (core : RuntimeCore F) (trade : UserTrade) :
    (core.tradeStep trade).inventory = (core.inventory.applyUserTrade trade).1 := by
  obtain ⟨trackers, he⟩ := tradeStep_eq core trade
  rw [he]

/-! ## Round trips -/

/-- A round trip changes the average only. -/
theorem recordRtt_average {rttUs : Int} (h : core.recordRtt b rttUs = .ok core') :
    ∃ ewma, core' = { core with rttEwmaUs := ewma } := by
  rw [recordRtt] at h
  split_ifs at h
  · cases h
    exact ⟨_, rfl⟩
  · cases h
    exact ⟨_, rfl⟩
  · obtain ⟨diff, -, h⟩ := Except.ok_bind_inv h
    cases h
    exact ⟨_, rfl⟩

/-! ## Exits -/

/-- `core'` is `core` with other trackers, and no token that has something to sell lost its own. -/
structure ExitsJudged (core core' : RuntimeCore F) : Prop where
  eq : ∃ trackers, core' = { core with exitTrackers := trackers }
  kept : ∀ token, 0 < (core.inventory.sellable token).units →
    (core.exitTrackers.lookup token).isSome → (core'.exitTrackers.lookup token).isSome

/-- A core on which no exit was judged. -/
theorem ExitsJudged.refl (core : RuntimeCore F) : ExitsJudged core core :=
  ⟨⟨_, rfl⟩, fun _ _ h => h⟩

/-- Two rounds one after the other. -/
theorem ExitsJudged.trans {core₁ core₂ core₃ : RuntimeCore F} (h : ExitsJudged core₁ core₂)
    (h' : ExitsJudged core₂ core₃) : ExitsJudged core₁ core₃ := by
  obtain ⟨⟨trackers, rfl⟩, hkept⟩ := h
  obtain ⟨⟨trackers', rfl⟩, hkept'⟩ := h'
  exact ⟨⟨trackers', rfl⟩, fun token hs ht => hkept' token hs (hkept token hs ht)⟩

/-- Clearing the tracker of a token that has nothing to sell. -/
theorem ExitsJudged.erase {token : TokenId} (h : (core.inventory.sellable token).units ≤ 0) :
    ExitsJudged core { core with exitTrackers := core.exitTrackers.erase token } := by
  refine ⟨⟨_, rfl⟩, fun t hs ht => ?_⟩
  have hne : t ≠ token := by
    rintro rfl
    omega
  dsimp only
  rwa [AList.lookup_erase_ne hne]

/-- Moving the peak of a tracker. -/
theorem ExitsJudged.modify (core : RuntimeCore F) (token : TokenId)
    (f : ExitTracker → ExitTracker) :
    ExitsJudged core { core with exitTrackers := core.exitTrackers.modify token f } := by
  refine ⟨⟨_, rfl⟩, fun t _ ht => ?_⟩
  dsimp only
  by_cases hne : t = token
  · rw [hne] at ht ⊢
    rwa [HashMap.lookup_modify_self, Option.isSome_map]
  · rwa [HashMap.lookup_modify_ne hne]

/-- A round judges its token. -/
theorem ExitsJudged.of_round {now : Int} {token : TokenId} {fairTicks : Option Int}
    {opposes : Option Bool} {decision : Option ExitDecision}
    (h : core.planExitWith b now token fairTicks opposes = .ok (core', decision)) :
    ExitsJudged core core' := by
  rcases planExitWith_cases h with ⟨-, ⟨hs, rfl⟩ | ⟨-, rfl, -⟩⟩ | ⟨bid, tracker, hj⟩
  · exact .erase hs
  · exact .refl _
  · rw [hj.eq]
    exact .modify ..

variable [F64 F]

/-- A round of the exit loop judges exits. -/
theorem planExits_judged {now : Int} {decisions : List ExitDecision}
    (h : core.planExits b now = .ok (core', decisions)) : ExitsJudged core core' := by
  obtain ⟨fair, opposed, h⟩ := planExits_ok h
  rw [planExitsWith] at h
  cases hm : core.state.market with
  | none =>
    rw [hm] at h
    cases h
    exact .refl core
  | some market =>
    rw [hm] at h
    obtain ⟨⟨core₁, yes⟩, hyes, h⟩ := Except.ok_bind_inv h
    obtain ⟨⟨core₂, no⟩, hno, h⟩ := Except.ok_bind_inv h
    cases h
    exact (ExitsJudged.of_round hyes).trans (.of_round hno)

/-! ## Samples of the exchange -/

/-- An entry needs the trust in the user channel. -/
theorem trusted_of_entry {inv : Inventory} {token : TokenId}
    (h : inv.hasEntryExposureOrPending token = false) : inv.userWssTrusted = true := by
  cases ht : inv.userWssTrusted with
  | true => rfl
  | false =>
    rw [Inventory.hasEntryExposureOrPending, ht] at h
    cases h

/-- A sample is recorded, or the engine decides on it for the quotes of the two sides; what is
decided is passed on only where the token may be entered. -/
theorem onBinanceSample_cases {sample : BinanceSample F} {now : TsUs} {tteUs : Int}
    {i : Option BuyIntent} {signal signal' : SignalEngine F} {state : RuntimeState}
    {inv : Inventory}
    (h : Polyrust.onBinanceSample b sample signal state inv now tteUs = .ok (signal', i)) :
    signal' = (signal.push sample).1 ∧ i = none ∨
      ∃ market yesQuote noQuote found, state.quoteForSide .yes = some yesQuote ∧
        state.quoteForSide .no = some noQuote ∧
        signal.onSample b sample market yesQuote noQuote now tteUs = .ok (signal', found) ∧
        ∀ intent, i = some intent →
          found = some intent ∧ inv.hasEntryExposureOrPending intent.token = false := by
  rw [Polyrust.onBinanceSample] at h
  split at h
  · cases h
    exact .inl ⟨rfl, rfl⟩
  · split at h
    · next market hmarket =>
      split at h
      · next yesQuote hyes =>
        split at h
        · next noQuote hno =>
          obtain ⟨⟨engine, found⟩, honSample, h⟩ := Except.ok_bind_inv h
          right
          refine ⟨market, yesQuote, noQuote, found, hyes, hno, ?_⟩
          cases found with
          | none =>
            cases h
            exact ⟨honSample, nofun⟩
          | some intent =>
            dsimp only at h
            split at h
            · cases h
              exact ⟨honSample, nofun⟩
            · next hentry =>
              cases h
              refine ⟨honSample, ?_⟩
              rintro _ ⟨⟩
              exact ⟨rfl, eq_false_of_ne_true hentry⟩
        · cases h
          exact .inl ⟨rfl, rfl⟩
      · cases h
        exact .inl ⟨rfl, rfl⟩
    · cases h
      exact .inl ⟨rfl, rfl⟩

/-- A sample leaves configuration and strike as they are, and yields an intent only where the user
channel is trusted. -/
theorem onBinanceSample_signal {sample : BinanceSample F} {now : TsUs} {tteUs : Int}
    {i : Option BuyIntent} {signal signal' : SignalEngine F} {state : RuntimeState}
    {inv : Inventory}
    (h : Polyrust.onBinanceSample b sample signal state inv now tteUs = .ok (signal', i)) :
    signal.SameSetup signal' ∧ (i.isSome → inv.userWssTrusted = true) := by
  rcases onBinanceSample_cases h with
    ⟨rfl, rfl⟩ | ⟨market, yesQuote, noQuote, found, -, -, honSample, hpassed⟩
  · exact ⟨signal.pushReceived_sameSetup sample sample.tsUs, nofun⟩
  · refine ⟨SignalEngine.onSample_sameSetup honSample, fun hsome => ?_⟩
    obtain ⟨intent, hintent⟩ := Option.isSome_iff_exists.1 hsome
    exact trusted_of_entry (hpassed intent hintent).2

/-- A sample moves the signal engine only, and not its configuration or its strike; an intent needs
the trust in the user channel and has passed the gates. -/
theorem onBinanceSample_spec {sample : BinanceSample F} {now : TsUs} {tteUs : Int}
    {i : Option BuyIntent} (h : core.onBinanceSample b sample now tteUs = .ok (core', i)) :
    (∃ signal, core.signal.SameSetup signal ∧ core' = { core with signal := signal }) ∧
      ∀ intent, i = some intent →
        core.inventory.userWssTrusted = true ∧ core'.entryGateBlock b intent now = .ok none := by
  obtain ⟨⟨signal, found⟩, hsignal, h⟩ := Except.ok_bind_inv h
  obtain ⟨hsame, htrusted⟩ := onBinanceSample_signal hsignal
  cases found with
  | none =>
    cases h
    exact ⟨⟨signal, hsame, rfl⟩, nofun⟩
  | some intent =>
    obtain ⟨block, hblock, h⟩ := Except.ok_bind_inv h
    cases block with
    | some reason =>
      cases h
      exact ⟨⟨signal, hsame, rfl⟩, nofun⟩
    | none =>
      cases h
      refine ⟨⟨signal, hsame, rfl⟩, ?_⟩
      rintro _ ⟨⟩
      exact ⟨htrusted rfl, hblock⟩

/-! ## The step -/

/-- The core after an operation. -/
def step (pl : Platform) (core : RuntimeCore F) : Op F → Exec (RuntimeCore F)
  | .applyMarketRaw raw tsUs => return (← core.applyMarketRaw pl raw tsUs).1
  | .applyUserRawWithStates raw tsUs => return (← core.applyUserRawWithStates pl raw tsUs).1
  | .planExits now => return (← core.planExits pl.build now).1
  | .releaseMarketScope active => return core.releaseMarketScope active
  | .setMarket market => return { core with state := core.state.setMarket market }
  | .markMarketInactive => return { core with state := core.state.markMarketInactive }
  | .setStrike strike reset => return { core with signal := core.signal.setStrike strike reset }
  | .setUserWssTrusted trusted =>
    return { core with inventory := core.inventory.setUserWssTrusted trusted }
  | .expireStaleEntryClaims now =>
    return { core with inventory := Polyrust.expireStaleEntryClaims core.inventory now }
  | .rehash pending =>
    return { core with inventory := core.inventory.step (.rehash pending) }

/-- No operation on the core touches the gates, or the average round trip they look at. -/
theorem step_gates {op : Op F} (h : core.step pl op = .ok core') :
    core'.entryGates = core.entryGates ∧ core'.rttEwmaUs = core.rttEwmaUs := by
  cases op with
  | applyMarketRaw raw tsUs =>
    obtain ⟨⟨c, r⟩, hc, h⟩ := Except.ok_bind_inv h
    cases h
    obtain ⟨state, rfl⟩ := applyMarketRaw_eq hc
    exact ⟨rfl, rfl⟩
  | applyUserRawWithStates raw tsUs =>
    obtain ⟨⟨c, r⟩, hc, h⟩ := Except.ok_bind_inv h
    cases h
    rw [applyUserRawWithStates_run hc]
    refine Machine.run_invariant
      (I := fun c => c.entryGates = core.entryGates ∧ c.rttEwmaUs = core.rttEwmaUs) ?_ ⟨rfl, rfl⟩
      (Machine.along_true core _)
    intro c trade ih _
    obtain ⟨trackers, he⟩ := tradeStep_eq c trade
    rw [he]
    exact ih
  | planExits now =>
    obtain ⟨⟨c, r⟩, hc, h⟩ := Except.ok_bind_inv h
    cases h
    obtain ⟨trackers, rfl⟩ := (planExits_judged hc).eq
    exact ⟨rfl, rfl⟩
  | _ =>
    cases h
    exact ⟨rfl, rfl⟩

end

end RuntimeCore

end Polyrust
