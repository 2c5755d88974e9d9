import Polyrust.Runtime.System
import Polyrust.State.Coherent

/-!
# What the steps of the runtime leave alone

The active market, the strike and the trust in the user channel are each changed in few places: the
market and the strike by a rotation and by the anchor, the trust by the user feed. The frames of the
two channels, the exits, the submits and the samples of the exchange leave all three as they are.
-/

namespace Polyrust

/-- Every operation but one keeps the trust in the user channel. -/
theorem Inventory.step_trusted (inv : Inventory) (op : Inventory.Op)
    (h : ∀ trusted, op ≠ .setUserWssTrusted trusted) :
    (inv.step op).userWssTrusted = inv.userWssTrusted := by
  cases op with
  | setUserWssTrusted trusted => exact absurd rfl (h trusted)
  | recordBuySubmitOutcome id outcome now => cases outcome <;> rfl
  | rehash pending =>
    rw [Inventory.step]
    split <;> rfl
  | _ => rfl

namespace RuntimeCore

/-- The two cores have the same active market, strike and trust. -/
structure SameScope {F : Type} (core core' : RuntimeCore F) : Prop where
  market : core'.state.market = core.state.market
  strike : core'.signal.strike = core.signal.strike
  trusted : core'.inventory.userWssTrusted = core.inventory.userWssTrusted

section
variable {F : Type} {pl : Platform} {core core' core'' : RuntimeCore F}

/-- A core is in its own scope. -/
theorem SameScope.refl (core : RuntimeCore F) : SameScope core core := ⟨rfl, rfl, rfl⟩

/-- The scope is kept over two changes. -/
theorem SameScope.trans (h : SameScope core core') (h' : SameScope core' core'') :
    SameScope core core'' :=
  ⟨h'.market.trans h.market, h'.strike.trans h.strike, h'.trusted.trans h.trusted⟩

/-- An operation of the inventory that is not the one of the user feed. -/
theorem SameScope.inventory (core : RuntimeCore F) (op : Inventory.Op)
    (h : ∀ trusted, op ≠ .setUserWssTrusted trusted) :
    SameScope core { core with inventory := core.inventory.step op } :=
  ⟨rfl, rfl, core.inventory.step_trusted op h⟩

/-- The frames of the market channel may end the trading of the market, and never replace it. -/
theorem applyMarketRaw_sameScope {raw : List UInt8} {tsUs : TsUs} {r : Except RuntimeError Nat}
    (h : core.applyMarketRaw pl raw tsUs = .ok (core', r)) : SameScope core core' := by
  obtain ⟨events, -, h⟩ := Except.ok_bind_inv h
  cases events with
  | error e =>
    cases h
    exact .refl core
  | ok events =>
    cases h
    exact ⟨RuntimeState.applyMarketEvents_market events core.state tsUs, rfl, rfl⟩

/-- A trade keeps market, strike and trust. -/
theorem tradeStep_sameScope (core : RuntimeCore F) (trade : UserTrade) :
    SameScope core (core.tradeStep trade) := by
  obtain ⟨trackers, he⟩ := tradeStep_eq core trade
  rw [he]
  exact ⟨rfl, rfl, core.inventory.step_trusted (.applyUserTrade trade) nofun⟩

/-- The frames of the user channel change inventory and trackers. -/
theorem applyUserRawWithStates_sameScope {raw : List UInt8} {tsUs : Int}
    {r : Except RuntimeError (UserMessage × List TradeState)}
    (h : core.applyUserRawWithStates pl raw tsUs = .ok (core', r)) : SameScope core core' := by
  rw [applyUserRawWithStates_run h]
  exact Machine.run_invariant (I := SameScope core)
    (fun c trade ih _ => ih.trans (tradeStep_sameScope c trade)) (.refl core)
    (Machine.along_true core _)

variable [F64 F]

/-- A round of the exit loop keeps market, strike and trust. -/
theorem planExits_sameScope {b : Build} {now : Int} {decisions : List ExitDecision}
    (h : core.planExits b now = .ok (core', decisions)) : SameScope core core' := by
  obtain ⟨trackers, rfl⟩ := (planExits_judged h).eq
  exact ⟨rfl, rfl, rfl⟩

end

end RuntimeCore

namespace RuntimeSystem

section
variable {F : Type} {s s' : RuntimeSystem F}

/-- An entry that is claimed leaves market, strike and trust as they are. -/
theorem submit_sameScope (s : RuntimeSystem F) (intent : BuyIntent) (now : TsUs) :
    RuntimeCore.SameScope s.core (s.submit intent now).core := by
  rw [submit]
  split
  · exact .inventory s.core (.claimEntry intent.token .buy ⟨1⟩ now.micros) nofun
  · exact .refl s.core

/-- An outcome keeps market, strike and trust. -/
theorem resolve_sameScope {b : Build} {index : Nat} {outcome : SubmitOutcome} {rtt : Rtt}
    {now : Int} (h : s.resolve b index outcome rtt now = .ok s') :
    RuntimeCore.SameScope s.core s'.core := by
  rcases resolve_cases h with rfl | ⟨id, ewma, -, rfl⟩
  · exact .refl _
  · have hout :=
      RuntimeCore.SameScope.inventory s.core (.recordBuySubmitOutcome id outcome now) nofun
    exact ⟨hout.market, hout.strike, hout.trusted⟩

/-- A claim that is given up keeps market, strike and trust. -/
theorem abandon_sameScope (s : RuntimeSystem F) (index : Nat) :
    RuntimeCore.SameScope s.core (s.abandon index).core := by
  rw [abandon]
  split
  · exact .refl s.core
  · next id _ => exact .inventory s.core (.releaseClaim id) nofun

variable [F64 F]

/-- The Binance task leaves market, strike and trust as they are. -/
theorem binanceSample_sameScope {b : Build} {sample : BinanceSample F} {now : TsUs}
    (h : s.binanceSample b sample now = .ok s') : RuntimeCore.SameScope s.core s'.core := by
  obtain ⟨signal, hsame, rfl | ⟨intent, -, -, -, rfl⟩⟩ := binanceSample_cases h
  · exact ⟨rfl, hsame.strike, rfl⟩
  · have hsubmit := submit_sameScope { s with core := { s.core with signal := signal } } intent now
    exact ⟨hsubmit.market, hsubmit.strike.trans hsame.strike, hsubmit.trusted⟩

end

end RuntimeSystem

end Polyrust
