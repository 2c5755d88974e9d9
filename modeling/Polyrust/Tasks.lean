import Polyrust.Anchor
import Polyrust.Runtime.Frame

/-!
# The tasks around the core

The maintenance task, the Binance task and the loop of the user feed (`main.rs`, `feed.rs`), as one
machine. The core and the anchor are each behind a lock, and what a task does under a lock is one
step; between two steps of a task any other task may take any number of its own. The anchor is
locked before the core, so a task that holds the anchor and waits for the core is a state of its
own, in which the other task that wants the anchor cannot move. The two ends of the channel of
subscribe frames are steps of the maintenance task and of the user feed.

A step of a task that is elsewhere in its code changes nothing.
-/

namespace Polyrust

open IntWidth F64

/-- A market as Gamma returns it: a market without a condition id is not returned. -/
structure Discovered where
  market : MarketContext
  conditionId_ne : market.conditionId.str ≠ ""

/-- Where the maintenance task stands in a rotation. -/
inductive Maintenance where
  | idle
  /-- the core has the new market -/
  | rotated
  /-- the anchor is locked -/
  | locked
  /-- the anchor is locked, and the active market was read -/
  | read (slugTs : Int) (conditionId : String)
  /-- the anchor is locked, and the new market is pending -/
  | pendingSet (conditionId : String)
  deriving DecidableEq, Repr

/-- The maintenance task holds the lock of the anchor. -/
def Maintenance.holdsAnchor : Maintenance → Bool
  | .idle | .rotated => false
  | .locked | .read .. | .pendingSet _ => true

/-- Where the Binance task stands in its callback. -/
inductive BinanceTask (F : Type) where
  | idle
  /-- the anchor is locked, and `try_resolve` returned a strike for the market that starts at
  `slugTs` -/
  | resolved (strike : F) (slugTs : Int) (sample : BinanceSample F) (now : TsUs)
  /-- the anchor is released, and the decision is next -/
  | pushed (sample : BinanceSample F) (now : TsUs)

/-- The Binance task holds the lock of the anchor. -/
def BinanceTask.holdsAnchor {F : Type} : BinanceTask F → Bool
  | .idle | .pushed .. => false
  | .resolved .. => true

/-- Where the loop of the user feed stands; `named` are the condition ids in the frames that were
sent on the connection. -/
inductive UserFeed where
  | down
  /-- connected, with the markets that the auth frame is to name -/
  | connected (markets : List String)
  | authSent (named : List String)
  | serving (named : List String)
  /-- a subscribe frame was taken from the channel and is being sent -/
  | sending (named : List String) (conditionId : String)
  /-- the connection is gone, and `on_disconnect` is next -/
  | closing
  deriving DecidableEq, Repr

/-- The condition ids named on the open connection. -/
def UserFeed.named : UserFeed → List String
  | .down | .connected _ | .closing => []
  | .authSent named | .serving named | .sending named _ => named

/-- The runtime with the tasks around it: where each of them stands, and what they share. -/
structure TaskSystem (F : Type) where
  runtime : RuntimeSystem F
  anchor : AnchorBuffer F
  maintenance : Maintenance
  binance : BinanceTask F
  user : UserFeed
  /-- condition ids of the subscribe frames in the channel -/
  userQueue : List String
  /-- the pending `slugTs` that the strike was resolved for, since the last reset -/
  strikeFor : Option Int

/-- What the market feed, the exit loop, the expiry of claims and the submits in flight do. -/
inductive BackgroundOp where
  | applyMarketRaw (raw : List UInt8) (tsUs : TsUs)
  | planExits (nowTsUs : Int)
  | expireStaleEntryClaims (nowTsUs : Int)
  | rehash (pending : HashMap SubmitId PendingSubmit)
  | resolve (index : Nat) (outcome : SubmitOutcome) (rtt : Rtt) (nowTsUs : Int)
  | abandon (index : Nat)

/-- The operation of the runtime. -/
def BackgroundOp.toOp {F : Type} : BackgroundOp → RuntimeSystem.Op F
  | .applyMarketRaw raw tsUs => .core (.applyMarketRaw raw tsUs)
  | .planExits now => .core (.planExits now)
  | .expireStaleEntryClaims now => .core (.expireStaleEntryClaims now)
  | .rehash pending => .core (.rehash pending)
  | .resolve index outcome rtt now => .resolve index outcome rtt now
  | .abandon index => .abandon index

namespace TaskSystem

/-- The steps of the tasks. -/
inductive Op (F : Type) where
  | rotate (isRotation : Bool) (discovered : Discovered)
  | lockAnchor
  | readMarket
  | setPending
  | subscribeUser
  | pushTick (sample : BinanceSample F) (now : TsUs)
  | setStrike
  | decideEntry
  | connect
  | connectFailed
  | sendAuth
  | sendAuthFailed
  | onAuthenticated
  | onEvent (raw : List UInt8) (nowTsUs : Int)
  | takeSubscribe
  | sendSubscribe
  | connectionLost
  | onDisconnect
  | background (op : BackgroundOp)

section
variable {F : Type} {pl : Platform} {s s' : TaskSystem F}

/-- The core of the runtime. -/
def core (s : TaskSystem F) : RuntimeCore F := s.runtime.core

/-- The same tasks around another core. -/
def withCore (s : TaskSystem F) (core : RuntimeCore F) : TaskSystem F :=
  { s with runtime := { s.runtime with core := core } }

/-- The active market. -/
def market (s : TaskSystem F) : Option MarketContext := s.core.state.market

/-! ## The user feed -/

/-- `current_markets`: the markets that the auth frame names. -/
def currentMarkets (s : TaskSystem F) : List String :=
  match s.market with
  | none => []
  | some m => [m.conditionId.str]

/-- `on_authenticated` and `on_disconnect`. -/
def setTrusted (s : TaskSystem F) (trusted : Bool) : TaskSystem F :=
  s.withCore { s.core with inventory := s.core.inventory.setUserWssTrusted trusted }

/-- The connection is opened, and the loop reads the markets for the auth frame. -/
def connect (s : TaskSystem F) : TaskSystem F :=
  match s.user with
  | .down => { s with user := .connected s.currentMarkets }
  | _ => s

/-- The connection could not be opened; `on_disconnect` is next. -/
def connectFailed (s : TaskSystem F) : TaskSystem F :=
  match s.user with
  | .down => { s with user := .closing }
  | _ => s

/-- The auth frame is sent. -/
def sendAuth (s : TaskSystem F) : TaskSystem F :=
  match s.user with
  | .connected markets => { s with user := .authSent markets }
  | _ => s

/-- The loop starts over, without `on_disconnect`. -/
def sendAuthFailed (s : TaskSystem F) : TaskSystem F :=
  match s.user with
  | .connected _ => { s with user := .down }
  | _ => s

/-- The callback after the auth frame grants the trust, whatever markets were named. -/
def onAuthenticated (s : TaskSystem F) : TaskSystem F :=
  match s.user with
  | .authSent named => { s.setTrusted true with user := .serving named }
  | _ => s

/-- A frame of the user channel; an auth error takes the trust back. -/
def onEvent (pl : Platform) (s : TaskSystem F) (raw : List UInt8) (nowTsUs : Int) :
    Exec (TaskSystem F) := do
  match s.user with
  | .serving _ =>
    let (core, r) ← s.core.applyUserRawWithStates pl raw nowTsUs
    match r with
    | .ok (.authError _, _) => return (s.withCore core).setTrusted false
    | _ => return s.withCore core
  | _ => return s

/-- A frame of the user channel changes the core only: it keeps market and strike, and grants no
trust. -/
theorem onEvent_eq {raw : List UInt8} {now : Int} (h : s.onEvent pl raw now = .ok s') :
    ∃ core, s' = s.withCore core ∧ core.state.market = s.market ∧
      core.signal.strike = s.core.signal.strike ∧
      (core.inventory.userWssTrusted = true → s.core.inventory.userWssTrusted = true) := by
  rw [onEvent] at h
  split at h
  · obtain ⟨⟨core, r⟩, hr, h⟩ := Except.ok_bind_inv h
    have hscope := RuntimeCore.applyUserRawWithStates_sameScope hr
    dsimp only at h
    split at h
    · cases h
      exact ⟨_, rfl, hscope.market, hscope.strike, nofun⟩
    · cases h
      exact ⟨core, rfl, hscope.market, hscope.strike, fun ht => hscope.trusted ▸ ht⟩
  · cases h
    exact ⟨s.core, rfl, rfl, rfl, id⟩

/-- The loop takes a subscribe frame from the channel. -/
def takeSubscribe (s : TaskSystem F) : TaskSystem F :=
  match s.user, s.userQueue with
  | .serving named, id :: queue => { s with user := .sending named id, userQueue := queue }
  | _, _ => s

/-- The subscribe frame is sent. -/
def sendSubscribe (s : TaskSystem F) : TaskSystem F :=
  match s.user with
  | .sending named id => { s with user := .serving (named ++ [id]) }
  | _ => s

/-- The read, the ping or the send of a subscribe frame failed. -/
def connectionLost (s : TaskSystem F) : TaskSystem F :=
  match s.user with
  | .serving _ | .sending .. => { s with user := .closing }
  | _ => s

/-- The callback after a connection is gone takes the trust back. -/
def onDisconnect (s : TaskSystem F) : TaskSystem F :=
  match s.user with
  | .closing => { s.setTrusted false with user := .down }
  | _ => s

/-! ## The maintenance task -/

/-- `is_new`: another condition id or another slug than those of the active market. -/
def isNew (s : TaskSystem F) (discovered : MarketContext) : Bool :=
  s.market.all fun m => m.conditionId ≠ discovered.conditionId || m.slug ≠ discovered.slug

/-- A discovered market replaces the active one: at the deadline of the rotation, or when there is
none, and if it is new. -/
def rotates (s : TaskSystem F) (isRotation : Bool) (discovered : MarketContext) : Bool :=
  s.maintenance = .idle && (isRotation || s.market.isNone) && s.isNew discovered

/-- The maintenance task takes the lock of the anchor, once the Binance task does not hold it. -/
def lockAnchor (s : TaskSystem F) : TaskSystem F :=
  match s.maintenance with
  | .rotated => if s.binance.holdsAnchor then s else { s with maintenance := .locked }
  | _ => s

/-- Under that lock it reads the active market, with the lock of the core held only for this. -/
def readMarket (s : TaskSystem F) : TaskSystem F :=
  match s.maintenance with
  | .locked =>
    let slugTs := (s.market.map (·.slugTs)).getD 0
    let conditionId := (s.market.map (·.conditionId.str)).getD ""
    { s with maintenance := .read slugTs conditionId }
  | _ => s

/-- The market that was read is set pending in the anchor. -/
def setPending (s : TaskSystem F) : TaskSystem F :=
  match s.maintenance with
  | .read slugTs conditionId =>
    { s with anchor := s.anchor.setPending slugTs, maintenance := .pendingSet conditionId }
  | _ => s

/-- The subscribe frame enters the channel, and the anchor is released. -/
def subscribeUser (s : TaskSystem F) : TaskSystem F :=
  match s.maintenance with
  | .pendingSet conditionId =>
    let queue := if conditionId.isEmpty then s.userQueue else s.userQueue ++ [conditionId]
    { s with userQueue := queue, maintenance := .idle }
  | _ => s

variable [F64 F]

/-- The rotation under the lock of the core. -/
def rotate (s : TaskSystem F) (isRotation : Bool) (discovered : MarketContext) : TaskSystem F :=
  if s.rotates isRotation discovered then
    let core := s.core.releaseMarketScope [discovered.yesToken, discovered.noToken]
    let core :=
      { core with
        signal := core.signal.setStrike 0.0 true, state := core.state.setMarket discovered }
    { s.withCore core with maintenance := .rotated, strikeFor := none }
  else s

/-! ## The Binance task -/

/-- The buffer with the sample in it. -/
def pushed (s : TaskSystem F) (sample : BinanceSample F) : AnchorBuffer F :=
  s.anchor.push sample.tsUs.micros sample.bid sample.ask sample.bidQty sample.askQty

/-- The first half of the callback, under the lock of the anchor. -/
def pushTick (s : TaskSystem F) (sample : BinanceSample F) (now : TsUs) : TaskSystem F :=
  match s.binance with
  | .idle =>
    if s.maintenance.holdsAnchor then s
    else
      let (anchor, r) := (s.pushed sample).tryResolve now.micros
      let binance : BinanceTask F :=
        match r with
        | .resolved strike => .resolved strike s.anchor.pendingSlugTs sample now
        | .pending | .failed => .pushed sample now
      { s with anchor := anchor, binance := binance }
  | _ => s

/-- The resolved strike reaches the core, and the anchor is released. -/
def setStrike (s : TaskSystem F) : TaskSystem F :=
  match s.binance with
  | .resolved strike slugTs sample now =>
    { s.withCore { s.core with signal := s.core.signal.setStrike strike true } with
      binance := .pushed sample now, strikeFor := some slugTs }
  | _ => s

/-- The decision and the claim, under one lock of the core. -/
def decideEntry (pl : Platform) (s : TaskSystem F) : Exec (TaskSystem F) := do
  match s.binance with
  | .pushed sample now =>
    return { s with runtime := ← s.runtime.binanceSample pl.build sample now, binance := .idle }
  | _ => return s

/-! ## The machine -/

/-- The system when its tasks are spawned. -/
def start (config : Config F) (core : RuntimeCore F) : TaskSystem F :=
  { runtime := .init config core, anchor := .new, maintenance := .idle, binance := .idle
    user := .down, userQueue := [], strikeFor := none }

/-- The system after a step. One that is not next in its task leaves everything as it is. -/
def step (pl : Platform) (s : TaskSystem F) : Op F → Exec (TaskSystem F)
  | .rotate isRotation discovered => return s.rotate isRotation discovered.market
  | .lockAnchor => return s.lockAnchor
  | .readMarket => return s.readMarket
  | .setPending => return s.setPending
  | .subscribeUser => return s.subscribeUser
  | .pushTick sample now => return s.pushTick sample now
  | .setStrike => return s.setStrike
  | .decideEntry => s.decideEntry pl
  | .connect => return s.connect
  | .connectFailed => return s.connectFailed
  | .sendAuth => return s.sendAuth
  | .sendAuthFailed => return s.sendAuthFailed
  | .onAuthenticated => return s.onAuthenticated
  | .onEvent raw now => s.onEvent pl raw now
  | .takeSubscribe => return s.takeSubscribe
  | .sendSubscribe => return s.sendSubscribe
  | .connectionLost => return s.connectionLost
  | .onDisconnect => return s.onDisconnect
  | .background op => return { s with runtime := ← s.runtime.step pl op.toOp }

/-! ## Steps that leave market, strike and trust alone -/

/-- The decision ends the callback and keeps market, strike and trust. -/
theorem decideEntry_eq (h : s.decideEntry pl = .ok s') :
    ∃ runtime binance, s' = { s with runtime := runtime, binance := binance } ∧
      (binance = .idle ∨ binance = s.binance) ∧ RuntimeCore.SameScope s.core runtime.core := by
  rw [decideEntry] at h
  split at h
  · obtain ⟨runtime, hr, h⟩ := Except.ok_bind_inv h
    cases h
    exact ⟨runtime, .idle, rfl, .inl rfl, RuntimeSystem.binanceSample_sameScope hr⟩
  · cases h
    exact ⟨s.runtime, s.binance, rfl, .inr rfl, .refl s.core⟩

/-- What the other tasks do keeps market, strike and trust. -/
theorem background_sameScope {op : BackgroundOp} {runtime : RuntimeSystem F}
    (h : s.runtime.step pl op.toOp = .ok runtime) :
    RuntimeCore.SameScope s.core runtime.core := by
  cases op with
  | applyMarketRaw raw tsUs =>
    obtain ⟨core, hc, h⟩ := Except.ok_bind_inv h
    obtain ⟨⟨c, r⟩, hr, hc⟩ := Except.ok_bind_inv hc
    cases hc
    cases h
    exact RuntimeCore.applyMarketRaw_sameScope hr
  | planExits now =>
    obtain ⟨core, hc, h⟩ := Except.ok_bind_inv h
    obtain ⟨⟨c, decisions⟩, hr, hc⟩ := Except.ok_bind_inv hc
    cases hc
    cases h
    exact RuntimeCore.planExits_sameScope hr
  | expireStaleEntryClaims now =>
    cases h
    exact .inventory s.core (.expireStaleEntryClaims now) nofun
  | rehash pending =>
    cases h
    exact .inventory s.core (.rehash pending) nofun
  | resolve index outcome rtt now => exact RuntimeSystem.resolve_sameScope h
  | abandon index =>
    cases h
    exact RuntimeSystem.abandon_sameScope s.runtime index

end

end TaskSystem

end Polyrust
