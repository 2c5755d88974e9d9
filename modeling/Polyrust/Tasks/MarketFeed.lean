import Polyrust.Tasks.Rotation

/-!
# The market feed

The loop of the market feed (`feed.rs`) next to the other tasks. The first frame of a connection
names the tokens of the market that is active then. After a rotation the maintenance task sends a
frame with the new tokens through a channel, and the loop takes it from there to the open
connection; a frame that cannot be sent is lost together with the connection. Whatever the order of
these steps, the tokens of the active market are named on the connection, or in a frame that is on
its way to it (`tokens_subscribed`).
-/

namespace Polyrust

open F64

/-- Where the loop of the market feed stands; `named` are the tokens in the frames that were sent on
the connection. -/
inductive MarketFeed where
  | down
  /-- connected, with the tokens that the first frame is to name -/
  | connected (assets : List String)
  | serving (named : List String)
  /-- a frame was taken from the channel and is being sent -/
  | sending (named assets : List String)
  deriving DecidableEq, Repr

/-- The tokens that the open connection has named, or is about to name. -/
def MarketFeed.targets : MarketFeed → Option (List String)
  | .down => none
  | .connected assets => some assets
  | .serving named => some named
  | .sending named assets => some (named ++ assets)

/-- The tasks, the loop of the market feed, and the channel between the two. -/
structure FeedSystem (F : Type) where
  tasks : TaskSystem F
  feed : MarketFeed
  /-- the tokens in the frames in the channel -/
  marketQueue : List (List String)
  /-- the tokens that the maintenance task has read, until it has sent them to the channel -/
  toSend : Option (String × String)

namespace FeedSystem

/-- The steps of the market feed, and those of the tasks. -/
inductive Op (F : Type) where
  | task (op : TaskSystem.Op F)
  | subscribeMarket
  | connect
  | sendFirst
  | sendFirstFailed
  | onEvent (raw : List UInt8) (tsUs : TsUs)
  | takeFrame
  | sendFrame
  | connectionLost

section
variable {F : Type} {s s' : FeedSystem F}

/-- `current_tokens`. -/
def currentTokens (s : FeedSystem F) : List String :=
  match s.tasks.market with
  | none => []
  | some m => [m.yesToken.str, m.noToken.str]

/-- A connection is opened, with the tokens of the market that is active then. -/
def connect (s : FeedSystem F) : FeedSystem F :=
  match s.feed with
  | .down => { s with feed := .connected s.currentTokens }
  | _ => s

/-- The first frame of the connection; without tokens there is none. -/
def sendFirst (s : FeedSystem F) : FeedSystem F :=
  match s.feed with
  | .connected assets => { s with feed := .serving assets }
  | _ => s

/-- The first frame could not be sent. -/
def sendFirstFailed (s : FeedSystem F) : FeedSystem F :=
  match s.feed with
  | .connected _ => { s with feed := .down }
  | _ => s

/-- The loop takes a frame from the channel. -/
def takeFrame (s : FeedSystem F) : FeedSystem F :=
  match s.feed, s.marketQueue with
  | .serving named, assets :: queue =>
    { s with feed := .sending named assets, marketQueue := queue }
  | _, _ => s

/-- The frame is sent. -/
def sendFrame (s : FeedSystem F) : FeedSystem F :=
  match s.feed with
  | .sending named assets => { s with feed := .serving (named ++ assets) }
  | _ => s

/-- The read, the ping or the send of a frame failed; `on_disconnect` does nothing. -/
def connectionLost (s : FeedSystem F) : FeedSystem F :=
  match s.feed with
  | .serving _ | .sending .. => { s with feed := .down }
  | _ => s

/-- What the maintenance task reads for the frame, together with what it reads for the anchor. -/
def readTokens (s : FeedSystem F) : Option (String × String) :=
  match s.tasks.maintenance with
  | .locked =>
    some ((s.tasks.market.map (·.yesToken.str)).getD "",
      (s.tasks.market.map (·.noToken.str)).getD "")
  | _ => s.toSend

/-- The frame for the market feed; it is sent before the one for the user feed. -/
def subscribeMarket (s : FeedSystem F) : FeedSystem F :=
  match s.tasks.maintenance, s.toSend with
  | .pendingSet _, some (yes, no) =>
    let queue :=
      if !yes.isEmpty && !no.isEmpty then s.marketQueue ++ [[yes, no]] else s.marketQueue
    { s with marketQueue := queue, toSend := none }
  | _, _ => s

variable [F64 F]

/-- A step of the tasks; the frames of the market come from the market feed only. -/
def stepTask (pl : Platform) (s : FeedSystem F) (op : TaskSystem.Op F) : Exec (FeedSystem F) :=
  match op with
  | .background (.applyMarketRaw ..) => return s
  | .readMarket => do
    return { s with tasks := ← s.tasks.step pl .readMarket, toSend := s.readTokens }
  | .subscribeUser => do
    if s.toSend.isSome then return s
    return { s with tasks := ← s.tasks.step pl .subscribeUser }
  | op => do return { s with tasks := ← s.tasks.step pl op }

/-- A frame of the market channel. -/
def onEvent (pl : Platform) (s : FeedSystem F) (raw : List UInt8) (tsUs : TsUs) :
    Exec (FeedSystem F) := do
  match s.feed with
  | .serving _ =>
    return { s with tasks := ← s.tasks.step pl (.background (.applyMarketRaw raw tsUs)) }
  | _ => return s

/-- The system after a step. -/
def step (pl : Platform) (s : FeedSystem F) : Op F → Exec (FeedSystem F)
  | .task op => s.stepTask pl op
  | .subscribeMarket => return s.subscribeMarket
  | .connect => return s.connect
  | .sendFirst => return s.sendFirst
  | .sendFirstFailed => return s.sendFirstFailed
  | .onEvent raw tsUs => s.onEvent pl raw tsUs
  | .takeFrame => return s.takeFrame
  | .sendFrame => return s.sendFrame
  | .connectionLost => return s.connectionLost

/-- The system at its start: no connection, and no frame in the channel. -/
def start (config : Config F) (core : RuntimeCore F) : FeedSystem F :=
  { tasks := .start config core, feed := .down, marketQueue := [], toSend := none }

end

/-! ## On the way -/

section
variable {F : Type} {s s' : FeedSystem F}

/-- The frame of a market is named in the list. -/
def Names (m : MarketContext) (assets : List String) : Prop :=
  m.yesToken.str ∈ assets ∧ m.noToken.str ∈ assets

/-- The tokens of a market, as they are read. -/
def tokensOf (m : MarketContext) : String × String := (m.yesToken.str, m.noToken.str)

/-- Where the maintenance task stands, its frame is still to be read, is that of the active market,
or has been sent. -/
def Carries (s : FeedSystem F) : Prop :=
  match s.tasks.maintenance with
  | .idle | .rotated | .locked => s.toSend = none
  | .read .. => s.toSend = some ((s.tasks.market.map tokensOf).getD ("", ""))
  | .pendingSet _ => ∀ tokens ∈ s.toSend, tokens = (s.tasks.market.map tokensOf).getD ("", "")

/-- The maintenance task has not sent the frame of the rotation yet. -/
def Outstanding (s : FeedSystem F) : Prop :=
  s.tasks.maintenance = .rotated ∨ s.tasks.maintenance = .locked ∨ s.toSend.isSome = true

/-- Where a connection is open, the tokens of the active market were named on it, or are in a frame
that is on its way. -/
structure FeedInv (s : FeedSystem F) : Prop where
  carries : s.Carries
  awaited : ∀ m targets, s.tasks.market = some m → m.yesToken.str ≠ "" → m.noToken.str ≠ "" →
    s.feed.targets = some targets →
      Names m (targets ++ s.marketQueue.flatten) ∨ s.Outstanding

/-- A step that keeps market, channel and maintenance, and names no less. -/
theorem FeedInv.of_same (hs : s.FeedInv) (hmarket : s'.tasks.market = s.tasks.market)
    (hmaintenance : s'.tasks.maintenance = s.tasks.maintenance) (htoSend : s'.toSend = s.toSend)
    (hnamed : ∀ targets, s'.feed.targets = some targets → ∃ named, s.feed.targets = some named ∧
      named ++ s.marketQueue.flatten = targets ++ s'.marketQueue.flatten) : s'.FeedInv := by
  refine ⟨?_, ?_⟩
  · have hcarries := hs.carries
    rw [Carries] at hcarries ⊢
    rw [hmaintenance, htoSend, hmarket]
    exact hcarries
  · intro m targets hm hyes hno htargets
    obtain ⟨named, hfeed, hlist⟩ := hnamed targets htargets
    rw [Outstanding, hmaintenance, htoSend, ← hlist]
    exact hs.awaited m named (hmarket ▸ hm) hyes hno hfeed

/-! ## Steps of the market feed -/

/-- A connection reads the tokens of the active market. -/
theorem FeedInv.connect (hs : s.FeedInv) : s.connect.FeedInv := by
  rw [FeedSystem.connect]
  split
  · refine ⟨hs.carries, ?_⟩
    intro m targets hm hyes hno htargets
    cases htargets
    left
    replace hm : s.tasks.market = some m := hm
    simp [Names, currentTokens, hm]
  · exact hs

/-- The first frame names the tokens that were read. -/
theorem FeedInv.sendFirst (hs : s.FeedInv) : s.sendFirst.FeedInv := by
  rw [FeedSystem.sendFirst]
  split
  · next assets hfeed =>
    refine hs.of_same rfl rfl rfl fun targets htargets => ?_
    rw [hfeed]
    exact ⟨targets, htargets, rfl⟩
  · exact hs

/-- A connection that fails names nothing. -/
theorem FeedInv.sendFirstFailed (hs : s.FeedInv) : s.sendFirstFailed.FeedInv := by
  rw [FeedSystem.sendFirstFailed]
  split
  · exact hs.of_same rfl rfl rfl nofun
  · exact hs

/-- A frame that leaves the channel is one that the connection is about to send. -/
theorem FeedInv.takeFrame (hs : s.FeedInv) : s.takeFrame.FeedInv := by
  rw [FeedSystem.takeFrame]
  split
  · next named assets queue hfeed hqueue =>
    refine hs.of_same rfl rfl rfl fun targets htargets => ?_
    cases htargets
    rw [hfeed, hqueue]
    exact ⟨named, rfl, by simp⟩
  · exact hs

/-- A frame that is sent names its tokens. -/
theorem FeedInv.sendFrame (hs : s.FeedInv) : s.sendFrame.FeedInv := by
  rw [FeedSystem.sendFrame]
  split
  · next named assets hfeed =>
    refine hs.of_same rfl rfl rfl fun targets htargets => ?_
    cases htargets
    rw [hfeed]
    exact ⟨named ++ assets, rfl, rfl⟩
  · exact hs

/-- What is lost with the connection is read again. -/
theorem FeedInv.connectionLost (hs : s.FeedInv) : s.connectionLost.FeedInv := by
  rw [FeedSystem.connectionLost]
  split
  · exact hs.of_same rfl rfl rfl nofun
  · exact hs.of_same rfl rfl rfl nofun
  · exact hs

/-! ## Steps of a rotation -/

/-- The frame of the active market enters the channel. -/
theorem FeedInv.subscribeMarket (hs : s.FeedInv) : s.subscribeMarket.FeedInv := by
  rw [FeedSystem.subscribeMarket]
  split
  · next conditionId yes no hmaintenance htoSend =>
    have hcarries := hs.carries
    rw [Carries, hmaintenance, htoSend] at hcarries
    refine ⟨?_, ?_⟩
    · rw [Carries]
      dsimp only
      rw [hmaintenance]
      exact nofun
    · intro m targets hm hyes hno htargets
      left
      replace hm : s.tasks.market = some m := hm
      rw [hm] at hcarries
      cases hcarries _ rfl
      simp [Names, hyes, hno]
  · exact hs

/-- In the middle of a rotation, the frame is yet to come. -/
theorem Outstanding.of_maintenance {maintenance : Maintenance}
    (h : s.tasks.maintenance = maintenance) (hm : maintenance = .rotated ∨ maintenance = .locked) :
    s.Outstanding := by
  rcases hm with rfl | rfl
  · exact .inl h
  · exact .inr (.inl h)

/-- The rotation goes on in the anchor. -/
theorem FeedInv.lockAnchor (hs : s.FeedInv) : { s with tasks := s.tasks.lockAnchor }.FeedInv := by
  have hlock : s.tasks.lockAnchor = s.tasks ∨ s.tasks.maintenance = .rotated ∧
      s.tasks.lockAnchor = { s.tasks with maintenance := .locked } := by
    rw [TaskSystem.lockAnchor]
    split
    · next hm =>
      split
      · exact .inl rfl
      · exact .inr ⟨hm, rfl⟩
    · exact .inl rfl
  rcases hlock with hlock | ⟨hm, hlock⟩ <;> rw [hlock]
  · exact hs
  · have hcarries := hs.carries
    rw [Carries, hm] at hcarries
    exact ⟨hcarries, fun _ _ _ _ _ _ => .inr (.of_maintenance rfl (.inr rfl))⟩

/-- The tokens of the active market are read. -/
theorem FeedInv.readMarket (hs : s.FeedInv) :
    { s with tasks := s.tasks.readMarket, toSend := s.readTokens }.FeedInv := by
  rw [TaskSystem.readMarket]
  split
  · next hm =>
    have hread : s.readTokens = some ((s.tasks.market.map tokensOf).getD ("", "")) := by
      rw [readTokens, hm]
      cases s.tasks.market <;> rfl
    rw [hread]
    exact ⟨rfl, fun _ _ _ _ _ _ => .inr (.inr (.inr rfl))⟩
  · next hm =>
    have hread : s.readTokens = s.toSend := by
      rw [readTokens]
      split
      · next hlocked => exact absurd hlocked hm
      · rfl
    rw [hread]
    exact hs

/-- The pending market of the anchor is no part of the invariant. -/
theorem FeedInv.setPending (hs : s.FeedInv) : { s with tasks := s.tasks.setPending }.FeedInv := by
  rw [TaskSystem.setPending]
  split
  · next slugTs conditionId hm =>
    have hcarries := hs.carries
    rw [Carries, hm] at hcarries
    refine ⟨?_, fun _ _ _ _ _ _ => .inr (.inr (.inr ?_))⟩
    · rw [Carries]
      dsimp only
      rw [hcarries]
      rintro tokens ⟨⟩
      rfl
    · dsimp only
      rw [hcarries]
      rfl
  · exact hs

/-- The rotation ends when its frame has been sent. -/
theorem FeedInv.subscribeUser (hs : s.FeedInv) (htoSend : s.toSend.isSome = false) :
    { s with tasks := s.tasks.subscribeUser }.FeedInv := by
  rw [TaskSystem.subscribeUser]
  split
  · next conditionId hm =>
    refine ⟨Option.isSome_eq_false_iff.1 htoSend |> Option.isNone_iff_eq_none.1, ?_⟩
    intro m targets hmarket hyes hno htargets
    rcases hs.awaited m targets hmarket hyes hno htargets with hnames | hrotated | hlocked | hsome
    · exact .inl hnames
    · cases hm.symm.trans hrotated
    · cases hm.symm.trans hlocked
    · cases htoSend.symm.trans hsome
  · exact hs

variable [F64 F]

/-- A rotation of the core leaves its frame to come. -/
theorem FeedInv.rotate (hs : s.FeedInv) (isRotation : Bool) (m : MarketContext) :
    { s with tasks := s.tasks.rotate isRotation m }.FeedInv := by
  rw [TaskSystem.rotate]
  split
  · next hrotates =>
    have hcarries := hs.carries
    rw [TaskSystem.rotates, Bool.and_eq_true, Bool.and_eq_true, decide_eq_true_eq] at hrotates
    rw [Carries, hrotates.1.1] at hcarries
    exact ⟨hcarries, fun _ _ _ _ _ _ => .inr (.of_maintenance rfl (.inl rfl))⟩
  · exact hs

variable {pl : Platform}

/-- A step of the tasks that is none of a rotation. -/
theorem FeedInv.task (hs : s.FeedInv) {op : TaskSystem.Op F} (hop : op.ofRotation = false)
    {tasks : TaskSystem F} (h : s.tasks.step pl op = .ok tasks) :
    { s with tasks := tasks }.FeedInv := by
  obtain ⟨hmarket, hmaintenance⟩ := TaskSystem.step_same hop h
  exact hs.of_same hmarket hmaintenance rfl fun targets htargets => ⟨targets, htargets, rfl⟩

/-- A step of another task keeps the tokens named. -/
theorem FeedInv.stepTask (hs : s.FeedInv) {op : TaskSystem.Op F}
    (h : s.stepTask pl op = .ok s') : s'.FeedInv := by
  cases hop : op.ofRotation with
  | false =>
    unfold FeedSystem.stepTask at h
    split at h
    · cases h
      exact hs
    · cases hop
    · cases hop
    · obtain ⟨tasks, htasks, h⟩ := Except.ok_bind_inv h
      cases h
      exact hs.task hop htasks
  | true =>
    cases op with
    | rotate isRotation discovered => cases h; exact hs.rotate isRotation discovered.market
    | lockAnchor => cases h; exact hs.lockAnchor
    | readMarket => cases h; exact hs.readMarket
    | setPending => cases h; exact hs.setPending
    | subscribeUser =>
      rw [FeedSystem.stepTask] at h
      split at h
      · cases h
        exact hs
      · next htoSend =>
        cases h
        exact hs.subscribeUser (Bool.not_eq_true _ ▸ htoSend)
    | _ => cases hop

/-- Every step keeps the invariant. -/
theorem FeedInv.step (hs : s.FeedInv) {op : Op F} (h : s.step pl op = .ok s') : s'.FeedInv := by
  cases op with
  | task op => exact hs.stepTask h
  | onEvent raw tsUs =>
    rw [FeedSystem.step, FeedSystem.onEvent] at h
    split at h
    · obtain ⟨tasks, htasks, h⟩ := Except.ok_bind_inv h
      cases h
      exact hs.task rfl htasks
    · cases h
      exact hs
  | subscribeMarket => cases h; exact hs.subscribeMarket
  | connect => cases h; exact hs.connect
  | sendFirst => cases h; exact hs.sendFirst
  | sendFirstFailed => cases h; exact hs.sendFirstFailed
  | takeFrame => cases h; exact hs.takeFrame
  | sendFrame => cases h; exact hs.sendFrame
  | connectionLost => cases h; exact hs.connectionLost

/-- The invariant holds at the start. -/
theorem FeedInv.start (config : Config F) {core : RuntimeCore F}
    (hnew : RuntimeCore.new config = .ok core) : (start config core).FeedInv := by
  obtain ⟨signalConfig, -, hnew⟩ := Except.ok_bind_inv hnew
  cases hnew
  exact ⟨rfl, nofun⟩

/-! ## Frames that wait -/

/-- The loop sends a number of frames. -/
def sendFrames (n : Nat) : List (Op F) := (List.replicate n [.takeFrame, .sendFrame]).flatten

/-- The frames that wait in the channel are sent in their order. -/
theorem run_sendFrames (pl : Platform) {named : List String} (h : s.feed = .serving named) :
    Machine.runM (FeedSystem.step pl) s (sendFrames s.marketQueue.length) =
      .ok { s with feed := .serving (named ++ s.marketQueue.flatten), marketQueue := [] } := by
  obtain ⟨tasks, feed, queue, toSend⟩ := s
  cases h
  dsimp only
  induction queue generalizing named with
  | nil => simp [sendFrames]
  | cons assets queue ih =>
    have hsent := @ih (named ++ assets)
    rw [List.append_assoc] at hsent
    exact hsent

/-- In every run, while no rotation is under way and the connection is open, the tokens of the
active market are named on it or in a frame in the channel; and once the loop has sent these frames,
they are named on it. -/
theorem tokens_subscribed (pl : Platform) (config : Config F) {core : RuntimeCore F}
    (hnew : RuntimeCore.new config = .ok core) {ops : List (Op F)}
    (hr : Machine.runM (FeedSystem.step pl) (start config core) ops = .ok s) {m : MarketContext}
    (hmarket : s.tasks.market = some m) (hyes : m.yesToken.str ≠ "") (hno : m.noToken.str ≠ "")
    (hidle : s.tasks.maintenance = .idle) {named : List String} (hfeed : s.feed = .serving named) :
    Names m (named ++ s.marketQueue.flatten) ∧
      Machine.runM (FeedSystem.step pl) s (sendFrames s.marketQueue.length) =
        .ok { s with feed := .serving (named ++ s.marketQueue.flatten), marketQueue := [] } := by
  have hs := Machine.runM_invariant (fun _ _ _ hs _ h => hs.step h) (FeedInv.start config hnew)
    (Machine.alongM_true _ ops) hr
  refine ⟨?_, run_sendFrames pl hfeed⟩
  have hcarries := hs.carries
  rw [Carries, hidle] at hcarries
  rcases hs.awaited m named hmarket hyes hno (by rw [hfeed]; rfl) with h | h | h | h
  · exact h
  · cases hidle.symm.trans h
  · cases hidle.symm.trans h
  · rw [hcarries] at h
    cases h

end

/-! ## A market after the connection -/

/-- The feed connects before there is a market, and the first market is found then. -/
def lateOps : List (Op Rat) :=
  [.connect, .sendFirst, .task (.rotate true MaintenanceLoop.firstMarket), .task .lockAnchor,
    .task .readMarket, .task .setPending, .subscribeMarket, .task .subscribeUser]

/-- A market that is found after the connection is open has its frame in the channel. -/
theorem tokens_subscribed_late : ∃ s : FeedSystem Rat,
    s.feed = .serving [] ∧ s.tasks.market = some RuntimeCore.upDownMarket ∧
      Names RuntimeCore.upDownMarket s.marketQueue.flatten := by
  have hruns : (RuntimeCore.new Config.runtimeEnvShape).Succeeds fun core =>
      (Machine.runM (step (.reading [])) (start Config.runtimeEnvShape core) lateOps).Succeeds
        fun s => s.feed = .serving [] ∧ s.tasks.market = some RuntimeCore.upDownMarket ∧
          s.tasks.maintenance = .idle := by
    decide +kernel
  obtain ⟨core, hnew, hrun⟩ := hruns.exists
  obtain ⟨s, hr, hfeed, hmarket, hidle⟩ := hrun.exists
  obtain ⟨hnames, -⟩ := tokens_subscribed (.reading []) Config.runtimeEnvShape hnew hr hmarket
    (by decide +kernel) (by decide +kernel) hidle hfeed
  exact ⟨s, hfeed, hmarket, hnames⟩

end FeedSystem

end Polyrust
