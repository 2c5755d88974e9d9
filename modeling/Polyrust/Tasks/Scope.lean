import Polyrust.Tasks.Strike

/-!
# The scope of the user channel

The trust in the user channel is one flag: the connection grants it once its auth frame is sent,
whatever markets that frame names. After a rotation the open connection learns of the new market by
a subscribe frame, which waits in the maintenance task, in the channel and in the send; on a
connection that is already trusted an entry may be claimed before. Where no frame is on its way that
would be the first to name the market, and the connection is not about to be given up, the market of
every claim is one that the connection has named (`claims_in_scope`).
-/

namespace Polyrust

open F64

/-- The connection was authenticated, and `on_disconnect` has not been performed since. -/
def UserFeed.authenticated : UserFeed → Bool
  | .down | .connected _ | .authSent _ => false
  | .serving _ | .sending .. | .closing => true

/-- The condition ids that the open connection has named, or is about to name. -/
def UserFeed.targets : UserFeed → Option (List String)
  | .down | .closing => none
  | .connected markets => some markets
  | .authSent named | .serving named => some named
  | .sending named id => some (named ++ [id])

/-- The condition id in the frame that is being sent. -/
def UserFeed.outgoing : UserFeed → Option String
  | .sending _ id => some id
  | .down | .connected _ | .authSent _ | .serving _ | .closing => none

/-- In a rotation there is an active market, and what was read is its condition id. -/
def Maintenance.Carries (market : Option MarketContext) : Maintenance → Prop
  | .idle => True
  | .rotated | .locked => market.isSome
  | .read _ id | .pendingSet id => market.map (·.conditionId.str) = some id

namespace TaskSystem

section
variable {F : Type} {pl : Platform} {s s' : TaskSystem F}

/-- The open connection has sent a frame that names the active market. -/
def InScope (s : TaskSystem F) : Prop :=
  ∃ m, s.market = some m ∧ m.conditionId.str ∈ s.user.named

/-- The connection is not being given up, and no subscribe frame is on its way that would be the
first to name the active market. -/
def Settled (s : TaskSystem F) : Prop :=
  s.user ≠ .closing ∧ ∀ m ∈ s.market, m.conditionId.str ∉ s.user.named →
    s.maintenance = .idle ∧ m.conditionId.str ∉ s.userQueue ∧
      s.user.outgoing ≠ some m.conditionId.str

instance : Decidable s.Settled := inferInstanceAs (Decidable (_ ∧ _))

/-- Trust needs an authenticated connection; and where a connection is open, the active market was
named on it, or a frame that names it is on its way. -/
structure ScopeInv (s : TaskSystem F) : Prop where
  trusted : s.core.inventory.userWssTrusted = true → s.user.authenticated = true
  conditionId_ne : ∀ m, s.market = some m → m.conditionId.str ≠ ""
  carries : s.maintenance.Carries s.market
  awaited : ∀ m targets, s.market = some m → s.user.targets = some targets →
    m.conditionId.str ∈ targets ∨ m.conditionId.str ∈ s.userQueue ∨ s.maintenance ≠ .idle

/-- A step that leaves user feed, channel and maintenance where they are, and grants no trust. -/
theorem ScopeInv.of_same (hs : s.ScopeInv) (hmarket : s'.market = s.market)
    (htrusted : s'.core.inventory.userWssTrusted = true → s.core.inventory.userWssTrusted = true)
    (huser : s'.user = s.user) (hqueue : s'.userQueue = s.userQueue)
    (hmaintenance : s'.maintenance = s.maintenance) : s'.ScopeInv where
  trusted ht := huser ▸ hs.trusted (htrusted ht)
  conditionId_ne m hm := hs.conditionId_ne m (hmarket ▸ hm)
  carries := by
    rw [hmaintenance, hmarket]
    exact hs.carries
  awaited m targets hm ht := by
    rw [hqueue, hmaintenance]
    exact hs.awaited m targets (hmarket ▸ hm) (huser ▸ ht)

/-- A connection that is not authenticated is not trusted. -/
theorem ScopeInv.not_trusted (hs : s.ScopeInv) (h : s.user.authenticated = false) :
    s.core.inventory.userWssTrusted ≠ true := by
  intro ht
  cases h.symm.trans (hs.trusted ht)

/-! ## Steps of the user feed -/

/-- A connection is to name the market that is active when it is opened. -/
theorem ScopeInv.connect (hs : s.ScopeInv) : s.connect.ScopeInv := by
  rw [TaskSystem.connect]
  split
  · next hu =>
    refine ⟨fun ht => absurd ht (hs.not_trusted (by rw [hu]; rfl)), hs.conditionId_ne, hs.carries,
      ?_⟩
    intro m targets hm ht
    cases ht
    left
    replace hm : s.market = some m := hm
    simp [currentMarkets, hm]
  · exact hs

/-- Without a connection there is no trust. -/
theorem ScopeInv.connectFailed (hs : s.ScopeInv) : s.connectFailed.ScopeInv := by
  rw [TaskSystem.connectFailed]
  split
  · exact ⟨fun _ => rfl, hs.conditionId_ne, hs.carries, fun _ _ _ ht => by cases ht⟩
  · exact hs

/-- The auth frame names the markets that were read. -/
theorem ScopeInv.sendAuth (hs : s.ScopeInv) : s.sendAuth.ScopeInv := by
  rw [TaskSystem.sendAuth]
  split
  · next markets hu =>
    refine ⟨fun ht => absurd ht (hs.not_trusted (by rw [hu]; rfl)), hs.conditionId_ne, hs.carries,
      ?_⟩
    intro m targets hm ht
    exact hs.awaited m targets hm (by rw [hu]; exact ht)
  · exact hs

/-- Without the auth frame there is no trust. -/
theorem ScopeInv.sendAuthFailed (hs : s.ScopeInv) : s.sendAuthFailed.ScopeInv := by
  rw [TaskSystem.sendAuthFailed]
  split
  · next markets hu =>
    exact ⟨fun ht => absurd ht (hs.not_trusted (by rw [hu]; rfl)), hs.conditionId_ne, hs.carries,
      fun _ _ _ ht => by cases ht⟩
  · exact hs

/-- Trust is granted to a connection that is authenticated. -/
theorem ScopeInv.onAuthenticated (hs : s.ScopeInv) : s.onAuthenticated.ScopeInv := by
  rw [TaskSystem.onAuthenticated]
  split
  · next named hu =>
    refine ⟨fun _ => rfl, hs.conditionId_ne, hs.carries, ?_⟩
    intro m targets hm ht
    exact hs.awaited m targets hm (by rw [hu]; exact ht)
  · exact hs

/-- A frame that leaves the channel is one that the connection is about to send. -/
theorem ScopeInv.takeSubscribe (hs : s.ScopeInv) : s.takeSubscribe.ScopeInv := by
  rw [TaskSystem.takeSubscribe]
  split
  · next named id queue hu hq =>
    refine ⟨fun _ => rfl, hs.conditionId_ne, hs.carries, ?_⟩
    intro m targets hm ht
    cases ht
    have hawaited := hs.awaited m named hm (by rw [hu]; rfl)
    rw [hq, List.mem_cons] at hawaited
    rw [List.mem_append, List.mem_singleton]
    tauto
  · exact hs

/-- The frame names its market. -/
theorem ScopeInv.sendSubscribe (hs : s.ScopeInv) : s.sendSubscribe.ScopeInv := by
  rw [TaskSystem.sendSubscribe]
  split
  · next named id hu =>
    refine ⟨fun _ => rfl, hs.conditionId_ne, hs.carries, ?_⟩
    intro m targets hm ht
    exact hs.awaited m targets hm (by rw [hu]; exact ht)
  · exact hs

/-- A connection that is lost has nothing to name. -/
theorem ScopeInv.connectionLost (hs : s.ScopeInv) : s.connectionLost.ScopeInv := by
  rw [TaskSystem.connectionLost]
  split
  · exact ⟨fun _ => rfl, hs.conditionId_ne, hs.carries, fun _ _ _ ht => by cases ht⟩
  · exact ⟨fun _ => rfl, hs.conditionId_ne, hs.carries, fun _ _ _ ht => by cases ht⟩
  · exact hs

/-- The trust is taken back. -/
theorem ScopeInv.onDisconnect (hs : s.ScopeInv) : s.onDisconnect.ScopeInv := by
  rw [TaskSystem.onDisconnect]
  split
  · refine ⟨fun ht => ?_, hs.conditionId_ne, hs.carries, fun _ _ _ ht => ?_⟩
    · cases ht
    · cases ht
  · exact hs

/-! ## Steps of a rotation -/

/-- A lock moves nothing. -/
theorem ScopeInv.lockAnchor (hs : s.ScopeInv) : s.lockAnchor.ScopeInv := by
  rw [TaskSystem.lockAnchor]
  split
  · next hm =>
    split
    · exact hs
    · refine ⟨hs.trusted, hs.conditionId_ne, ?_, fun _ _ _ _ => .inr (.inr (by simp))⟩
      have hcarries := hs.carries
      rw [hm] at hcarries
      exact hcarries
  · exact hs

/-- What the maintenance task reads is the active market. -/
theorem ScopeInv.readMarket (hs : s.ScopeInv) : s.readMarket.ScopeInv := by
  rw [TaskSystem.readMarket]
  split
  · next hm =>
    refine ⟨hs.trusted, hs.conditionId_ne, ?_, fun _ _ _ _ => .inr (.inr (by simp))⟩
    have hcarries := hs.carries
    rw [hm] at hcarries
    obtain ⟨m, hmarket⟩ := Option.isSome_iff_exists.1 hcarries
    change s.market.map _ = some ((s.market.map _).getD "")
    rw [hmarket]
    rfl
  · exact hs

/-- The pending market of the anchor is no part of the invariant. -/
theorem ScopeInv.setPending (hs : s.ScopeInv) : s.setPending.ScopeInv := by
  rw [TaskSystem.setPending]
  split
  · next slugTs id hm =>
    refine ⟨hs.trusted, hs.conditionId_ne, ?_, fun _ _ _ _ => .inr (.inr (by simp))⟩
    have hcarries := hs.carries
    rw [hm] at hcarries
    exact hcarries
  · exact hs

/-- The rotation ends with the frame for the active market in the channel. -/
theorem ScopeInv.subscribeUser (hs : s.ScopeInv) : s.subscribeUser.ScopeInv := by
  rw [TaskSystem.subscribeUser]
  split
  · next id hm =>
    refine ⟨hs.trusted, hs.conditionId_ne, trivial, ?_⟩
    intro m targets hmarket _
    have hcarries := hs.carries
    rw [hm, Maintenance.Carries, show s.market = some m from hmarket] at hcarries
    cases hcarries
    have hne := hs.conditionId_ne m hmarket
    right
    left
    rw [if_neg (by simpa using hne)]
    simp
  · exact hs

variable [F64 F]

/-- At the start there is no market and no trust. -/
theorem ScopeInv.start (config : Config F) {core : RuntimeCore F}
    (hnew : RuntimeCore.new config = .ok core) : (start config core).ScopeInv := by
  obtain ⟨signalConfig, -, hnew⟩ := Except.ok_bind_inv hnew
  cases hnew
  exact ⟨nofun, nofun, trivial, nofun⟩

/-- A rotation leaves the frame of its market to come. -/
theorem ScopeInv.rotate (hs : s.ScopeInv) (isRotation : Bool) (discovered : Discovered) :
    (s.rotate isRotation discovered.market).ScopeInv := by
  rw [TaskSystem.rotate]
  split
  · refine ⟨hs.trusted, ?_, rfl, fun _ _ _ _ => .inr (.inr (by simp))⟩
    intro m hm
    cases hm
    exact discovered.conditionId_ne
  · exact hs

/-- Every step keeps the invariant. -/
theorem ScopeInv.step (hs : s.ScopeInv) {op : Op F} (h : s.step pl op = .ok s') : s'.ScopeInv := by
  cases op with
  | decideEntry =>
    obtain ⟨runtime, binance, rfl, -, hscope⟩ := decideEntry_eq h
    exact hs.of_same hscope.market (fun ht => hscope.trusted ▸ ht) rfl rfl rfl
  | onEvent raw now =>
    obtain ⟨core, rfl, hmarket, -, htrusted⟩ := onEvent_eq h
    exact hs.of_same hmarket htrusted rfl rfl rfl
  | background op =>
    obtain ⟨runtime, hr, h⟩ := Except.ok_bind_inv h
    cases h
    have hscope := background_sameScope hr
    exact hs.of_same hscope.market (fun ht => hscope.trusted ▸ ht) rfl rfl rfl
  | pushTick sample now =>
    cases h
    rw [TaskSystem.pushTick]
    split
    · split
      · exact hs
      · exact hs.of_same rfl id rfl rfl rfl
    · exact hs
  | setStrike =>
    cases h
    rw [TaskSystem.setStrike]
    split
    · exact hs.of_same rfl id rfl rfl rfl
    · exact hs
  | rotate isRotation discovered => cases h; exact hs.rotate isRotation discovered
  | lockAnchor => cases h; exact hs.lockAnchor
  | readMarket => cases h; exact hs.readMarket
  | setPending => cases h; exact hs.setPending
  | subscribeUser => cases h; exact hs.subscribeUser
  | connect => cases h; exact hs.connect
  | connectFailed => cases h; exact hs.connectFailed
  | sendAuth => cases h; exact hs.sendAuth
  | sendAuthFailed => cases h; exact hs.sendAuthFailed
  | onAuthenticated => cases h; exact hs.onAuthenticated
  | takeSubscribe => cases h; exact hs.takeSubscribe
  | sendSubscribe => cases h; exact hs.sendSubscribe
  | connectionLost => cases h; exact hs.connectionLost
  | onDisconnect => cases h; exact hs.onDisconnect

/-! ## Claims -/

/-- The decision that is next claims an entry: a submit is added to those in flight. -/
def ClaimsEntry (pl : Platform) (s : TaskSystem F) : Prop :=
  ∃ s' id, s.decideEntry pl = .ok s' ∧ s'.runtime.inFlight = s.runtime.inFlight ++ [id]

/-- An entry is claimed for an active market, and under trust. -/
theorem ClaimsEntry.trusted (h : s.ClaimsEntry pl) :
    s.core.inventory.userWssTrusted = true ∧ ∃ m, s.market = some m := by
  obtain ⟨s', id, h, hflight⟩ := h
  rw [decideEntry] at h
  split at h
  · obtain ⟨runtime, hr, h⟩ := Except.ok_bind_inv h
    cases h
    obtain ⟨signal, -, rfl | ⟨intent, hmarket, htrusted, -, -⟩⟩ :=
      RuntimeSystem.binanceSample_cases hr
    · simp at hflight
    · exact ⟨htrusted, Option.isSome_iff_exists.1 hmarket⟩
  · cases h
    simp at hflight

/-- In every run of the tasks, an entry that is claimed while no subscribe frame is on its way that
would be the first to name the active market, on a connection that is not being given up, is one for
a market that the open connection has named. -/
theorem claims_in_scope (pl : Platform) (config : Config F) (core : RuntimeCore F)
    (ops : List (Op F)) (s : TaskSystem F) (hnew : RuntimeCore.new config = .ok core)
    (hrun : Machine.runM (step pl) (start config core) ops = .ok s) (hclaim : s.ClaimsEntry pl)
    (hsettled : s.Settled) : s.InScope := by
  have hs : s.ScopeInv :=
    Machine.runM_invariant (fun _ _ _ hs _ h => ScopeInv.step hs h) (ScopeInv.start config hnew)
      (Machine.alongM_true _ ops) hrun
  obtain ⟨htrusted, m, hm⟩ := hclaim.trusted
  obtain ⟨hclosing, hsent⟩ := hsettled
  refine ⟨m, hm, ?_⟩
  by_contra hnew
  obtain ⟨hidle, hqueue, houtgoing⟩ := hsent m hm hnew
  have hnamed (targets : List String) (ht : s.user.targets = some targets) :
      m.conditionId.str ∈ targets := by
    rcases hs.awaited m targets hm ht with h | h | h
    · exact h
    · exact absurd h hqueue
    · exact absurd hidle h
  have hauth := hs.trusted htrusted
  cases hu : s.user with
  | down | connected | authSent =>
    rw [hu] at hauth
    cases hauth
  | closing => exact hclosing hu
  | serving named =>
    rw [hu] at hnew
    exact hnew (hnamed named (by rw [hu]; rfl))
  | sending named id =>
    have h := hnamed (named ++ [id]) (by rw [hu]; rfl)
    rw [hu] at hnew
    rw [List.mem_append, List.mem_singleton] at h
    refine houtgoing ?_
    rw [hu, h.resolve_left hnew]
    rfl

end

/-! ## A connection that is opened before the first market -/

/-- The user feed connects, and is trusted. -/
def connectOps : List (Op Rat) := [.connect, .sendAuth, .onAuthenticated]

/-- The strike is resolved in the first moments of the market, the books arrive, and a higher price
is about to be judged. -/
def risingOps : List (Op Rat) :=
  [tickAt 700000000 1 100001, .decideEntry, tickAt 700100000 2 100001, .decideEntry,
    tickAt 700200000 3 100001, .setStrike, .decideEntry,
    .background (.applyMarketRaw RuntimeSystem.bookFrame.toBytes ⟨700490000⟩),
    tickAt 700500000 4 100002]

/-- The market of the books. -/
def upDown : Discovered := ⟨RuntimeCore.upDownMarket, by decide⟩

/-- The run ends in a state in which `P` holds and an entry is claimed. -/
theorem exists_claim (pl : Platform) (ops : List (Op Rat)) (P : TaskSystem Rat → Prop)
    (h : (RuntimeCore.new Config.runtimeEnvShape).Succeeds fun core =>
      (Machine.runM (step pl) (start Config.runtimeEnvShape core) ops).Succeeds fun s =>
        P s ∧ (s.decideEntry pl).Succeeds fun s' =>
          s'.runtime.inFlight = s.runtime.inFlight ++ [⟨"s1"⟩]) :
    ∃ core s, RuntimeCore.new Config.runtimeEnvShape = .ok core ∧
      Machine.runM (step pl) (start Config.runtimeEnvShape core) ops = .ok s ∧ P s ∧
        s.ClaimsEntry pl := by
  obtain ⟨core, hnew, hrun⟩ := h.exists
  obtain ⟨s, hrun, hP, hclaim⟩ := hrun.exists
  obtain ⟨s', hdecide, hflight⟩ := hclaim.exists
  exact ⟨core, s, hnew, hrun, hP, s', _, hdecide, hflight⟩

/-- The auth frame and the subscribe frame name the market before the entry is claimed. -/
theorem claims_in_scope_example :
    ∃ s : TaskSystem Rat, s.ClaimsEntry (.reading [RuntimeSystem.bookFrame]) ∧ s.InScope := by
  obtain ⟨core, s, hnew, hrun, hsettled, hclaim⟩ :=
    exists_claim (.reading [RuntimeSystem.bookFrame])
      (rotation upDown ++ connectOps ++ [.takeSubscribe, .sendSubscribe] ++ risingOps) Settled
      (by
        simp only [Platform.reading_eq, risingOps, Json.Value.toBytes_eq]
        decide +kernel)
  exact ⟨s, hclaim, claims_in_scope _ _ core _ s hnew hrun hclaim hsettled⟩

/-- The connection is opened before the first market is known, so its auth frame names none; the
entry is claimed while the subscribe frame waits in the channel. -/
theorem claim_out_of_scope :
    ¬ ∀ (pl : Platform) (config : Config Rat) (core : RuntimeCore Rat) (ops : List (Op Rat))
      (s : TaskSystem Rat), RuntimeCore.new config = .ok core →
        Machine.runM (step pl) (start config core) ops = .ok s → s.ClaimsEntry pl →
          s.InScope := by
  intro h
  obtain ⟨core, s, hnew, hrun, huser, hclaim⟩ :=
    exists_claim (.reading [RuntimeSystem.bookFrame]) (connectOps ++ rotation upDown ++ risingOps)
      (fun s => s.user = .serving [])
      (by
        simp only [Platform.reading_eq, risingOps, Json.Value.toBytes_eq]
        decide +kernel)
  obtain ⟨m, -, hnamed⟩ := h _ _ core _ s hnew hrun hclaim
  rw [huser] at hnamed
  cases hnamed

end TaskSystem

end Polyrust
