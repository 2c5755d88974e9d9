import Mathlib.Data.List.Chain
import Polyrust.Gamma.Listed
import Polyrust.Lib.Refine
import Polyrust.Tasks.Deadline

/-!
# The chain of markets

The maintenance loop among the other tasks. Only an iteration of the loop replaces the active market
(`main.rs`), and what it replaces it with is what the Gamma client found: at first the market of the
window of the server time, then, each time the deadline has passed, the market of the window at
which the active one ends. So the markets that were active form a chain of windows, in which none is
left out (`rotation_chain`).
-/

namespace Polyrust

open IntWidth Gamma

/-- What the servers answer to the requests of an iteration, and the system time at the last of
them. -/
structure Search where
  web : Web
  later : Web
  now : Int

/-- A market that became the active one, and the iteration in which it did. -/
structure Promotion where
  market : MarketContext
  search : Search
  clock : IterationClock

/-- The maintenance loop, and the markets that it has promoted, the last one first. -/
structure Rotation (F : Type) where
  loop : MaintenanceLoop F
  promoted : List Promotion

namespace Promotion

section
variable (b : Build) (fromStr : String → Option Json.Value) (client : GammaClient)

/-- The market is kept until five seconds before its end, and for at least a second. -/
def KeptUntil (p : Promotion) (instant : Int) : Prop :=
  ∃ secs, MaintenanceLoop.secsUntilPrefetch b p.market.endTs p.clock.nowSecs = .ok secs ∧
    p.clock.now + secs * NANOS_PER_SEC ≤ instant

/-- The market is that of the window at which the one before it ends; it is another one, and the
iteration that promoted it was woken when that one had been kept for as long as it had to be. -/
structure Follows (p previous : Promotion) : Prop where
  window : p.market.slugTs = previous.market.endTs
  new : p.market.conditionId ≠ previous.market.conditionId ∨ p.market.slug ≠ previous.market.slug
  due : previous.KeptUntil b p.clock.woken

/-- The market is that of the window of the server time. -/
def Opens (p : Promotion) : Prop :=
  ∃ serverTs, client.getClobTime p.search.web = some serverTs ∧
    (0 ≤ serverTs → client.windowS ∣ p.market.slugTs ∧ p.market.slugTs ≤ serverTs ∧
      serverTs < p.market.slugTs + client.windowS)

/-- The market was found under the slug of its window, and had not expired. -/
structure Found (p : Promotion) : Prop where
  slug : p.market.slug = client.slug p.market.slugTs
  live : p.search.now < p.market.endTs
  described : ∃ market, Describes fromStr market p.market

end

end Promotion

namespace Rotation

/-- A step of another task, or a round of the maintenance loop. -/
inductive Op (F : Type) where
  | task (op : TaskSystem.Op F)
  | iterate (isRotation : Bool) (search : Search) (gamma : GammaAnswers) (clock : IterationClock)

/-- The answers are those that the Gamma client makes of what the servers answer. -/
structure Answered (b : Build) (fromStr : String → Option Json.Value) (client : GammaClient)
    (search : Search) (gamma : GammaAnswers) : Prop where
  discover : ∀ d, gamma.discover = some d →
    client.discover b fromStr search.web search.later search.now = .ok (some d.market)
  discoverForTs : ∀ slugTs d, gamma.discoverForTs slugTs = some d →
    client.discoverForTs b fromStr search.web search.now slugTs = .ok (some d.market)

section
variable {F : Type}

/-- The markets promoted so far, after an iteration that may have replaced the active one. -/
def promote (promoted : List Promotion) (search : Search) (clock : IterationClock)
    (s s' : MaintenanceLoop F) : List Promotion :=
  match s'.tasks.market with
  | some m => if s.tasks.market = some m then promoted else ⟨m, search, clock⟩ :: promoted
  | none => promoted

/-- The other tasks do not rotate. An iteration starts when the one before it is over, and at the
deadline only when that has passed; what it hears of Gamma is what the client makes of it. -/
def Allowed (b : Build) (fromStr : String → Option Json.Value) (client : GammaClient)
    (s : Rotation F) : Op F → Prop
  | .task op => ∀ isRotation d, op ≠ .rotate isRotation d
  | .iterate isRotation search gamma clock =>
    s.loop.tasks.maintenance = .idle ∧ (isRotation = true → s.loop.rotationDeadline ≤ clock.woken) ∧
      Answered b fromStr client search gamma

variable [F64 F]

/-- The system after a step. -/
def step (pl : Platform) (s : Rotation F) : Op F → Exec (Rotation F)
  | .task op => do
    return { s with loop := { s.loop with tasks := ← s.loop.tasks.step pl op } }
  | .iterate isRotation search gamma clock => do
    let loop ← s.loop.iterate pl.build isRotation gamma clock
    return { loop := loop, promoted := promote s.promoted search clock s.loop loop }

end

end Rotation

/-! ## What a step does to the active market -/

section
variable {F : Type} [F64 F] {pl : Platform}

/-- The steps of a rotation. -/
def TaskSystem.Op.ofRotation : TaskSystem.Op F → Bool
  | .rotate .. | .lockAnchor | .readMarket | .setPending | .subscribeUser => true
  | _ => false

/-- The other steps keep the active market, and the maintenance task where it is. -/
theorem TaskSystem.step_same {s s' : TaskSystem F} {op : TaskSystem.Op F}
    (hop : op.ofRotation = false) (h : s.step pl op = .ok s') :
    s'.market = s.market ∧ s'.maintenance = s.maintenance := by
  cases op with
  | rotate | lockAnchor | readMarket | setPending | subscribeUser => cases hop
  | decideEntry =>
    obtain ⟨runtime, binance, rfl, -, hscope⟩ := decideEntry_eq h
    exact ⟨hscope.market, rfl⟩
  | onEvent raw now =>
    obtain ⟨core, rfl, hmarket, -⟩ := onEvent_eq h
    exact ⟨hmarket, rfl⟩
  | background op =>
    obtain ⟨runtime, hr, h⟩ := Except.ok_bind_inv h
    cases h
    exact ⟨(background_sameScope hr).market, rfl⟩
  | pushTick sample now =>
    cases h
    rw [TaskSystem.pushTick]
    split
    · split <;> exact ⟨rfl, rfl⟩
    · exact ⟨rfl, rfl⟩
  | setStrike | connect | connectFailed | sendAuth | sendAuthFailed | onAuthenticated
  | takeSubscribe | sendSubscribe | connectionLost | onDisconnect =>
    cases h
    simp only [TaskSystem.setStrike, connect, connectFailed, sendAuth, sendAuthFailed,
      onAuthenticated, takeSubscribe, sendSubscribe, connectionLost, onDisconnect]
    split <;> exact ⟨rfl, rfl⟩

/-- Only a rotation replaces the active market. -/
theorem TaskSystem.step_market {s s' : TaskSystem F} {op : TaskSystem.Op F}
    (hop : ∀ isRotation d, op ≠ .rotate isRotation d) (h : s.step pl op = .ok s') :
    s'.market = s.market := by
  cases hrotation : op.ofRotation with
  | false => exact (step_same hrotation h).1
  | true =>
    cases op with
    | rotate isRotation d => exact absurd rfl (hop isRotation d)
    | lockAnchor =>
      cases h
      rw [TaskSystem.lockAnchor]
      split
      · split <;> rfl
      · rfl
    | readMarket | setPending | subscribeUser =>
      cases h
      simp only [TaskSystem.readMarket, TaskSystem.setPending, TaskSystem.subscribeUser]
      split <;> rfl
    | _ => cases hrotation

/-- A rotation that is due promotes what was found. -/
theorem TaskSystem.rotate_market {s : TaskSystem F} {isRotation : Bool} {m : MarketContext}
    (hidle : s.maintenance = .idle) (hdue : isRotation = true ∨ s.market = none)
    (hnew : s.isNew m = true) : (s.rotate isRotation m).market = some m := by
  have hrotates : s.rotates isRotation m = true := by
    rw [TaskSystem.rotates, hidle, hnew]
    rcases hdue with rfl | hnone
    · rfl
    · rw [hnone]
      simp
  rw [TaskSystem.rotate, if_pos hrotates]
  rfl

/-- A rotation at the deadline leaves the rest to do. -/
theorem TaskSystem.rotate_rests {s : TaskSystem F} {m : MarketContext}
    (hidle : s.maintenance = .idle) (hbinance : s.binance.holdsAnchor = false)
    (hnew : s.isNew m = true) :
    (s.rotate true m).maintenance = .rotated ∧ (s.rotate true m).binance.holdsAnchor = false := by
  have hrotates : s.rotates true m = true := by
    rw [TaskSystem.rotates, hidle, hnew]
    rfl
  rw [TaskSystem.rotate, if_pos hrotates]
  exact ⟨rfl, hbinance⟩

omit [F64 F] in
/-- The rest of a rotation: the anchor waits for the market, and the user feed hears of it. -/
theorem TaskSystem.rotation_over {s : TaskSystem F} (h : s.maintenance = .rotated)
    (hbinance : s.binance.holdsAnchor = false) :
    ∃ anchor queue, s.lockAnchor.readMarket.setPending.subscribeUser =
      { s with anchor := anchor, userQueue := queue, maintenance := .idle } := by
  have hlock : s.lockAnchor = { s with maintenance := .locked } := by
    rw [TaskSystem.lockAnchor, h, hbinance]
    rfl
  rw [hlock]
  exact ⟨_, _, rfl⟩

namespace MaintenanceLoop

variable {s s' : MaintenanceLoop F} {b : Build} {isRotation : Bool} {gamma : GammaAnswers}
variable {clock : IterationClock}

omit [F64 F] in
/-- Where there is a market, a rotation asks for the window at which it ends. -/
theorem answer_of_some {m : MarketContext} (h : s.tasks.market = some m) :
    s.answer true gamma = gamma.discoverForTs m.endTs := by
  simp [answer, h]

/-- An iteration promotes what was found, and sets the deadline by its end; or it keeps the market,
and at the deadline may try again in two seconds. -/
theorem iterate_cases (h : s.iterate b isRotation gamma clock = .ok s') :
    (s'.tasks = s.tasks ∧ (s'.rotationDeadline = s.rotationDeadline ∨
      isRotation = true ∧ s'.rotationDeadline = clock.now + 2 * NANOS_PER_SEC)) ∨
    ∃ discovered secs, s.answer isRotation gamma = some discovered ∧
      (isRotation = true ∨ s.tasks.market = none) ∧
      s.tasks.isNew discovered.market = true ∧
      secsUntilPrefetch b discovered.market.endTs clock.nowSecs = .ok secs ∧
      s' = { tasks := s.tasks.rotate isRotation discovered.market
             rotationDeadline := clock.now + secs * NANOS_PER_SEC } := by
  rw [iterate] at h
  split at h
  · cases h
    exact .inl ⟨rfl, .inl rfl⟩
  next hsearch =>
  have hdue : isRotation = true ∨ s.tasks.market = none := by
    cases isRotation with
    | true => exact .inl rfl
    | false => exact .inr (by simpa using hsearch)
  split at h
  · split at h
    · next hretry =>
      obtain ⟨deadline, hd, h⟩ := Except.ok_bind_inv h
      cases h
      rw [Bool.and_eq_true] at hretry
      exact .inl ⟨rfl, .inr ⟨hretry.1, (addSecs_ok.1 hd).2⟩⟩
    · cases h
      exact .inl ⟨rfl, .inl rfl⟩
  · next discovered hanswer =>
    split at h
    · next hnew =>
      obtain ⟨secs, hsecs, h⟩ := Except.ok_bind_inv h
      obtain ⟨deadline, hd, h⟩ := Except.ok_bind_inv h
      cases h
      exact .inr ⟨discovered, secs, hanswer, hdue, hnew, hsecs,
        congrArg (MaintenanceLoop.mk _) (addSecs_ok.1 hd).2⟩
    · split at h
      · next hrotation =>
        obtain ⟨deadline, hd, h⟩ := Except.ok_bind_inv h
        cases h
        exact .inl ⟨rfl, .inr ⟨hrotation, (addSecs_ok.1 hd).2⟩⟩
      · cases h
        exact .inl ⟨rfl, .inl rfl⟩

end MaintenanceLoop

/-! ## The chain -/

namespace Promotion

variable {b : Build} {p : Promotion} {instant instant' : Int}

omit [F64 F] in
/-- What is kept until an instant is kept until an earlier one. -/
theorem KeptUntil.mono (h : p.KeptUntil b instant) (hle : instant ≤ instant') :
    p.KeptUntil b instant' := by
  obtain ⟨secs, hsecs, hkept⟩ := h
  exact ⟨secs, hsecs, hkept.trans hle⟩

end Promotion

namespace Rotation

variable {b : Build} {fromStr : String → Option Json.Value} {client : GammaClient}
variable {search : Search} {gamma : GammaAnswers} {d : Discovered}

/-- What the search for the window of the server time brings. -/
theorem Answered.opens (h : Answered b fromStr client search gamma)
    (hd : gamma.discover = some d) (clock : IterationClock) :
    (Promotion.mk d.market search clock).Opens client ∧
      (Promotion.mk d.market search clock).Found fromStr client := by
  have hfound := h.discover d hd
  rw [GammaClient.discover] at hfound
  split at hfound
  · next serverTs hserver =>
    obtain ⟨slugTs, hslugTs, hfound⟩ := Except.ok_bind_inv hfound
    obtain ⟨htime, hslug, hlive, hdescribed⟩ := tryDiscoverSlug_some hfound
    refine ⟨⟨serverTs, hserver, fun hpos => ?_⟩, ?_, hlive, hdescribed⟩
    · dsimp only
      rw [htime]
      exact slugTs_window hserver hpos hslugTs
    · dsimp only
      rw [hslug, htime]
  · cases hfound

/-- What the search for a given window brings. -/
theorem Answered.found (h : Answered b fromStr client search gamma) {slugTs : Int}
    (hd : gamma.discoverForTs slugTs = some d) (clock : IterationClock) :
    d.market.slugTs = slugTs ∧ (Promotion.mk d.market search clock).Found fromStr client := by
  obtain ⟨htime, hslug, hlive, hdescribed⟩ := tryDiscoverSlug_some (h.discoverForTs slugTs d hd)
  refine ⟨htime, ?_, hlive, hdescribed⟩
  dsimp only
  rw [hslug, htime]

/-- The active market is the one promoted last, and is kept until the deadline; each one follows the
one before it. -/
structure ChainInv (b : Build) (fromStr : String → Option Json.Value) (client : GammaClient)
    (s : Rotation F) : Prop where
  active : s.loop.tasks.market = s.promoted.head?.map (·.market)
  kept : ∀ p ∈ s.promoted.head?, p.KeptUntil b s.loop.rotationDeadline
  chain : s.promoted.IsChain (Promotion.Follows b)
  opens : ∀ p ∈ s.promoted.getLast?, p.Opens client
  found : ∀ p ∈ s.promoted, p.Found fromStr client

variable {s s' : Rotation F} {clock : IterationClock}

omit [F64 F] in
/-- A step that keeps the market and does not set the deadline back keeps the chain. -/
theorem ChainInv.of_same (hs : s.ChainInv b fromStr client)
    (hmarket : s'.loop.tasks.market = s.loop.tasks.market) (hpromoted : s'.promoted = s.promoted)
    (hdeadline : s.loop.rotationDeadline ≤ s'.loop.rotationDeadline) :
    s'.ChainInv b fromStr client where
  active := by rw [hmarket, hpromoted, hs.active]
  kept := by
    rw [hpromoted]
    exact fun p hp => (hs.kept p hp).mono hdeadline
  chain := hpromoted ▸ hs.chain
  opens := hpromoted ▸ hs.opens
  found := hpromoted ▸ hs.found

omit [F64 F] in
/-- An iteration that finds a market that is new adds it to the chain. -/
theorem ChainInv.promoted (hs : s.ChainInv b fromStr client) {isRotation : Bool}
    (hanswered : Answered b fromStr client search gamma)
    (hwoken : isRotation = true → s.loop.rotationDeadline ≤ clock.woken)
    (hanswer : s.loop.answer isRotation gamma = some d)
    (hdue : isRotation = true ∨ s.loop.tasks.market = none)
    (hnew : s.loop.tasks.isNew d.market = true)
    (hloop : s'.loop.tasks.market = some d.market)
    (hpromoted : s'.promoted = ⟨d.market, search, clock⟩ :: s.promoted)
    (hkept : (Promotion.mk d.market search clock).KeptUntil b s'.loop.rotationDeadline) :
    s'.ChainInv b fromStr client := by
  have hactive := hs.active
  cases hpast : s.promoted with
  | nil =>
    rw [hpast] at hactive hpromoted
    rw [MaintenanceLoop.answer_of_none hactive] at hanswer
    obtain ⟨hopens, hfound⟩ := hanswered.opens hanswer clock
    refine ⟨?_, ?_, ?_, ?_, ?_⟩ <;> rw [hpromoted]
    · exact hloop
    · rintro p ⟨⟩
      exact hkept
    · exact .singleton _
    · rintro p ⟨⟩
      exact hopens
    · rintro p hp
      rw [List.mem_singleton.1 hp]
      exact hfound
  | cons previous before =>
    rw [hpast] at hactive hpromoted
    have hrotation : isRotation = true := by
      rcases hdue with h | h
      · exact h
      · cases hactive.symm.trans h
    subst hrotation
    rw [MaintenanceLoop.answer_of_some hactive] at hanswer
    obtain ⟨hwindow, hfound⟩ := hanswered.found hanswer clock
    have hother : d.market.conditionId ≠ previous.market.conditionId ∨
        d.market.slug ≠ previous.market.slug := by
      rw [TaskSystem.isNew, hactive] at hnew
      simp only [List.head?_cons, Option.map_some, Option.all_some, Bool.or_eq_true,
        decide_eq_true_eq] at hnew
      exact hnew.imp Ne.symm Ne.symm
    have hdueKept := hs.kept previous (by rw [hpast]; rfl)
    refine ⟨?_, ?_, ?_, ?_, ?_⟩ <;> rw [hpromoted]
    · exact hloop
    · rintro p ⟨⟩
      exact hkept
    · refine .cons_cons ⟨hwindow, hother, hdueKept.mono (hwoken rfl)⟩ ?_
      exact hpast ▸ hs.chain
    · rw [List.getLast?_cons_cons]
      exact hpast ▸ hs.opens
    · rintro p hp
      rcases List.mem_cons.1 hp with rfl | hp
      · exact hfound
      · exact hs.found p (hpast ▸ hp)

omit [F64 F] in
/-- Where the market stays, nothing is promoted. -/
theorem promote_of_same {loop loop' : MaintenanceLoop F} {promoted : List Promotion}
    (h : loop'.tasks.market = loop.tasks.market) :
    promote promoted search clock loop loop' = promoted := by
  rw [promote, h]
  cases loop.tasks.market with
  | none => rfl
  | some m => exact if_pos rfl

omit [F64 F] in
/-- A new market is promoted. -/
theorem promote_of_new {loop loop' : MaintenanceLoop F} {promoted : List Promotion}
    {m : MarketContext} (hnew : loop.tasks.isNew m = true) (h : loop'.tasks.market = some m) :
    promote promoted search clock loop loop' = ⟨m, search, clock⟩ :: promoted := by
  rw [promote, h]
  refine if_neg fun hsame => ?_
  rw [TaskSystem.isNew, hsame] at hnew
  simp at hnew

variable {pl : Platform}

/-- Every allowed step keeps the chain. -/
theorem ChainInv.step (hs : s.ChainInv pl.build fromStr client) {op : Op F}
    (hok : s.Allowed pl.build fromStr client op) (h : s.step pl op = .ok s') :
    s'.ChainInv pl.build fromStr client := by
  cases op with
  | task op =>
    obtain ⟨tasks, htasks, h⟩ := Except.ok_bind_inv h
    cases h
    exact hs.of_same (TaskSystem.step_market hok htasks) rfl le_rfl
  | iterate isRotation search gamma clock =>
    obtain ⟨loop, hloop, h⟩ := Except.ok_bind_inv h
    cases h
    obtain ⟨hidle, hwoken, hanswered⟩ := hok
    rcases MaintenanceLoop.iterate_cases hloop with ⟨htasks, hdeadline⟩ |
      ⟨d, secs, hanswer, hdue, hnew, hsecs, rfl⟩
    · have hmarket : loop.tasks.market = s.loop.tasks.market := by rw [htasks]
      refine hs.of_same hmarket (promote_of_same hmarket) ?_
      rcases hdeadline with hdeadline | ⟨hrotation, hdeadline⟩
      · exact hdeadline.ge
      · -- the loop was woken by the deadline, so two seconds from now is later
        have := hwoken hrotation
        have := clock.woken_le_now
        dsimp only
        rw [hdeadline, NANOS_PER_SEC]
        omega
    · have hmarket := TaskSystem.rotate_market hidle hdue hnew
      exact hs.promoted hanswered hwoken hanswer hdue hnew hmarket (promote_of_new hnew hmarket)
        ⟨secs, hsecs, le_rfl⟩

/-- In every run from a start without a market: the active market is the one that was promoted last;
each market but the first is that of the window at which the one before it ends, and is promoted
when that one was kept until five seconds before its end; the first one is that of the window of the
server time. As long as markets end after they start, no window comes back. -/
theorem rotation_chain (pl : Platform) (fromStr : String → Option Json.Value)
    (client : GammaClient) {s s' : Rotation F} {ops : List (Op F)}
    (hmarket : s.loop.tasks.market = none) (hpromoted : s.promoted = [])
    (hok : Machine.AlongM (step pl) (Allowed pl.build fromStr client) s ops)
    (hr : Machine.runM (step pl) s ops = .ok s') :
    s'.loop.tasks.market = s'.promoted.head?.map (·.market) ∧
    s'.promoted.IsChain (Promotion.Follows pl.build) ∧
    (∀ p ∈ s'.promoted.getLast?, p.Opens client) ∧
    (∀ p ∈ s'.promoted, p.Found fromStr client) ∧
    ((∀ p ∈ s'.promoted, p.market.slugTs < p.market.endTs) →
      (s'.promoted.map (·.market.slugTs)).Pairwise (· > ·)) := by
  have hstart : s.ChainInv pl.build fromStr client := by
    refine ⟨?_, ?_, ?_, ?_, ?_⟩ <;> rw [hpromoted]
    · exact hmarket
    · exact nofun
    · exact .nil
    · exact nofun
    · exact nofun
  have hinv := Machine.runM_invariant (fun _ _ _ hs hok h => hs.step hok h) hstart hok hr
  refine ⟨hinv.active, hinv.chain, hinv.opens, hinv.found, fun hends => ?_⟩
  rw [← List.isChain_iff_pairwise, List.isChain_map]
  refine hinv.chain.imp_of_mem_imp fun p previous _ hprevious hfollows => ?_
  rw [hfollows.window]
  exact hends previous hprevious

/-! ## A round of the loop -/

/-- An iteration at the deadline, and the rest of the rotation. -/
def round (search : Search) (gamma : GammaAnswers) (clock : IterationClock) : List (Op F) :=
  [.iterate true search gamma clock, .task .lockAnchor, .task .readMarket, .task .setPending,
    .task .subscribeUser]

/-- The maintenance task and the Binance task are not in the middle of anything. -/
def Resting (s : Rotation F) : Prop :=
  s.loop.tasks.maintenance = .idle ∧ s.loop.tasks.binance.holdsAnchor = false

/-- A round that finds a new market promotes it, and is then over. -/
theorem exists_round (pl : Platform) (clock : IterationClock) (hs : s.Resting)
    (hwoken : s.loop.rotationDeadline ≤ clock.woken)
    (hanswered : Answered pl.build fromStr client search gamma)
    (hanswer : s.loop.answer true gamma = some d) (hnew : s.loop.tasks.isNew d.market = true)
    {secs : Int}
    (hsecs : MaintenanceLoop.secsUntilPrefetch pl.build d.market.endTs clock.nowSecs = .ok secs)
    (hlast : Representable (clock.now + secs * NANOS_PER_SEC)) :
    ∃ s', Machine.runM (step pl) s (round search gamma clock) = .ok s' ∧
      Machine.AlongM (step pl) (Allowed pl.build fromStr client) s (round search gamma clock) ∧
      s'.Resting ∧ s'.loop.rotationDeadline = clock.now + secs * NANOS_PER_SEC ∧
      s'.loop.tasks.market = some d.market ∧
      s'.promoted = ⟨d.market, search, clock⟩ :: s.promoted := by
  have hmarket := TaskSystem.rotate_market hs.1 (.inl rfl) hnew
  have hiterate : s.step pl (.iterate true search gamma clock) = .ok
      { loop := { tasks := s.loop.tasks.rotate true d.market
                  rotationDeadline := clock.now + secs * NANOS_PER_SEC }
        promoted := ⟨d.market, search, clock⟩ :: s.promoted } := by
    rw [step, MaintenanceLoop.iterate_new hanswer hnew, hsecs, Except.ok_bind,
      addSecs_ok.2 ⟨hlast, rfl⟩]
    exact congrArg (fun promoted => Except.ok (Rotation.mk _ promoted))
      (promote_of_new hnew hmarket)
  obtain ⟨hrotated, hbinance⟩ := TaskSystem.rotate_rests hs.1 hs.2 hnew
  obtain ⟨anchor, queue, hover⟩ := TaskSystem.rotation_over hrotated hbinance
  refine ⟨⟨⟨(s.loop.tasks.rotate true d.market).lockAnchor.readMarket.setPending.subscribeUser,
    _⟩, _⟩, Machine.runM_cons.2 ⟨_, hiterate, rfl⟩, (Machine.alongM_cons hiterate).2
    ⟨⟨hs.1, fun _ => hwoken, hanswered⟩, nofun, nofun, nofun, nofun, trivial⟩, ?_, rfl, ?_, rfl⟩
  · rw [hover]
    exact ⟨rfl, hbinance⟩
  · rw [hover]
    exact hmarket

end Rotation

end

/-! ## Two rounds -/

namespace Rotation

/-- A client of five-minute windows. -/
def client : GammaClient where
  clobUrl := "https://clob.polymarket.com"
  gammaUrl := "https://gamma-api.polymarket.com"
  slugFmt := "btc-updown-5m-\x7bts\x7d"
  windowS := 300
  window_pos := by decide

/-- A market of an event, with its condition id and its tokens. -/
def marketJson (conditionId yes no : String) : Json.Value :=
  .object [("conditionId", .string conditionId), ("active", .bool true),
    ("acceptingOrders", .bool true),
    ("clobTokenIds", .array ([⟨⟨yes⟩, "Up"⟩, ⟨⟨no⟩, "Down"⟩].map ClobToken.toObject))]

/-- An event with one market. -/
def eventJson (market : Json.Value) : Json.Value :=
  .object [("active", .bool true), ("markets", .array [market])]

/-- The servers at a time, and with an event. -/
def serving (time : String) (event : Json.Value) : Web := fun url =>
  if url = client.clobUrl ++ "/time" then some ⟨200, time⟩ else some ⟨200, event.toText⟩

/-- The event of the first window. -/
def firstEvent : Json.Value := eventJson (marketJson "0xa" "11" "12")

/-- The event of the second window. -/
def secondEvent : Json.Value := eventJson (marketJson "0xb" "21" "22")

/-- What is found for the first window. -/
def firstMarket : Discovered where
  market :=
    { slug := client.slug 900, conditionId := ⟨"0xa"⟩, yesToken := ⟨"11"⟩, noToken := ⟨"12"⟩
      endTs := 1200, slugTs := 900 }
  conditionId_ne := by decide

/-- What is found for the second window. -/
def secondMarket : Discovered where
  market :=
    { slug := client.slug 1200, conditionId := ⟨"0xb"⟩, yesToken := ⟨"21"⟩, noToken := ⟨"22"⟩
      endTs := 1500, slugTs := 1200 }
  conditionId_ne := by decide

/-- The texts of the two events can be read. -/
def fromStr : String → Option Json.Value := reading [firstEvent, secondEvent]

/-- The server answers the first event for its slug. -/
theorem answers_first (time : String) : client.Answers fromStr (serving time firstEvent)
    (client.slug 900) [marketJson "0xa" "11" "12"] :=
  ⟨⟨200, firstEvent.toText⟩, firstEvent, if_neg (by decide +kernel), by decide,
    reading_toText (List.find?_cons_of_pos (BEq.rfl)), rfl, by decide, rfl⟩

/-- The server answers the second event for its slug. -/
theorem answers_second (time : String) : client.Answers fromStr (serving time secondEvent)
    (client.slug 1200) [marketJson "0xb" "21" "22"] :=
  ⟨⟨200, secondEvent.toText⟩, secondEvent, if_neg (by decide +kernel), by decide,
    reading_toText ((List.find?_cons_of_neg (by decide +kernel)).trans
      (List.find?_cons_of_pos BEq.rfl)), rfl, by decide, rfl⟩

/-- The first search, for the window of the server time. -/
def firstSearch : Search := ⟨serving "1000" firstEvent, serving "1000" firstEvent, 1000⟩

/-- The answers to the first search. -/
def firstAnswers : GammaAnswers := ⟨some firstMarket, fun _ => none⟩

/-- The first answers are those of the client. -/
theorem answered_first (b : Build) : Answered b fromStr client firstSearch firstAnswers where
  discover d hd := by
    cases hd
    have htime : client.getClobTime firstSearch.web = some 1000 := by decide +kernel
    have hwindow : client.slugTs b 1000 = .ok 900 := by
      rw [GammaClient.slugTs, Build.arith_of_fits (by decide +kernel)]
      decide +kernel
    rw [GammaClient.discover, htime]
    dsimp only
    rw [hwindow, Except.ok_bind]
    refine (tryDiscoverSlug_answers (answers_first "1000")).trans ?_
    cases b with
    | mk checks => cases checks <;> decide +kernel
  discoverForTs := nofun

/-- The second one, for the window at which the first market ends. -/
def secondSearch : Search := ⟨serving "1196" secondEvent, serving "1196" secondEvent, 1196⟩

/-- The answers to the second search. -/
def secondAnswers : GammaAnswers :=
  ⟨none, fun slugTs => if slugTs = 1200 then some secondMarket else none⟩

/-- The second answers are those of the client. -/
theorem answered_second (b : Build) : Answered b fromStr client secondSearch secondAnswers where
  discover := nofun
  discoverForTs slugTs d hd := by
    obtain ⟨rfl, hd⟩ := Option.ite_none_right_eq_some.1 hd
    cases hd
    refine (tryDiscoverSlug_answers (answers_second "1196")).trans ?_
    cases b with
    | mk checks => cases checks <;> decide +kernel

/-- The start of the loop. -/
theorem exists_start : ∃ s : Rotation Rat, s.Resting ∧ s.loop.tasks.market = none ∧
    s.loop.rotationDeadline = 0 ∧ s.promoted = [] := by
  have hnew : (RuntimeCore.new Config.runtimeEnvShape).Succeeds fun core =>
      core.state.market = none := by
    decide +kernel
  obtain ⟨core, -, hmarket⟩ := hnew.exists
  exact ⟨⟨⟨.start Config.runtimeEnvShape core, 0⟩, []⟩, ⟨rfl, rfl⟩, hmarket, rfl, rfl⟩

/-- A market is found half a second after the start, and the one after it at its deadline. -/
theorem rotation_chain_two : ∃ s' : Rotation Rat,
    s'.promoted.map (·.market) = [secondMarket.market, firstMarket.market] ∧
    s'.loop.tasks.market = s'.promoted.head?.map (·.market) ∧
    s'.promoted.IsChain (Promotion.Follows ⟨true⟩) := by
  let pl : Platform := { Platform.reading [] with build := ⟨true⟩ }
  obtain ⟨s, hrests, hmarket, hdeadline, hpromoted⟩ := exists_start
  have hnew : s.loop.tasks.isNew firstMarket.market = true := by
    rw [TaskSystem.isNew, hmarket]
    rfl
  have hsecs : MaintenanceLoop.secsUntilPrefetch pl.build 1200 1000 = .ok 195 := by
    rw [MaintenanceLoop.secsUntilPrefetch, Build.arith_of_fits (by decide +kernel)]
    decide +kernel
  have hsecs' : MaintenanceLoop.secsUntilPrefetch pl.build 1500 1196 = .ok 299 := by
    rw [MaintenanceLoop.secsUntilPrefetch, Build.arith_of_fits (by decide +kernel)]
    decide +kernel
  obtain ⟨s₁, hr₁, hok₁, hrests₁, hdeadline₁, hmarket₁, hpromoted₁⟩ :=
    exists_round pl ⟨0, 500000000, 1000, by decide⟩ hrests hdeadline.le (answered_first pl.build)
      (MaintenanceLoop.answer_of_none hmarket true _) hnew hsecs (by decide +kernel)
  have hnew₁ : s₁.loop.tasks.isNew secondMarket.market = true := by
    rw [TaskSystem.isNew, hmarket₁]
    decide +kernel
  obtain ⟨s₂, hr₂, hok₂, -, -, -, hpromoted₂⟩ :=
    exists_round pl ⟨195500000000, 195600000000, 1196, by decide⟩ hrests₁ hdeadline₁.le
      (answered_second pl.build) (MaintenanceLoop.answer_of_some hmarket₁) hnew₁ hsecs'
      (by decide +kernel)
  obtain ⟨hactive, hchain, -⟩ := rotation_chain pl fromStr client hmarket hpromoted
    ((Machine.alongM_append hr₁).2 ⟨hok₁, hok₂⟩) (Machine.runM_append.2 ⟨s₁, hr₁, hr₂⟩)
  refine ⟨s₂, ?_, hactive, hchain⟩
  rw [hpromoted₂, hpromoted₁, hpromoted]
  rfl

end Rotation

end Polyrust
