import Polyrust.Program
import Polyrust.Runtime.Claims

/-!
# The program refines the runtime

Three levels of one design. What the program does around its tasks is, to the tasks, a run of the
machine of the tasks; what the tasks do around the core is, to the core and the submits in flight, a
run of the runtime. So whatever holds in every reachable state of the runtime holds of the program,
and the spawned BUY tasks are the submits in flight, one for one (`refines_runtime`).
-/

namespace Polyrust

namespace RuntimeSystem

/-- Operations on the core are steps of the runtime. -/
theorem runM_core {F : Type} [F64 F] {pl : Platform} {s : RuntimeSystem F}
    (ops : List (RuntimeCore.Op F)) {core : RuntimeCore F}
    (h : Machine.runM (RuntimeCore.step pl) s.core ops = .ok core) :
    Machine.ReachesM (step pl) s { s with core := core } := by
  induction ops generalizing s with
  | nil =>
    cases h
    exact .refl s
  | cons op ops ih =>
    obtain ⟨core', hcore', h⟩ := Machine.runM_cons.1 h
    have hstep : step pl s (.core op) = .ok { s with core := core' } := by
      rw [step, hcore']
      rfl
    exact .trans (.one hstep) (ih h)

end RuntimeSystem

/-! ## The tasks refine the runtime -/

namespace TaskSystem

section
variable {F : Type} {pl : Platform} {s s' : TaskSystem F}

/-! Most of what the tasks do outside the lock of the core leaves the runtime as it is. -/

@[simp] theorem connect_runtime (s : TaskSystem F) : s.connect.runtime = s.runtime := by
  unfold connect
  split <;> rfl

@[simp] theorem connectFailed_runtime (s : TaskSystem F) : s.connectFailed.runtime = s.runtime := by
  unfold connectFailed
  split <;> rfl

@[simp] theorem sendAuth_runtime (s : TaskSystem F) : s.sendAuth.runtime = s.runtime := by
  unfold sendAuth
  split <;> rfl

@[simp] theorem sendAuthFailed_runtime (s : TaskSystem F) :
    s.sendAuthFailed.runtime = s.runtime := by
  unfold sendAuthFailed
  split <;> rfl

@[simp] theorem takeSubscribe_runtime (s : TaskSystem F) : s.takeSubscribe.runtime = s.runtime := by
  unfold takeSubscribe
  split <;> rfl

@[simp] theorem sendSubscribe_runtime (s : TaskSystem F) : s.sendSubscribe.runtime = s.runtime := by
  unfold sendSubscribe
  split <;> rfl

@[simp] theorem connectionLost_runtime (s : TaskSystem F) :
    s.connectionLost.runtime = s.runtime := by
  unfold connectionLost
  split <;> rfl

@[simp] theorem lockAnchor_runtime (s : TaskSystem F) : s.lockAnchor.runtime = s.runtime := by
  unfold lockAnchor
  split
  · split <;> rfl
  · rfl

@[simp] theorem readMarket_runtime (s : TaskSystem F) : s.readMarket.runtime = s.runtime := by
  unfold readMarket
  split <;> rfl

@[simp] theorem setPending_runtime (s : TaskSystem F) : s.setPending.runtime = s.runtime := by
  unfold setPending
  split <;> rfl

@[simp] theorem subscribeUser_runtime (s : TaskSystem F) : s.subscribeUser.runtime = s.runtime := by
  unfold subscribeUser
  split <;> rfl

variable [F64 F]

@[simp] theorem pushTick_runtime (s : TaskSystem F) (sample : BinanceSample F) (now : TsUs) :
    (s.pushTick sample now).runtime = s.runtime := by
  unfold pushTick
  split
  · split <;> rfl
  · rfl

/-- Trust is an operation on the core. -/
theorem setTrusted_runtime (s : TaskSystem F) (trusted : Bool) :
    Machine.ReachesM (RuntimeSystem.step pl) s.runtime (s.setTrusted trusted).runtime :=
  RuntimeSystem.runM_core [.setUserWssTrusted trusted] rfl

/-- A rotation releases the scope, resets the strike and sets the market. -/
theorem rotate_runtime (s : TaskSystem F) (isRotation : Bool) (discovered : MarketContext) :
    Machine.ReachesM (RuntimeSystem.step pl) s.runtime
      (s.rotate isRotation discovered).runtime := by
  rw [rotate]
  split
  · exact RuntimeSystem.runM_core [.releaseMarketScope
      [discovered.yesToken, discovered.noToken], .setStrike 0.0 true, .setMarket discovered] rfl
  · exact .refl _

/-- A strike is an operation on the core. -/
theorem setStrike_runtime (s : TaskSystem F) :
    Machine.ReachesM (RuntimeSystem.step pl) s.runtime s.setStrike.runtime := by
  rw [setStrike]
  split
  · next strike slugTs sample now _ =>
    exact RuntimeSystem.runM_core [.setStrike strike true] rfl
  · exact .refl _

/-- A frame of the user channel is an operation on the core; an auth error takes the trust back. -/
theorem onEvent_core {raw : List UInt8} {now : Int} (h : s.onEvent pl raw now = .ok s') :
    s' = s ∨ ∃ core, s.core.step pl (.applyUserRawWithStates raw now) = .ok core ∧
      (s' = s.withCore core ∨ s' = (s.withCore core).setTrusted false) := by
  rw [onEvent] at h
  split at h
  · obtain ⟨⟨core, r⟩, hr, h⟩ := Except.ok_bind_inv h
    have hcore : s.core.step pl (.applyUserRawWithStates raw now) = .ok core := by
      rw [RuntimeCore.step, hr]
      rfl
    refine .inr ⟨core, hcore, ?_⟩
    dsimp only at h
    split at h
    · cases h
      exact .inr rfl
    · cases h
      exact .inl rfl
  · cases h
    exact .inl rfl

/-- A frame of the user channel is an operation on the core. -/
theorem onEvent_runtime {raw : List UInt8} {now : Int} (h : s.onEvent pl raw now = .ok s') :
    Machine.ReachesM (RuntimeSystem.step pl) s.runtime s'.runtime := by
  rcases onEvent_core h with rfl | ⟨core, hcore, hcases⟩
  · exact .refl _
  · have hframe : Machine.ReachesM (RuntimeSystem.step pl) s.runtime (s.withCore core).runtime :=
      RuntimeSystem.runM_core [.applyUserRawWithStates raw now]
        (Machine.runM_cons.2 ⟨core, hcore, rfl⟩)
    rcases hcases with rfl | rfl
    · exact hframe
    · exact hframe.trans ((s.withCore core).setTrusted_runtime false)

/-- The decision is the sample of the runtime. -/
theorem decideEntry_runtime (h : s.decideEntry pl = .ok s') :
    Machine.ReachesM (RuntimeSystem.step pl) s.runtime s'.runtime := by
  rw [decideEntry] at h
  split at h
  · next sample now _ =>
    obtain ⟨runtime, hr, h⟩ := Except.ok_bind_inv h
    cases h
    exact .one (a := .binanceSample sample now) hr
  · cases h
    exact .refl _

/-- What a step of the tasks does to the core and to the submits in flight is a run of the
runtime. -/
theorem step_runtime {op : Op F} (h : s.step pl op = .ok s') :
    Machine.ReachesM (RuntimeSystem.step pl) s.runtime s'.runtime := by
  cases op with
  | rotate isRotation discovered =>
    cases h
    exact s.rotate_runtime isRotation discovered.market
  | setStrike =>
    cases h
    exact s.setStrike_runtime
  | decideEntry => exact decideEntry_runtime h
  | onEvent raw now => exact onEvent_runtime h
  | onAuthenticated =>
    cases h
    rw [onAuthenticated]
    split
    · exact s.setTrusted_runtime true
    · exact .refl _
  | onDisconnect =>
    cases h
    rw [onDisconnect]
    split
    · exact s.setTrusted_runtime false
    · exact .refl _
  | background op =>
    obtain ⟨runtime, hr, h⟩ := Except.ok_bind_inv h
    cases h
    exact .one hr
  | lockAnchor | readMarket | setPending | subscribeUser | pushTick | connect | connectFailed
  | sendAuth | sendAuthFailed | takeSubscribe | sendSubscribe | connectionLost =>
    cases h
    simp only [lockAnchor_runtime, readMarket_runtime, setPending_runtime, subscribeUser_runtime,
      pushTick_runtime, connect_runtime, connectFailed_runtime, sendAuth_runtime,
      sendAuthFailed_runtime, takeSubscribe_runtime, sendSubscribe_runtime, connectionLost_runtime]
    exact .refl _

end

end TaskSystem

/-! ## The program refines the tasks -/

namespace Program

/-- An item is replaced by one with the same image. -/
theorem map_set_same {α β : Type} {f : α → β} {l : List α} {i : Nat} {a b : α}
    (h : l[i]? = some a) (hf : f b = f a) : (l.set i b).map f = l.map f := by
  induction l generalizing i with
  | nil => rfl
  | cons x l ih =>
    cases i with
    | zero =>
      cases h
      simp [hf]
    | succ i => simp [ih h]

section
variable {F Key Point : Type} {lib : SigningLib Key Point} {pl : Platform}

/-- The program after a decision, before an intent is spawned. -/
def decided (s : Program F Key) (core : RuntimeCore F) : Program F Key :=
  { s with tasks := { s.tasks.withCore core with binance := .idle } }

/-- An operation of the tasks that the program performs as it is. -/
def Plain : TaskSystem.Op F → Prop
  | .decideEntry | .background (.planExits _) | .background (.resolve ..)
  | .background (.abandon _) => False
  | _ => True

variable [F64 F]

/-! ### What a step does -/

/-- What a step of the program does. -/
inductive Moves (lib : SigningLib Key Point) (pl : Platform) (s : Program F Key) :
    Op F → Program F Key → Prop where
  | idle {op : Op F} : Moves lib pl s op s
  | plain (op : TaskSystem.Op F) (tasks : TaskSystem F) (hop : Plain op)
      (h : s.tasks.step pl op = .ok tasks) : Moves lib pl s (.task op) { s with tasks := tasks }
  | decided (sample : BinanceSample F) (now : TsUs) (core : RuntimeCore F)
      (hpushed : s.tasks.binance = .pushed sample now)
      (h : decision pl s.tasks.runtime sample now = .ok (core, none)) :
      Moves lib pl s (.task .decideEntry) (s.decided core)
  | spawned (sample : BinanceSample F) (now : TsUs) (core : RuntimeCore F) (intent : BuyIntent)
      (hpushed : s.tasks.binance = .pushed sample now)
      (h : decision pl s.tasks.runtime sample now = .ok (core, some intent)) :
      Moves lib pl s (.task .decideEntry) ((s.decided core).spawn intent now)
  | planned (now : Int) (core : RuntimeCore F) (exits : List ExitDecision)
      (hsigner : s.signer.isSome)
      (h : s.tasks.core.planExits pl.build now = .ok (core, exits)) :
      Moves lib pl s (.task (.background (.planExits now)))
        { s with tasks := s.tasks.withCore core, exits := exits }
  | panicked (index : Nat) (task : BuyTask) (nowMs : BitVec 128)
      (htask : s.buys[index]? = some task) (hstage : task.stage = .claimed) :
      Moves lib pl s (.prepareBuy index nowMs)
        { s with buys := s.buys.set index { task with stage := .panicked } }
  /-- an order that could not be prepared, or the outcome of one that was -/
  | settled {op : Op F} (index : Nat) (task : BuyTask) (background : BackgroundOp)
      (runtime : RuntimeSystem F) (htask : s.buys[index]? = some task)
      (hop : background = .abandon index ∨
        ∃ outcome rtt now, background = .resolve index outcome rtt now)
      (h : s.tasks.runtime.step pl background.toOp = .ok runtime) :
      Moves lib pl s op { s with
        tasks := { s.tasks with runtime := runtime }, buys := s.buys.eraseIdx index }
  | bought (signer : OrderSigner Key) (index : Nat) (task : BuyTask) (nowMs : BitVec 128)
      (prepared : PreparedBuySubmit) (hsigner : s.signer = some signer)
      (htask : s.buys[index]? = some task) (hstage : task.stage = .claimed)
      (h : prepareBuySubmit lib pl.build task.intent task.policy signer ⟨task.salt, nowMs⟩
        task.claimId = .ok (.ok prepared)) :
      Moves lib pl s (.prepareBuy index nowMs) { s with
        buys := s.buys.set index { task with stage := .posted }
        posted := s.posted ++ [.buy task ⟨task.salt, nowMs⟩ prepared.body] }
  /-- the next exit, which may have no plan any more -/
  | refreshed (exit : ExitDecision) (exits : List ExitDecision) (plan : Option SellPlan)
      (hselling : s.selling = none) (hexits : s.exits = exit :: exits)
      (hplan : s.tasks.core.refreshSellPlan pl.build exit.plan.token = .ok plan) :
      Moves lib pl s .refreshSell { s with exits := exits, selling := plan }
  /-- a plan that could not be signed, and has used up its salt -/
  | dropped (plan : SellPlan) (nowMs : BitVec 128) (hselling : s.selling = some plan) :
      Moves lib pl s (.signSell nowMs) { s with selling := none, sellId := s.sellId + 1 }
  | signed (signer : OrderSigner Key) (plan : SellPlan) (nowMs : BitVec 128)
      (prepared : PreparedSellSubmit) (hsigner : s.signer = some signer)
      (hselling : s.selling = some plan)
      (h : plan.sign lib signer ⟨s.sellId, nowMs⟩ = .ok prepared) :
      Moves lib pl s (.signSell nowMs) { s with
        selling := none, sellId := s.sellId + 1
        sells := s.sells ++ [⟨plan, ⟨s.sellId, nowMs⟩, prepared.body⟩] }
  | sold (index : Nat) (task : SellTask) (htask : s.sells[index]? = some task) :
      Moves lib pl s (.postSell index) { s with
        sells := s.sells.eraseIdx index, posted := s.posted ++ [task.order] }

section
variable {s s' : Program F Key} {index : Nat}

/-- A decision is a move, with a claim or without. -/
theorem decideEntry_moves (h : s.decideEntry pl = .ok s') :
    s.Moves lib pl (.task .decideEntry) s' := by
  rw [decideEntry] at h
  split at h
  · next sample now hpushed =>
    obtain ⟨⟨core, intent⟩, hdecision, h⟩ := Except.ok_bind_inv h
    cases intent with
    | none =>
      cases h
      exact .decided sample now core hpushed hdecision
    | some intent =>
      cases h
      exact .spawned sample now core intent hpushed hdecision
  · cases h
    exact .idle

/-- A round of the exit loop is a move. -/
theorem planExits_moves {now : Int} (h : s.planExits pl now = .ok s') :
    s.Moves lib pl (.task (.background (.planExits now))) s' := by
  rw [planExits] at h
  split at h
  · cases h
    exact .idle
  · next hready =>
    obtain ⟨⟨core, exits⟩, hplan, h⟩ := Except.ok_bind_inv h
    cases h
    refine .planned now core exits ?_ hplan
    simp only [Bool.or_eq_true, not_or] at hready
    exact Option.isSome_iff_ne_none.2 (by simpa using hready.1.1)

/-- A claim that ends is a move, and takes its task with it. -/
theorem settle_moves {op : Op F} {task : BuyTask} {background : BackgroundOp}
    (htask : s.buys[index]? = some task)
    (hop : background = .abandon index ∨
      ∃ outcome rtt now, background = .resolve index outcome rtt now)
    (h : s.settle pl index background = .ok s') : s.Moves lib pl op s' := by
  obtain ⟨tasks, htasks, h⟩ := Except.ok_bind_inv h
  obtain ⟨runtime, hr, htasks⟩ := Except.ok_bind_inv htasks
  cases h
  cases htasks
  exact .settled index task background runtime htask hop hr

/-- The preparing of a BUY is a move. -/
theorem prepareBuy_moves {nowMs : BitVec 128} (h : s.prepareBuy lib pl index nowMs = .ok s') :
    s.Moves lib pl (.prepareBuy index nowMs) s' := by
  unfold prepareBuy at h
  split at h
  · next signer task hsigner htask =>
    split at h
    · cases h
      exact .idle
    · next hstage =>
      replace hstage := not_not.1 hstage
      dsimp only at h
      split at h
      · cases h
        exact .panicked index task nowMs htask hstage
      · exact settle_moves htask (.inl rfl) h
      · next prepared hprepared =>
        cases h
        exact .bought signer index task nowMs prepared hsigner htask hstage hprepared
  · cases h
    exact .idle

/-- An outcome is a move. -/
theorem resolveBuy_moves {outcome : SubmitOutcome} {rtt : Rtt} {now : Int}
    (h : s.resolveBuy pl index outcome rtt now = .ok s') :
    s.Moves lib pl (.resolveBuy index outcome rtt now) s' := by
  rw [resolveBuy] at h
  split at h
  · next task htask =>
    split at h
    · exact settle_moves htask (.inr ⟨outcome, rtt, now, rfl⟩) h
    · cases h
      exact .idle
  · cases h
    exact .idle

/-- The refreshing of a plan is a move. -/
theorem refreshSell_moves (h : s.refreshSell pl = .ok s') : s.Moves lib pl .refreshSell s' := by
  unfold refreshSell at h
  split at h
  · next exit exits hselling hexits =>
    obtain ⟨plan, hplan, h⟩ := Except.ok_bind_inv h
    cases h
    exact .refreshed exit exits plan hselling hexits hplan
  · cases h
    exact .idle

/-- The signing of a SELL is a move. -/
theorem signSell_moves (s : Program F Key) (nowMs : BitVec 128) :
    s.Moves lib pl (.signSell nowMs) (s.signSell lib nowMs) := by
  unfold signSell
  split
  · next signer plan hsigner hselling =>
    dsimp only
    split
    · exact .dropped plan nowMs hselling
    · next prepared hsign => exact .signed signer plan nowMs prepared hsigner hselling hsign
  · exact .idle

/-- The posting of a SELL is a move. -/
theorem postSell_moves (s : Program F Key) (index : Nat) :
    s.Moves lib pl (.postSell index) (s.postSell index) := by
  unfold postSell
  split
  · next task htask => exact .sold index task htask
  · exact .idle

/-- A step of a task that has no other part is a move. -/
theorem plain_moves {op : TaskSystem.Op F} (h : s.step lib pl (.task op) = .ok s')
    (hop : Plain op) : s.Moves lib pl (.task op) s' := by
  have hstep : s.step lib pl (.task op) = do return { s with tasks := ← s.tasks.step pl op } := by
    cases op with
    | decideEntry => exact hop.elim
    | background op =>
      cases op with
      | planExits _ | resolve _ _ _ _ | abandon _ => exact hop.elim
      | _ => rfl
    | _ => rfl
  rw [hstep] at h
  obtain ⟨tasks, htasks, h⟩ := Except.ok_bind_inv h
  cases h
  exact .plain op tasks hop htasks

/-- Every step is one of these moves. -/
theorem step_moves {op : Op F} (h : s.step lib pl op = .ok s') : s.Moves lib pl op s' := by
  cases op with
  | prepareBuy index nowMs => exact prepareBuy_moves h
  | resolveBuy index outcome rtt now => exact resolveBuy_moves h
  | refreshSell => exact refreshSell_moves h
  | signSell nowMs =>
    cases h
    exact s.signSell_moves nowMs
  | postSell index =>
    cases h
    exact s.postSell_moves index
  | task op =>
    cases op with
    | decideEntry => exact decideEntry_moves h
    | background op =>
      cases op with
      | planExits now => exact planExits_moves h
      | resolve _ _ _ _ | abandon _ =>
        cases h
        exact .idle
      | _ => exact plain_moves h trivial
    | _ => exact plain_moves h trivial

/-! ### The tasks -/

/-- A sample of the runtime is the decision, and the submit that it may start. -/
theorem binanceSample_eq (runtime : RuntimeSystem F) (sample : BinanceSample F) (now : TsUs) :
    runtime.binanceSample pl.build sample now = do
      let (core, intent) ← decision pl runtime sample now
      match intent with
      | none => return { runtime with core := core }
      | some intent => return { runtime with core := core }.submit intent now := by
  rw [RuntimeSystem.binanceSample, decision]
  cases runtime.core.state.market <;> rfl

/-- To the tasks, a step of the program is a run of theirs. -/
theorem Moves.tasks {op : Op F} (h : s.Moves lib pl op s') :
    Machine.ReachesM (TaskSystem.step pl) s.tasks s'.tasks := by
  cases h with
  | plain op tasks hop h => exact .one h
  | decided sample now core hpushed h =>
    refine .one (a := .decideEntry) ?_
    rw [TaskSystem.step, TaskSystem.decideEntry, hpushed]
    dsimp only
    rw [binanceSample_eq, h]
    rfl
  | spawned sample now core intent hpushed h =>
    refine .one (a := .decideEntry) ?_
    rw [TaskSystem.step, TaskSystem.decideEntry, hpushed]
    dsimp only
    rw [binanceSample_eq, h]
    rfl
  | planned now core exits hsigner h =>
    rw [TaskSystem.core] at h
    refine .one (a := .background (.planExits now)) ?_
    simp only [TaskSystem.step, BackgroundOp.toOp, RuntimeSystem.step, RuntimeCore.step, h]
    rfl
  | settled index task background runtime htask hop h =>
    refine .one (a := .background background) ?_
    rw [TaskSystem.step, h]
    rfl
  | idle | panicked | bought | refreshed | dropped | signed | sold => exact .refl _

/-! ### The submits in flight -/

/-- The spawned BUY tasks are the submits in flight, and there are any only where there is a
signer. -/
structure Wired (s : Program F Key) : Prop where
  live : s.tasks.runtime.live = s.signer.isSome
  inFlight : s.buys.map BuyTask.claimId = s.tasks.runtime.inFlight

/-- The operations that the program performs as they are leave the mode and the submits alone. -/
theorem plain_inFlight {tasks tasks' : TaskSystem F} {op : TaskSystem.Op F}
    (h : tasks.step pl op = .ok tasks') (hop : Plain op) :
    tasks'.runtime.live = tasks.runtime.live ∧
      tasks'.runtime.inFlight = tasks.runtime.inFlight := by
  cases op with
  | decideEntry => exact hop.elim
  | rotate isRotation discovered =>
    cases h
    rw [TaskSystem.rotate]
    split <;> exact ⟨rfl, rfl⟩
  | setStrike =>
    cases h
    rw [TaskSystem.setStrike]
    split <;> exact ⟨rfl, rfl⟩
  | onAuthenticated =>
    cases h
    rw [TaskSystem.onAuthenticated]
    split <;> exact ⟨rfl, rfl⟩
  | onDisconnect =>
    cases h
    rw [TaskSystem.onDisconnect]
    split <;> exact ⟨rfl, rfl⟩
  | onEvent raw now =>
    obtain ⟨core, rfl, -⟩ := TaskSystem.onEvent_eq h
    exact ⟨rfl, rfl⟩
  | background op =>
    obtain ⟨runtime, hr, h⟩ := Except.ok_bind_inv h
    cases h
    cases op with
    | planExits _ | resolve _ _ _ _ | abandon _ => exact hop.elim
    | applyMarketRaw _ _ | expireStaleEntryClaims _ | rehash _ =>
      obtain ⟨core, -, hr⟩ := Except.ok_bind_inv hr
      cases hr
      exact ⟨rfl, rfl⟩
  | _ =>
    cases h
    simp

omit [F64 F] in
/-- An intent that is spawned is claimed. -/
theorem Wired.spawn (hs : s.Wired) (intent : BuyIntent) (now : TsUs) :
    (s.spawn intent now).Wired := by
  have hlive := hs.live
  cases hsigner : s.signer.isSome with
  | false =>
    rw [hsigner] at hlive
    refine ⟨?_, ?_⟩
    · simp [Program.spawn, RuntimeSystem.submit, hlive, hsigner]
    · simp [Program.spawn, RuntimeSystem.submit, hlive, hs.inFlight]
  | true =>
    rw [hsigner] at hlive
    refine ⟨?_, ?_⟩
    · simp [Program.spawn, RuntimeSystem.submit, hlive, hsigner]
    · simp [Program.spawn, RuntimeSystem.submit, hlive, hsigner, hs.inFlight]
      rfl

/-- Every step keeps the BUY tasks and the submits in flight together. -/
theorem Moves.wired {op : Op F} (h : s.Moves lib pl op s') (hs : s.Wired) : s'.Wired := by
  cases h with
  | plain op tasks hop h =>
    obtain ⟨hlive, hflight⟩ := plain_inFlight h hop
    exact ⟨hlive.trans hs.live, hs.inFlight.trans hflight.symm⟩
  | spawned sample now core intent hpushed h =>
    refine Wired.spawn ?_ intent now
    exact ⟨hs.live, hs.inFlight⟩
  | panicked index task nowMs htask hstage =>
    refine ⟨hs.live, Eq.trans ?_ hs.inFlight⟩
    exact map_set_same htask rfl
  | bought signer index task nowMs prepared hsigner htask hstage h =>
    refine ⟨hs.live, Eq.trans ?_ hs.inFlight⟩
    exact map_set_same htask rfl
  | settled index task background runtime htask hop h =>
    have hid : s.tasks.runtime.inFlight[index]? = some task.claimId := by
      rw [← hs.inFlight, List.getElem?_map, htask, Option.map_some]
    have hsame : runtime.live = s.tasks.runtime.live ∧
        runtime.inFlight = s.tasks.runtime.inFlight.eraseIdx index := by
      rcases hop with rfl | ⟨outcome, rtt, now, rfl⟩
      · cases h
        rw [RuntimeSystem.abandon, hid]
        exact ⟨rfl, rfl⟩
      · change s.tasks.runtime.resolve pl.build index outcome rtt now = .ok runtime at h
        rw [RuntimeSystem.resolve, hid] at h
        obtain ⟨core, -, h⟩ := Except.ok_bind_inv h
        cases h
        exact ⟨rfl, rfl⟩
    refine ⟨hsame.1.trans hs.live, ?_⟩
    rw [hsame.2, ← hs.inFlight, List.eraseIdx_map]
  | idle | decided | planned | refreshed | dropped | signed | sold =>
    exact ⟨hs.live, hs.inFlight⟩

/-- The signer is the one of the start. -/
theorem Moves.signer {op : Op F} (h : s.Moves lib pl op s') : s'.signer = s.signer := by
  cases h <;> rfl

/-! ### Runs -/

/-- There is no signer in shadow mode, and otherwise the one of the private key. -/
theorem orderSigner_ok {live : Bool} {apiKey privateKey : String} {funder : Option H160}
    {kind : SignatureKind} {signer : Option (OrderSigner Key)}
    (h : orderSigner lib live apiKey privateKey funder kind = .ok signer) :
    (live = false → signer = none) ∧
      ∀ sg ∈ signer, OrderSigner.new lib privateKey apiKey funder kind Signing.POLYGON_CHAIN_ID
        Signing.EXCHANGE_V2_NORMAL = .ok sg := by
  rw [orderSigner] at h
  split at h
  · next hboth =>
    split at h
    · next sg hnew =>
      cases h
      refine ⟨?_, ?_⟩
      · rintro rfl
        cases hboth
      · rintro _ ⟨⟩
        exact hnew
    · cases h
  · cases h
    exact ⟨fun _ => rfl, nofun⟩

/-- Live orders need a signer. -/
theorem liveGates_ok {submitter : Bool} {signer : Option (OrderSigner Key)} {c : Credentials}
    (h : liveGates submitter signer c = .ok ()) : signer.isSome = true := by
  rw [liveGates] at h
  split_ifs at h with _ hnone
  exact Option.isSome_iff_ne_none.2 (by simpa using hnone)

/-- The program as it starts: the tasks have done nothing, and there is a signer where orders are
live. -/
structure Started (lib : SigningLib Key Point) (setup : Setup F) (core : RuntimeCore F)
    (s : Program F Key) : Prop where
  tasks : s.tasks = .start setup.config core
  signalId : s.signalId = 0
  sellId : s.sellId = 0
  buys : s.buys = []
  exits : s.exits = []
  selling : s.selling = none
  sells : s.sells = []
  posted : s.posted = []
  live : s.signer.isSome = setup.config.allowLiveOrders
  signer : ∀ signer ∈ s.signer, OrderSigner.new lib setup.privateKey setup.credentials.apiKey
    setup.funder setup.kind Signing.POLYGON_CHAIN_ID Signing.EXCHANGE_V2_NORMAL = .ok signer

omit [F64 F] in
/-- What the start of the program leaves. -/
theorem start_ok {setup : Setup F} {core : RuntimeCore F}
    (h : start lib setup.config core setup.credentials setup.privateKey setup.funder setup.kind
      setup.submitter = .ok s) : s.Started lib setup core := by
  rw [start] at h
  split at h
  · cases h
  obtain ⟨signer, hsigner, h⟩ := Except.ok_bind_inv h
  obtain ⟨hshadow, hnew⟩ := orderSigner_ok hsigner
  split at h
  · next hlive =>
    obtain ⟨_, hgates, h⟩ := Except.ok_bind_inv h
    cases h
    exact ⟨rfl, rfl, rfl, rfl, rfl, rfl, rfl, rfl, (liveGates_ok hgates).trans hlive.symm, hnew⟩
  · next hlive =>
    cases h
    replace hlive := Bool.eq_false_iff.2 hlive
    obtain rfl := hshadow hlive
    exact ⟨rfl, rfl, rfl, rfl, rfl, rfl, rfl, rfl, hlive.symm, hnew⟩

omit [F64 F] in
/-- At the start, no BUY is spawned and none is in flight. -/
theorem Started.wired {setup : Setup F} {core : RuntimeCore F} (h : s.Started lib setup core) :
    s.Wired := by
  refine ⟨?_, ?_⟩
  · rw [h.tasks, h.live]
    rfl
  · rw [h.tasks, h.buys]
    rfl

section
variable {setup : Setup F} {ops : List (Op F)}

/-- A run of the program is one of the tasks, and keeps signer and BUY tasks as they should be. -/
theorem Runs.tasks (h : Runs lib pl setup ops s) :
    ∃ (core : RuntimeCore F) (s₀ : Program F Key),
      RuntimeCore.new setup.config = .ok core ∧ s₀.Started lib setup core ∧
      s.signer = s₀.signer ∧ s.Wired ∧
      Machine.ReachesM (TaskSystem.step pl) (.start setup.config core) s.tasks := by
  obtain ⟨core, s₀, hnew, hstart, hrun⟩ := h
  have hstarted := start_ok hstart
  have hreach : Machine.ReachesM (step lib pl) s₀ s := ⟨ops, hrun⟩
  have htasks : s.Wired ∧ Machine.ReachesM (TaskSystem.step pl) s₀.tasks s.tasks :=
    hreach.refines hstarted.wired fun s op s' hs h =>
      ⟨(step_moves h).wired hs, (step_moves h).tasks⟩
  have hsigner : s.signer = s₀.signer :=
    hreach.invariant (fun s op s' hs h => (step_moves h).signer.trans hs) rfl
  rw [hstarted.tasks] at htasks
  exact ⟨core, s₀, hnew, hstarted, hsigner, htasks⟩

/-- A run of the tasks is one of the runtime. -/
theorem Runs.runtime (h : Runs lib pl setup ops s) :
    RuntimeSystem.Reachable pl setup.config s.tasks.runtime := by
  obtain ⟨core, s₀, hnew, -, -, -, htasks⟩ := h.tasks
  have hruntime : True ∧ Machine.ReachesM (RuntimeSystem.step pl)
      (TaskSystem.start setup.config core).runtime s.tasks.runtime :=
    htasks.refines trivial fun s op s' _ h => ⟨trivial, TaskSystem.step_runtime h⟩
  obtain ⟨runtimeOps, hruntimeOps⟩ := hruntime.2
  exact ⟨core, runtimeOps, hnew, hruntimeOps⟩

/-- The signer was made at the start, where orders are live. -/
theorem Runs.signer (h : Runs lib pl setup ops s) :
    s.signer.isSome = setup.config.allowLiveOrders ∧
      ∀ signer ∈ s.signer, OrderSigner.new lib setup.privateKey setup.credentials.apiKey
        setup.funder setup.kind Signing.POLYGON_CHAIN_ID Signing.EXCHANGE_V2_NORMAL =
          .ok signer := by
  obtain ⟨core, s₀, -, hstarted, hsigner, -, -⟩ := h.tasks
  rw [hsigner]
  exact ⟨hstarted.live, hstarted.signer⟩

/-- Every run of the program is on its tasks a run of theirs, and on its core and the submits in
flight a run of the runtime; the spawned BUY tasks are the submits in flight, one for one and in
order, and there is a signer exactly where orders are live. -/
theorem refines_runtime (h : Runs lib pl setup ops s) :
    (∃ core, RuntimeCore.new setup.config = .ok core ∧
      Machine.ReachesM (TaskSystem.step pl) (.start setup.config core) s.tasks) ∧
    RuntimeSystem.Reachable pl setup.config s.tasks.runtime ∧
    s.buys.map BuyTask.claimId = s.tasks.runtime.inFlight ∧
    s.signer.isSome = setup.config.allowLiveOrders := by
  obtain ⟨core, s₀, hnew, -, -, hwired, htasks⟩ := h.tasks
  exact ⟨⟨core, hnew, htasks⟩, h.runtime, hwired.inFlight, h.signer.1⟩

end

end

end

/-! ### A position that is sold -/

/-- A market whose tokens are numbers. -/
def numberedMarket : Discovered where
  market :=
    { slug := "btc-updown-5m-700", conditionId := ⟨"c1"⟩, yesToken := ⟨"11"⟩, noToken := ⟨"12"⟩
      endTs := 1000, slugTs := 700 }
  conditionId_ne := by decide

/-- A book of one of its tokens. -/
def numberedBook : Json.Value :=
  .object [("event_type", .string "book"), ("asset_id", .string "11"),
    ("bids", .array [.object [("price", .string "0.39"), ("size", .string "500")]]),
    ("asks", .array [.object [("price", .string "0.40"), ("size", .string "500")]])]

/-- Five shares of it, bought. -/
def numberedTrade : Json.Value :=
  .object [("event_type", .string "trade"), ("id", .string "t1"), ("asset_id", .string "11"),
    ("side", .string "BUY"), ("size", .string "5"), ("price", .string "0.50"),
    ("status", .string "MATCHED")]

/-- Live orders, signed with the key one. -/
def keyOneSetup : Setup Rat where
  config := .runtimeEnvShape
  credentials :=
    { apiKey := "00000000-0000-0000-0000-000000000001", apiSecret := "c2VjcmV0"
      passphrase := "passphrase", address := "0x7e5f4552091a69125d5dfcb7b8c2659029395bdf" }
  privateKey := "0x0000000000000000000000000000000000000000000000000000000000000001"
  funder := none
  kind := .eoa
  submitter := true

/-- The trade arrives, and its position is held for too long and sold. -/
def sellOps : List (Op Rat) :=
  [.task (.rotate true numberedMarket),
    .task (.background (.applyMarketRaw numberedBook.toBytes ⟨1⟩)), .task .connect, .task .sendAuth,
    .task .onAuthenticated, .task (.onEvent numberedTrade.toBytes 2),
    .task (.background (.planExits 31000000)), .refreshSell, .signSell 1777000000000, .postSell 0]

/-- The five shares are posted for sale. -/
theorem sellOps_run :
    ∃ s : Program Rat Unit, Runs Signing.keyOneSell.lib (.reading [numberedBook, numberedTrade])
      keyOneSetup sellOps s ∧
        (s.posted.map fun p => (p.side, p.inputs)) = [(.sell, ⟨0, 1777000000000⟩)] := by
  have h : (RuntimeCore.new keyOneSetup.config).Succeeds fun core =>
      (start Signing.keyOneSell.lib keyOneSetup.config core keyOneSetup.credentials
        keyOneSetup.privateKey keyOneSetup.funder keyOneSetup.kind
        keyOneSetup.submitter).Succeeds fun s₀ =>
      (Machine.runM (step Signing.keyOneSell.lib (.reading [numberedBook, numberedTrade])) s₀
        sellOps).Succeeds fun s =>
          (s.posted.map fun p => (p.side, p.inputs)) = [(.sell, ⟨0, 1777000000000⟩)] := by
    simp only [Platform.reading_eq, sellOps, Json.Value.toBytes_eq]
    decide +kernel
  obtain ⟨core, hnew, h⟩ := h.exists
  obtain ⟨s₀, hstart, h⟩ := h.exists
  obtain ⟨s, hrun, hposted⟩ := h.exists
  exact ⟨s, ⟨core, s₀, hnew, hstart, hrun⟩, hposted⟩

/-! ### A run that buys -/

/-- The books of both tokens of the numbered market. -/
def numberedBooks : Json.Value :=
  .array [numberedBook,
    .object [("event_type", .string "book"), ("asset_id", .string "12"),
      ("bids", .array [.object [("price", .string "0.59"), ("size", .string "500")]]),
      ("asks", .array [.object [("price", .string "0.60"), ("size", .string "500")]])]]

/-- A sample of the exchange as it passes through the Binance task. -/
def sampleOps (us updateId : Int) (bid : Rat) : List (Op Rat) :=
  let sample := { RuntimeSystem.bidSample 0 updateId bid with tsUs := ⟨us⟩ }
  [.task (.pushTick sample ⟨us⟩), .task .setStrike, .task .decideEntry]

/-- A rotation to the market, the user channel, a strike from the first three samples, and two more
of a rising price, of which the second is bought. -/
def buyOps : List (Op Rat) :=
  [.task (.rotate true numberedMarket), .task .lockAnchor, .task .readMarket, .task .setPending,
    .task .subscribeUser, .task .connect, .task .sendAuth, .task .onAuthenticated] ++
  sampleOps 700000000 1 100000 ++ sampleOps 700100000 2 100000 ++ sampleOps 700200000 3 100000 ++
  [.task (.background (.applyMarketRaw numberedBooks.toBytes ⟨899990000⟩))] ++
  sampleOps 899000000 4 100000 ++ sampleOps 900000000 5 100001 ++ [.prepareBuy 0 1777000000000]

/-- Before its order is prepared, the one spawned task is the one submit in flight. -/
theorem refines_runtime_buy :
    ∃ (s : Program Rat Unit) (task : BuyTask),
      Runs Signing.keyOneSell.lib (.reading [numberedBooks]) keyOneSetup buyOps.dropLast s ∧
      RuntimeSystem.Reachable (.reading [numberedBooks]) .runtimeEnvShape s.tasks.runtime ∧
      s.buys = [task] ∧ s.tasks.runtime.inFlight = [task.claimId] := by
  have h : (RuntimeCore.new keyOneSetup.config).Succeeds fun core =>
      (start Signing.keyOneSell.lib keyOneSetup.config core keyOneSetup.credentials
        keyOneSetup.privateKey keyOneSetup.funder keyOneSetup.kind
        keyOneSetup.submitter).Succeeds fun s₀ =>
      (Machine.runM (step Signing.keyOneSell.lib (.reading [numberedBooks])) s₀
        buyOps.dropLast).Succeeds fun s => s.buys.length = 1 := by
    simp only [Platform.reading_eq, buyOps, Json.Value.toBytes_eq]
    decide +kernel
  obtain ⟨core, hnew, h⟩ := h.exists
  obtain ⟨s₀, hstart, h⟩ := h.exists
  obtain ⟨s, hrun, hone⟩ := h.exists
  have hruns : Runs Signing.keyOneSell.lib (.reading [numberedBooks]) keyOneSetup buyOps.dropLast
      s := ⟨core, s₀, hnew, hstart, hrun⟩
  obtain ⟨-, hreachable, hflight, -⟩ := refines_runtime hruns
  obtain ⟨task, htask⟩ := List.length_eq_one_iff.1 hone
  refine ⟨s, task, hruns, hreachable, htask, ?_⟩
  rw [← hflight, htask]
  rfl

end Program

end Polyrust
