import Polyrust.Inventory.Entry
import Polyrust.Lib.Refine
import Polyrust.Runtime.Ledger

/-!
# The claims of the runtime

What the steps of the runtime do to the inventory, operation by operation (`inventoryOps`), and the
two laws of claims that follow for the system. The only claims are those of the Binance task, which
checks and claims under one lock, so that every run of the system is a run of the entry protocol
(`follows_protocol`). And a submit that has had neither outcome nor trade is one in flight, the only
one of its token (`claims_in_flight`): no claim is left behind that nothing will resolve.
-/

namespace Polyrust

open IntWidth

namespace Inventory

section
variable {inv : Inventory} {op : Op} {id : SubmitId} {p : PendingSubmit}

/-- The submit `id` is pending, and nothing has been heard of it. -/
def Awaits (inv : Inventory) (id : SubmitId) (p : PendingSubmit) : Prop :=
  inv.pending.lookup id = some p ∧ p.status = .pending

/-- What is allowed at all is a claim, or allowed anywhere. -/
theorem entryGuard_of_not_claim (h : op.isClaim = false) (inv : Inventory) : EntryGuard inv op := by
  cases op with
  | claimEntry token side size now => cases h
  | _ => trivial

/-- An update of one submit that moves it on is heard of. -/
theorem Awaits.of_modify {i : SubmitId} {f : PendingSubmit → PendingSubmit}
    (hf : ∀ p, (f p).status ≠ .pending)
    (h : Awaits { inv with pending := inv.pending.modify i f } id p) :
    inv.Awaits id p ∧ id ≠ i := by
  obtain ⟨hp, hs⟩ := h
  by_cases hi : id = i
  · subst hi
    dsimp only at hp
    rw [HashMap.lookup_modify_self] at hp
    obtain ⟨q, -, rfl⟩ := Option.map_eq_some_iff.1 hp
    exact absurd hs (hf q)
  · dsimp only at hp
    rw [HashMap.lookup_modify_ne hi] at hp
    exact ⟨⟨hp, hs⟩, hi⟩

/-- A release is news of its submit. -/
theorem Awaits.of_releaseClaim {i : SubmitId} (h : (inv.releaseClaim i).Awaits id p) :
    inv.Awaits id p ∧ id ≠ i := by
  obtain ⟨hp, hs⟩ := h
  by_cases hi : id = i
  · subst hi
    cases (AList.lookup_erase id inv.pending).symm.trans hp
  · exact ⟨⟨(AList.lookup_erase_ne hi).symm.trans hp, hs⟩, hi⟩

/-- An expiry is no news of a submit that waits. -/
theorem Awaits.of_expireUnknowns {cutoff : Int} (h : (inv.expireUnknowns cutoff).Awaits id p) :
    inv.Awaits id p := by
  obtain ⟨hp, hs⟩ := h
  rw [Inventory.expireUnknowns, HashMap.lookup_mapValues] at hp
  obtain ⟨q, hq, rfl⟩ := Option.map_eq_some_iff.1 hp
  split at hs
  · cases hs
  · next hold =>
    rw [if_neg hold]
    exact ⟨hq, hs⟩

/-- What is kept was there. -/
theorem Awaits.of_retain {f : SubmitId → PendingSubmit → Bool}
    (h : Awaits { inv with pending := inv.pending.retain f } id p) : inv.Awaits id p := by
  obtain ⟨hp, hs⟩ := h
  dsimp only at hp
  rw [HashMap.lookup_retain, Option.filter_eq_some_iff] at hp
  exact ⟨hp.1, hs⟩

/-- A submit that still waits was not matched. -/
theorem Awaits.of_applyUserTrade {trade : UserTrade}
    (h : (inv.applyUserTrade trade).1.Awaits id p) : inv.Awaits id p := by
  obtain ⟨hp, hs⟩ := h
  by_cases hm : (matchPendingSubmit inv.pending trade).1 = some id
  · rw [applyUserTrade_pending_self hm] at hp
    split at hp
    · cases hp
    · obtain ⟨q, -, rfl⟩ := Option.map_eq_some_iff.1 hp
      cases hs
  · rw [applyUserTrade_pending_ne hm] at hp
    exact ⟨hp, hs⟩

/-- An HTTP outcome is news of its submit. -/
theorem Awaits.of_recordBuySubmitOutcome {i : SubmitId} {outcome : SubmitOutcome} {now : Int}
    (h : (recordBuySubmitOutcome inv i outcome now).Awaits id p) : inv.Awaits id p ∧ id ≠ i := by
  cases outcome with
  | accepted orderId httpStatus => exact h.of_modify fun _ h => by cases h
  | unknown httpStatus error => exact h.of_modify fun _ h => by cases h
  | rejected httpStatus error => exact h.of_releaseClaim

/-- Without a claim, a submit that nothing has been heard of was there before. -/
theorem Awaits.of_step (hc : op.isClaim = false) (h : (inv.step op).Awaits id p) :
    inv.Awaits id p := by
  cases op with
  | claimEntry token side size now => cases hc
  | setUserWssTrusted trusted => exact h
  | markSubmitAccepted i orderId now => exact (h.of_modify fun _ h => by cases h).1
  | markSubmitUnknown i now => exact (h.of_modify fun _ h => by cases h).1
  | releaseClaim i => exact h.of_releaseClaim.1
  | expireUnknowns cutoff => exact h.of_expireUnknowns
  | expirePending cutoff => exact h.of_retain
  | applyUserTrade trade => exact h.of_applyUserTrade
  | releaseMarketScope active => exact @Awaits.of_retain inv id p _ h
  | recordBuySubmitOutcome i outcome now => exact h.of_recordBuySubmitOutcome.1
  | expireStaleEntryClaims now => exact h.of_retain.of_expireUnknowns
  | rehash pending =>
    rw [step] at h
    split at h
    · next hr => exact ⟨(hr.lookup id).trans h.1, h.2⟩
    · exact h

/-- Without a claim, the same along a run. -/
theorem Awaits.of_run {ops : List Op} (hc : ∀ op ∈ ops, op.isClaim = false)
    (h : (Machine.run step inv ops).Awaits id p) : inv.Awaits id p := by
  induction ops generalizing inv with
  | nil => exact h
  | cons op ops ih =>
    exact (ih (fun o ho => hc o (List.mem_cons_of_mem op ho)) h).of_step
      (hc op (List.mem_cons_self ..))

/-- Without a claim, no id is issued. -/
theorem run_nextSubmitId {ops : List Op} (hc : ∀ op ∈ ops, op.isClaim = false) :
    (Machine.run step inv ops).nextSubmitId = inv.nextSubmitId := by
  induction ops generalizing inv with
  | nil => rfl
  | cons op ops ih =>
    exact (ih fun o ho => hc o (List.mem_cons_of_mem op ho)).trans
      (step_nextSubmitId (hc op (List.mem_cons_self ..)))

end

end Inventory

/-! ## The operations of the inventory -/

namespace RuntimeCore

section
variable {F : Type} {pl : Platform} {core core' : RuntimeCore F} {op : Op F}

/-- What an operation on the core does to the inventory. -/
def Op.inventoryOps (pl : Platform) : Op F → List Inventory.Op
  | .applyUserRawWithStates raw tsUs => (frameTrades pl raw tsUs).map .applyUserTrade
  | .releaseMarketScope active => [.releaseMarketScope active]
  | .setUserWssTrusted trusted => [.setUserWssTrusted trusted]
  | .expireStaleEntryClaims now => [.expireStaleEntryClaims now]
  | .rehash pending => [.rehash pending]
  | .applyMarketRaw .. | .planExits _ | .setMarket _ | .markMarketInactive | .setStrike .. => []

/-- No operation on the core claims an entry. -/
theorem Op.inventoryOps_not_claim :
    ∀ o ∈ op.inventoryOps pl, o.isClaim = false := by
  intro o ho
  cases op with
  | applyUserRawWithStates raw tsUs =>
    obtain ⟨trade, -, rfl⟩ := List.mem_map.1 ho
    rfl
  | releaseMarketScope _ | setUserWssTrusted _ | expireStaleEntryClaims _ | rehash _ =>
    rw [List.mem_singleton.1 ho]
    rfl
  | _ => cases ho

/-- Trades one by one are operations on the inventory. -/
theorem run_tradeStep_inventory (core : RuntimeCore F) (trades : List UserTrade) :
    (Machine.run tradeStep core trades).inventory =
      Machine.run Inventory.step core.inventory (trades.map .applyUserTrade) := by
  induction trades generalizing core with
  | nil => rfl
  | cons trade trades ih =>
    rw [Machine.run_cons, ih, tradeStep_inventory]
    rfl

variable [F64 F]

/-- The inventory after an operation on the core. -/
theorem step_inventory (h : core.step pl op = .ok core') :
    core'.inventory = Machine.run Inventory.step core.inventory (op.inventoryOps pl) := by
  cases op with
  | applyMarketRaw raw tsUs =>
    obtain ⟨⟨c, r⟩, hc, h⟩ := Except.ok_bind_inv h
    cases h
    obtain ⟨state, rfl⟩ := applyMarketRaw_eq hc
    rfl
  | applyUserRawWithStates raw tsUs =>
    obtain ⟨⟨c, r⟩, hc, h⟩ := Except.ok_bind_inv h
    cases h
    rw [applyUserRawWithStates_run hc]
    exact run_tradeStep_inventory core _
  | planExits now =>
    obtain ⟨⟨c, r⟩, hc, h⟩ := Except.ok_bind_inv h
    cases h
    obtain ⟨trackers, rfl⟩ := (planExits_judged hc).eq
    rfl
  | _ =>
    cases h
    rfl

/-- An intent is for a token that may be entered. -/
theorem onBinanceSample_entry {b : Build} {sample : BinanceSample F} {now : TsUs} {tteUs : Int}
    {intent : BuyIntent}
    (h : core.onBinanceSample b sample now tteUs = .ok (core', some intent)) :
    core.inventory.hasEntryExposureOrPending intent.token = false := by
  obtain ⟨⟨signal, found⟩, hfound, h⟩ := Except.ok_bind_inv h
  cases found with
  | none => cases h
  | some found =>
    obtain ⟨block, -, h⟩ := Except.ok_bind_inv h
    cases block with
    | some reason => cases h
    | none =>
      cases h
      rcases onBinanceSample_cases hfound with
        ⟨-, hnone⟩ | ⟨market, yesQuote, noQuote, found, -, -, -, hpassed⟩
      · cases hnone
      · exact (hpassed intent rfl).2

end

end RuntimeCore

namespace RuntimeSystem

section
variable {F : Type} {pl : Platform} {s s' : RuntimeSystem F}

/-- A claim goes to a token that may be entered. -/
theorem binanceSample_entry [F64 F] {b : Build} {sample : BinanceSample F} {now : TsUs}
    (h : s.binanceSample b sample now = .ok s') :
    ∃ signal, s' = { s with core := { s.core with signal := signal } } ∨
      ∃ intent, s.core.inventory.hasEntryExposureOrPending intent.token = false ∧
        s' = { s with core := { s.core with signal := signal } }.submit intent now := by
  rw [binanceSample] at h
  cases hm : s.core.state.market with
  | none =>
    rw [hm] at h
    cases h
    exact ⟨_, .inl rfl⟩
  | some market =>
    rw [hm] at h
    obtain ⟨⟨core, intent⟩, hcore, h⟩ := Except.ok_bind_inv h
    obtain ⟨⟨signal, -, rfl⟩, -⟩ := RuntimeCore.onBinanceSample_spec hcore
    refine ⟨signal, ?_⟩
    cases intent with
    | none =>
      cases h
      exact .inl rfl
    | some intent =>
      cases h
      exact .inr ⟨intent, RuntimeCore.onBinanceSample_entry hcore, rfl⟩

/-- What a step does to the inventory and to the submits in flight. -/
inductive Claims (s s' : RuntimeSystem F) : Prop where
  /-- operations that claim nothing -/
  | unclaimed (ops : List Inventory.Op) (hops : ∀ op ∈ ops, op.isClaim = false)
      (inventory : s'.core.inventory = Machine.run Inventory.step s.core.inventory ops)
      (inFlight : s'.inFlight = s.inFlight)
  /-- a claim, and its submit in flight -/
  | claimed (token : TokenId) (now : Int) (live : s.live = true)
      (entry : s.core.inventory.hasEntryExposureOrPending token = false)
      (inventory : s'.core.inventory = s.core.inventory.step (.claimEntry token .buy ⟨1⟩ now))
      (inFlight : s'.inFlight = s.inFlight ++ [submitId s.core.inventory.nextCounter])
  /-- news of a submit, which is in flight no longer -/
  | heard (index : Nat) (id : SubmitId) (op : Inventory.Op)
      (hop : (∃ outcome now, op = .recordBuySubmitOutcome id outcome now) ∨ op = .releaseClaim id)
      (found : s.inFlight[index]? = some id)
      (inventory : s'.core.inventory = s.core.inventory.step op)
      (inFlight : s'.inFlight = s.inFlight.eraseIdx index)

/-- A step that leaves inventory and submits as they are. -/
theorem Claims.of_same (hinv : s'.core.inventory = s.core.inventory)
    (hflight : s'.inFlight = s.inFlight) : s.Claims s' :=
  .unclaimed [] (by simp) hinv hflight

/-- A submit claims the token of its intent, if orders are live. -/
theorem submit_claims {core : RuntimeCore F} {intent : BuyIntent} {now : TsUs}
    (hcore : core.inventory = s.core.inventory)
    (h : s.core.inventory.hasEntryExposureOrPending intent.token = false) :
    s.Claims ({ s with core := core }.submit intent now) := by
  rw [submit]
  split
  · next hlive =>
    refine .claimed intent.token now.micros hlive h ?_ ?_
    · dsimp only
      rw [hcore]
      rfl
    · dsimp only
      rw [hcore]
      rfl
  · exact .of_same hcore rfl

variable [F64 F]

/-- What a step of the system does to inventory and submits; the mode never changes. -/
theorem step_claims {op : Op F} (h : s.step pl op = .ok s') : s'.live = s.live ∧ s.Claims s' := by
  cases op with
  | core op =>
    obtain ⟨core, hcore, h⟩ := Except.ok_bind_inv h
    cases h
    exact ⟨rfl, .unclaimed _ RuntimeCore.Op.inventoryOps_not_claim
      (RuntimeCore.step_inventory hcore) rfl⟩
  | binanceSample sample now =>
    obtain ⟨signal, rfl | ⟨intent, hentry, rfl⟩⟩ := binanceSample_entry h
    · exact ⟨rfl, .of_same rfl rfl⟩
    · refine ⟨?_, submit_claims rfl hentry⟩
      rw [submit]
      split <;> rfl
  | resolve index outcome rtt now =>
    rcases resolve_cases h with rfl | ⟨id, ewma, hid, rfl⟩
    · exact ⟨rfl, .of_same rfl rfl⟩
    · exact ⟨rfl, .heard index id _ (.inl ⟨outcome, now, rfl⟩) hid rfl rfl⟩
  | abandon index =>
    cases h
    rw [abandon]
    split
    · exact ⟨rfl, .of_same rfl rfl⟩
    · next id hid => exact ⟨rfl, .heard index id _ (.inr rfl) hid rfl rfl⟩

end

/-! ## The entry protocol -/

section
variable {F : Type} {pl : Platform} {s s' : RuntimeSystem F}

/-- To the inventory, a step is operations of the entry protocol. -/
theorem Claims.guarded (h : s.Claims s') :
    Machine.ReachesAlong Inventory.step Inventory.EntryGuard s.core.inventory
      s'.core.inventory := by
  cases h with
  | unclaimed ops hops inventory =>
    rw [inventory]
    exact .of_forall fun op hop => Inventory.entryGuard_of_not_claim (hops op hop)
  | claimed token now live entry inventory =>
    rw [inventory]
    exact .one entry
  | heard index id op hop found inventory =>
    rw [inventory]
    refine .one (Inventory.entryGuard_of_not_claim ?_ _)
    rcases hop with ⟨outcome, now, rfl⟩ | rfl <;> rfl

variable [F64 F]

/-- The inventory of a new core is empty. -/
theorem init_inventory {config : Config F} {core : RuntimeCore F}
    (h : RuntimeCore.new config = .ok core) : (init config core).core.inventory = .new := by
  obtain ⟨signalConfig, -, h⟩ := Except.ok_bind_inv h
  cases h
  rfl

/-- Every run of the system is, to the inventory, a run of the entry protocol: entries are claimed
only where the token has no exposure and no blocking submit. So of two submits of one token that are
pending at the same time, one has expired as unknown before. -/
theorem follows_protocol {config : Config F} (hs : Reachable pl config s) :
    ∃ ops, s.core.inventory = Inventory.runOps ops ∧
      Machine.Along Inventory.step Inventory.EntryGuard .new ops ∧
      ∀ id id' p p', s.core.inventory.pending.lookup id = some p →
        s.core.inventory.pending.lookup id' = some p' → p.token = p'.token → id ≠ id' →
          Inventory.EverExpired id ops ∨ Inventory.EverExpired id' ops := by
  obtain ⟨core, sysOps, hnew, hrun⟩ := hs
  have hreach : Machine.ReachesAlong Inventory.step Inventory.EntryGuard .new s.core.inventory := by
    refine Machine.ReachesM.invariant (s := init config core) ⟨sysOps, hrun⟩
      (I := fun s => Machine.ReachesAlong Inventory.step Inventory.EntryGuard .new
        s.core.inventory) ?_ ?_
    · intro s op s' ih hstep
      exact ih.trans (step_claims hstep).2.guarded
    · rw [init_inventory hnew]
      exact .refl _
  obtain ⟨ops, hguard, hinv⟩ := hreach
  refine ⟨ops, hinv, hguard, ?_⟩
  intro id id' p p' hp hp' ht hne
  rw [hinv] at hp hp'
  exact Inventory.exclusive_of_guarded hguard hp hp' ht hne

end

/-- The market that is entered once, with its submit in flight. -/
theorem entered_reachable :
    ∃ s : RuntimeSystem Rat, Reachable (.reading [bookFrame]) Config.runtimeEnvShape s ∧
      s.inFlight = [submitId 1] ∧ s.core.inventory.nextSubmitId = 1 := by
  have h : (RuntimeCore.new Config.runtimeEnvShape).Succeeds fun core =>
      (Machine.runM (step (.reading [bookFrame])) (init Config.runtimeEnvShape core)
        entryOps).Succeeds fun s =>
          s.inFlight = [submitId 1] ∧ s.core.inventory.nextSubmitId = 1 := by
    simp only [Platform.reading_eq, entryOps, Json.Value.toBytes_eq]
    decide +kernel
  exact exists_reachable h

/-- The entry, whose outcome stays unknown until it expires, and a second entry of the token. -/
def secondEntryOps : List (Op Rat) :=
  entryOps ++
    [.resolve 0 (.unknown 0 none) ⟨1000, by decide, by decide⟩ 900500000,
      .core (.expireStaleEntryClaims 905600000),
      .core (.applyMarketRaw bookFrame.toBytes ⟨935990000⟩),
      .binanceSample (bidSample 935 3 100001) ⟨935000000⟩,
      .binanceSample (bidSample 936 4 100002) ⟨936000000⟩]

/-- Two submits of the token are pending there, and one of them has expired as unknown. -/
theorem follows_protocol_second_entry :
    ∃ (s : RuntimeSystem Rat) (p p' : PendingSubmit), s.inFlight = [submitId 2] ∧
      s.core.inventory.pending.lookup (submitId 1) = some p ∧
      s.core.inventory.pending.lookup (submitId 2) = some p' ∧ p.token = p'.token ∧
      ∃ ops, s.core.inventory = Inventory.runOps ops ∧
        Machine.Along Inventory.step Inventory.EntryGuard .new ops ∧
        (Inventory.EverExpired (submitId 1) ops ∨ Inventory.EverExpired (submitId 2) ops) := by
  have h : (RuntimeCore.new Config.runtimeEnvShape).Succeeds fun core =>
      (Machine.runM (step (.reading [bookFrame])) (init Config.runtimeEnvShape core)
        secondEntryOps).Succeeds fun s =>
          s.inFlight = [submitId 2] ∧
            ∃ p ∈ s.core.inventory.pending.lookup (submitId 1),
              ∃ p' ∈ s.core.inventory.pending.lookup (submitId 2), p.token = p'.token := by
    simp only [Platform.reading_eq, secondEntryOps, entryOps, Json.Value.toBytes_eq]
    decide +kernel
  obtain ⟨s, hs, hflight, p, hp, p', hp', ht⟩ := exists_reachable h
  obtain ⟨ops, hinv, hguard, hexpired⟩ := follows_protocol hs
  exact ⟨s, p, p', hflight, hp, hp', ht, ops, hinv, hguard,
    hexpired _ _ p p' hp hp' ht (by decide)⟩

/-! ## Submits in flight -/

section
variable {F : Type} {pl : Platform} {s s' : RuntimeSystem F}

/-- The submits in flight are distinct and were issued, every submit that nothing has been heard of
is one of them, and it is the only such submit of its token. In shadow mode there are none. -/
structure ClaimInv (s : RuntimeSystem F) : Prop where
  nodup : s.inFlight.Nodup
  issued : ∀ id ∈ s.inFlight, ∃ n, id = submitId n ∧ n ≤ s.core.inventory.nextSubmitId
  inFlight_of_awaits : ∀ id p, s.core.inventory.Awaits id p → id ∈ s.inFlight
  single : ∀ id id' p p', s.core.inventory.Awaits id p → s.core.inventory.Awaits id' p' →
    p.token = p'.token → id = id'
  shadow : s.live = false → s.inFlight = [] ∧ ∀ id, s.core.inventory.pending.lookup id = none

/-- Operations without a claim keep the claims. -/
theorem ClaimInv.unclaimed (hs : s.ClaimInv) (hlive : s'.live = s.live) {ops : List Inventory.Op}
    (hops : ∀ op ∈ ops, op.isClaim = false)
    (hinv : s'.core.inventory = Machine.run Inventory.step s.core.inventory ops)
    (hflight : s'.inFlight = s.inFlight) : s'.ClaimInv := by
  have hawaits : ∀ id p, s'.core.inventory.Awaits id p → s.core.inventory.Awaits id p := by
    intro id p h
    rw [hinv] at h
    exact h.of_run hops
  refine ⟨hflight ▸ hs.nodup, ?_, ?_, ?_, ?_⟩
  · rw [hflight, hinv, Inventory.run_nextSubmitId hops]
    exact hs.issued
  · intro id p h
    rw [hflight]
    exact hs.inFlight_of_awaits id p (hawaits id p h)
  · intro id id' p p' h h' ht
    exact hs.single id id' p p' (hawaits id p h) (hawaits id' p' h') ht
  · intro hshadow
    obtain ⟨hempty, hnone⟩ := hs.shadow (hlive ▸ hshadow)
    refine ⟨hflight.trans hempty, fun id => ?_⟩
    rw [hinv]
    -- an empty map stays empty without a claim
    clear hinv hawaits
    induction ops using List.reverseRecOn with
    | nil => exact hnone id
    | append_singleton ops op ih =>
      rw [Machine.run_concat, Option.eq_none_iff_forall_not_mem]
      intro p hp
      obtain ⟨q, hq, -⟩ := Inventory.step_descends (hops op (by simp)) id p hp
      rw [ih fun o ho => hops o (by simp [ho])] at hq
      cases hq

/-- A claim adds a submit that nothing has been heard of, the only one of its token. -/
theorem ClaimInv.claimed (hs : s.ClaimInv) (hlive : s'.live = s.live) {token : TokenId} {now : Int}
    (hmode : s.live = true) (hentry : s.core.inventory.hasEntryExposureOrPending token = false)
    (hinv : s'.core.inventory = s.core.inventory.step (.claimEntry token .buy ⟨1⟩ now))
    (hflight : s'.inFlight = s.inFlight ++ [submitId s.core.inventory.nextCounter])
    (hcount : s.core.inventory.nextSubmitId < MAX_SUBMIT_COUNTER) : s'.ClaimInv := by
  have hnext : s.core.inventory.nextCounter = s.core.inventory.nextSubmitId + 1 :=
    min_eq_left (by omega)
  have hcounter : s'.core.inventory.nextSubmitId = s.core.inventory.nextCounter := by
    rw [hinv]
    rfl
  -- the awaited submits are the earlier ones, on other tokens, and the new one
  have hawaits : ∀ id p, s'.core.inventory.Awaits id p →
      id = submitId s.core.inventory.nextCounter ∧ p.token = token ∨
        s.core.inventory.Awaits id p ∧ p.token ≠ token := by
    rintro id p ⟨hp, hst⟩
    rw [hinv] at hp
    simp only [Inventory.step, Inventory.claimEntry_pending] at hp
    by_cases hid : id = submitId s.core.inventory.nextCounter
    · subst hid
      rw [AList.lookup_insert] at hp
      cases hp
      exact .inl ⟨rfl, rfl⟩
    · rw [AList.lookup_insert_ne hid] at hp
      refine .inr ⟨⟨hp, hst⟩, fun ht => ?_⟩
      cases hst.symm.trans (Inventory.expired_of_entry_allowed hentry hp ht)
  refine ⟨?_, ?_, ?_, ?_, ?_⟩
  · rw [hflight]
    refine List.nodup_append'.2 ⟨hs.nodup, List.nodup_singleton _, ?_⟩
    intro id hid hnew
    obtain ⟨n, rfl, hn⟩ := hs.issued id hid
    have := Inventory.submitId_inj.1 (List.mem_singleton.1 hnew)
    omega
  · intro id hid
    rw [hflight, List.mem_append, List.mem_singleton] at hid
    rcases hid with hid | rfl
    · obtain ⟨n, rfl, hn⟩ := hs.issued id hid
      exact ⟨n, rfl, by omega⟩
    · exact ⟨_, rfl, by omega⟩
  · intro id p h
    rw [hflight, List.mem_append, List.mem_singleton]
    rcases hawaits id p h with ⟨rfl, -⟩ | ⟨h, -⟩
    · exact .inr rfl
    · exact .inl (hs.inFlight_of_awaits id p h)
  · intro id id' p p' h h' ht
    rcases hawaits id p h with ⟨rfl, htok⟩ | ⟨h, htok⟩
    · rcases hawaits id' p' h' with ⟨rfl, -⟩ | ⟨-, htok'⟩
      · rfl
      · exact absurd (ht.symm.trans htok) htok'
    · rcases hawaits id' p' h' with ⟨-, htok'⟩ | ⟨h', -⟩
      · exact absurd (ht.trans htok') htok
      · exact hs.single id id' p p' h h' ht
  · intro hshadow
    cases (hlive.trans hmode).symm.trans hshadow

/-- News of a submit takes it out of the awaited ones and out of flight. -/
theorem ClaimInv.heard (hs : s.ClaimInv) (hlive : s'.live = s.live) {index : Nat} {id : SubmitId}
    {op : Inventory.Op}
    (hop : (∃ outcome now, op = .recordBuySubmitOutcome id outcome now) ∨ op = .releaseClaim id)
    (hfound : s.inFlight[index]? = some id)
    (hinv : s'.core.inventory = s.core.inventory.step op)
    (hflight : s'.inFlight = s.inFlight.eraseIdx index) : s'.ClaimInv := by
  have hc : op.isClaim = false := by rcases hop with ⟨outcome, now, rfl⟩ | rfl <;> rfl
  have hawaits : ∀ i p, s'.core.inventory.Awaits i p → s.core.inventory.Awaits i p ∧ i ≠ id := by
    intro i p h
    rw [hinv] at h
    rcases hop with ⟨outcome, now, rfl⟩ | rfl
    · exact h.of_recordBuySubmitOutcome
    · exact h.of_releaseClaim
  refine ⟨?_, ?_, ?_, ?_, ?_⟩
  · rw [hflight]
    exact hs.nodup.eraseIdx index
  · intro i hi
    rw [hflight] at hi
    rw [hinv, Inventory.step_nextSubmitId hc]
    exact hs.issued i (List.mem_of_mem_eraseIdx hi)
  · intro i p h
    obtain ⟨h, hne⟩ := hawaits i p h
    obtain ⟨hlt, rfl⟩ := List.getElem?_eq_some_iff.1 hfound
    rw [hflight, ← hs.nodup.erase_getElem index hlt, hs.nodup.mem_erase_iff]
    exact ⟨hne, hs.inFlight_of_awaits i p h⟩
  · intro i i' p p' h h' ht
    exact hs.single i i' p p' (hawaits i p h).1 (hawaits i' p' h').1 ht
  · intro hshadow
    obtain ⟨hempty, -⟩ := hs.shadow (hlive ▸ hshadow)
    rw [hempty] at hfound
    cases hfound

/-- The counter does not go back. -/
theorem Claims.nextSubmitId_le (h : s.Claims s')
    (hmax : s.core.inventory.nextSubmitId ≤ MAX_SUBMIT_COUNTER) :
    s.core.inventory.nextSubmitId ≤ s'.core.inventory.nextSubmitId := by
  cases h with
  | unclaimed ops hops inventory =>
    rw [inventory, Inventory.run_nextSubmitId hops]
  | claimed token now live entry inventory =>
    rw [inventory]
    exact Inventory.le_nextCounter hmax
  | heard index id op hop found inventory =>
    rw [inventory, Inventory.step_nextSubmitId]
    rcases hop with ⟨outcome, now, rfl⟩ | rfl <;> rfl

/-- A step keeps the claims, as long as the counter has not reached its end. -/
theorem ClaimInv.step (hs : s.ClaimInv) (hlive : s'.live = s.live) (h : s.Claims s')
    (hcount : s'.core.inventory.nextSubmitId < MAX_SUBMIT_COUNTER)
    (hmax : s.core.inventory.nextSubmitId ≤ MAX_SUBMIT_COUNTER) : s'.ClaimInv := by
  have hle := h.nextSubmitId_le hmax
  cases h with
  | unclaimed ops hops inventory inFlight => exact hs.unclaimed hlive hops inventory inFlight
  | claimed token now live entry inventory inFlight =>
    exact hs.claimed hlive live entry inventory inFlight (by omega)
  | heard index id op hop found inventory inFlight =>
    exact hs.heard hlive hop found inventory inFlight

variable [F64 F]

/-- As long as the counter has not reached its end, the claims are as they should be. -/
theorem Reachable.claimInv {config : Config F} (hs : Reachable pl config s)
    (hcount : s.core.inventory.nextSubmitId < MAX_SUBMIT_COUNTER) : s.ClaimInv := by
  obtain ⟨core, ops, hnew, hrun⟩ := hs
  have hinv : (init config core).core.inventory = .new := init_inventory hnew
  have hstart : (init config core).ClaimInv := by
    refine ⟨List.nodup_nil, nofun, ?_, ?_, fun _ => ⟨rfl, ?_⟩⟩ <;> rw [hinv]
    · rintro id p ⟨h, -⟩
      cases h
    · rintro id id' p p' ⟨h, -⟩
      cases h
    · exact fun id => rfl
  refine (Machine.ReachesM.invariant (s := init config core) ⟨ops, hrun⟩
    (I := fun s => s.core.inventory.nextSubmitId ≤ MAX_SUBMIT_COUNTER ∧
      (s.core.inventory.nextSubmitId < MAX_SUBMIT_COUNTER → s.ClaimInv)) ?_
    ⟨by rw [hinv]; exact Nat.zero_le _, fun _ => hstart⟩).2 hcount
  rintro s op s' ⟨hmax, ih⟩ hstep
  obtain ⟨hlive, hclaims⟩ := step_claims hstep
  have hle := hclaims.nextSubmitId_le hmax
  refine ⟨?_, fun hcount' => (ih (hle.trans_lt hcount')).step hlive hclaims hcount' hmax⟩
  cases hclaims with
  | unclaimed ops hops inventory =>
    rw [inventory, Inventory.run_nextSubmitId hops]
    exact hmax
  | claimed token now live entry inventory =>
    rw [inventory]
    exact min_le_right _ _
  | heard index id op hop found inventory =>
    rw [inventory, Inventory.step_nextSubmitId]
    · exact hmax
    · rcases hop with ⟨outcome, now, rfl⟩ | rfl <;> rfl

/-- In shadow mode nothing is claimed. -/
theorem Reachable.shadow {config : Config F} (hs : Reachable pl config s)
    (hshadow : config.allowLiveOrders = false) :
    s.live = false ∧ s.core.inventory.nextSubmitId = 0 := by
  obtain ⟨core, ops, hnew, hrun⟩ := hs
  refine Machine.ReachesM.invariant (s := init config core) ⟨ops, hrun⟩
    (I := fun s => s.live = false ∧ s.core.inventory.nextSubmitId = 0) ?_ ⟨hshadow, ?_⟩
  · rintro s op s' ⟨hlive, hzero⟩ hstep
    obtain ⟨hmode, hclaims⟩ := step_claims hstep
    refine ⟨hmode.trans hlive, ?_⟩
    cases hclaims with
    | unclaimed ops hops inventory => rw [inventory, Inventory.run_nextSubmitId hops, hzero]
    | claimed token now live entry inventory => exact absurd live (by simp [hlive])
    | heard index id op hop found inventory =>
      rw [inventory, Inventory.step_nextSubmitId, hzero]
      rcases hop with ⟨outcome, now, rfl⟩ | rfl <;> rfl
  · rw [init_inventory hnew]
    rfl

/-- As long as the counter has not reached its end: the ids in flight are distinct and were issued;
a submit that nothing has been heard of is in flight, and no other such submit is on its token; and
in shadow mode no submit is pending or in flight. -/
theorem claims_in_flight {config : Config F} (hs : Reachable pl config s)
    (hcount : s.core.inventory.nextSubmitId < MAX_SUBMIT_COUNTER) :
    s.inFlight.Nodup ∧
      (∀ id ∈ s.inFlight, ∃ n, id = submitId n ∧ n ≤ s.core.inventory.nextSubmitId) ∧
      (∀ id p, s.core.inventory.pending.lookup id = some p → p.status = .pending →
        id ∈ s.inFlight) ∧
      (∀ id id' p p', s.core.inventory.pending.lookup id = some p → p.status = .pending →
        s.core.inventory.pending.lookup id' = some p' → p'.status = .pending →
          p.token = p'.token → id = id') ∧
      (s.live = false → s.inFlight = [] ∧ ∀ id, s.core.inventory.pending.lookup id = none) := by
  have hclaims := hs.claimInv hcount
  refine ⟨hclaims.nodup, hclaims.issued, ?_, ?_, hclaims.shadow⟩
  · exact fun id p hp hst => hclaims.inFlight_of_awaits id p ⟨hp, hst⟩
  · exact fun id id' p p' hp hst hp' hst' => hclaims.single id id' p p' ⟨hp, hst⟩ ⟨hp', hst'⟩

end

/-- The submit of the market that is entered once is the only one. -/
theorem claims_in_flight_entered :
    ∃ s : RuntimeSystem Rat, s.inFlight = [submitId 1] ∧
      ∀ id p, s.core.inventory.pending.lookup id = some p → p.status = .pending →
        id = submitId 1 := by
  obtain ⟨s, hs, hflight, hcount⟩ := entered_reachable
  obtain ⟨-, -, hawaits, -⟩ := claims_in_flight hs (by rw [hcount]; decide)
  refine ⟨s, hflight, fun id p hp hst => ?_⟩
  have hmem := hawaits id p hp hst
  rw [hflight] at hmem
  exact List.mem_singleton.1 hmem

end RuntimeSystem

end Polyrust
