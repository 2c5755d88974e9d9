import Polyrust.Program.Refines
import Polyrust.Signing.Preimage

/-!
# What the program posts

The salts of the orders are numbers of the two counters, and the counter of the signals and the one
of the claims count together, so that no claim is posted twice and no two orders that the program
posts have one digest, as long as what is hashed for them is no collision (`posts_once`). The venue
reads every order from the bytes that are posted (`Posted.IsFor`).
-/

namespace Polyrust

section
variable {Key Point : Type} {lib : SigningLib Key Point} {signer : OrderSigner Key}
  {inputs : SignInputs}

/-- An order that is prepared was sized and signed. -/
theorem prepareBuySubmit_ok {b : Build} {intent : BuyIntent} {policy : BuySubmitPolicy}
    {claimId : SubmitId} {prepared : PreparedBuySubmit}
    (h : prepareBuySubmit lib b intent policy signer inputs claimId = .ok (.ok prepared)) :
    ∃ target, canonicalBuyTargetForNotional b (policy.input intent.limit) = .ok (.ok target) ∧
      signer.signFakBuy lib intent.token target inputs = .ok prepared.body := by
  rw [prepareBuySubmit] at h
  obtain ⟨result, hresult, h⟩ := Except.ok_bind_inv h
  split at h
  · cases h
  · next target =>
    split at h
    · cases h
    · next body hbody =>
      cases h
      exact ⟨target, hresult, hbody⟩

/-- A signed plan is a signed SELL. -/
theorem SellPlan.sign_ok {plan : SellPlan} {prepared : PreparedSellSubmit}
    (h : plan.sign lib signer inputs = .ok prepared) :
    signer.signFakSell lib plan.token plan.price plan.size inputs = .ok prepared.body := by
  rw [SellPlan.sign] at h
  split at h
  · cases h
  · next body hbody =>
    cases h
    exact hbody

end

/-- The task that has posted a BUY. -/
def Posted.task? : Posted → Option BuyTask
  | .buy task _ _ => some task
  | .sell .. => none

/-- The body is what the program makes of the intent or of the plan. -/
def Posted.SignedBy {Key Point : Type} (lib : SigningLib Key Point) (b : Build)
    (signer : OrderSigner Key) : Posted → Prop
  | .buy task inputs body => ∃ prepared,
    prepareBuySubmit lib b task.intent task.policy signer inputs task.claimId =
      .ok (.ok prepared) ∧ prepared.body = body
  | .sell plan inputs body => ∃ prepared,
    plan.sign lib signer inputs = .ok prepared ∧ prepared.body = body

/-- What has a task is a BUY. -/
theorem Posted.task?_side {p : Posted} {task : BuyTask} (h : p.task? = some task) :
    p.side = .buy := by
  cases p with
  | buy => rfl
  | sell => cases h

section
variable {Key Point : Type} [AddCommGroup Point] [Module (ZMod secp256k1Order) Point]

/-- The venue reads what is posted as this order of the signer. -/
structure Posted.IsFor (lib : SigningLib Key Point) (curve : Ecdsa.Curve secp256k1Order Point)
    (fromSlice : Signing.JsonReader) (signer : OrderSigner Key) (p : Posted) (order : OrderV2) :
    Prop where
  signs : signer.Signs lib curve fromSlice p.body order
  owns : signer.Owns p.inputs order
  side : order.side = p.side

variable {lib : SigningLib Key Point} {curve : Ecdsa.Curve secp256k1Order Point}
  {fromSlice : Signing.JsonReader}

/-- What the program signs is an order of its signer. -/
theorem Posted.SignedBy.isFor {b : Build} {signer : OrderSigner Key} {p : Posted}
    (h : p.SignedBy lib b signer) (hlib : Auth.RecoverableSigning lib curve)
    (hread : Signing.Readable lib fromSlice) (haddress : signer.HasAddress lib) :
    ∃ order, p.IsFor lib curve fromSlice signer order := by
  cases p with
  | buy task inputs body =>
    obtain ⟨prepared, hprepared, rfl⟩ := h
    obtain ⟨target, -, hsign⟩ := prepareBuySubmit_ok hprepared
    obtain ⟨order, hsigns, howns, -, hside, -⟩ :=
      OrderSigner.signFakBuy_signs hlib hread haddress hsign
    exact ⟨order, hsigns, howns, hside⟩
  | sell plan inputs body =>
    obtain ⟨prepared, hprepared, rfl⟩ := h
    obtain ⟨order, hsigns, howns, -, hside, -⟩ :=
      OrderSigner.signFakSell_signs hlib hread haddress (SellPlan.sign_ok hprepared)
    exact ⟨order, hsigns, howns, hside⟩

end

namespace Program

section
variable {F Key Point : Type} {lib : SigningLib Key Point} {pl : Platform}

/-! ## Salts -/

/-- The counter that the salts of a side come from. -/
def counter (s : Program F Key) : OrderSide → BitVec 64
  | .buy => s.signalId
  | .sell => s.sellId

/-- What is posted, and what the spawned tasks of the SELLs will post. -/
def orders (s : Program F Key) : List Posted := s.sells.map SellTask.order ++ s.posted

/-- The salts were issued, each to one task, and none is in two orders of one side. -/
structure Salted (s : Program F Key) : Prop where
  issued : ∀ task ∈ s.buys, task.salt.toNat < s.signalId.toNat
  nodup : (s.buys.map BuyTask.salt).Nodup
  orders : ∀ p ∈ s.orders, p.inputs.salt.toNat < (s.counter p.side).toNat
  pairwise : s.orders.Pairwise fun p q => p.side = q.side → p.inputs.salt ≠ q.inputs.salt
  claimed : ∀ task ∈ s.buys, task.stage = .claimed → ∀ p ∈ s.orders, p.side = .buy →
    p.inputs.salt ≠ task.salt

/-- A counter that has not reached its end. -/
theorem toNat_add_one {v : BitVec 64} (h : v.toNat + 1 < 2 ^ 64) : (v + 1).toNat = v.toNat + 1 := by
  rw [BitVec.toNat_add]
  exact Nat.mod_eq_of_lt h

section
variable {s s' : Program F Key}

/-- What counts, spawns and signs nothing. -/
theorem Salted.of_perm (hs : s.Salted) (hsignal : s'.signalId = s.signalId)
    (hsell : s'.sellId = s.sellId) (hbuys : s'.buys = s.buys)
    (horders : s'.orders.Perm s.orders) : s'.Salted := by
  have hcounter (side : OrderSide) : s'.counter side = s.counter side := by
    cases side
    · exact hsignal
    · exact hsell
  refine ⟨?_, ?_, ?_, ?_, ?_⟩
  · rw [hbuys, hsignal]
    exact hs.issued
  · rw [hbuys]
    exact hs.nodup
  · intro p hp
    rw [hcounter]
    exact hs.orders p (horders.mem_iff.1 hp)
  · refine (horders.pairwise_iff ?_).2 hs.pairwise
    exact fun hsalts hside => (hsalts hside.symm).symm
  · rw [hbuys]
    exact fun task htask hstage p hp => hs.claimed task htask hstage p (horders.mem_iff.1 hp)

/-- What leaves the tasks of the SELLs and what is posted alone, too. -/
theorem Salted.of_same (hs : s.Salted) (hsignal : s'.signalId = s.signalId)
    (hsell : s'.sellId = s.sellId) (hbuys : s'.buys = s.buys) (hsells : s'.sells = s.sells)
    (hposted : s'.posted = s.posted) : s'.Salted := by
  refine hs.of_perm hsignal hsell hbuys ?_
  rw [Program.orders, Program.orders, hsells, hposted]

/-- The next number of a signal goes to a task, or to none. -/
theorem spawn_buys (s : Program F Key) (intent : BuyIntent) (now : TsUs) :
    (s.spawn intent now).buys = s.buys ∨
      s.signer.isSome = true ∧ (s.spawn intent now).buys = s.buys ++ [s.buyTask intent now] := by
  simp only [Program.spawn]
  split
  · next hlive =>
    rw [Bool.and_eq_true] at hlive
    exact .inr ⟨hlive.2, rfl⟩
  · exact .inl rfl

/-- The salt of a task that is spawned is the next number, which no order has. -/
theorem Salted.spawn (hs : s.Salted) (hsignal : s.signalId.toNat + 1 < 2 ^ 64) (intent : BuyIntent)
    (now : TsUs) : (s.spawn intent now).Salted := by
  have hnext : (s.spawn intent now).signalId.toNat = s.signalId.toNat + 1 := toNat_add_one hsignal
  have hbuy : ∀ p ∈ s.orders, p.side = .buy → p.inputs.salt.toNat < s.signalId.toNat := by
    intro p hp hside
    have hlt := hs.orders p hp
    rwa [hside] at hlt
  have horders : ∀ p ∈ s.orders,
      p.inputs.salt.toNat < ((s.spawn intent now).counter p.side).toNat := by
    intro p hp
    cases hside : p.side with
    | buy =>
      have hlt := hbuy p hp hside
      change p.inputs.salt.toNat < (s.spawn intent now).signalId.toNat
      omega
    | sell =>
      have hlt := hs.orders p hp
      rwa [hside] at hlt
  rcases s.spawn_buys intent now with hbuys | ⟨-, hbuys⟩
  · refine ⟨?_, ?_, horders, hs.pairwise, ?_⟩
    · intro task htask
      rw [hbuys] at htask
      have hlt := hs.issued task htask
      omega
    · rw [hbuys]
      exact hs.nodup
    · rw [hbuys]
      exact hs.claimed
  · refine ⟨?_, ?_, horders, hs.pairwise, ?_⟩
    · intro t ht
      rw [hbuys] at ht
      rcases List.mem_append.1 ht with ht | ht
      · have hlt := hs.issued t ht
        omega
      · rw [List.mem_singleton.1 ht, hnext]
        exact Nat.lt_succ_self _
    · rw [hbuys, List.map_append]
      refine List.nodup_append.2 ⟨hs.nodup, List.nodup_singleton _, ?_⟩
      intro salt hold salt' hnew
      obtain ⟨t, ht, rfl⟩ := List.mem_map.1 hold
      obtain rfl := List.mem_singleton.1 hnew
      intro he
      have hlt := hs.issued t ht
      rw [he] at hlt
      exact lt_irrefl _ hlt
    · intro t ht hstage p hp hside he
      rw [hbuys] at ht
      rcases List.mem_append.1 ht with ht | ht
      · exact hs.claimed t ht hstage p hp hside he
      · rw [List.mem_singleton.1 ht] at he
        have hlt := hbuy p hp hside
        rw [he] at hlt
        exact lt_irrefl _ hlt

/-- A task that leaves the list. -/
theorem Salted.erase (hs : s.Salted) (index : Nat) (tasks : TaskSystem F) :
    Salted { s with tasks := tasks, buys := s.buys.eraseIdx index } := by
  have hsub : (s.buys.eraseIdx index).Sublist s.buys := List.eraseIdx_sublist ..
  refine ⟨?_, ?_, hs.orders, hs.pairwise, ?_⟩
  · exact fun task htask => hs.issued task (hsub.subset htask)
  · exact hs.nodup.sublist (hsub.map _)
  · exact fun task htask => hs.claimed task (hsub.subset htask)

section
variable {index : Nat} {task : BuyTask} {stage : BuyStage}

/-- Once a task is no longer claimed, those that still are have other salts. -/
theorem Salted.others (hs : s.Salted) (htask : s.buys[index]? = some task) (hnot : stage ≠ .claimed)
    {t : BuyTask} (ht : t ∈ s.buys.set index { task with stage := stage })
    (hclaimed : t.stage = .claimed) : t ∈ s.buys ∧ t.salt ≠ task.salt := by
  obtain ⟨j, hj⟩ := List.mem_iff_getElem?.1 ht
  rw [List.getElem?_set] at hj
  split at hj
  · split at hj
    · cases hj
      exact absurd hclaimed hnot
    · cases hj
  · next hne =>
    refine ⟨List.mem_of_getElem? hj, fun he => hne ?_⟩
    have hlt : index < (s.buys.map BuyTask.salt).length := by
      rw [List.length_map]
      exact (List.getElem?_eq_some_iff.1 htask).1
    refine (List.getElem?_inj hlt hs.nodup).1 ?_
    rw [List.getElem?_map, List.getElem?_map, htask, hj, Option.map_some, Option.map_some, he]

/-- A task that aborts. -/
theorem Salted.setStage (hs : s.Salted) (htask : s.buys[index]? = some task)
    (hnot : stage ≠ .claimed) :
    Salted { s with buys := s.buys.set index { task with stage := stage } } := by
  have hmap : (s.buys.set index { task with stage := stage }).map BuyTask.salt =
      s.buys.map BuyTask.salt := map_set_same htask rfl
  refine ⟨?_, ?_, hs.orders, hs.pairwise, ?_⟩
  · intro t ht
    rcases List.mem_or_eq_of_mem_set ht with ht | rfl
    · exact hs.issued t ht
    · exact hs.issued task (List.mem_of_getElem? htask)
  · dsimp only
    rw [hmap]
    exact hs.nodup
  · exact fun t ht hclaimed => hs.claimed t (hs.others htask hnot ht hclaimed).1 hclaimed

/-- An order more is the last one of the orders. -/
theorem orders_posted (s : Program F Key) (buys : List BuyTask) (sellId : BitVec 64)
    (selling : Option SellPlan) (posted : List Posted) :
    orders { s with buys := buys, sellId := sellId, selling := selling
                    posted := s.posted ++ posted } = s.orders ++ posted :=
  (List.append_assoc ..).symm

/-- A task that posts its order. -/
theorem Salted.buy (hs : s.Salted) (htask : s.buys[index]? = some task)
    (hstage : task.stage = .claimed) {p : Posted} (hside : p.side = .buy)
    (hsalt : p.inputs.salt = task.salt) :
    Salted { s with
      buys := s.buys.set index { task with stage := .posted }, posted := s.posted ++ [p] } := by
  have hset := hs.setStage htask (by decide : BuyStage.posted ≠ .claimed)
  have hmem : task ∈ s.buys := List.mem_of_getElem? htask
  have horders := s.orders_posted (s.buys.set index { task with stage := .posted }) s.sellId
    s.selling [p]
  refine ⟨hset.issued, hset.nodup, ?_, ?_, ?_⟩
  · rw [horders]
    intro q hq
    rcases List.mem_append.1 hq with hq | hq
    · exact hs.orders q hq
    · rw [List.mem_singleton.1 hq, hside, hsalt]
      exact hs.issued task hmem
  · rw [horders]
    refine List.pairwise_append.2 ⟨hs.pairwise, List.pairwise_singleton .., ?_⟩
    intro q hq r hr hsame
    rw [List.mem_singleton.1 hr, hside] at hsame
    rw [List.mem_singleton.1 hr, hsalt]
    exact hs.claimed task hmem hstage q hq hsame
  · rw [horders]
    intro t ht hclaimed q hq hbuy
    obtain ⟨htmem, hne⟩ := hs.others htask (by decide) ht hclaimed
    rcases List.mem_append.1 hq with hq | hq
    · exact hs.claimed t htmem hclaimed q hq hbuy
    · rw [List.mem_singleton.1 hq, hsalt]
      exact hne.symm

end

/-- A SELL takes the next number of its counter, whether it is posted or not. -/
theorem Salted.sell (hs : s.Salted) (hsell : s.sellId.toNat + 1 < 2 ^ 64) {posted : List Posted}
    (hone : posted = [] ∨ ∃ p, posted = [p] ∧ p.side = .sell ∧ p.inputs.salt = s.sellId) :
    Salted { s with
      sellId := s.sellId + 1, selling := none, posted := s.posted ++ posted } := by
  have hnext := toNat_add_one hsell
  have hnew : ∀ p ∈ posted, p.side = .sell ∧ p.inputs.salt = s.sellId := by
    intro p hp
    rcases hone with rfl | ⟨q, rfl, hside, hsalt⟩
    · cases hp
    · rw [List.mem_singleton.1 hp]
      exact ⟨hside, hsalt⟩
  have hold : ∀ p ∈ s.orders, p.side = .sell → p.inputs.salt.toNat < s.sellId.toNat := by
    intro p hp hside
    have hlt := hs.orders p hp
    rwa [hside] at hlt
  have horders := s.orders_posted s.buys (s.sellId + 1) none posted
  refine ⟨hs.issued, hs.nodup, ?_, ?_, ?_⟩
  · rw [horders]
    intro p hp
    rcases List.mem_append.1 hp with hp | hp
    · cases hside : p.side with
      | buy =>
        have hlt := hs.orders p hp
        rwa [hside] at hlt
      | sell =>
        have hlt := hold p hp hside
        change _ < (s.sellId + 1).toNat
        omega
    · obtain ⟨hside, hsalt⟩ := hnew p hp
      rw [hside, hsalt]
      change _ < (s.sellId + 1).toNat
      omega
  · rw [horders]
    refine List.pairwise_append.2 ⟨hs.pairwise, ?_, ?_⟩
    · rcases hone with rfl | ⟨p, rfl, -, -⟩
      · exact .nil
      · exact List.pairwise_singleton ..
    · intro p hp q hq hsame he
      obtain ⟨hside, hsalt⟩ := hnew q hq
      have hlt := hold p hp (hsame.trans hside)
      rw [he, hsalt] at hlt
      omega
  · rw [horders]
    intro t ht hclaimed p hp hbuy
    rcases List.mem_append.1 hp with hp | hp
    · exact hs.claimed t ht hclaimed p hp hbuy
    · rw [(hnew p hp).1] at hbuy
      cases hbuy

/-- Posting a SELL leaves the orders, but for their sequence. -/
theorem postSell_orders {index : Nat} {task : SellTask} (htask : s.sells[index]? = some task) :
    (orders { s with
      sells := s.sells.eraseIdx index, posted := s.posted ++ [task.order] }).Perm s.orders := by
  obtain ⟨hlt, htask⟩ := List.getElem?_eq_some_iff.1 htask
  have hsells : (task :: s.sells.eraseIdx index).Perm s.sells := by
    rw [← htask]
    exact List.getElem_cons_eraseIdx_perm hlt
  simp only [Program.orders]
  refine List.Perm.trans ?_ ((hsells.map SellTask.order).append_right s.posted)
  rw [← List.append_assoc]
  exact List.perm_append_singleton ..

variable [F64 F]

/-- Every step keeps the salts apart, as long as the counters have not reached their end. -/
theorem Moves.salted {op : Op F} (h : s.Moves lib pl op s') (hs : s.Salted)
    (hsignal : s.signalId.toNat + 1 < 2 ^ 64) (hsell : s.sellId.toNat + 1 < 2 ^ 64) :
    s'.Salted := by
  cases h with
  | idle | plain | decided | planned | refreshed => exact hs.of_same rfl rfl rfl rfl rfl
  | spawned sample now core intent hpushed h =>
    have hdecided : (s.decided core).Salted := hs.of_same rfl rfl rfl rfl rfl
    exact hdecided.spawn hsignal intent now
  | panicked index task nowMs htask hstage => exact hs.setStage htask nofun
  | settled index task background runtime htask hop h => exact hs.erase index _
  | bought signer index task nowMs prepared hsigner htask hstage h =>
    exact hs.buy htask hstage rfl rfl
  | dropped plan nowMs hselling =>
    have := hs.sell hsell (.inl rfl)
    rwa [List.append_nil] at this
  | signed signer plan nowMs prepared hsigner hselling h =>
    -- to the salts, an order that is signed is as good as posted
    let task : SellTask := ⟨plan, ⟨s.sellId, nowMs⟩, prepared.body⟩
    have hposted := hs.sell hsell (.inr ⟨task.order, rfl, rfl, rfl⟩)
    refine hposted.of_perm rfl rfl rfl ?_
    simp only [Program.orders, List.map_append, List.append_assoc]
    exact List.perm_append_comm.append_left _
  | sold index task htask =>
    refine hs.of_perm rfl rfl rfl ?_
    exact postSell_orders htask

/-! ## Claims -/

/-- The counter of the claims counts with the one of the signals, so that a salt names a claim. -/
structure Numbered (s : Program F Key) : Prop where
  counter : s.signer.isSome = true → s.tasks.core.inventory.nextSubmitId = s.signalId.toNat
  buys : ∀ task ∈ s.buys, task.claimId = submitId (task.salt.toNat + 1)
  posted : ∀ p ∈ s.posted, ∀ task, p.task? = some task →
    task.claimId = submitId (task.salt.toNat + 1) ∧ p.inputs.salt = task.salt

/-- A decision leaves the inventory as it is. -/
theorem decision_inventory {runtime : RuntimeSystem F} {sample : BinanceSample F} {now : TsUs}
    {core : RuntimeCore F} {intent : Option BuyIntent}
    (h : decision pl runtime sample now = .ok (core, intent)) :
    core.inventory = runtime.core.inventory := by
  rw [decision] at h
  split at h
  · cases h
    rfl
  · obtain ⟨⟨signal, -, rfl⟩, -⟩ := RuntimeCore.onBinanceSample_spec h
    rfl

/-- No operation on the core claims, so that the counter of the claims stays where it is. -/
theorem core_nextSubmitId {core core' : RuntimeCore F} {op : RuntimeCore.Op F}
    (h : core.step pl op = .ok core') :
    core'.inventory.nextSubmitId = core.inventory.nextSubmitId := by
  rw [RuntimeCore.step_inventory h, Inventory.run_nextSubmitId]
  exact RuntimeCore.Op.inventoryOps_not_claim

/-- Nor does what the program performs as it is. -/
theorem plain_nextSubmitId {tasks tasks' : TaskSystem F} {op : TaskSystem.Op F}
    (h : tasks.step pl op = .ok tasks') (hop : Plain op) :
    tasks'.core.inventory.nextSubmitId = tasks.core.inventory.nextSubmitId := by
  cases op with
  | decideEntry => exact hop.elim
  | rotate isRotation discovered =>
    cases h
    rw [TaskSystem.rotate]
    split <;> rfl
  | setStrike =>
    cases h
    rw [TaskSystem.setStrike]
    split <;> rfl
  | onAuthenticated =>
    cases h
    rw [TaskSystem.onAuthenticated]
    split <;> rfl
  | onDisconnect =>
    cases h
    rw [TaskSystem.onDisconnect]
    split <;> rfl
  | onEvent raw now =>
    rcases TaskSystem.onEvent_core h with rfl | ⟨core, hcore, rfl | rfl⟩
    · rfl
    · exact core_nextSubmitId hcore
    · change core.inventory.nextSubmitId = _
      exact core_nextSubmitId hcore
  | background op =>
    obtain ⟨runtime, hr, h⟩ := Except.ok_bind_inv h
    cases h
    cases op with
    | planExits _ | resolve _ _ _ _ | abandon _ => exact hop.elim
    | applyMarketRaw _ _ | expireStaleEntryClaims _ | rehash _ =>
      obtain ⟨core, hcore, hr⟩ := Except.ok_bind_inv hr
      cases hr
      exact core_nextSubmitId hcore
  | _ =>
    cases h
    simp [TaskSystem.core]

omit [F64 F] in
/-- A signal that is spawned takes the next number of both counters. -/
theorem Numbered.spawn (hs : s.Numbered) (hwired : s.Wired)
    (hsignal : s.signalId.toNat + 1 < 2 ^ 64) (intent : BuyIntent) (now : TsUs) :
    (s.spawn intent now).Numbered := by
  have hnext : s.signer.isSome = true →
      s.tasks.core.inventory.nextCounter = s.signalId.toNat + 1 := by
    intro hsigner
    rw [Inventory.nextCounter, hs.counter hsigner, MAX_SUBMIT_COUNTER]
    omega
  have hbuys : ∀ task ∈ (s.spawn intent now).buys,
      task.claimId = submitId (task.salt.toNat + 1) := by
    intro task htask
    rcases s.spawn_buys intent now with hbuys | ⟨hsigner, hbuys⟩
    · rw [hbuys] at htask
      exact hs.buys task htask
    · rw [hbuys] at htask
      rcases List.mem_append.1 htask with htask | htask
      · exact hs.buys task htask
      · rw [List.mem_singleton.1 htask]
        exact congrArg submitId (hnext hsigner)
  refine ⟨fun hsigner => ?_, hbuys, hs.posted⟩
  have hlive : s.tasks.runtime.live = true := hwired.live.trans hsigner
  have hcounter : (s.spawn intent now).tasks.core.inventory.nextSubmitId =
      s.tasks.core.inventory.nextCounter := by
    simp only [Program.spawn, TaskSystem.core, RuntimeSystem.submit, hlive, if_true]
    rfl
  rw [hcounter, hnext hsigner]
  exact (toNat_add_one hsignal).symm

/-- Every step keeps the two counters together, as long as they have not reached their end. -/
theorem Moves.numbered {op : Op F} (h : s.Moves lib pl op s') (hs : s.Numbered) (hwired : s.Wired)
    (hsignal : s.signalId.toNat + 1 < 2 ^ 64) : s'.Numbered := by
  cases h with
  | idle => exact hs
  | plain op tasks hop h =>
    refine ⟨fun hsigner => ?_, hs.buys, hs.posted⟩
    exact (plain_nextSubmitId h hop).trans (hs.counter hsigner)
  | decided sample now core hpushed h =>
    refine ⟨fun hsigner => ?_, hs.buys, hs.posted⟩
    change core.inventory.nextSubmitId = _
    rw [decision_inventory h]
    exact hs.counter hsigner
  | spawned sample now core intent hpushed h =>
    have hdecided : (s.decided core).Numbered := by
      refine ⟨fun hsigner => ?_, hs.buys, hs.posted⟩
      change core.inventory.nextSubmitId = _
      rw [decision_inventory h]
      exact hs.counter hsigner
    exact hdecided.spawn ⟨hwired.live, hwired.inFlight⟩ hsignal intent now
  | planned now core exits hsigner h =>
    refine ⟨fun hsigner => ?_, hs.buys, hs.posted⟩
    obtain ⟨trackers, rfl⟩ := (RuntimeCore.planExits_judged h).eq
    exact hs.counter hsigner
  | panicked index task nowMs htask hstage =>
    refine ⟨hs.counter, ?_, hs.posted⟩
    intro t ht
    rcases List.mem_or_eq_of_mem_set ht with ht | rfl
    · exact hs.buys t ht
    · exact hs.buys task (List.mem_of_getElem? htask)
  | settled index task background runtime htask hop h =>
    refine ⟨fun hsigner => ?_, ?_, hs.posted⟩
    · refine Eq.trans ?_ (hs.counter hsigner)
      rcases hop with rfl | ⟨outcome, rtt, now, rfl⟩
      · cases h
        change (s.tasks.runtime.abandon index).core.inventory.nextSubmitId = _
        rw [RuntimeSystem.abandon]
        split <;> rfl
      · rcases RuntimeSystem.resolve_cases h with rfl | ⟨id, ewma, -, rfl⟩
        · rfl
        · have hop : (Inventory.Op.recordBuySubmitOutcome id outcome now).isClaim = false := rfl
          exact Inventory.step_nextSubmitId hop
    · exact fun t ht => hs.buys t ((List.eraseIdx_sublist ..).subset ht)
  | bought signer index task nowMs prepared hsigner htask hstage h =>
    have htaskId := hs.buys task (List.mem_of_getElem? htask)
    refine ⟨hs.counter, ?_, ?_⟩
    · intro t ht
      rcases List.mem_or_eq_of_mem_set ht with ht | rfl
      · exact hs.buys t ht
      · exact htaskId
    · intro p hp t ht
      rcases List.mem_append.1 hp with hp | hp
      · exact hs.posted p hp t ht
      · rw [List.mem_singleton.1 hp] at ht ⊢
        cases ht
        exact ⟨htaskId, rfl⟩
  | refreshed | dropped | signed => exact ⟨hs.counter, hs.buys, hs.posted⟩
  | sold index task htask =>
    refine ⟨hs.counter, hs.buys, ?_⟩
    intro p hp t ht
    rcases List.mem_append.1 hp with hp | hp
    · exact hs.posted p hp t ht
    · rw [List.mem_singleton.1 hp] at ht
      cases ht

/-! ## Orders -/

/-- What is posted, or waits to be, was signed by the signer of the program. -/
def AllSigned (lib : SigningLib Key Point) (b : Build) (s : Program F Key) : Prop :=
  ∀ p ∈ s.orders, ∃ signer, s.signer = some signer ∧ p.SignedBy lib b signer

/-- Every step keeps it so. -/
theorem Moves.allSigned {op : Op F} (h : s.Moves lib pl op s') (hs : s.AllSigned lib pl.build) :
    s'.AllSigned lib pl.build := by
  cases h with
  | bought signer index task nowMs prepared hsigner htask hstage h =>
    intro p hp
    rw [orders_posted, List.mem_append, List.mem_singleton] at hp
    rcases hp with hp | rfl
    · exact hs p hp
    · exact ⟨signer, hsigner, prepared, h, rfl⟩
  | signed signer plan nowMs prepared hsigner hselling h =>
    intro p hp
    simp only [Program.orders, List.map_append, List.map_singleton, List.mem_append,
      List.mem_singleton] at hp
    rcases hp with (hp | rfl) | hp
    · exact hs p (List.mem_append.2 (.inl hp))
    · exact ⟨signer, hsigner, prepared, h, rfl⟩
    · exact hs p (List.mem_append.2 (.inr hp))
  | sold index task htask => exact fun p hp => hs p ((postSell_orders htask).mem_iff.1 hp)
  | idle | plain | decided | spawned | planned | panicked | settled | refreshed | dropped =>
    exact hs

/-- A step counts by one at most. -/
theorem Moves.counters {op : Op F} (h : s.Moves lib pl op s') :
    (s'.signalId = s.signalId ∨ s'.signalId = s.signalId + 1) ∧
      (s'.sellId = s.sellId ∨ s'.sellId = s.sellId + 1) := by
  cases h with
  | spawned => exact ⟨.inr rfl, .inl rfl⟩
  | dropped | signed => exact ⟨.inl rfl, .inr rfl⟩
  | idle | plain | decided | planned | panicked | settled | bought | refreshed | sold =>
    exact ⟨.inl rfl, .inl rfl⟩

/-- What holds after a number of steps that the counters have room for. -/
structure Counted (n : Nat) (s : Program F Key) : Prop where
  signalId : s.signalId.toNat ≤ n
  sellId : s.sellId.toNat ≤ n
  salted : s.Salted
  numbered : s.Numbered

/-- At the start, nothing is counted. -/
theorem Started.counted {setup : Setup F} {core : RuntimeCore F} (h : s.Started lib setup core)
    (hnew : RuntimeCore.new setup.config = .ok core) : s.Counted 0 := by
  have hinv := RuntimeSystem.init_inventory hnew
  have hbuys := h.buys
  have hposted := h.posted
  have horders : s.orders = [] := by
    rw [Program.orders, h.sells, hposted]
    rfl
  refine ⟨?_, ?_, ⟨?_, ?_, ?_, ?_, ?_⟩, ⟨fun _ => ?_, ?_, ?_⟩⟩
  · rw [h.signalId]
    exact le_rfl
  · rw [h.sellId]
    exact le_rfl
  · simp [hbuys]
  · simp [hbuys]
  · simp [horders]
  · simp [horders]
  · simp [hbuys]
  · rw [h.signalId, h.tasks]
    change (RuntimeSystem.init setup.config core).core.inventory.nextSubmitId = _
    rw [hinv]
    rfl
  · simp [hbuys]
  · simp [hposted]

/-- A step counts one further at most. -/
theorem Counted.step {n : Nat} {op : Op F} (hs : s.Counted n) (h : s.Moves lib pl op s')
    (hwired : s.Wired) (hn : n + 1 < MAX_SUBMIT_COUNTER) : s'.Counted (n + 1) := by
  have hsignal := hs.signalId
  have hsell := hs.sellId
  rw [MAX_SUBMIT_COUNTER] at hn
  have hsignalRoom : s.signalId.toNat + 1 < 2 ^ 64 := by omega
  have hsellRoom : s.sellId.toNat + 1 < 2 ^ 64 := by omega
  obtain ⟨hsignal', hsell'⟩ := h.counters
  refine ⟨?_, ?_, h.salted hs.salted hsignalRoom hsellRoom, h.numbered hs.numbered hwired
    hsignalRoom⟩
  · rcases hsignal' with he | he
    · rw [he]
      omega
    · rw [he, toNat_add_one hsignalRoom]
      omega
  · rcases hsell' with he | he
    · rw [he]
      omega
    · rw [he, toNat_add_one hsellRoom]
      omega

/-- What holds of a wired program, as long as the counters have room. -/
def CountedIn (room n : Nat) (s : Program F Key) : Prop :=
  s.Wired ∧ (n < room → s.Counted n)

/-- A step counts one further at most, while the counters have room. -/
theorem CountedIn.step {room n : Nat} {op : Op F} (hroom : room ≤ MAX_SUBMIT_COUNTER)
    (h : s.CountedIn room n) (hstep : s.step lib pl op = .ok s') : s'.CountedIn room (n + 1) := by
  obtain ⟨hwired, hs⟩ := h
  have hmoves := step_moves hstep
  refine ⟨hmoves.wired hwired, fun hn => ?_⟩
  exact (hs (Nat.lt_of_succ_lt hn)).step hmoves hwired (Nat.lt_of_lt_of_le hn hroom)

/-- As many steps as the counters have room for. -/
theorem Runs.counted {setup : Setup F} {ops : List (Op F)} (h : Runs lib pl setup ops s)
    (hlen : ops.length < MAX_SUBMIT_COUNTER) : s.Counted ops.length := by
  obtain ⟨core, s₀, hnew, hstart, hrun⟩ := h
  have hstarted := start_ok hstart
  have hbegin : s₀.CountedIn MAX_SUBMIT_COUNTER 0 :=
    ⟨hstarted.wired, fun _ => hstarted.counted hnew⟩
  have hend : s.CountedIn MAX_SUBMIT_COUNTER (0 + ops.length) :=
    Machine.runM_counted (I := CountedIn MAX_SUBMIT_COUNTER)
      (fun _ _ _ _ h hstep => h.step le_rfl hstep) hbegin hrun
  rw [Nat.zero_add] at hend
  exact hend.2 hlen

/-- What is posted was signed by the signer of the program. -/
theorem Runs.allSigned {setup : Setup F} {ops : List (Op F)} (h : Runs lib pl setup ops s) :
    s.AllSigned lib pl.build := by
  obtain ⟨core, s₀, hnew, hstart, hrun⟩ := h
  have hbegin : s₀.AllSigned lib pl.build := by
    intro p hp
    rw [Program.orders, (start_ok hstart).sells, (start_ok hstart).posted] at hp
    cases hp
  exact Machine.ReachesM.invariant (I := AllSigned lib pl.build) ⟨ops, hrun⟩
    (fun _ _ _ hs hstep => (step_moves hstep).allSigned hs) hbegin

/-! ## Digests -/

/-- A posted order is signed by the signer of the program, whose address is the one of its key. -/
theorem Runs.owner {setup : Setup F} {ops : List (Op F)} (h : Runs lib pl setup ops s)
    {p : Posted} (hp : p ∈ s.posted) :
    ∃ signer, s.signer = some signer ∧ p.SignedBy lib pl.build signer ∧
      signer.HasAddress lib := by
  obtain ⟨signer, hsigner, hsigned⟩ := h.allSigned p (List.mem_append.2 (.inr hp))
  have hnew := h.signer.2 signer hsigner
  exact ⟨signer, hsigner, hsigned, (OrderSigner.new_ok hnew).1⟩

omit [F64 F] in
/-- The orders that are posted have a salt each. -/
theorem Counted.posted_pairwise {n : Nat} (hs : s.Counted n) :
    s.posted.Pairwise fun p q => p.side = q.side → p.inputs.salt ≠ q.inputs.salt :=
  (List.pairwise_append.1 hs.salted.pairwise).2.1

omit [F64 F] in
/-- A claim is posted once. -/
theorem Counted.claims_nodup {n : Nat} (hs : s.Counted n) :
    ((s.posted.filterMap Posted.task?).map BuyTask.claimId).Nodup := by
  refine List.pairwise_map.2 (List.pairwise_filterMap.2 ?_)
  refine hs.posted_pairwise.imp_of_mem ?_
  intro p q hp hq hsalts task htask task' htask' he
  obtain ⟨hid, hsalt⟩ := hs.numbered.posted p hp task htask
  obtain ⟨hid', hsalt'⟩ := hs.numbered.posted q hq task' htask'
  have hside : p.side = q.side := (Posted.task?_side htask).trans (Posted.task?_side htask').symm
  refine hsalts hside (BitVec.eq_of_toNat_eq ?_)
  rw [hid, hid', Inventory.submitId_inj] at he
  rw [hsalt, hsalt']
  omega

section
variable [AddCommGroup Point] [Module (ZMod secp256k1Order) Point]
  {curve : Ecdsa.Curve secp256k1Order Point} {fromSlice : Signing.JsonReader}

omit [F64 F] in
/-- Orders that are posted one after the other are different ones. -/
theorem Counted.orders_ne {n : Nat} (hs : s.Counted n) (signer : OrderSigner Key) :
    s.posted.Pairwise fun p q => ∀ order order', p.IsFor lib curve fromSlice signer order →
      q.IsFor lib curve fromSlice signer order' → order ≠ order' := by
  refine hs.posted_pairwise.imp ?_
  rintro p q hsalts order order' hp hq rfl
  exact hsalts (hp.side.symm.trans hq.side) (hp.owns.salt.symm.trans hq.owns.salt)

/-- In every run that is shorter than the counters, everything that is posted is an order that the
venue reads, of the side it was posted for, with the salt and the time it was signed with and a
signature that recovers to the address of the signer. No two of these orders are the same, no two
have one digest, unless what is hashed for them is a collision, and no claim is posted twice. -/
theorem posts_once (hlib : Auth.RecoverableSigning lib curve)
    (hread : Signing.Readable lib fromSlice) {setup : Setup F} {ops : List (Op F)}
    (h : Runs lib pl setup ops s) (hlen : ops.length < MAX_SUBMIT_COUNTER) :
    (∀ p ∈ s.posted, ∃ signer order, s.signer = some signer ∧
      p.IsFor lib curve fromSlice signer order) ∧
    (∀ signer, s.posted.Pairwise fun p q => ∀ order order',
      p.IsFor lib curve fromSlice signer order →
      q.IsFor lib curve fromSlice signer order' → order ≠ order' ∧
        (signer.digest lib order = signer.digest lib order' →
          Signing.DigestsCollide lib signer.domainSeparator order order')) ∧
    ((s.posted.filterMap Posted.task?).map BuyTask.claimId).Nodup := by
  have hcounted := h.counted hlen
  refine ⟨?_, ?_, hcounted.claims_nodup⟩
  · intro p hp
    obtain ⟨signer, hsigner, hsigned, haddress⟩ := h.owner hp
    obtain ⟨order, horder⟩ := hsigned.isFor hlib hread haddress
    exact ⟨signer, order, hsigner, horder⟩
  · intro signer
    have horders : s.posted.Pairwise fun p q => ∀ order order',
        p.IsFor lib curve fromSlice signer order →
        q.IsFor lib curve fromSlice signer order' → order ≠ order' := hcounted.orders_ne signer
    refine horders.imp ?_
    intro p q hne order order' hp hq
    have hdiffer := hne order order' hp hq
    refine ⟨hdiffer, fun hdigest => ?_⟩
    exact (Signing.orderDigest_inj hdigest).resolve_left hdiffer

end

end

end

/-- The five shares are posted as an order that the venue reads. -/
theorem posts_once_sell :
    ∃ (s : Program Rat Unit) (p : Posted) (signer : OrderSigner Unit) (order : OrderV2),
      Runs Signing.keyOneSell.lib (.reading [numberedBook, numberedTrade]) keyOneSetup sellOps s ∧
        p ∈ s.posted ∧ s.signer = some signer ∧
        p.IsFor Signing.keyOneSell.lib Signing.keyOneSellCurve Signing.keyOneSell.fromSlice signer
          order := by
  obtain ⟨s, hrun, hposted⟩ := sellOps_run
  obtain ⟨hfor, -, -⟩ :=
    posts_once Signing.keyOneSell_signs Signing.keyOneSell.lib_reads hrun (by decide)
  obtain ⟨p, hp, -⟩ := List.exists_of_mem_map (hposted ▸ List.mem_singleton_self _)
  obtain ⟨signer, order, hsigner, horder⟩ := hfor p hp
  exact ⟨s, p, signer, order, hrun, hp, hsigner, horder⟩

end Program

end Polyrust
