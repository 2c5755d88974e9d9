import Polyrust.Inventory.Lifecycle
import Polyrust.Runtime.Latency

/-!
# The inventory inside the runtime

Whatever a task does to the core or to the system around it, it does to the inventory by operations
of the inventory: every step of the runtime is a run of the inventory machine
(`step_inventory`). So what holds of every run of the inventory holds of the inventory of every
reachable runtime.
-/

namespace Polyrust

open IntWidth

/-- `inv'` is reached from `inv` by operations of the inventory. -/
abbrev Inventory.Performs (inv inv' : Inventory) : Prop := Machine.Reaches Inventory.step inv inv'

/-- One operation is performed. -/
theorem Inventory.Performs.one (inv : Inventory) (op : Inventory.Op) : inv.Performs (inv.step op) :=
  Machine.Reaches.one inv op

namespace RuntimeCore

section
variable {F : Type} {pl : Platform} {core core' : RuntimeCore F}

/-- The trades of a user frame are trade events of the inventory. -/
theorem tradeSteps_performs (core : RuntimeCore F) (trades : List UserTrade) :
    core.inventory.Performs (Machine.run tradeStep core trades).inventory := by
  refine Machine.run_invariant (I := fun c => core.inventory.Performs c.inventory) ?_
    (.refl core.inventory) (Machine.along_true core trades)
  intro c trade ih _
  rw [tradeStep_inventory]
  exact ih.trans (Inventory.Performs.one c.inventory (.applyUserTrade trade))

variable [F64 F]

/-- An operation on the core is a run of the inventory. -/
theorem step_performs {op : Op F} (h : core.step pl op = .ok core') :
    core.inventory.Performs core'.inventory := by
  cases op with
  | applyMarketRaw raw tsUs =>
    obtain ⟨⟨c, r⟩, hc, h⟩ := Except.ok_bind_inv h
    cases h
    obtain ⟨state, rfl⟩ := applyMarketRaw_eq hc
    exact .refl _
  | applyUserRawWithStates raw tsUs =>
    obtain ⟨⟨c, r⟩, hc, h⟩ := Except.ok_bind_inv h
    cases h
    rw [applyUserRawWithStates_run hc]
    exact tradeSteps_performs core _
  | planExits now =>
    obtain ⟨⟨c, r⟩, hc, h⟩ := Except.ok_bind_inv h
    cases h
    obtain ⟨trackers, rfl⟩ := (planExits_judged hc).eq
    exact .refl _
  | releaseMarketScope active =>
    cases h
    exact .one _ (.releaseMarketScope active)
  | setUserWssTrusted trusted =>
    cases h
    exact .one _ (.setUserWssTrusted trusted)
  | expireStaleEntryClaims now =>
    cases h
    exact .one _ (.expireStaleEntryClaims now)
  | rehash pending =>
    cases h
    exact .one _ (.rehash pending)
  | setMarket _ | markMarketInactive | setStrike _ _ =>
    cases h
    exact .refl _

end

end RuntimeCore

namespace RuntimeSystem

section
variable {F : Type} {pl : Platform} {s s' : RuntimeSystem F}

/-- A submit performs its claim. -/
theorem submit_performs (s : RuntimeSystem F) (intent : BuyIntent) (now : TsUs) :
    s.core.inventory.Performs (s.submit intent now).core.inventory := by
  rw [submit]
  split
  · exact .one _ (.claimEntry intent.token .buy ⟨1⟩ now.micros)
  · exact .refl _

/-- An outcome performs its record. -/
theorem resolve_performs {b : Build} {index : Nat} {outcome : SubmitOutcome} {rtt : Rtt}
    {now : Int} (h : s.resolve b index outcome rtt now = .ok s') :
    s.core.inventory.Performs s'.core.inventory := by
  rcases resolve_cases h with rfl | ⟨id, ewma, -, rfl⟩
  · exact .refl _
  · exact .one _ (.recordBuySubmitOutcome id outcome now)

/-- A claim that is given up is released. -/
theorem abandon_performs (s : RuntimeSystem F) (index : Nat) :
    s.core.inventory.Performs (s.abandon index).core.inventory := by
  rw [abandon]
  split
  · exact .refl _
  · next id _ => exact .one _ (.releaseClaim id)

variable [F64 F]

/-- A sample performs a claim, or nothing. -/
theorem binanceSample_performs {b : Build} {sample : BinanceSample F} {now : TsUs}
    (h : s.binanceSample b sample now = .ok s') :
    s.core.inventory.Performs s'.core.inventory := by
  obtain ⟨signal, -, rfl | ⟨intent, -, -, -, rfl⟩⟩ := binanceSample_cases h
  · exact .refl _
  · exact submit_performs _ intent now

/-- A step of the system is a run of the inventory. -/
theorem step_performs {op : Op F} (h : s.step pl op = .ok s') :
    s.core.inventory.Performs s'.core.inventory := by
  cases op with
  | core op =>
    obtain ⟨core, hcore, h⟩ := Except.ok_bind_inv h
    cases h
    exact RuntimeCore.step_performs hcore
  | binanceSample sample now => exact binanceSample_performs h
  | resolve index outcome rtt now => exact resolve_performs h
  | abandon index =>
    cases h
    exact abandon_performs s index

/-- The inventory of a reachable runtime is a reachable inventory. -/
theorem Reachable.inventory {config : Config F} (h : Reachable pl config s) :
    ∃ ops, s.core.inventory = Inventory.runOps ops := by
  obtain ⟨core, ops, hnew, hrun⟩ := h
  have hstart : Inventory.new.Performs (init config core).core.inventory := by
    obtain ⟨signalConfig, -, hnew⟩ := Except.ok_bind_inv hnew
    cases hnew
    exact .refl _
  exact Machine.runM_invariant (I := fun s => Inventory.new.Performs s.core.inventory)
    (fun _ _ _ ih _ hstep => ih.trans (step_performs hstep)) hstart
    (Machine.alongM_true (init config core) ops) hrun

end

end RuntimeSystem

end Polyrust
