import Polyrust.Runtime.Machine

/-!
# The runtime with its BUY submits

The core and the BUY submits in flight, as the tasks around the core wire them (`main.rs`). A sample
of the exchange that passes every gate claims the entry and starts a submit, both under one lock; a
submit ends when its HTTP outcome is recorded, with the round trip it took, or when its order could
not be prepared. Nothing else starts a submit, and nothing else records a round trip.
-/

namespace Polyrust

open IntWidth

/-- A round trip as it is measured. -/
structure Rtt where
  us : Int
  pos : 0 < us
  le_hi : us ≤ i64.hi

/-- The shortest round trip. -/
def Rtt.one : Rtt := ⟨1, by decide, by decide⟩

/-- The core and the submits in flight; `live` says whether intents are submitted at all. -/
structure RuntimeSystem (F : Type) where
  live : Bool
  core : RuntimeCore F
  inFlight : List SubmitId

namespace RuntimeSystem

/-- The steps of the system. A submit in flight is named by its position. -/
inductive Op (F : Type) where
  | core (op : RuntimeCore.Op F)
  | binanceSample (sample : BinanceSample F) (now : TsUs)
  | resolve (index : Nat) (outcome : SubmitOutcome) (rtt : Rtt) (nowTsUs : Int)
  | abandon (index : Nat)

section
variable {F : Type}

/-- The system before the first step. -/
def init (config : Config F) (core : RuntimeCore F) : RuntimeSystem F :=
  { live := config.allowLiveOrders, core := core, inFlight := [] }

/-- An intent becomes a claim and a submit in flight; in shadow mode it is only logged. -/
def submit (s : RuntimeSystem F) (intent : BuyIntent) (now : TsUs) : RuntimeSystem F :=
  if s.live then
    let (inventory, id) := s.core.inventory.claimEntry intent.token .buy ⟨1⟩ now.micros
    { s with core := { s.core with inventory := inventory }, inFlight := s.inFlight ++ [id] }
  else s

/-- The outcome of a submit reaches the inventory, and its round trip the average. -/
def resolve (b : Build) (s : RuntimeSystem F) (index : Nat) (outcome : SubmitOutcome) (rtt : Rtt)
    (nowTsUs : Int) : Exec (RuntimeSystem F) := do
  match s.inFlight[index]? with
  | none => return s
  | some id =>
    let inventory := recordBuySubmitOutcome s.core.inventory id outcome nowTsUs
    let core ← { s.core with inventory := inventory }.recordRtt b rtt.us
    return { s with core := core, inFlight := s.inFlight.eraseIdx index }

/-- A submit that resolves leaves the list, with an outcome for the inventory. -/
theorem resolve_cases {b : Build} {s s' : RuntimeSystem F} {index : Nat} {outcome : SubmitOutcome}
    {rtt : Rtt} {now : Int} (h : s.resolve b index outcome rtt now = .ok s') :
    s' = s ∨ ∃ id ewma, s.inFlight[index]? = some id ∧
      s' = { s with
        core := { s.core with
          inventory := recordBuySubmitOutcome s.core.inventory id outcome now, rttEwmaUs := ewma }
        inFlight := s.inFlight.eraseIdx index } := by
  rw [resolve] at h
  cases hid : s.inFlight[index]? with
  | none =>
    rw [hid] at h
    cases h
    exact .inl rfl
  | some id =>
    rw [hid] at h
    obtain ⟨core, hcore, h⟩ := Except.ok_bind_inv h
    cases h
    obtain ⟨ewma, rfl⟩ := RuntimeCore.recordRtt_average hcore
    exact .inr ⟨id, ewma, rfl, rfl⟩

/-- The order of a submit could not be prepared: its claim is released. -/
def abandon (s : RuntimeSystem F) (index : Nat) : RuntimeSystem F :=
  match s.inFlight[index]? with
  | none => s
  | some id =>
    { s with
      core := { s.core with inventory := s.core.inventory.releaseClaim id }
      inFlight := s.inFlight.eraseIdx index }

variable [F64 F]

/-- A sample of the exchange: the decision, and the submit it may start. -/
def binanceSample (b : Build) (s : RuntimeSystem F) (sample : BinanceSample F) (now : TsUs) :
    Exec (RuntimeSystem F) := do
  match s.core.state.market with
  | none => return { s with core := { s.core with signal := (s.core.signal.push sample).1 } }
  | some market =>
    let tteUs := i64.saturatingSub (i64.saturatingMul market.endTs 1000000) now.micros
    let (core, intent) ← s.core.onBinanceSample b sample now tteUs
    match intent with
    | none => return { s with core := core }
    | some intent => return { s with core := core }.submit intent now

/-- A sample moves the signal engine, and an intent that has passed the gates is submitted. -/
theorem binanceSample_cases {b : Build} {s s' : RuntimeSystem F} {sample : BinanceSample F}
    {now : TsUs} (h : s.binanceSample b sample now = .ok s') :
    ∃ signal, s.core.signal.SameSetup signal ∧
      (s' = { s with core := { s.core with signal := signal } } ∨
        ∃ intent, s.core.state.market.isSome ∧ s.core.inventory.userWssTrusted = true ∧
          { s.core with signal := signal }.entryGateBlock b intent now = .ok none ∧
          s' = { s with core := { s.core with signal := signal } }.submit intent now) := by
  rw [binanceSample] at h
  cases hm : s.core.state.market with
  | none =>
    rw [hm] at h
    cases h
    exact ⟨_, s.core.signal.pushReceived_sameSetup sample sample.tsUs, .inl rfl⟩
  | some market =>
    rw [hm] at h
    obtain ⟨⟨core, intent⟩, hcore, h⟩ := Except.ok_bind_inv h
    obtain ⟨⟨signal, hsame, rfl⟩, hspec⟩ := RuntimeCore.onBinanceSample_spec hcore
    refine ⟨signal, hsame, ?_⟩
    cases intent with
    | none =>
      cases h
      exact .inl rfl
    | some intent =>
      cases h
      obtain ⟨htrusted, hgate⟩ := hspec intent rfl
      exact .inr ⟨intent, rfl, htrusted, hgate, rfl⟩

/-- The system after a step. -/
def step (pl : Platform) (s : RuntimeSystem F) : Op F → Exec (RuntimeSystem F)
  | .core op => return { s with core := ← s.core.step pl op }
  | .binanceSample sample now => s.binanceSample pl.build sample now
  | .resolve index outcome rtt now => s.resolve pl.build index outcome rtt now
  | .abandon index => return s.abandon index

/-- The states of the system under a configuration. -/
def Reachable (pl : Platform) (config : Config F) (s : RuntimeSystem F) : Prop :=
  ∃ core ops, RuntimeCore.new config = .ok core ∧
    Machine.runM (step pl) (init config core) ops = .ok s

/-- What a computed run from the first state ends in is reachable. -/
theorem exists_reachable {pl : Platform} {config : Config F} {ops : List (Op F)}
    {p : RuntimeSystem F → Prop}
    (h : (RuntimeCore.new config).Succeeds fun core =>
      (Machine.runM (step pl) (init config core) ops).Succeeds p) :
    ∃ s, Reachable pl config s ∧ p s := by
  obtain ⟨core, hnew, hrun⟩ := h.exists
  obtain ⟨s, hrun, hp⟩ := hrun.exists
  exact ⟨s, ⟨core, ops, hnew, hrun⟩, hp⟩

end

end RuntimeSystem

end Polyrust
