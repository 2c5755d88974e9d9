import Polyrust.Runtime.System

/-!
# The latency gate

Entry stops while the average round trip is above the ceiling, and the average moves only when a
submit in flight resolves. Since no submit starts while the gate is closed, each submit still in
flight is one chance to bring the average down, and the shortest round trip brings it down the most:
from an average of at most `reopenBound ceiling n`, and from no higher one, `n` submits can bring it
to the ceiling. So the gate opens again exactly while the average is within the bound for the
submits in flight (`rtt_gate_opens_iff`); with none in flight that is the ceiling itself.
-/

namespace Polyrust

open IntWidth

/-! ## The average -/

/-- The average that an average and a round trip make. -/
def nextEwma (ewma rttUs : Int) : Int :=
  if ewma = 0 then rttUs else ewma + (rttUs - ewma) >>> RTT_EWMA_SHIFT

/-- The highest average that `n` round trips can bring down to the ceiling. -/
def reopenBound (ceilingUs : Int) : Nat → Int
  | 0 => ceilingUs
  | n + 1 => (8 * reopenBound ceilingUs n + 6) / 7

section
variable {ewma rttUs ceilingUs bound : Int}

/-- The average after the first round trip. -/
theorem nextEwma_of_ne (h : ewma ≠ 0) : nextEwma ewma rttUs = (7 * ewma + rttUs) / 8 := by
  rw [nextEwma, if_neg h, RTT_EWMA_SHIFT, Int.shiftRight_eq_div_pow]
  omega

/-- The average stays between zero and the largest round trip. -/
theorem nextEwma_range {hi : Int} (h0 : 0 ≤ ewma) (h1 : ewma ≤ hi) (hr : 0 < rttUs)
    (hr' : rttUs ≤ hi) : 0 ≤ nextEwma ewma rttUs ∧ nextEwma ewma rttUs ≤ hi := by
  rcases eq_or_ne ewma 0 with he | hne
  · rw [nextEwma, if_pos he]
    exact ⟨hr.le, hr'⟩
  · rw [nextEwma_of_ne hne]
    omega

/-- A round trip brings an average above the next bound to no less than above the bound. -/
theorem lt_nextEwma (h0 : 0 < ewma) (h : (8 * bound + 6) / 7 < ewma) (hr : 0 < rttUs) :
    bound < nextEwma ewma rttUs := by
  rw [nextEwma_of_ne h0.ne']
  omega

/-- A round trip of a microsecond brings an average within the next bound to within the bound. -/
theorem nextEwma_one_le (h0 : 0 < ewma) (h : ewma ≤ (8 * bound + 6) / 7) :
    nextEwma ewma 1 ≤ bound := by
  rw [nextEwma_of_ne h0.ne']
  omega

/-- The ceiling is within the bound. -/
theorem le_reopenBound (h : 0 ≤ ceilingUs) (n : Nat) : ceilingUs ≤ reopenBound ceilingUs n := by
  induction n with
  | zero => exact le_rfl
  | succ n ih =>
    rw [reopenBound]
    omega

/-- A further submit can bring down more. -/
theorem reopenBound_le_succ (h : 0 ≤ ceilingUs) (n : Nat) :
    reopenBound ceilingUs n ≤ reopenBound ceilingUs (n + 1) := by
  have := le_reopenBound h n
  rw [reopenBound]
  omega

end

namespace RuntimeCore

section
variable {F : Type} {b : Build} {core core' : RuntimeCore F} {intent : BuyIntent} {now : TsUs}

/-- The average is above the ceiling. -/
def RttHigh (core : RuntimeCore F) : Prop :=
  0 < core.entryGates.rttCeilingUs ∧ 0 < core.rttEwmaUs ∧
    core.entryGates.rttCeilingUs < core.rttEwmaUs

/-- What `recordRtt` does to an average in range. -/
theorem recordRtt_eq (rtt : Rtt) (h0 : 0 ≤ core.rttEwmaUs) (h1 : core.rttEwmaUs ≤ i64.hi) :
    core.recordRtt b rtt.us =
      .ok { core with rttEwmaUs := nextEwma core.rttEwmaUs rtt.us } := by
  have hpos := rtt.pos
  have hle := rtt.le_hi
  rw [recordRtt, if_neg (by omega)]
  rcases eq_or_ne core.rttEwmaUs 0 with he | hne
  · rw [if_pos he, nextEwma, if_pos he]
    rfl
  · obtain ⟨hlo, hhi⟩ := nextEwma_range h0 h1 hpos hle
    have hdiff : i64.Fits (rtt.us - core.rttEwmaUs) := by
      simp only [Fits, i64_lo, i64_hi] at *
      omega
    have hnext : i64.Fits (nextEwma core.rttEwmaUs rtt.us) :=
      ⟨le_trans (by decide) hlo, hhi⟩
    rw [nextEwma, if_neg hne] at hnext
    rw [if_neg hne, Build.arith_of_fits hdiff, nextEwma, if_neg hne]
    exact congrArg (fun x => Except.ok { core with rttEwmaUs := x }) (saturate_of_fits hnext)

/-- The drift buffer has its own reason to block. -/
theorem driftBufferBlock_ne {past : QuoteHistorySample} {driftTicks : Int} :
    core.driftBufferBlock b intent now past driftTicks ≠ .ok (some "rtt_ewma_high") := by
  rw [driftBufferBlock]
  split_ifs
  · nofun
  refine Except.bind_ne_ok fun dtUs => ?_
  split_ifs
  · nofun
  refine Except.bind_ne_ok fun driftAbs => ?_
  dsimp only
  split_ifs
  · nofun
  refine Except.bind_ne_ok fun sum => Except.bind_ne_ok fun rounded => ?_
  split_ifs <;> nofun

/-- The gate names the latency exactly when the average is above the ceiling. -/
theorem entryGateBlock_rtt_iff :
    core.entryGateBlock b intent now = .ok (some "rtt_ewma_high") ↔ core.RttHigh := by
  by_cases hc : core.RttHigh
  · refine iff_of_true ?_ hc
    rw [RttHigh] at hc
    rw [entryGateBlock, if_pos hc]
    rfl
  · refine iff_of_false ?_ hc
    rw [RttHigh] at hc
    rw [entryGateBlock, if_neg hc]
    rcases le_or_gt core.entryGates.polyDriftWindowUs 0 with hw | hw
    · rw [if_pos hw]
      nofun
    rw [if_neg hw.not_ge]
    refine Except.bind_ne_ok fun cutoffUs => ?_
    cases core.state.quoteHistoryOldestSince intent.token cutoffUs with
    | none => nofun
    | some past =>
      dsimp only
      cases past.askTicks with
      | none => nofun
      | some pastAskTicks =>
        dsimp only
        cases (core.state.quoteForToken intent.token).bind (·.ask) with
        | none => nofun
        | some currentAsk =>
          refine Except.bind_ne_ok fun driftTicks => ?_
          split_ifs
          · nofun
          · refine Except.bind_ne_ok fun down => ?_
            split_ifs
            · nofun
            · exact driftBufferBlock_ne
          · exact driftBufferBlock_ne

end

end RuntimeCore

namespace RuntimeSystem

section
variable {F : Type} {s s' : RuntimeSystem F}

/-! ## Steps -/

/-- What a step does to the submits in flight and to the average. -/
inductive Effect (s s' : RuntimeSystem F) : Prop where
  | keep (inFlight : s'.inFlight = s.inFlight) (ewma : s'.core.rttEwmaUs = s.core.rttEwmaUs)
  | submit (gate : ¬s.core.RttHigh) (id : SubmitId) (inFlight : s'.inFlight = s.inFlight ++ [id])
      (ewma : s'.core.rttEwmaUs = s.core.rttEwmaUs)
  | abandon (inFlight : s'.inFlight.length + 1 = s.inFlight.length)
      (ewma : s'.core.rttEwmaUs = s.core.rttEwmaUs)
  | resolve (inFlight : s'.inFlight.length + 1 = s.inFlight.length) (rtt : Rtt)
      (ewma : s'.core.rttEwmaUs = nextEwma s.core.rttEwmaUs rtt.us)

/-- The gates are those of the configuration, and the average is in range. -/
structure GateInv (config : Config F) (s : RuntimeSystem F) : Prop where
  ceiling : s.core.entryGates.rttCeilingUs = config.rttCeilingUs
  nonneg : 0 ≤ s.core.rttEwmaUs
  le_hi : s.core.rttEwmaUs ≤ i64.hi

/-- The average is above what the submits in flight can bring down. -/
def Locked (config : Config F) (s : RuntimeSystem F) : Prop :=
  reopenBound config.rttCeilingUs s.inFlight.length < s.core.rttEwmaUs

variable {config : Config F} {b : Build}

/-- A submit taken out of those in flight. -/
theorem length_eraseIdx_of_getElem? {ids : List SubmitId} {index : Nat} {id : SubmitId}
    (h : ids[index]? = some id) : (ids.eraseIdx index).length + 1 = ids.length := by
  obtain ⟨hlt, -⟩ := List.getElem?_eq_some_iff.1 h
  rw [List.length_eraseIdx_of_lt hlt]
  omega

/-- A submit that resolves. -/
theorem resolve_eq (hinv : GateInv config s) {index : Nat} {id : SubmitId}
    (hid : s.inFlight[index]? = some id) (outcome : SubmitOutcome) (rtt : Rtt) (now : Int) :
    s.resolve b index outcome rtt now =
      .ok { s with
        core := { s.core with
          inventory := recordBuySubmitOutcome s.core.inventory id outcome now
          rttEwmaUs := nextEwma s.core.rttEwmaUs rtt.us }
        inFlight := s.inFlight.eraseIdx index } := by
  rw [resolve, hid]
  dsimp only
  rw [RuntimeCore.recordRtt_eq]
  · rfl
  · exact hinv.nonneg
  · exact hinv.le_hi

/-- In a locked state the gate is closed. -/
theorem Locked.rttHigh (hceil : 0 < config.rttCeilingUs) (hinv : GateInv config s)
    (h : Locked config s) : s.core.RttHigh := by
  have hle := le_reopenBound hceil.le s.inFlight.length
  rw [Locked] at h
  rw [RuntimeCore.RttHigh, hinv.ceiling]
  omega

variable [F64 F] {pl : Platform} {op : Op F}

/-- The steps of the system, by what they do to the gates. -/
theorem step_effect (hinv : GateInv config s) (h : s.step pl op = .ok s') :
    s'.core.entryGates = s.core.entryGates ∧ Effect s s' := by
  cases op with
  | core op =>
    obtain ⟨core, hcore, h⟩ := Except.ok_bind_inv h
    cases h
    obtain ⟨hgates, hewma⟩ := RuntimeCore.step_gates hcore
    exact ⟨hgates, .keep rfl hewma⟩
  | binanceSample sample now =>
    obtain ⟨signal, -, rfl | ⟨intent, -, -, hgate, rfl⟩⟩ := binanceSample_cases h
    · exact ⟨rfl, .keep rfl rfl⟩
    · rw [submit]
      split_ifs
      · refine ⟨rfl, .submit (fun hhigh => ?_) _ rfl rfl⟩
        cases (RuntimeCore.entryGateBlock_rtt_iff.2 hhigh).symm.trans hgate
      · exact ⟨rfl, .keep rfl rfl⟩
  | resolve index outcome rtt now =>
    cases hid : s.inFlight[index]? with
    | none =>
      rw [step, resolve, hid] at h
      cases h
      exact ⟨rfl, .keep rfl rfl⟩
    | some id =>
      rw [step, resolve_eq hinv hid] at h
      cases h
      exact ⟨rfl, .resolve (length_eraseIdx_of_getElem? hid) rtt rfl⟩
  | abandon index =>
    rw [step, abandon] at h
    cases hid : s.inFlight[index]? with
    | none =>
      rw [hid] at h
      cases h
      exact ⟨rfl, .keep rfl rfl⟩
    | some id =>
      rw [hid] at h
      cases h
      exact ⟨rfl, .abandon (length_eraseIdx_of_getElem? hid) rfl⟩

/-- Every step keeps the invariant. -/
theorem GateInv.step (hinv : GateInv config s) (h : s.step pl op = .ok s') : GateInv config s' := by
  obtain ⟨hgates, heffect⟩ := step_effect hinv h
  have hceiling : s'.core.entryGates.rttCeilingUs = config.rttCeilingUs := by
    rw [hgates, hinv.ceiling]
  cases heffect with
  | keep _ hewma | submit _ _ _ hewma | abandon _ hewma =>
    exact ⟨hceiling, by rw [hewma]; exact hinv.nonneg, by rw [hewma]; exact hinv.le_hi⟩
  | resolve _ rtt hewma =>
    obtain ⟨hlo, hhi⟩ := nextEwma_range hinv.nonneg hinv.le_hi rtt.pos rtt.le_hi
    exact ⟨hceiling, by rwa [hewma], by rwa [hewma]⟩

/-- The invariant holds in every reachable state. -/
theorem Reachable.gateInv (h : Reachable pl config s) : GateInv config s := by
  obtain ⟨core, ops, hnew, hrun⟩ := h
  refine Machine.runM_invariant (fun _ _ _ ih _ hstep => ih.step hstep) ?_
    (Machine.alongM_true _ ops) hrun
  obtain ⟨signalConfig, -, hnew⟩ := Except.ok_bind_inv hnew
  cases hnew
  have hzero : (0 : Int) ≤ i64.hi := by decide
  exact ⟨rfl, le_rfl, hzero⟩

/-! ## Closed for good -/

/-- No step leaves a locked state. -/
theorem Locked.step (hceil : 0 < config.rttCeilingUs) (hinv : GateInv config s)
    (h : Locked config s) (hstep : s.step pl op = .ok s') : Locked config s' := by
  have hhigh := h.rttHigh hceil hinv
  obtain ⟨-, heffect⟩ := step_effect hinv hstep
  rw [Locked] at h ⊢
  cases heffect with
  | keep hflight hewma => rwa [hflight, hewma]
  | submit hgate => exact absurd hhigh hgate
  | abandon hflight hewma =>
    have hle := reopenBound_le_succ hceil.le s'.inFlight.length
    rw [hflight] at hle
    rw [hewma]
    omega
  | resolve hflight rtt hewma =>
    rw [← hflight] at h
    rw [hewma]
    exact lt_nextEwma hhigh.2.1 h rtt.pos

/-- After any steps from a locked state the gate is closed. -/
theorem Locked.run (hceil : 0 < config.rttCeilingUs) (hinv : GateInv config s)
    (h : Locked config s) {ops : List (Op F)}
    (hrun : Machine.runM (RuntimeSystem.step pl) s ops = .ok s') : s'.core.RttHigh := by
  obtain ⟨hinv', hlocked⟩ : GateInv config s' ∧ Locked config s' :=
    Machine.runM_invariant (I := fun s => GateInv config s ∧ Locked config s)
      (fun _ _ _ ih _ hstep => ⟨ih.1.step hstep, ih.2.step hceil ih.1 hstep⟩) ⟨hinv, h⟩
      (Machine.alongM_true s ops) hrun
  exact hlocked.rttHigh hceil hinv'

/-! ## Open again -/

/-- Resolving the submits in flight, each after a microsecond, opens the gate. -/
theorem exists_reopening (hinv : GateInv config s)
    (h : s.core.rttEwmaUs ≤ reopenBound config.rttCeilingUs s.inFlight.length) :
    ∃ ops s', Machine.runM (step pl) s ops = .ok s' ∧ ¬s'.core.RttHigh := by
  induction hn : s.inFlight.length generalizing s with
  | zero =>
    rw [hn] at h
    refine ⟨[], s, rfl, fun hhigh => ?_⟩
    have hlt := hhigh.2.2
    rw [hinv.ceiling] at hlt
    exact absurd h hlt.not_ge
  | succ n ih =>
    rcases eq_or_ne s.core.rttEwmaUs 0 with hzero | hne
    · exact ⟨[], s, rfl, fun hhigh => hhigh.2.1.ne' hzero⟩
    · obtain ⟨id, hid⟩ : ∃ id, s.inFlight[0]? = some id := by
        exact ⟨_, List.getElem?_eq_getElem (by omega)⟩
      have hstep : s.step pl (.resolve 0 (.rejected 400 none) .one 0) = .ok _ :=
        resolve_eq hinv hid (.rejected 400 none) .one 0
      have hlength := length_eraseIdx_of_getElem? hid
      obtain ⟨ops, s', hrun, hopen⟩ := ih (hinv.step hstep)
        (by
          rw [hn] at h
          have hpos := hinv.nonneg
          refine (nextEwma_one_le (by omega) h).trans_eq ?_
          congr 1
          dsimp only
          omega)
        (by dsimp only; omega)
      exact ⟨_ :: ops, s', Machine.runM_cons.2 ⟨_, hstep, hrun⟩, hopen⟩

/-- From a reachable state the gate can open again exactly while the average is within what the
submits in flight can bring down to the ceiling. -/
theorem rtt_gate_opens_iff (pl : Platform) (config : Config F) (s : RuntimeSystem F)
    (hceil : 0 < config.rttCeilingUs) (hs : Reachable pl config s) :
    (∃ ops s', Machine.runM (step pl) s ops = .ok s' ∧
      ∀ intent now, s'.core.entryGateBlock pl.build intent now ≠ .ok (some "rtt_ewma_high")) ↔
      s.core.rttEwmaUs ≤ reopenBound config.rttCeilingUs s.inFlight.length := by
  refine ⟨?_, ?_⟩
  · rintro ⟨ops, s', hrun, hopen⟩
    by_contra hlocked
    refine hopen ⟨.yes, ⟨""⟩, ⟨1⟩, ⟨1⟩, 0⟩ ⟨0⟩ (RuntimeCore.entryGateBlock_rtt_iff.2 ?_)
    exact Locked.run hceil hs.gateInv (not_le.1 hlocked) hrun
  · intro h
    obtain ⟨ops, s', hrun, hopen⟩ := exists_reopening hs.gateInv h
    exact ⟨ops, s', hrun, fun intent now hblock =>
      hopen (RuntimeCore.entryGateBlock_rtt_iff.1 hblock)⟩

end

/-! ## A market that is entered once -/

/-- The books of the two tokens, as the market channel sends them. -/
def bookFrame : Json.Value :=
  .array [
    .object [("event_type", .string "book"), ("asset_id", .string "up"),
      ("bids", .array [.object [("price", .string "0.39"), ("size", .string "500")]]),
      ("asks", .array [.object [("price", .string "0.40"), ("size", .string "500")]])],
    .object [("event_type", .string "book"), ("asset_id", .string "down"),
      ("bids", .array [.object [("price", .string "0.59"), ("size", .string "500")]]),
      ("asks", .array [.object [("price", .string "0.60"), ("size", .string "500")]])]]

/-- A level of a book. -/
def upLevel (price : String) : Json.Value :=
  .object [("price", .string price), ("size", .string "500")]

/-- The book of `up` alone. -/
def upBook (bids asks : List Json.Value) : Json.Value :=
  .object [("event_type", .string "book"), ("asset_id", .string "up"), ("bids", .array bids),
    ("asks", .array asks)]

/-- A sample with three times as much on the bid as on the ask, a dollar above it. -/
def bidSample (second updateId : Int) (bid : Rat) : BinanceSample Rat :=
  { tsUs := ⟨second * 1000000⟩, updateId := updateId, bid := bid, ask := bid + 1, bidQty := 3
    askQty := 1, microprice := bid + 0.75 }

/-- A rotation to the market, its strike, its books, and two samples of a rising price, of which the
second is bought. -/
def entryOps : List (Op Rat) :=
  [.core (.setUserWssTrusted true), .core (.releaseMarketScope [⟨"up"⟩, ⟨"down"⟩]),
    .core (.setStrike 0 true), .core (.setMarket RuntimeCore.upDownMarket),
    .core (.setStrike 100001.75 true), .core (.applyMarketRaw bookFrame.toBytes ⟨899990000⟩),
    .binanceSample (bidSample 899 1 100000) ⟨899000000⟩,
    .binanceSample (bidSample 900 2 100001) ⟨900000000⟩]

/-- With the submit in flight and no round trip recorded, the gate is open. -/
theorem rtt_gate_opens_iff_example :
    ∃ s : RuntimeSystem Rat, Reachable (.reading [bookFrame]) Config.runtimeEnvShape s ∧
      s.inFlight.length = 1 ∧
      ∃ ops s', Machine.runM (step (.reading [bookFrame])) s ops = .ok s' ∧
        ∀ intent now, s'.core.entryGateBlock (Platform.reading [bookFrame]).build intent now ≠
          .ok (some "rtt_ewma_high") := by
  have h : (RuntimeCore.new Config.runtimeEnvShape).Succeeds fun core =>
      (Machine.runM (step (.reading [bookFrame])) (init Config.runtimeEnvShape core)
        entryOps).Succeeds fun s => s.inFlight.length = 1 ∧ s.core.rttEwmaUs = 0 := by
    simp only [Platform.reading_eq, entryOps, Json.Value.toBytes_eq]
    decide +kernel
  obtain ⟨s, hs, hflight, hewma⟩ := exists_reachable h
  refine ⟨s, hs, hflight, (rtt_gate_opens_iff _ _ s (by decide) hs).2 ?_⟩
  rw [hflight, hewma]
  decide

/-- The submit takes two seconds, above the ceiling of a second and a half: with nothing in flight,
the gate stays closed. -/
theorem rtt_gate_stays_closed :
    ¬ ∀ (pl : Platform) (config : Config Rat) (s : RuntimeSystem Rat),
      0 < config.rttCeilingUs → Reachable pl config s →
        ∃ ops s', Machine.runM (step pl) s ops = .ok s' ∧
          ∀ intent now, s'.core.entryGateBlock pl.build intent now ≠
            .ok (some "rtt_ewma_high") := by
  intro h
  have hrun : (RuntimeCore.new Config.runtimeEnvShape).Succeeds fun core =>
      (Machine.runM (step (.reading [bookFrame])) (init Config.runtimeEnvShape core) (entryOps ++
        [.resolve 0 (.accepted "o1" 200) ⟨2000000, by decide, by decide⟩ 902000000])).Succeeds
          fun s => s.inFlight.length = 0 ∧ s.core.rttEwmaUs = 2000000 := by
    simp only [Platform.reading_eq, entryOps, Json.Value.toBytes_eq]
    decide +kernel
  obtain ⟨s, hs, hflight, hewma⟩ := exists_reachable hrun
  have hceil : 0 < Config.runtimeEnvShape.rttCeilingUs := by decide
  have hlocked : Locked Config.runtimeEnvShape s := by
    rw [Locked, hflight, hewma]
    decide
  obtain ⟨ops, s', hrun', hopen⟩ := h _ _ s hceil hs
  refine hopen ⟨.yes, ⟨"up"⟩, ⟨43⟩, ⟨42⟩, 8⟩ ⟨0⟩ (RuntimeCore.entryGateBlock_rtt_iff.2 ?_)
  exact hlocked.run hceil hs.gateInv hrun'

end RuntimeSystem

end Polyrust
