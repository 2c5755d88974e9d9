import Polyrust.Lib.Run
import Polyrust.Lib.Tail
import Polyrust.Signal

/-!
# The window of the accepted samples

The engine holds the last of the samples it has accepted since it was created or last reset. The
samples themselves, in a history beside it, say what it holds: the ring is the end of the points
they leave, each with its order flow against the sample before it, and the fields of the last
sample are those of the last one (`Mirrors`). The window is then that of the history
(`window_faithful`), as long as its start is a 64-bit timestamp.
-/

namespace Polyrust

open IntWidth F64

namespace SignalEngine

/-- An accepted sample, with the time it was received at. -/
structure Accepted (F : Type) where
  sample : BinanceSample F
  recvTsUs : TsUs

/-- What changes the engine: `push` and `on_sample` offer it a sample. -/
inductive Op (F : Type) where
  | offer (sample : BinanceSample F) (recvTsUs : TsUs)
  | setStrike (strike : F) (resetWindow : Bool)

section
variable {F : Type} [F64 F]

/-- The engine after an operation. -/
def step (engine : SignalEngine F) : Op F → SignalEngine F
  | .offer sample recvTsUs => (engine.pushReceived sample recvTsUs).1
  | .setStrike strike resetWindow => engine.setStrike strike resetWindow

/-- `on_sample` changes the engine as an offer does. -/
theorem onSample_step {b : Build} {engine engine' : SignalEngine F} {sample : BinanceSample F}
    {market : MarketContext} {yesQuote noQuote : Quote} {now : TsUs} {tteUs : Int}
    {i : Option BuyIntent}
    (h : engine.onSample b sample market yesQuote noQuote now tteUs = .ok (engine', i)) :
    engine' = engine.step (.offer sample now) := by
  obtain ⟨lagUs, -, h⟩ := Except.ok_bind_inv h
  dsimp only at h
  split_ifs at h
  · cases h
    rfl
  · cases h
    rfl
  · obtain ⟨intent, -, h⟩ := Except.ok_bind_inv h
    cases h
    rfl

/-! ## The history -/

/-- The accepted samples since the engine was created or last reset, oldest first. -/
def record (engine : SignalEngine F) : Op F → List (Accepted F) → List (Accepted F)
  | .offer sample recvTsUs, accepted =>
    if engine.accepts sample then accepted ++ [⟨sample, recvTsUs⟩] else accepted
  | .setStrike _ resetWindow, accepted => if resetWindow then [] else accepted

/-- The order flow of a sample against the one before it. -/
def ofiAfter (sample : BinanceSample F) : Option (BinanceSample F) → F
  | none => 0.0
  | some last =>
    let bidFlow := (if le last.bid sample.bid then sample.bidQty else 0.0)
      - (if le sample.bid last.bid then last.bidQty else 0.0)
    let askFlow := (if le last.ask sample.ask then last.askQty else 0.0)
      - (if le sample.ask last.ask then sample.askQty else 0.0)
    bidFlow + askFlow

/-- The point that a sample leaves. -/
def pointAfter (last : Option (BinanceSample F)) (accepted : Accepted F) : SignalPoint F :=
  let sample := accepted.sample
  { tsUs := sample.tsUs, recvTsUs := accepted.recvTsUs, microprice := sample.microprice
    ofi := ofiAfter sample last
    imbalance := (sample.bidQty - sample.askQty) / (sample.bidQty + sample.askQty) }

/-- The points that samples leave after one. -/
def pointsFrom : Option (BinanceSample F) → List (Accepted F) → List (SignalPoint F)
  | _, [] => []
  | last, accepted :: rest => pointAfter last accepted :: pointsFrom (some accepted.sample) rest

/-- The points that the samples of a history leave. -/
def points (history : List (Accepted F)) : List (SignalPoint F) := pointsFrom none history

omit [F64 F] in
/-- The last sample of a history. -/
def lastSample (history : List (Accepted F)) : Option (BinanceSample F) :=
  history.getLast?.map (·.sample)

/-- The points of a longer history. -/
theorem pointsFrom_concat (last : Option (BinanceSample F)) (history : List (Accepted F))
    (accepted : Accepted F) :
    pointsFrom last (history ++ [accepted]) =
      pointsFrom last history ++ [pointAfter ((lastSample history).or last) accepted] := by
  induction history generalizing last with
  | nil => rfl
  | cons first rest ih =>
    rw [List.cons_append, pointsFrom, pointsFrom, ih, List.cons_append, lastSample, lastSample,
      List.getLast?_cons]
    cases rest.getLast? <;> rfl

/-- The points of a longer history, from the start. -/
theorem points_concat (history : List (Accepted F)) (accepted : Accepted F) :
    points (history ++ [accepted]) =
      points history ++ [pointAfter (lastSample history) accepted] := by
  rw [points, points, pointsFrom_concat, Option.or_none]

/-- The points have the timestamps of their samples. -/
theorem points_map_tsUs (history : List (Accepted F)) :
    (points history).map (·.tsUs) = history.map (·.sample.tsUs) := by
  rw [points]
  generalize (none : Option (BinanceSample F)) = last
  induction history generalizing last with
  | nil => rfl
  | cons first rest ih =>
    rw [pointsFrom, List.map_cons, List.map_cons, ih]
    rfl

/-! ## The engine mirrors the history -/

/-- The engine holds the end of the points of the history, and its fields of the last sample are
those of the last one. -/
structure Mirrors (history : List (Accepted F)) (engine : SignalEngine F) : Prop where
  ring : engine.samples = (points history).rtake engine.cfg.maxSamples
  lastUpdateId : engine.lastUpdateId = ((lastSample history).map (·.updateId)).getD 0
  lastBid : engine.lastBid = ((lastSample history).map (·.bid)).getD 0.0
  lastAsk : engine.lastAsk = ((lastSample history).map (·.ask)).getD 0.0
  lastBidQty : engine.lastBidQty = ((lastSample history).map (·.bidQty)).getD 0.0
  lastAskQty : engine.lastAskQty = ((lastSample history).map (·.askQty)).getD 0.0

/-- Timestamps and update ids of the history increase. -/
structure Increasing (history : List (Accepted F)) : Prop where
  tsUs : history.Pairwise fun a a' => a.sample.tsUs.micros < a'.sample.tsUs.micros
  updateId : history.Pairwise fun a a' => a.sample.updateId < a'.sample.updateId

variable {history : List (Accepted F)} {engine : SignalEngine F}

/-- The last point that the engine holds is that of the last sample. -/
theorem Mirrors.getLast? (h : Mirrors history engine) (hroom : 0 < engine.cfg.maxSamples) :
    engine.samples.getLast? = (points history).getLast? := by
  obtain ⟨n, hn⟩ := Nat.exists_eq_succ_of_ne_zero hroom.ne'
  rw [h.ring, hn, getLast?_rtake_succ]

/-- A point is the last one exactly when it is that of the last sample. -/
theorem points_getLast?_tsUs (history : List (Accepted F)) :
    ((points history).getLast?).map (·.tsUs) = (lastSample history).map (·.tsUs) := by
  rw [← List.getLast?_map, points_map_tsUs, List.getLast?_map, lastSample, Option.map_map]
  rfl

/-- An engine without samples has accepted none. -/
theorem Mirrors.isEmpty (h : Mirrors history engine) (hroom : 0 < engine.cfg.maxSamples) :
    engine.samples.isEmpty = (lastSample history).isNone := by
  have hlast := congrArg Option.isNone (points_getLast?_tsUs history)
  rw [← h.getLast? hroom, Option.isNone_map, Option.isNone_map] at hlast
  rw [← hlast]
  cases engine.samples <;> rfl

/-- The order flow is against the last sample of the history. -/
theorem Mirrors.computeOfi (h : Mirrors history engine) (hroom : 0 < engine.cfg.maxSamples)
    (sample : BinanceSample F) :
    engine.computeOfi sample = ofiAfter sample (lastSample history) := by
  rw [SignalEngine.computeOfi, h.isEmpty hroom, h.lastBid, h.lastAsk, h.lastBidQty, h.lastAskQty]
  cases lastSample history <;> rfl

/-- What `push_received` compares of an accepted sample with the last one. -/
theorem newer_of_accepts {sample : BinanceSample F} (h : engine.accepts sample = true) :
    engine.lastUpdateId < sample.updateId ∧
      ∀ last, engine.samples.getLast? = some last → last.tsUs.micros < sample.tsUs.micros := by
  simp only [accepts, Bool.and_eq_true, Bool.not_eq_true', Bool.or_eq_false_iff,
    decide_eq_false_iff_not, Int.not_le] at h
  refine ⟨h.1.1.1.1.1.1.1.1.2, fun last hlast => ?_⟩
  have hnewer := h.2
  rw [hlast, Option.any_some, decide_eq_false_iff_not, Int.not_le] at hnewer
  exact hnewer

/-- An accepted sample is newer than all of the history. -/
theorem Increasing.concat (hi : Increasing history) (hm : Mirrors history engine)
    (hroom : 0 < engine.cfg.maxSamples) {sample : BinanceSample F} {recvTsUs : TsUs}
    (h : engine.accepts sample = true) : Increasing (history ++ [⟨sample, recvTsUs⟩]) := by
  obtain ⟨hid, hts⟩ := newer_of_accepts h
  have hlast := hm.getLast? hroom
  refine ⟨pairwise_lt_concat _ hi.tsUs fun last hl => ?_,
    pairwise_lt_concat _ hi.updateId fun last hl => ?_⟩
  · have htsUs := points_getLast?_tsUs history
    rw [lastSample, hl, Option.map_some, Option.map_some, Option.map_eq_some_iff] at htsUs
    obtain ⟨point, hpoint, he⟩ := htsUs
    have := hts point (hlast.trans hpoint)
    rwa [he] at this
  · rw [hm.lastUpdateId, lastSample, hl] at hid
    exact hid

/-- The ring after an accepted sample. -/
theorem Mirrors.push (h : Mirrors history engine) (hroom : 0 < engine.cfg.maxSamples)
    {sample : BinanceSample F} {recvTsUs : TsUs} (ha : engine.accepts sample = true) :
    Mirrors (history ++ [⟨sample, recvTsUs⟩]) (engine.pushReceived sample recvTsUs).1 := by
  have hlast : lastSample (history ++ [⟨sample, recvTsUs⟩]) = some sample := by
    rw [lastSample, List.getLast?_concat, Option.map_some]
  rw [pushReceived, ha, Bool.not_true, if_neg Bool.false_ne_true]
  refine ⟨?_, ?_, ?_, ?_, ?_, ?_⟩
  · obtain ⟨n, hn⟩ := Nat.exists_eq_succ_of_ne_zero hroom.ne'
    dsimp only
    rw [h.computeOfi hroom, h.ring, hn, drop_rtake_succ, points_concat, List.rtake_concat_succ]
    rfl
  all_goals
    rw [hlast]
    rfl

/-- A rejected sample changes nothing. -/
theorem pushReceived_rejected {sample : BinanceSample F} (recvTsUs : TsUs)
    (h : engine.accepts sample = false) :
    engine.pushReceived sample recvTsUs = (engine, false) := by
  rw [pushReceived, h, Bool.not_false, if_pos rfl]

/-- The state of an engine that was made from a configuration, beside its history. -/
structure Faithful (cfg : SignalConfig F) (history : List (Accepted F))
    (engine : SignalEngine F) : Prop where
  cfg : engine.cfg = { cfg with maxSamples := max cfg.maxSamples 8 }
  mirrors : Mirrors history engine
  increasing : Increasing history

variable {cfg : SignalConfig F}

/-- The ring has room for a sample. -/
theorem Faithful.room (h : Faithful cfg history engine) : 0 < engine.cfg.maxSamples := by
  rw [h.cfg]
  exact lt_max_of_lt_right (by decide)

/-- What one operation does to the engine and to the history. -/
theorem Faithful.step (h : Faithful cfg history engine) (op : Op F) :
    Faithful cfg (record engine op history) (engine.step op) := by
  cases op with
  | offer sample recvTsUs =>
    rw [record, SignalEngine.step]
    cases ha : engine.accepts sample with
    | false =>
      rw [pushReceived_rejected recvTsUs ha, if_neg Bool.false_ne_true]
      exact h
    | true =>
      rw [if_pos rfl]
      refine ⟨?_, h.mirrors.push h.room ha, h.increasing.concat h.mirrors h.room ha⟩
      rw [← h.cfg, (engine.pushReceived_sameSetup sample recvTsUs).cfg]
  | setStrike strike resetWindow =>
    cases resetWindow with
    | false => exact ⟨h.cfg, ⟨h.mirrors.ring, h.mirrors.lastUpdateId, h.mirrors.lastBid,
        h.mirrors.lastAsk, h.mirrors.lastBidQty, h.mirrors.lastAskQty⟩, h.increasing⟩
    | true =>
      exact ⟨h.cfg, ⟨(List.rtake_nil _).symm, rfl, rfl, rfl, rfl, rfl⟩, .nil, .nil⟩

/-- The engine of a configuration after a run. -/
def after (cfg : SignalConfig F) (ops : List (Op F)) : SignalEngine F :=
  Machine.run SignalEngine.step (new cfg) ops

/-- The samples that the run accepts since the engine was created or last reset. -/
def accepted (cfg : SignalConfig F) (ops : List (Op F)) : List (Accepted F) :=
  Machine.recorded SignalEngine.step record (new cfg) [] ops

/-- What a run does to them. -/
theorem Faithful.run (cfg : SignalConfig F) (ops : List (Op F)) :
    Faithful cfg (accepted cfg ops) (after cfg ops) := by
  refine Machine.recorded_invariant (I := fun engine history => Faithful cfg history engine)
    (fun engine op history h => h.step op) ⟨rfl, ⟨?_, rfl, rfl, rfl, rfl, rfl⟩, .nil, .nil⟩ ops
  exact (List.rtake_nil _).symm

/-! ## The window -/

/-- The points that the engine holds are in order of their timestamps. -/
theorem Faithful.ordered (h : Faithful cfg history engine) :
    engine.samples.Pairwise fun s s' => s.tsUs.micros < s'.tsUs.micros := by
  have hpoints : ((points history).map (·.tsUs)).Pairwise fun t t' => t.micros < t'.micros := by
    rw [points_map_tsUs, List.pairwise_map]
    exact h.increasing.tsUs
  rw [h.mirrors.ring]
  exact (List.pairwise_map.1 hpoints).sublist (List.drop_sublist _ _)

/-- `latest` is the point of the last sample, and `windowBase` the oldest one that the engine holds
in the window before it; the window is not too short. -/
structure IsWindow (history : List (Accepted F)) (engine : SignalEngine F)
    (latest windowBase : SignalPoint F) : Prop where
  last : (points history).getLast? = some latest
  held : windowBase ∈ engine.samples
  since : latest.tsUs.micros - engine.cfg.maxWindowUs ≤ windowBase.tsUs.micros
  oldest : ∀ s ∈ engine.samples, latest.tsUs.micros - engine.cfg.maxWindowUs ≤ s.tsUs.micros →
    windowBase.tsUs.micros ≤ s.tsUs.micros
  before : windowBase.tsUs.micros < latest.tsUs.micros
  long : engine.cfg.minWindowUs ≤ latest.tsUs.micros - windowBase.tsUs.micros

/-- The sample that the window starts at is the oldest one held since then. -/
theorem Faithful.oldestSince_iff (h : Faithful cfg history engine) {cutoffUs : Int}
    {windowBase : SignalPoint F} :
    engine.oldestSince cutoffUs = some windowBase ↔
      windowBase ∈ engine.samples ∧ cutoffUs ≤ windowBase.tsUs.micros ∧
        ∀ s ∈ engine.samples, cutoffUs ≤ s.tsUs.micros →
          windowBase.tsUs.micros ≤ s.tsUs.micros := by
  rw [oldestSince, find?_eq_some_iff_least _ h.ordered]
  simp only [decide_eq_true_eq]

/-- Only the sample that is found can be the start of the window. -/
theorem Faithful.eq_of_isWindow (h : Faithful cfg history engine)
    {latest latest' windowBase : SignalPoint F} (hl : engine.samples.getLast? = some latest)
    (hw : IsWindow history engine latest' windowBase) :
    latest' = latest ∧
      engine.oldestSince (latest.tsUs.micros - engine.cfg.maxWindowUs) = some windowBase := by
  cases hl.symm.trans ((h.mirrors.getLast? h.room).trans hw.last)
  exact ⟨rfl, h.oldestSince_iff.2 ⟨hw.held, hw.since, hw.oldest⟩⟩

/-- Where its start is a 64-bit timestamp, the window is found. -/
theorem Faithful.latestWindow_iff (h : Faithful cfg history engine) (b : Build)
    (hmax : i64.Fits engine.cfg.maxWindowUs)
    (hstart : ∀ last, lastSample history = some last →
      i64.Fits (last.tsUs.micros - engine.cfg.maxWindowUs)) :
    ∃ r, engine.latestWindow b = .ok r ∧
      ∀ latest windowBase, r = some (latest, windowBase) ↔
        IsWindow history engine latest windowBase := by
  have hlast := h.mirrors.getLast? h.room
  rw [latestWindow]
  cases hl : engine.samples.getLast? with
  | none =>
    refine ⟨none, rfl, fun latest windowBase => ⟨nofun, fun hw => ?_⟩⟩
    cases hl.symm.trans (hlast.trans hw.last)
  | some latest =>
    have htsUs := points_getLast?_tsUs history
    rw [← hlast, hl, Option.map_some, eq_comm, Option.map_eq_some_iff] at htsUs
    obtain ⟨last, hsample, he⟩ := htsUs
    have hcutoff := hstart last hsample
    rw [he] at hcutoff
    dsimp only
    rw [Build.arith_of_fits hcutoff, Except.ok_bind]
    cases ho : engine.oldestSince (latest.tsUs.micros - engine.cfg.maxWindowUs) with
    | none =>
      refine ⟨none, rfl, fun latest' windowBase => ⟨nofun, fun hw => ?_⟩⟩
      cases ho.symm.trans (h.eq_of_isWindow hl hw).2
    | some windowBase =>
      obtain ⟨hheld, hsince, holdest⟩ := h.oldestSince_iff.1 ho
      have hle : windowBase.tsUs.micros ≤ latest.tsUs.micros :=
        le_getLast?_of_pairwise (fun s : SignalPoint F => s.tsUs.micros) h.ordered hl hheld
      have hwindow : i64.Fits (latest.tsUs.micros - windowBase.tsUs.micros) := by
        simp only [Fits, i64_lo, i64_hi] at hmax ⊢
        omega
      dsimp only
      rw [Build.arith_of_fits hwindow, Except.ok_bind]
      split
      · next hrefused =>
        refine ⟨none, rfl, fun latest' windowBase' => ⟨nofun, fun hw => ?_⟩⟩
        obtain ⟨rfl, hbase⟩ := h.eq_of_isWindow hl hw
        cases ho.symm.trans hbase
        rcases hrefused with he | hshort
        · exact absurd (congrArg TsUs.micros he) hw.before.ne
        · exact absurd hw.long (not_le.2 hshort)
      · next haccepted =>
        obtain ⟨hne, hlong⟩ := not_or.1 haccepted
        refine ⟨some (latest, windowBase), rfl, fun latest' windowBase' => ⟨fun hr => ?_, ?_⟩⟩
        · cases hr
          have hne' : windowBase.tsUs.micros ≠ latest.tsUs.micros :=
            fun he => hne (congrArg TsUs.mk he)
          exact ⟨hlast.symm.trans hl, hheld, hsince, holdest, lt_of_le_of_ne hle hne',
            not_lt.1 hlong⟩
        · intro hw
          obtain ⟨rfl, hbase⟩ := h.eq_of_isWindow hl hw
          cases ho.symm.trans hbase
          rfl

/-- After every run the engine mirrors the samples accepted since it was created or last reset: it
holds as many of their points as it has room for, the last ones, their timestamps and update ids
increase, and a rejected sample changes nothing. Where the window of the last sample starts at a
64-bit timestamp, `latest_window` finds it in every build. -/
theorem window_faithful (cfg : SignalConfig F) (hmax : i64.Fits cfg.maxWindowUs)
    (ops : List (Op F)) :
    Faithful cfg (accepted cfg ops) (after cfg ops) ∧
      (after cfg ops).samples.length =
        min (accepted cfg ops).length (after cfg ops).cfg.maxSamples ∧
      (∀ sample recvTsUs, (after cfg ops).accepts sample = false →
        (after cfg ops).pushReceived sample recvTsUs = (after cfg ops, false)) ∧
      ((∀ last, lastSample (accepted cfg ops) = some last →
          i64.Fits (last.tsUs.micros - cfg.maxWindowUs)) →
        ∀ b, ∃ r, (after cfg ops).latestWindow b = .ok r ∧
          ∀ latest windowBase, r = some (latest, windowBase) ↔
            IsWindow (accepted cfg ops) (after cfg ops) latest windowBase) := by
  have h := Faithful.run cfg ops
  have hcfg : (after cfg ops).cfg.maxWindowUs = cfg.maxWindowUs := by rw [h.cfg]
  refine ⟨h, ?_, fun sample recvTsUs => pushReceived_rejected recvTsUs, fun hstart b => ?_⟩
  · have hlength := congrArg List.length (points_map_tsUs (accepted cfg ops))
    rw [List.length_map, List.length_map] at hlength
    rw [h.mirrors.ring, length_rtake, hlength]
  · rw [← hcfg] at hmax
    exact h.latestWindow_iff b hmax fun last hlast => hcfg ▸ hstart last hlast

end

/-- A configuration with a window of `maxWindowUs`. -/
def windowCfg (maxWindowUs : Int) : SignalConfig Rat :=
  { maxLagUs := 250000, minWindowUs := 250000, maxWindowUs := maxWindowUs, maxSpreadUsd := 2
    minMoveUsd := 1, minAbsOfi := 1, minImbalance := 0, minTotalQty := 0, minEdgeTicks := 5
    entrySlippageTicks := 0, entryNotionalCents := 500, maxQuoteAgeUs := 1000000
    minTteUs := 1000000, minBuyLimit := ⟨10⟩, maxBuyLimit := ⟨60⟩, probSigmaFloorUsd := 1
    probSigmaScale := 1, probFloor := 0, probCeil := 1, maxSamples := 64
    useImpliedSigma := false }

/-- Two samples, a second apart. -/
def twoSamples : List (Op Rat) :=
  [1, 2].map fun n => .offer
    { tsUs := ⟨1000000 * n⟩, updateId := n, bid := 100, ask := 101, bidQty := 3, askQty := 1
      microprice := 100.75 } ⟨1000000 * n⟩

/-- The window of the two samples starts at the first one. -/
theorem window_faithful_two :
    (accepted (windowCfg 2000000) twoSamples).length = 2 ∧
      ∃ latest windowBase,
        (after (windowCfg 2000000) twoSamples).latestWindow ⟨true⟩ =
          .ok (some (latest, windowBase)) ∧
        IsWindow (accepted (windowCfg 2000000) twoSamples) (after (windowCfg 2000000) twoSamples)
          latest windowBase := by
  have hlength : (accepted (windowCfg 2000000) twoSamples).length = 2 := by decide +kernel
  have hstart : (lastSample (accepted (windowCfg 2000000) twoSamples)).all fun last =>
      decide (i64.Fits (last.tsUs.micros - 2000000)) := by decide +kernel
  obtain ⟨-, -, -, hwindow⟩ := window_faithful (windowCfg 2000000) (by decide) twoSamples
  obtain ⟨r, hr, hiff⟩ := hwindow (fun last hlast => by
    rw [hlast, Option.all_some, decide_eq_true_eq] at hstart
    exact hstart) ⟨true⟩
  have hsome : ((after (windowCfg 2000000) twoSamples).latestWindow ⟨true⟩).Succeeds
      fun r => r.isSome := by decide +kernel
  obtain ⟨r', hr', hsome⟩ := hsome.exists
  cases hr.symm.trans hr'
  obtain ⟨⟨latest, windowBase⟩, rfl⟩ := Option.isSome_iff_exists.1 hsome
  exact ⟨hlength, latest, windowBase, hr, (hiff latest windowBase).1 rfl⟩

/-- The configuration takes any 64-bit number for the window. With the least one the start of the
window wraps to a time before all samples: a release build finds a window where there is none, and
a build with checks aborts. -/
theorem window_start_wraps :
    (∃ latest windowBase,
      (after (windowCfg i64.lo) twoSamples).latestWindow ⟨false⟩ =
          .ok (some (latest, windowBase)) ∧
        ¬IsWindow (accepted (windowCfg i64.lo) twoSamples) (after (windowCfg i64.lo) twoSamples)
          latest windowBase) ∧
      ¬((after (windowCfg i64.lo) twoSamples).latestWindow ⟨true⟩).Succeeds fun _ => True := by
  have hsome : ((after (windowCfg i64.lo) twoSamples).latestWindow ⟨false⟩).Succeeds fun r =>
      r.any fun w => decide (w.2.tsUs.micros < w.1.tsUs.micros - i64.lo) := by decide +kernel
  obtain ⟨r, hr, hany⟩ := hsome.exists
  rcases r with _ | ⟨latest, windowBase⟩
  · cases hany
  have hcfg : (after (windowCfg i64.lo) twoSamples).cfg.maxWindowUs = i64.lo := by
    rw [(Faithful.run (windowCfg i64.lo) twoSamples).cfg]
    rfl
  refine ⟨⟨latest, windowBase, hr, fun hw => ?_⟩, by decide +kernel⟩
  have hsince := hw.since
  rw [hcfg] at hsince
  exact absurd hsince (not_le.2 (of_decide_eq_true hany))

end SignalEngine

end Polyrust
