import Polyrust.Lib.Rounding
import Polyrust.Runtime.Latency
import Polyrust.Runtime.Settings

/-!
# The drift gates

What the entry gate makes of the drift of the ask within its window. Two gates block on a drift as
large as their threshold, against the ask of the oldest sample of the window: they are off while
that sample has none, however many later ones do (`drift_block_iff`). The last gate asks for an edge
that covers the drift of one round trip, the exact ceiling of a quotient (`requiredEdge`). The sum
that rounds it up is a plain one: the code computes the ceiling exactly while numerator and
denominator together are a 64-bit number, and otherwise aborts or wraps.
-/

namespace Polyrust

open IntWidth

/-- A 64-bit product of numbers that are not negative stops at the largest number. -/
theorem saturatingMul_of_nonneg {x y : Int} (hx : 0 ≤ x) (hy : 0 ≤ y) :
    i64.saturatingMul x y = min i64.hi (x * y) := by
  have hxy := mul_nonneg hx hy
  simp only [saturatingMul, saturate, i64_lo, i64_hi]
  omega

/-- So does a product of three of them, of which the last is not zero. -/
theorem saturatingMul_saturatingMul {x y z : Int} (hx : 0 ≤ x) (hy : 0 ≤ y) (hz : 1 ≤ z) :
    i64.saturatingMul (i64.saturatingMul x y) z = min i64.hi (x * y * z) := by
  have hxy := mul_nonneg hx hy
  rw [saturatingMul_of_nonneg hx hy,
    saturatingMul_of_nonneg (le_min (by decide) hxy) (by omega)]
  rcases le_total (x * y) i64.hi with hle | hge
  · rw [min_eq_right hle]
  · have hhi : i64.hi ≤ i64.hi * z := le_mul_of_one_le_right (by decide) hz
    have hxyz : i64.hi * z ≤ x * y * z := mul_le_mul_of_nonneg_right hge (by omega)
    rw [min_eq_left hge, min_eq_left hhi, min_eq_left (hhi.trans hxyz)]

/-- The edge that covers the drift of a round trip, by exact arithmetic; both its parts stop at the
largest 32-bit number. -/
def requiredEdge (rttUs driftTicks safetyBps dtUs minCleanTicks : Int) : Int :=
  min i32.hi (min i32.hi ⌈((|driftTicks| * rttUs * safetyBps : Int) : ℚ) / (dtUs * 10000 : Int)⌉ +
    minCleanTicks)

namespace RuntimeCore

section
variable {F : Type}

/-- The intent gets to the last gate: `past` is the oldest sample of the window, the ask has moved
by `driftTicks` since, and no gate before it fires. -/
structure ReachesBuffer (core : RuntimeCore F) (intent : BuyIntent) (now : TsUs)
    (past : QuoteHistorySample) (driftTicks : Int) : Prop where
  rttLow : ¬core.RttHigh
  window : 0 < core.entryGates.polyDriftWindowUs
  cutoff : i64.Fits (now.micros - core.entryGates.polyDriftWindowUs)
  oldest : core.state.quoteHistoryOldestSince intent.token
    (now.micros - core.entryGates.polyDriftWindowUs) = some past
  drift : ∃ pastAskTicks currentAsk, past.askTicks = some pastAskTicks ∧
    (core.state.quoteForToken intent.token).bind (·.ask) = some currentAsk ∧
    currentAsk.ticks - pastAskTicks = driftTicks
  up : ¬(0 < core.entryGates.polyDriftBlockUpTicks ∧
    core.entryGates.polyDriftBlockUpTicks ≤ driftTicks)
  down : ¬(0 < core.entryGates.polyDriftBlockDownTicks ∧
    driftTicks ≤ -core.entryGates.polyDriftBlockDownTicks)

/-- The numbers of the last gate are in their ranges. -/
structure BufferRange (core : RuntimeCore F) (now : TsUs) (past : QuoteHistorySample)
    (driftTicks : Int) : Prop where
  rtt : 1 ≤ core.rttEwmaUs ∧ core.rttEwmaUs ≤ i64.hi
  drift : -98 ≤ driftTicks ∧ driftTicks ≤ 98
  safety : 1 ≤ core.entryGates.polyDriftSafetyBps ∧ core.entryGates.polyDriftSafetyBps ≤ i32.hi
  dt : 1 ≤ now.micros - past.tsUs.micros ∧ now.micros - past.tsUs.micros ≤ i64.hi
  clean : 0 ≤ core.entryGates.polyDriftMinCleanEdgeTicks ∧
    core.entryGates.polyDriftMinCleanEdgeTicks ≤ i32.hi
  blockDown : core.entryGates.polyDriftBlockDownTicks ≤ i32.hi

/-- The numerator of the required drift. -/
def bufferNumer (core : RuntimeCore F) (driftTicks : Int) : Int :=
  |driftTicks| * core.rttEwmaUs * core.entryGates.polyDriftSafetyBps

/-- Its denominator. -/
def bufferDenom (now : TsUs) (past : QuoteHistorySample) : Int :=
  (now.micros - past.tsUs.micros) * 10000

/-- The edge that the last gate is to ask for. -/
def bufferEdge (core : RuntimeCore F) (now : TsUs) (past : QuoteHistorySample) (driftTicks : Int) :
    Int :=
  requiredEdge core.rttEwmaUs driftTicks core.entryGates.polyDriftSafetyBps
    (now.micros - past.tsUs.micros) core.entryGates.polyDriftMinCleanEdgeTicks

/-- The block for an edge that does not cover the drift. -/
def bufferBlock (intent : BuyIntent) (required : Int) : Option String :=
  if intent.edgeTicks < required then some "edge_insufficient_for_drift" else none

variable {b : Build} {core : RuntimeCore F} {intent : BuyIntent} {now : TsUs}
  {past : QuoteHistorySample} {driftTicks : Int}

/-- Where the last gate is reached, it decides. -/
theorem ReachesBuffer.eq (h : core.ReachesBuffer intent now past driftTicks)
    (hr : core.BufferRange now past driftTicks) (b : Build) :
    core.entryGateBlock b intent now = core.driftBufferBlock b intent now past driftTicks := by
  obtain ⟨pastAskTicks, currentAsk, hpast, hask, rfl⟩ := h.drift
  have hrtt : ¬_ := h.rttLow
  have hup : ¬_ := h.up
  rw [RttHigh] at hrtt
  have hdrift : i32.Fits (currentAsk.ticks - pastAskTicks) := by
    have := hr.drift
    simp only [Fits, i32_lo, i32_hi]
    omega
  rw [entryGateBlock, if_neg hrtt, if_neg h.window.not_ge, Build.arith_of_fits h.cutoff,
    Except.ok_bind, h.oldest]
  simp only [hpast, hask, Build.arith_of_fits hdrift, Except.ok_bind, if_neg hup]
  rcases le_or_gt core.entryGates.polyDriftBlockDownTicks 0 with hd | hd
  · rw [if_neg hd.not_gt]
  · have hfit : i32.Fits (-core.entryGates.polyDriftBlockDownTicks) := by
      have := hr.blockDown
      simp only [Fits, i32_lo, i32_hi] at this ⊢
      omega
    rw [if_pos hd, Build.arith_of_fits hfit, Except.ok_bind,
      if_neg fun hle => h.down ⟨hd, hle⟩]

/-- The numerator is not negative, and zero only without a drift. -/
theorem BufferRange.numer (hr : core.BufferRange now past driftTicks) :
    0 ≤ core.bufferNumer driftTicks ∧ (core.bufferNumer driftTicks = 0 ↔ driftTicks = 0) := by
  have hrtt := hr.rtt.1
  have hsafety := hr.safety.1
  have hd := abs_nonneg driftTicks
  refine ⟨by unfold bufferNumer; positivity, ?_⟩
  simp only [bufferNumer, mul_eq_zero, abs_eq_zero]
  omega

/-- The denominator is at least ten thousand. -/
theorem BufferRange.le_denom (hr : core.BufferRange now past driftTicks) :
    10000 ≤ bufferDenom now past := by
  have := hr.dt.1
  rw [bufferDenom]
  omega

/-- What the last gate computes with numbers in range. -/
theorem driftBufferBlock_eq (hr : core.BufferRange now past driftTicks) :
    core.driftBufferBlock b intent now past driftTicks = (do
      let sum ← b.arith i64
        (min i64.hi (core.bufferNumer driftTicks) + min i64.hi (bufferDenom now past))
      let rounded ← b.arith i64 (sum - 1)
      return bufferBlock intent (i32.saturatingAdd
        (i32.wrap (min (rounded.tdiv (min i64.hi (bufferDenom now past))) i32.hi))
        core.entryGates.polyDriftMinCleanEdgeTicks)) := by
  have hdt := hr.dt
  have hrtt := hr.rtt.1
  have hsafety := hr.safety.1
  have hdtfit : i64.Fits (now.micros - past.tsUs.micros) := ⟨le_trans (by decide) hdt.1, hdt.2⟩
  have habs : i32.Fits |driftTicks| := by
    have := hr.drift
    have := abs_nonneg driftTicks
    have : |driftTicks| ≤ 98 := abs_le.2 hr.drift
    simp only [Fits, i32_lo, i32_hi]
    omega
  have hdenom : ¬min i64.hi (bufferDenom now past) ≤ 0 := by
    rw [bufferDenom]
    simp only [i64_hi]
    omega
  rw [driftBufferBlock, if_neg (by omega), Build.arith_of_fits hdtfit, Except.ok_bind,
    if_neg (by omega), Build.arith_of_fits habs, Except.ok_bind]
  simp only [saturatingMul_saturatingMul (abs_nonneg driftTicks) (by omega : 0 ≤ core.rttEwmaUs)
    hsafety, saturatingMul_of_nonneg (by omega : 0 ≤ now.micros - past.tsUs.micros)
    (by decide : (0 : Int) ≤ 10000)]
  rw [← bufferNumer, ← bufferDenom, if_neg hdenom]
  refine bind_congr fun sum => bind_congr fun rounded => ?_
  rw [bufferBlock]
  split_ifs <;> rfl

/-- With numerator and denominator that are together a 64-bit number, or no drift, the edge asked
for is exact. -/
theorem driftBufferBlock_exact (hr : core.BufferRange now past driftTicks)
    (h : driftTicks = 0 ∨ core.bufferNumer driftTicks + bufferDenom now past ≤ i64.hi) :
    core.driftBufferBlock b intent now past driftTicks =
      .ok (bufferBlock intent (core.bufferEdge now past driftTicks)) := by
  obtain ⟨hnn, hzero⟩ := hr.numer
  have hdenom := hr.le_denom
  have hnumer : min i64.hi (core.bufferNumer driftTicks) = core.bufferNumer driftTicks := by
    simp only [i64_hi] at h ⊢
    omega
  set denom := min i64.hi (bufferDenom now past) with hd
  have hpos : 0 < denom := by
    simp only [hd, i64_hi]
    omega
  have hsum : i64.Fits (core.bufferNumer driftTicks + denom) := by
    simp only [Fits, hd, i64_lo, i64_hi] at h ⊢
    omega
  have hrounded : i64.Fits (core.bufferNumer driftTicks + denom - 1) := by
    simp only [Fits, i64_lo, i64_hi] at hsum ⊢
    omega
  -- the denominator stops short of its exact value only where the numerator is zero
  have hceil : ⌈(core.bufferNumer driftTicks : ℚ) / denom⌉ =
      ⌈(core.bufferNumer driftTicks : ℚ) / bufferDenom now past⌉ := by
    rcases eq_or_ne driftTicks 0 with hz | hne
    · rw [hzero.2 hz]
      simp
    · congr
      simp only [hd, i64_hi] at h ⊢
      omega
  rw [driftBufferBlock_eq hr, hnumer, ← hd, Build.arith_of_fits hsum, Except.ok_bind,
    Build.arith_of_fits hrounded, Except.ok_bind, Rounding.add_sub_one_tdiv hpos hnn, hceil]
  have hq : 0 ≤ ⌈(core.bufferNumer driftTicks : ℚ) / bufferDenom now past⌉ := by
    refine Int.ceil_nonneg (div_nonneg ?_ ?_) <;> exact_mod_cast (by omega)
  rw [bufferEdge, requiredEdge, ← bufferNumer, ← bufferDenom]
  generalize ⌈(core.bufferNumer driftTicks : ℚ) / bufferDenom now past⌉ = q at hq
  have hwrap : i32.Fits (min q i32.hi) := by
    simp only [Fits, i32_lo, i32_hi]
    omega
  rw [wrap_of_fits hwrap, saturatingAdd, saturate, min_comm q, min_comm _ i32.hi, max_eq_right]
  · rfl
  · have := hr.clean.1
    simp only [i32_lo, i32_hi]
    omega

/-- Otherwise a build with checks aborts. -/
theorem driftBufferBlock_overflow (hr : core.BufferRange now past driftTicks)
    (h : ¬(driftTicks = 0 ∨ core.bufferNumer driftTicks + bufferDenom now past ≤ i64.hi)) :
    core.driftBufferBlock ⟨true⟩ intent now past driftTicks = .error .overflow := by
  obtain ⟨hnn, hzero⟩ := hr.numer
  have hdenom := hr.le_denom
  have hsum : ¬i64.Fits
      (min i64.hi (core.bufferNumer driftTicks) + min i64.hi (bufferDenom now past)) := by
    simp only [Fits, i64_lo, i64_hi] at h ⊢
    omega
  rw [driftBufferBlock_eq hr, Build.arith, if_neg hsum]
  rfl

/-- More drift or a longer round trip asks for no smaller edge. -/
theorem requiredEdge_mono {rttUs rttUs' drift drift' safetyBps dtUs minClean : Int}
    (hrtt : rttUs ≤ rttUs') (hdrift : |drift| ≤ |drift'|) (h0 : 0 ≤ rttUs) (hs : 0 ≤ safetyBps)
    (hdt : 0 ≤ dtUs) :
    requiredEdge rttUs drift safetyBps dtUs minClean ≤
      requiredEdge rttUs' drift' safetyBps dtUs minClean := by
  have hprod : |drift| * rttUs * safetyBps ≤ |drift'| * rttUs' * safetyBps :=
    mul_le_mul_of_nonneg_right (mul_le_mul hdrift hrtt h0 (abs_nonneg drift')) hs
  have hceil : ⌈((|drift| * rttUs * safetyBps : Int) : ℚ) / (dtUs * 10000 : Int)⌉ ≤
      ⌈((|drift'| * rttUs' * safetyBps : Int) : ℚ) / (dtUs * 10000 : Int)⌉ := by
    have hd : (0 : ℚ) ≤ (dtUs * 10000 : Int) := by exact_mod_cast (by omega)
    exact Int.ceil_le_ceil (div_le_div_of_nonneg_right (by exact_mod_cast hprod) hd)
  rw [requiredEdge, requiredEdge]
  gcongr

/-- Where the last gate decides, it asks for exactly the edge that covers the drift, in every build,
if and only if there was no drift or numerator and denominator together are a 64-bit number; and
there a longer round trip or more drift never turns a block into a pass. -/
theorem drift_buffer_exact_iff (core : RuntimeCore F) (intent : BuyIntent) (now : TsUs)
    (past : QuoteHistorySample) (driftTicks : Int)
    (h : core.ReachesBuffer intent now past driftTicks)
    (hr : core.BufferRange now past driftTicks) :
    ((∀ b, core.entryGateBlock b intent now =
        .ok (bufferBlock intent (core.bufferEdge now past driftTicks))) ↔
      driftTicks = 0 ∨ core.bufferNumer driftTicks + bufferDenom now past ≤ i64.hi) ∧
    ∀ (core' : RuntimeCore F) (intent' : BuyIntent) (now' : TsUs) (past' : QuoteHistorySample)
      (driftTicks' : Int), core'.ReachesBuffer intent' now' past' driftTicks' →
      core'.BufferRange now' past' driftTicks' → core'.entryGates = core.entryGates →
      intent'.edgeTicks = intent.edgeTicks →
      now'.micros - past'.tsUs.micros = now.micros - past.tsUs.micros →
      core.rttEwmaUs ≤ core'.rttEwmaUs → |driftTicks| ≤ |driftTicks'| →
      (driftTicks' = 0 ∨ core'.bufferNumer driftTicks' + bufferDenom now' past' ≤ i64.hi) →
      ∀ b, core.entryGateBlock b intent now = .ok (some "edge_insufficient_for_drift") →
        core'.entryGateBlock b intent' now' = .ok (some "edge_insufficient_for_drift") := by
  refine ⟨⟨fun hexact => ?_, fun hcond b => ?_⟩, ?_⟩
  · by_contra hcond
    have hok := hexact ⟨true⟩
    rw [h.eq hr, driftBufferBlock_overflow hr hcond] at hok
    cases hok
  · rw [h.eq hr, driftBufferBlock_exact hr hcond]
  · intro core' intent' now' past' driftTicks' h' hr' hgates hedge hdt hrtt hdrift hcond' b hblock
    have hmono : core.bufferEdge now past driftTicks ≤
        core'.bufferEdge now' past' driftTicks' := by
      rw [bufferEdge, bufferEdge, hgates, hdt]
      exact requiredEdge_mono hrtt hdrift (by linarith [hr.rtt.1]) (by linarith [hr.safety.1])
        (by linarith [hr.dt.1])
    have hcond : driftTicks = 0 ∨ core.bufferNumer driftTicks + bufferDenom now past ≤ i64.hi := by
      rcases hcond' with hz | hle
      · rw [hz, abs_zero] at hdrift
        exact .inl (abs_nonpos_iff.1 hdrift)
      · refine .inr (le_trans (add_le_add ?_ ?_) hle)
        · rw [bufferNumer, bufferNumer, hgates]
          have hs : 0 ≤ core.entryGates.polyDriftSafetyBps := by linarith [hr.safety.1]
          exact mul_le_mul_of_nonneg_right (mul_le_mul hdrift hrtt (by linarith [hr.rtt.1])
            (abs_nonneg _)) hs
        · rw [bufferDenom, bufferDenom, hdt]
    rw [h.eq hr, driftBufferBlock_exact hr hcond] at hblock
    rw [h'.eq hr', driftBufferBlock_exact hr' hcond']
    have hlt : intent.edgeTicks < core.bufferEdge now past driftTicks := by
      by_contra hge
      rw [bufferBlock, if_neg hge] at hblock
      cases hblock
    rw [bufferBlock, if_pos (by omega)]

end

/-! ## The blocks on a drift -/

/-- The block that a drift calls for. -/
def driftBlock (gates : EntryGateConfig) (driftTicks : Int) : Option String :=
  if 0 < gates.polyDriftBlockUpTicks ∧ gates.polyDriftBlockUpTicks ≤ driftTicks then
    some "poly_drift_up"
  else if 0 < gates.polyDriftBlockDownTicks ∧ gates.polyDriftBlockDownTicks ≤ -driftTicks then
    some "poly_drift_down"
  else none

end RuntimeCore

/-- The oldest ask that the token's history holds at or after the cutoff. -/
def RuntimeState.oldestAskSince (state : RuntimeState) (token : TokenId) (cutoffUs : Int) :
    Option Int :=
  (state.quoteHistory.lookup token).bind fun ring => ring.samples.findSome? fun sample =>
    if cutoffUs ≤ sample.tsUs.micros then sample.askTicks else none

section
variable {state : RuntimeState} {token : TokenId} {cutoffUs askTicks : Int}

/-- An oldest ask is that of a sample at or after the cutoff, so there is an oldest sample. -/
theorem RuntimeState.oldestAskSince_some (h : state.oldestAskSince token cutoffUs = some askTicks) :
    (∃ past, state.quoteHistoryOldestSince token cutoffUs = some past) ∧
      ∃ ring, state.quoteHistory.lookup token = some ring ∧
        ∃ sample ∈ ring.samples, sample.askTicks = some askTicks := by
  obtain ⟨ring, hring, hfind⟩ := Option.bind_eq_some_iff.1 h
  obtain ⟨sample, hmem, hsample⟩ := List.exists_of_findSome?_eq_some hfind
  split_ifs at hsample with hle
  have hfound : (ring.oldestSince cutoffUs).isSome := by
    rw [QuoteRing.oldestSince, List.find?_isSome]
    exact ⟨sample, hmem, decide_eq_true hle⟩
  obtain ⟨past, hpast⟩ := Option.isSome_iff_exists.1 hfound
  refine ⟨⟨past, ?_⟩, ring, hring, sample, hmem, hsample⟩
  rw [quoteHistoryOldestSince, hring]
  exact hpast

/-- Where the oldest sample has an ask, it is the oldest ask. -/
theorem RuntimeState.oldestAskSince_of_ask {past : QuoteHistorySample}
    (h : state.quoteHistoryOldestSince token cutoffUs = some past)
    (hask : past.askTicks = some askTicks) :
    state.oldestAskSince token cutoffUs = some askTicks := by
  obtain ⟨ring, hring, hfind⟩ := Option.bind_eq_some_iff.1 h
  obtain ⟨hle, pre, post, hsamples, hpre⟩ := List.find?_eq_some_iff_append.1 hfind
  have hskip : (pre.findSome? fun sample : QuoteHistorySample =>
      if cutoffUs ≤ sample.tsUs.micros then sample.askTicks else none) = none := by
    rw [List.findSome?_eq_none_iff]
    intro sample hmem
    have hlt := hpre sample hmem
    simp only [Bool.not_eq_true', decide_eq_false_iff_not] at hlt
    rw [if_neg hlt]
  rw [oldestAskSince, hring, Option.bind_some, hsamples, List.findSome?_append, hskip,
    List.findSome?_cons, if_pos (of_decide_eq_true hle), hask]
  rfl

end

namespace RuntimeCore

section
variable {F : Type} {b : Build} {core : RuntimeCore F} {intent : BuyIntent} {now : TsUs}

/-- Without an ask in the oldest sample no drift gate blocks. -/
theorem entryGateBlock_one_sided {past : QuoteHistorySample} (hrtt : ¬core.RttHigh)
    (hw : 0 < core.entryGates.polyDriftWindowUs)
    (hfit : i64.Fits (now.micros - core.entryGates.polyDriftWindowUs))
    (hpast : core.state.quoteHistoryOldestSince intent.token
      (now.micros - core.entryGates.polyDriftWindowUs) = some past)
    (hask : past.askTicks = none) : core.entryGateBlock b intent now = .ok none := by
  rw [RttHigh] at hrtt
  rw [entryGateBlock, if_neg hrtt, if_neg hw.not_ge, Build.arith_of_fits hfit, Except.ok_bind,
    hpast]
  dsimp only
  rw [hask]
  rfl

/-- With an ask, a block that the drift calls for is made. -/
theorem entryGateBlock_two_sided {past : QuoteHistorySample} {askTicks : Int}
    {ask : PriceTick} {reason : String} (hrtt : ¬core.RttHigh)
    (hw : 0 < core.entryGates.polyDriftWindowUs)
    (hfit : i64.Fits (now.micros - core.entryGates.polyDriftWindowUs))
    (hpast : core.state.quoteHistoryOldestSince intent.token
      (now.micros - core.entryGates.polyDriftWindowUs) = some past)
    (hpastAsk : past.askTicks = some askTicks)
    (hask : (core.state.quoteForToken intent.token).bind (·.ask) = some ask)
    (hdrift : i32.Fits (ask.ticks - askTicks))
    (hdown : i32.Fits core.entryGates.polyDriftBlockDownTicks)
    (hblock : driftBlock core.entryGates (ask.ticks - askTicks) = some reason) :
    core.entryGateBlock b intent now = .ok (some reason) := by
  rw [RttHigh] at hrtt
  rw [entryGateBlock, if_neg hrtt, if_neg hw.not_ge, Build.arith_of_fits hfit, Except.ok_bind,
    hpast]
  simp only [hpastAsk, hask, Build.arith_of_fits hdrift, Except.ok_bind]
  rw [driftBlock] at hblock
  by_cases hup : 0 < core.entryGates.polyDriftBlockUpTicks ∧
      core.entryGates.polyDriftBlockUpTicks ≤ ask.ticks - askTicks
  · rw [if_pos hup] at hblock ⊢
    exact congrArg Except.ok hblock
  · rw [if_neg hup] at hblock ⊢
    split at hblock
    · rename_i hd
      have hfitdown : i32.Fits (-core.entryGates.polyDriftBlockDownTicks) := by
        simp only [Fits, i32_lo, i32_hi] at hdown ⊢
        omega
      rw [if_pos hd.1, Build.arith_of_fits hfitdown, Except.ok_bind, if_pos (by omega)]
      exact congrArg Except.ok hblock
    · cases hblock

/-- Where the cutoff is not a 64-bit number, a build with checks aborts. -/
theorem entryGateBlock_cutoff_overflow (hrtt : ¬core.RttHigh)
    (hw : 0 < core.entryGates.polyDriftWindowUs)
    (hfit : ¬i64.Fits (now.micros - core.entryGates.polyDriftWindowUs)) :
    core.entryGateBlock ⟨true⟩ intent now = .error .overflow := by
  rw [RttHigh] at hrtt
  rw [entryGateBlock, if_neg hrtt, if_neg hw.not_ge, Build.arith, if_neg hfit]
  rfl

/-- The block that the drift of the current ask against the oldest ask in the window calls for, if
both are there. -/
def driftDue (core : RuntimeCore F) (intent : BuyIntent) (now : TsUs) : Option String :=
  (core.state.oldestAskSince intent.token
    (now.micros - core.entryGates.polyDriftWindowUs)).bind fun askTicks =>
  ((core.state.quoteForToken intent.token).bind (·.ask)).bind fun ask =>
  driftBlock core.entryGates (ask.ticks - askTicks)

/-- What is due comes from two asks. -/
theorem driftDue_some {reason : String} (h : core.driftDue intent now = some reason) :
    ∃ askTicks ask,
      core.state.oldestAskSince intent.token
        (now.micros - core.entryGates.polyDriftWindowUs) = some askTicks ∧
      (core.state.quoteForToken intent.token).bind (·.ask) = some ask ∧
      driftBlock core.entryGates (ask.ticks - askTicks) = some reason := by
  obtain ⟨askTicks, hold, h⟩ := Option.bind_eq_some_iff.1 h
  obtain ⟨ask, hask, h⟩ := Option.bind_eq_some_iff.1 h
  exact ⟨askTicks, ask, hold, hask, h⟩

variable [F64 F]

/-- In a reachable core, behind the gate on the round trip, the block that the oldest ask in the
window calls for is made by every build if and only if none is called for, or the cutoff is a 64-bit
number and the oldest sample at or after it has an ask. -/
theorem drift_block_iff (pl : Platform) (config : Config F) (s : RuntimeSystem F)
    (hs : RuntimeSystem.Reachable pl config s) (intent : BuyIntent) (now : TsUs)
    (hrtt : ¬s.core.RttHigh) (hw : 0 < s.core.entryGates.polyDriftWindowUs)
    (hdown : i32.Fits s.core.entryGates.polyDriftBlockDownTicks) :
    (∀ reason, s.core.driftDue intent now = some reason →
        ∀ b, s.core.entryGateBlock b intent now = .ok (some reason)) ↔
      s.core.driftDue intent now = none ∨
        i64.Fits (now.micros - s.core.entryGates.polyDriftWindowUs) ∧
          ∃ past, s.core.state.quoteHistoryOldestSince intent.token
            (now.micros - s.core.entryGates.polyDriftWindowUs) = some past ∧
            past.askTicks.isSome := by
  obtain ⟨_, -, hconf⟩ := hs.configured
  refine ⟨?_, ?_⟩
  · intro hmade
    cases hdue : s.core.driftDue intent now with
    | none => exact .inl rfl
    | some reason =>
      right
      have hblock := hmade reason hdue
      obtain ⟨askTicks, ask, hold, -, -⟩ := driftDue_some hdue
      obtain ⟨⟨past, hpast⟩, -⟩ := RuntimeState.oldestAskSince_some hold
      by_contra hnot
      by_cases hfit : i64.Fits (now.micros - s.core.entryGates.polyDriftWindowUs)
      · have hnone : past.askTicks = none := by
          by_contra hne
          exact hnot ⟨hfit, past, hpast, Option.isSome_iff_ne_none.2 hne⟩
        have hopen := hblock ⟨true⟩
        rw [entryGateBlock_one_sided hrtt hw hfit hpast hnone] at hopen
        cases hopen
      · have habort := hblock ⟨true⟩
        rw [entryGateBlock_cutoff_overflow hrtt hw hfit] at habort
        cases habort
  · rintro (hnone | ⟨hfit, past, hpast, hask⟩) reason hdue b
    · rw [hnone] at hdue
      cases hdue
    · obtain ⟨pastAsk, hpastAsk⟩ := Option.isSome_iff_exists.1 hask
      obtain ⟨askTicks, ask, hold, hcurrent, hblock⟩ := driftDue_some hdue
      rw [RuntimeState.oldestAskSince_of_ask hpast hpastAsk] at hold
      cases hold
      have hold := RuntimeState.oldestAskSince_of_ask hpast hpastAsk
      obtain ⟨-, ring, hring, sample, hmem, hsample⟩ := RuntimeState.oldestAskSince_some hold
      -- both asks are from one to 99 cents
      have hfrom := hconf.priced.history _ ring hring sample hmem _ hsample
      have hto := hconf.priced.ask hcurrent
      have hdrift : i32.Fits (ask.ticks - pastAsk) := by
        simp only [PriceTick.InRange, MIN_PRICE_TICK, MAX_PRICE_TICK] at hfrom hto
        simp only [Fits, i32_lo, i32_hi]
        omega
      exact entryGateBlock_two_sided hrtt hw hfit hpast hpastAsk hcurrent hdrift hdown hblock

end

/-! ## A market whose ask is lifted -/

/-- The gates without the ceiling. -/
def openGates : EntryGateConfig :=
  { rttCeilingUs := 0, polyDriftWindowUs := 1000000, polyDriftBlockUpTicks := 4
    polyDriftBlockDownTicks := 4, polyDriftSafetyBps := 12000, polyDriftMinCleanEdgeTicks := 3 }

/-- The configuration without the ceiling. -/
def openConfig : Config Rat := { Config.runtimeEnvShape with rttCeilingUs := 0 }

/-- An intent to buy `up`. -/
def upIntent : BuyIntent := ⟨.yes, ⟨"up"⟩, ⟨44⟩, ⟨43⟩, 8⟩

open RuntimeSystem (upLevel upBook)

/-- A market with three books of `up`, whose asks are these, then one at 40, then one at 45. -/
def liftedOps (first : List Json.Value) : List (RuntimeSystem.Op Rat) :=
  [.core (.setMarket upDownMarket),
    .core (.applyMarketRaw (upBook [upLevel "0.39"] first).toBytes ⟨899980000⟩),
    .core (.applyMarketRaw (upBook [upLevel "0.39"] [upLevel "0.40"]).toBytes ⟨899990000⟩),
    .core (.applyMarketRaw (upBook [upLevel "0.39"] [upLevel "0.45"]).toBytes ⟨900500000⟩)]

/-- A platform that reads them. -/
def liftedPlatform (first : List Json.Value) : Platform :=
  .reading [upBook [upLevel "0.39"] first, upBook [upLevel "0.39"] [upLevel "0.40"],
    upBook [upLevel "0.39"] [upLevel "0.45"]]

/-- With an ask in each book the lift is blocked. -/
theorem drift_block_iff_example :
    ∃ s : RuntimeSystem Rat,
      RuntimeSystem.Reachable (liftedPlatform [upLevel "0.40"]) openConfig s ∧
      s.core.driftDue upIntent ⟨900600000⟩ = some "poly_drift_up" ∧
      ∀ b, s.core.entryGateBlock b upIntent ⟨900600000⟩ = .ok (some "poly_drift_up") := by
  have h : (RuntimeCore.new openConfig).Succeeds fun core =>
      (Machine.runM (RuntimeSystem.step (liftedPlatform [upLevel "0.40"]))
        (RuntimeSystem.init openConfig core) (liftedOps [upLevel "0.40"])).Succeeds fun s =>
          s.core.entryGates = openGates ∧
          s.core.driftDue upIntent ⟨900600000⟩ = some "poly_drift_up" ∧
          s.core.state.quoteHistoryOldestSince ⟨"up"⟩ 899600000 =
            some ⟨⟨899980000⟩, some 39, some 40⟩ := by
    simp only [liftedPlatform, Platform.reading_eq, liftedOps, Json.Value.toBytes_eq]
    decide +kernel
  obtain ⟨s, hs, hgates, hdue, hold⟩ := RuntimeSystem.exists_reachable h
  have hrtt : ¬s.core.RttHigh := by
    rw [RttHigh, hgates]
    exact fun hhigh => absurd hhigh.1 (by decide)
  have hpast : ∃ past, s.core.state.quoteHistoryOldestSince upIntent.token
      (900600000 - s.core.entryGates.polyDriftWindowUs) = some past ∧ past.askTicks.isSome := by
    rw [hgates]
    exact ⟨_, hold, rfl⟩
  refine ⟨s, hs, hdue, ?_⟩
  exact (drift_block_iff _ openConfig s hs upIntent ⟨900600000⟩ hrtt (by rw [hgates]; decide)
    (by rw [hgates]; decide)).2 (.inr ⟨by rw [hgates]; decide, hpast⟩) _ hdue

/-- With a first book that has no ask the lift from 40 to 45 passes, though it is due to be
blocked. -/
theorem drift_block_one_sided :
    ∃ s : RuntimeSystem Rat,
      RuntimeSystem.Reachable (liftedPlatform []) openConfig s ∧ ¬s.core.RttHigh ∧
      0 < s.core.entryGates.polyDriftWindowUs ∧
      s.core.state.oldestAskSince upIntent.token
        (900600000 - s.core.entryGates.polyDriftWindowUs) = some 40 ∧
      (s.core.state.quoteForToken upIntent.token).bind (·.ask) = some ⟨45⟩ ∧
      s.core.driftDue upIntent ⟨900600000⟩ = some "poly_drift_up" ∧
      ∀ b, s.core.entryGateBlock b upIntent ⟨900600000⟩ = .ok none := by
  have h : (RuntimeCore.new openConfig).Succeeds fun core =>
      (Machine.runM (RuntimeSystem.step (liftedPlatform []))
        (RuntimeSystem.init openConfig core) (liftedOps [])).Succeeds fun s =>
          s.core.entryGates = openGates ∧
          s.core.state.oldestAskSince ⟨"up"⟩ 899600000 = some 40 ∧
          (s.core.state.quoteForToken ⟨"up"⟩).bind (·.ask) = some ⟨45⟩ ∧
          s.core.driftDue upIntent ⟨900600000⟩ = some "poly_drift_up" ∧
          s.core.entryGateBlock ⟨true⟩ upIntent ⟨900600000⟩ = .ok none ∧
          s.core.entryGateBlock ⟨false⟩ upIntent ⟨900600000⟩ = .ok none := by
    simp only [liftedPlatform, Platform.reading_eq, liftedOps, Json.Value.toBytes_eq]
    decide +kernel
  obtain ⟨s, hs, hgates, hold, hask, hdue, hchecked, hwrapped⟩ := RuntimeSystem.exists_reachable h
  refine ⟨s, hs, ?_, ?_, ?_, hask, hdue, ?_⟩
  · rw [RttHigh, hgates]
    exact fun hhigh => absurd hhigh.1 (by decide)
  · rw [hgates]
    decide
  · rw [hgates]
    exact hold
  · rintro ⟨_ | _⟩
    · exact hwrapped
    · exact hchecked

/-! ## A market whose ask moves by a tick -/

/-- The ask of `up` moved from 40 to 41, and this is the average. -/
structure AskMoved (core : RuntimeCore Rat) (ewma : Int) : Prop where
  gates : core.entryGates = openGates
  ewma : core.rttEwmaUs = ewma
  oldest : core.state.quoteHistoryOldestSince ⟨"up"⟩ 899600000 =
    some ⟨⟨899990000⟩, some 39, some 40⟩
  ask : (core.state.quoteForToken ⟨"up"⟩).bind (·.ask) = some ⟨41⟩

instance (core : RuntimeCore Rat) (ewma : Int) : Decidable (core.AskMoved ewma) :=
  decidable_of_iff
    (core.entryGates = openGates ∧ core.rttEwmaUs = ewma ∧
      core.state.quoteHistoryOldestSince ⟨"up"⟩ 899600000 =
        some ⟨⟨899990000⟩, some 39, some 40⟩ ∧
      (core.state.quoteForToken ⟨"up"⟩).bind (·.ask) = some ⟨41⟩)
    ⟨fun ⟨h₁, h₂, h₃, h₄⟩ => ⟨h₁, h₂, h₃, h₄⟩, fun h => ⟨h.gates, h.ewma, h.oldest, h.ask⟩⟩

/-- The decision gets as far as the buffer. -/
theorem AskMoved.reaches {core : RuntimeCore Rat} {ewma : Int} (h : core.AskMoved ewma) :
    core.ReachesBuffer upIntent ⟨900600000⟩ ⟨⟨899990000⟩, some 39, some 40⟩ 1 where
  rttLow := by
    rw [RttHigh, h.gates]
    exact fun hhigh => absurd hhigh.1 (by decide)
  window := by
    rw [h.gates]
    decide
  cutoff := by
    rw [h.gates]
    decide
  oldest := by
    rw [h.gates]
    exact h.oldest
  drift := ⟨40, ⟨41⟩, rfl, h.ask, rfl⟩
  up := by
    rw [h.gates]
    decide
  down := by
    rw [h.gates]
    decide

/-- No operation of the buffer leaves its range. -/
theorem AskMoved.range {core : RuntimeCore Rat} {ewma : Int} (h : core.AskMoved ewma)
    (hewma : 1 ≤ ewma ∧ ewma ≤ i64.hi) :
    core.BufferRange ⟨900600000⟩ ⟨⟨899990000⟩, some 39, some 40⟩ 1 where
  rtt := by rwa [h.ewma]
  drift := by decide
  safety := by
    rw [h.gates]
    decide
  dt := by decide
  clean := by
    rw [h.gates]
    decide
  blockDown := by
    rw [h.gates]
    decide

/-- The book of `up` with the ask at 41. -/
def movedFrame : Json.Value :=
  .array [
    .object [("event_type", .string "book"), ("asset_id", .string "up"),
      ("bids", .array [.object [("price", .string "0.40"), ("size", .string "500")]]),
      ("asks", .array [.object [("price", .string "0.41"), ("size", .string "500")]])]]

/-- An entry, whose submit takes `rtt`, and then the ask moves. -/
def movedOps (rtt : Rtt) : List (RuntimeSystem.Op Rat) :=
  RuntimeSystem.entryOps ++
    [.resolve 0 (.rejected 400 none) rtt 900400000,
      .core (.applyMarketRaw movedFrame.toBytes ⟨900500000⟩)]

/-- Of a round trip of 0.8 seconds the gate asks for the exact edge, which is five ticks; a longer
one asks for no less. -/
theorem drift_buffer_exact_iff_example :
    ∃ s : RuntimeSystem Rat,
      RuntimeSystem.Reachable (.reading [RuntimeSystem.bookFrame, movedFrame]) openConfig s ∧
      s.core.AskMoved 800000 ∧
      s.core.bufferEdge ⟨900600000⟩ ⟨⟨899990000⟩, some 39, some 40⟩ 1 = 5 ∧
      ∀ b, s.core.entryGateBlock b upIntent ⟨900600000⟩ = .ok none := by
  have h : (RuntimeCore.new openConfig).Succeeds fun core =>
      (Machine.runM (RuntimeSystem.step (.reading [RuntimeSystem.bookFrame, movedFrame]))
        (RuntimeSystem.init openConfig core) (movedOps ⟨800000, by decide, by decide⟩)).Succeeds
          fun s => s.core.AskMoved 800000 := by
    simp only [Platform.reading_eq, movedOps, RuntimeSystem.entryOps, Json.Value.toBytes_eq]
    decide +kernel
  obtain ⟨s, hs, hmoved⟩ := RuntimeSystem.exists_reachable h
  have hedge : s.core.bufferEdge ⟨900600000⟩ ⟨⟨899990000⟩, some 39, some 40⟩ 1 = 5 := by
    rw [bufferEdge, hmoved.ewma, hmoved.gates]
    decide +kernel
  refine ⟨s, hs, hmoved, hedge, fun b => ?_⟩
  have hcond : (1 : Int) = 0 ∨ s.core.bufferNumer 1 +
      bufferDenom ⟨900600000⟩ ⟨⟨899990000⟩, some 39, some 40⟩ ≤ i64.hi := by
    rw [bufferNumer, hmoved.ewma, hmoved.gates]
    decide
  have hexact := (drift_buffer_exact_iff s.core upIntent ⟨900600000⟩ _ 1 hmoved.reaches
    (hmoved.range (by decide))).1.2 hcond b
  rw [hexact, hedge]
  rfl

/-- Of a round trip of 10 to the 15 microseconds the sum overflows: a build with checks aborts, and
one without lets an intent pass whose edge is far below the one to ask for. -/
theorem drift_buffer_overflows :
    ∃ s : RuntimeSystem Rat,
      RuntimeSystem.Reachable (.reading [RuntimeSystem.bookFrame, movedFrame]) openConfig s ∧
      s.core.ReachesBuffer upIntent ⟨900600000⟩ ⟨⟨899990000⟩, some 39, some 40⟩ 1 ∧
      s.core.BufferRange ⟨900600000⟩ ⟨⟨899990000⟩, some 39, some 40⟩ 1 ∧
      upIntent.edgeTicks < s.core.bufferEdge ⟨900600000⟩ ⟨⟨899990000⟩, some 39, some 40⟩ 1 ∧
      s.core.entryGateBlock ⟨true⟩ upIntent ⟨900600000⟩ = .error .overflow ∧
      s.core.entryGateBlock ⟨false⟩ upIntent ⟨900600000⟩ = .ok none := by
  have h : (RuntimeCore.new openConfig).Succeeds fun core =>
      (Machine.runM (RuntimeSystem.step (.reading [RuntimeSystem.bookFrame, movedFrame]))
        (RuntimeSystem.init openConfig core)
        (movedOps ⟨1000000000000000, by decide, by decide⟩)).Succeeds
          fun s => s.core.AskMoved 1000000000000000 ∧
            s.core.entryGateBlock ⟨true⟩ upIntent ⟨900600000⟩ = .error .overflow ∧
            s.core.entryGateBlock ⟨false⟩ upIntent ⟨900600000⟩ = .ok none := by
    simp only [Platform.reading_eq, movedOps, RuntimeSystem.entryOps, Json.Value.toBytes_eq]
    decide +kernel
  obtain ⟨s, hs, hmoved, hchecked, hwrapped⟩ := RuntimeSystem.exists_reachable h
  refine ⟨s, hs, hmoved.reaches, hmoved.range (by decide), ?_, hchecked, hwrapped⟩
  rw [bufferEdge, hmoved.ewma, hmoved.gates]
  decide +kernel

end RuntimeCore

end Polyrust
