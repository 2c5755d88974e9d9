import Mathlib.Tactic.FieldSimp
import Mathlib.Tactic.Ring
import Polyrust.Lib.Run
import Polyrust.Signal.Agreement

/-!
# Up and down

The engine decides with one body for both sides of the market, and judges positions with another.
Where no operation rounds it treats the sides alike: if every price is reflected at the strike, and
the two sides of the book of the exchange, the two books of the market and its two tokens change
places, every intent is for the same token and at the same prices as before, and on the other side,
and every judgement of the other side is what that of the side was (`reflected_decides`). The one
exception is a price that is the strike: there `phi` is not exactly a half.
-/

namespace Polyrust

open IntWidth F64

/-! ## Reflection -/

/-- The sample with its prices reflected, and bid and ask exchanged. -/
def BinanceSample.reflect (axis : Rat) (sample : BinanceSample Rat) : BinanceSample Rat :=
  { sample with
    bid := 2 * axis - sample.ask, ask := 2 * axis - sample.bid
    bidQty := sample.askQty, askQty := sample.bidQty
    microprice := 2 * axis - sample.microprice }

/-- An accepted sample with its price on the other side of the strike, and the pressure turned
round. -/
def SignalPoint.reflect (axis : Rat) (point : SignalPoint Rat) : SignalPoint Rat :=
  { point with
    microprice := 2 * axis - point.microprice, ofi := -point.ofi, imbalance := -point.imbalance }

/-- The market with its tokens exchanged. -/
def MarketContext.exchange (market : MarketContext) : MarketContext :=
  { market with yesToken := market.noToken, noToken := market.yesToken }

/-- An intent turned to the other side. -/
def BuyIntent.turn (intent : BuyIntent) : BuyIntent := { intent with side := intent.side.other }

/-! ## The normal distribution -/

/-- The literals of the source, as rational numbers. -/
theorem f64_literals : (0.0 : Rat) = 0 ∧ (1.0 : Rat) = 1 ∧ (100.0 : Rat) = 100 := by norm_num

/-- The distribution function is symmetric, except at zero. -/
theorem phi_neg {z : Rat} (hz : z ≠ 0) : phi (-z) = 1 - phi z := by
  rcases lt_or_gt_of_ne hz with h | h
  · have hz' : (F64.le 0.0 z) = false := by simpa [F64.le, f64_literals] using h
    have hnz : (F64.le 0.0 (-z)) = true := by simpa [F64.le, f64_literals] using h.le
    rw [phi, phi, if_pos hnz, if_neg (by simp [hz']), f64_literals.2.1]
  · have hz' : (F64.le 0.0 z) = true := by simpa [F64.le, f64_literals] using h.le
    have hnz : (F64.le 0.0 (-z)) = false := by simpa [F64.le, f64_literals] using h
    rw [phi, phi, if_neg (by simp [hnz]), if_pos hz', neg_neg, f64_literals.2.1]
    exact (sub_sub_cancel 1 (phiTail z)).symm

/-- So is its inverse. -/
theorem phiInv_one_sub {p : Rat} (hlo : 0 < p) (hhi : p < 1) : phiInv (1 - p) = -phiInv p := by
  have hin : (F64.lt 0.0 p && F64.lt p 1.0) = true := by
    simp [F64.lt, f64_literals, hlo, hhi]
  have hin' : (F64.lt 0.0 (1 - p) && F64.lt (1 - p) 1.0) = true := by
    simp [F64.lt, f64_literals, hlo, hhi]
  have hlow : (0.02425 : Rat) = 97 / 4000 := by norm_num
  rw [phiInv, phiInv, hin, hin']
  simp only [Bool.not_true, Bool.false_eq_true, if_false, F64.lt, F64.le, decide_eq_true_eq,
    f64_literals.2.1, hlow]
  rcases lt_or_ge p (97 / 4000) with h | h
  · rw [if_pos h, if_neg (by linarith), if_neg (by linarith), sub_sub_cancel, neg_div]
  rcases lt_or_ge (1 - 97 / 4000) p with h' | h'
  · rw [if_pos (by linarith), if_neg (by linarith), if_neg (by linarith), neg_div, neg_neg]
  · rw [if_neg (by linarith), if_pos (by linarith), if_neg (by linarith), if_pos (by linarith)]
    have hhalf : 1 - p - 0.5 = -(p - 0.5) := by norm_num; ring
    rw [hhalf, neg_mul_neg, mul_neg, neg_div]

namespace SignalEngine

/-! ## Samples -/

/-- A price whose reflection is a price too, and that is not the axis itself. -/
structure Inside (axis price : Rat) : Prop where
  pos : 0 < price
  below : price < 2 * axis
  off : price ≠ axis

instance (axis price : Rat) : Decidable (Inside axis price) :=
  decidable_of_iff (0 < price ∧ price < 2 * axis ∧ price ≠ axis)
    ⟨fun ⟨hpos, hbelow, hoff⟩ => ⟨hpos, hbelow, hoff⟩,
      fun ⟨hpos, hbelow, hoff⟩ => ⟨hpos, hbelow, hoff⟩⟩

/-- The prices of a sample that can be reflected. -/
structure Reflectable (axis : Rat) (sample : BinanceSample Rat) : Prop where
  bid : 0 < sample.bid ∧ sample.bid < 2 * axis
  ask : 0 < sample.ask ∧ sample.ask < 2 * axis
  microprice : Inside axis sample.microprice

instance (axis : Rat) (sample : BinanceSample Rat) : Decidable (Reflectable axis sample) :=
  decidable_of_iff ((0 < sample.bid ∧ sample.bid < 2 * axis) ∧
      (0 < sample.ask ∧ sample.ask < 2 * axis) ∧ Inside axis sample.microprice)
    ⟨fun ⟨hbid, hask, hmicro⟩ => ⟨hbid, hask, hmicro⟩,
      fun ⟨hbid, hask, hmicro⟩ => ⟨hbid, hask, hmicro⟩⟩

/-- The configuration treats both sides alike, and asks for a move. -/
structure Balanced (cfg : SignalConfig Rat) : Prop where
  move : 0 < cfg.minMoveUsd
  floor : 0 ≤ cfg.probFloor
  half : cfg.probFloor ≤ 1 / 2
  ceil : cfg.probCeil = 1 - cfg.probFloor

/-- The second engine holds what the first one does, reflected at the strike of both. -/
structure Reflects (axis : Rat) (engine engine' : SignalEngine Rat) : Prop where
  cfg : engine'.cfg = engine.cfg
  strike : engine.strike = axis
  strike' : engine'.strike = axis
  samples : engine'.samples = engine.samples.map (.reflect axis)
  lastUpdateId : engine'.lastUpdateId = engine.lastUpdateId
  last : engine.samples ≠ [] →
    engine'.lastBid = 2 * axis - engine.lastAsk ∧ engine'.lastAsk = 2 * axis - engine.lastBid ∧
      engine'.lastBidQty = engine.lastAskQty ∧ engine'.lastAskQty = engine.lastBidQty
  inside : ∀ point ∈ engine.samples, Inside axis point.microprice

section
variable {axis : Rat} {engine engine' : SignalEngine Rat} {sample : BinanceSample Rat}

/-- An order flow on the other side. -/
theorem Reflects.computeOfi (h : Reflects axis engine engine') (sample : BinanceSample Rat) :
    engine'.computeOfi (sample.reflect axis) = -engine.computeOfi sample := by
  unfold SignalEngine.computeOfi
  cases hs : engine.samples with
  | nil =>
    rw [h.samples, hs]
    norm_num
  | cons point rest =>
    obtain ⟨hbid, hask, hbidQty, haskQty⟩ := h.last (by rw [hs]; simp)
    rw [h.samples, hs]
    simp only [BinanceSample.reflect, hbid, hask, hbidQty, haskQty, F64.le, decide_eq_true_eq,
      sub_le_sub_iff_left, List.map_cons, List.isEmpty_cons, Bool.false_eq_true, if_false,
      f64_literals.1]
    ring

/-- The reflected sample passes the checks where the sample does. -/
theorem Reflects.accepts (h : Reflects axis engine engine') (hs : Reflectable axis sample) :
    engine'.accepts (sample.reflect axis) = engine.accepts sample := by
  have hlast : (engine'.samples.getLast?.any fun last =>
      decide (sample.tsUs.micros ≤ last.tsUs.micros)) =
        engine.samples.getLast?.any fun last => decide (sample.tsUs.micros ≤ last.tsUs.micros) := by
    rw [h.samples, List.getLast?_map]
    cases engine.samples.getLast? <;> rfl
  obtain ⟨hbid, hbid'⟩ := hs.bid
  obtain ⟨hask, hask'⟩ := hs.ask
  obtain ⟨hmicro, hmicro', -⟩ := hs.microprice
  have hspread : 2 * axis - sample.bid - (2 * axis - sample.ask) = sample.ask - sample.bid := by
    ring
  unfold SignalEngine.accepts
  refine congrArg₂ (fun x y => x && !y) ?_ hlast
  simp only [BinanceSample.reflect, h.cfg, h.lastUpdateId, F64.le, F64.lt, F64.isFinite,
    f64_literals.1, sub_nonpos, sub_lt_sub_iff_left, hspread,
    add_comm sample.askQty sample.bidQty, not_le.2 hbid, not_le.2 hbid', not_le.2 hask,
    not_le.2 hask', not_le.2 hmicro, not_le.2 hmicro', decide_false, Bool.or_assoc,
    Bool.or_comm (decide (sample.askQty ≤ 0))]

/-- An offered sample and its reflection are accepted or refused together. -/
theorem Reflects.pushReceived (h : Reflects axis engine engine') (hs : Reflectable axis sample)
    (recvTsUs : TsUs) :
    (engine'.pushReceived (sample.reflect axis) recvTsUs).2 =
        (engine.pushReceived sample recvTsUs).2 ∧
      Reflects axis (engine.pushReceived sample recvTsUs).1
        (engine'.pushReceived (sample.reflect axis) recvTsUs).1 := by
  rw [SignalEngine.pushReceived, SignalEngine.pushReceived, h.accepts hs]
  cases engine.accepts sample with
  | false => exact ⟨rfl, h⟩
  | true =>
    have himbalance : (sample.askQty - sample.bidQty) / (sample.askQty + sample.bidQty) =
        -((sample.bidQty - sample.askQty) / (sample.bidQty + sample.askQty)) := by
      rw [add_comm sample.askQty, ← neg_div, neg_sub]
    refine ⟨rfl, h.cfg, h.strike, h.strike', ?_, rfl, fun _ => ⟨rfl, rfl, rfl, rfl⟩, ?_⟩
    · simp only [Bool.not_true, Bool.false_eq_true, if_false, h.computeOfi, h.samples, h.cfg,
        List.map_append, List.map_drop, List.length_map, List.map_cons, List.map_nil]
      simp only [BinanceSample.reflect, SignalPoint.reflect, himbalance]
    · intro point hp
      rcases List.mem_append.1 hp with hp | hp
      · exact h.inside point (List.mem_of_mem_drop hp)
      · cases List.mem_singleton.1 hp
        exact hs.microprice

/-! ## The window -/

/-- The window over the reflected samples is the reflected window. -/
theorem Reflects.latestWindow (h : Reflects axis engine engine') (b : Build) :
    engine'.latestWindow b =
      (engine.latestWindow b).map
        (Option.map (Prod.map (SignalPoint.reflect axis) (SignalPoint.reflect axis))) := by
  have holdest : ∀ cutoffUs, engine'.oldestSince cutoffUs =
      (engine.oldestSince cutoffUs).map (SignalPoint.reflect axis) := by
    intro cutoffUs
    rw [oldestSince, h.samples, List.find?_map]
    rfl
  unfold SignalEngine.latestWindow
  rw [h.samples, List.getLast?_map, h.cfg]
  cases engine.samples.getLast? with
  | none => rfl
  | some latest =>
    dsimp only [Option.map_some, SignalPoint.reflect]
    cases b.arith i64 (latest.tsUs.micros - engine.cfg.maxWindowUs) with
    | error e => rfl
    | ok cutoff =>
      rw [Except.ok_bind, Except.ok_bind, holdest]
      cases engine.oldestSince cutoff with
      | none => rfl
      | some windowBase =>
        dsimp only [Option.map_some, SignalPoint.reflect]
        cases b.arith i64 (latest.tsUs.micros - windowBase.tsUs.micros) with
        | error e => rfl
        | ok windowUs =>
          rw [Except.ok_bind, Except.ok_bind]
          split <;> rfl

/-- The samples of a window. -/
theorem Reflects.filter (h : Reflects axis engine engine') (cutoffUs : Int) :
    (engine'.samples.filter fun sample => cutoffUs ≤ sample.tsUs.micros) =
      (engine.samples.filter fun sample => cutoffUs ≤ sample.tsUs.micros).map (.reflect axis) := by
  rw [h.samples, List.filter_map]
  rfl

/-- The sum of the negated numbers is the negated sum. -/
theorem sum_neg (xs : List Rat) : F64.sum (xs.map fun x => -x) = -F64.sum xs := by
  have hacc : ∀ acc : Rat, (xs.map fun x => -x).foldl (fun acc x => acc + x) (-acc) =
      -xs.foldl (fun acc x => acc + x) acc := by
    induction xs with
    | nil => exact fun _ => rfl
    | cons x xs ih =>
      intro acc
      rw [List.map_cons, List.foldl_cons, List.foldl_cons, ← neg_add, ih]
  rw [F64.sum, F64.sum, ← hacc, f64_literals.1, neg_zero]

/-- The order flow over the window changes its sign. -/
theorem Reflects.ofiSumSince (h : Reflects axis engine engine') (cutoffUs : Int) :
    engine'.ofiSumSince cutoffUs = -engine.ofiSumSince cutoffUs := by
  rw [SignalEngine.ofiSumSince, h.filter, SignalEngine.ofiSumSince, ← sum_neg, List.map_map,
    List.map_map]
  rfl

/-- The squared moves do not know up from down. -/
theorem sigmaLoop_reflect (b : Build) (axis : Rat) (p : Option (SignalPoint Rat))
    (sumSq totalDtS : Rat) (samples : List (SignalPoint Rat)) :
    sigmaLoop b (p.map (.reflect axis)) sumSq totalDtS (samples.map (.reflect axis)) =
      sigmaLoop b p sumSq totalDtS samples := by
  induction samples generalizing p sumSq totalDtS with
  | nil => simp [sigmaLoop]
  | cons sample rest ih =>
    rw [List.map_cons]
    cases p with
    | none => exact ih (some sample) sumSq totalDtS
    | some p =>
      have hdp : (2 * axis - sample.microprice - (2 * axis - p.microprice)) *
          (2 * axis - sample.microprice - (2 * axis - p.microprice)) =
            (sample.microprice - p.microprice) * (sample.microprice - p.microprice) := by
        ring
      simp only [Option.map_some, sigmaLoop]
      congr 1
      funext dtUs
      rw [← ih (some sample), Option.map_some]
      simp only [SignalPoint.reflect, hdp]

/-- The volatility over the window stays the same, as it squares the moves. -/
theorem Reflects.realizedSigmaSince (h : Reflects axis engine engine') (b : Build)
    (cutoffUs : Int) : engine'.realizedSigmaSince b cutoffUs =
      engine.realizedSigmaSince b cutoffUs := by
  have hloop := sigmaLoop_reflect b axis none 0.0 0.0
    (engine.samples.filter fun sample => cutoffUs ≤ sample.tsUs.micros)
  rw [Option.map_none] at hloop
  unfold SignalEngine.realizedSigmaSince
  rw [h.filter, h.samples, List.length_map, hloop]

/-! ## The probability -/

/-- A clamp between bounds that are each other's complement. -/
theorem clamp_one_sub {lo hi : Rat} (hhi : hi = 1 - lo) (hle : lo ≤ hi) (x : Rat) :
    F64.clamp (1 - x) lo hi = (F64.clamp x lo hi).map (1 - ·) := by
  simp only [F64.clamp, F64.le, F64.lt, decide_eq_true_eq, if_pos hle, Except.map]
  refine congrArg _ ?_
  rcases lt_or_ge x lo with hlo | hlo
  · rw [if_neg (by linarith : ¬1 - x < lo), if_pos hlo, if_pos (by linarith : hi < 1 - x),
      if_neg (not_lt.2 hle), hhi]
  rcases lt_or_ge hi x with hx | hx
  · rw [if_pos (by linarith : 1 - x < lo), if_neg (not_lt.2 hlo), if_pos hx,
      if_neg (not_lt.2 hle), hhi, sub_sub_cancel]
  · rw [if_neg (by linarith : ¬1 - x < lo), if_neg (not_lt.2 hlo), if_neg (not_lt.2 hx),
      if_neg (by linarith : ¬hi < 1 - x)]

/-- The clamp of an implied probability. -/
theorem clamp_hint_one_sub (p : Rat) :
    F64.clamp (1 - p) 1e-6 (1.0 - 1e-6) = (F64.clamp p 1e-6 (1.0 - 1e-6)).map (1 - ·) :=
  clamp_one_sub (by norm_num) (by norm_num) p

/-- An implied probability is clamped to one strictly between 0 and 1. -/
theorem clamp_hint_ok (p : Rat) :
    ∃ q, F64.clamp p 1e-6 (1.0 - 1e-6) = .ok q ∧ 0 < q ∧ q < 1 := by
  obtain ⟨q, hq⟩ := clamp_hint_total p
  obtain ⟨hlo, hhi⟩ := clamp_bounds hq
  change (1e-6 : Rat) ≤ q at hlo
  change q ≤ (1.0 - 1e-6 : Rat) at hhi
  norm_num at hlo hhi
  exact ⟨q, hq, by linarith, by linarith⟩

/-- A number and its negation are of the same size. -/
theorem abs_neg_rat (z : Rat) : F64.abs (-z) = F64.abs z := by
  have h := Exact.abs (-z)
  rw [Exact.neg, abs_neg, ← Exact.abs] at h
  exact h

/-- A drift the other way and the other probability imply the same volatility. -/
theorem impliedSigma_reflect (drift : Rat) (hint : Option Rat) :
    impliedSigma (-drift) (hint.map (1 - ·)) = impliedSigma drift hint := by
  cases hint with
  | none => rfl
  | some p =>
    obtain ⟨q, hq, hlo, hhi⟩ := clamp_hint_ok p
    unfold impliedSigma
    simp only [Option.map_some, clamp_hint_one_sub, hq, Except.map, Except.ok_bind,
      phiInv_one_sub hlo hhi, abs_neg_rat, neg_div_neg_eq]
    rfl

/-- Checked arithmetic fails in one way only. -/
theorem arith_error {b : Build} {w : IntWidth} {x : Int} {e : Abort}
    (h : b.arith w x = .error e) : e = .overflow := by
  unfold Build.arith at h
  split at h
  · cases h
  · split at h
    · cases h
      rfl
    · cases h

/-- The middle of a quote aborts in one way. -/
theorem quoteMid_error {b : Build} {q : Quote} {e : Abort}
    (h : (quoteMid b q : Exec (Option Rat)) = .error e) : e = .overflow := by
  unfold quoteMid at h
  cases hbid : q.bid with
  | none =>
    rw [hbid] at h
    cases h
  | some bid =>
    cases hask : q.ask with
    | none =>
      rw [hbid, hask] at h
      cases h
    | some ask =>
      simp only [hbid, hask] at h
      split at h
      · cases h
      · cases hsum : b.arith i32 (bid.ticks + ask.ticks) with
        | error e' =>
          rw [hsum] at h
          cases h
          exact arith_error hsum
        | ok sum =>
          rw [hsum] at h
          cases h

/-- With the two books exchanged, the prices imply the complement. -/
theorem impliedPYesFor_exchange (b : Build) (yesQuote noQuote : Quote) :
    impliedPYesFor b noQuote yesQuote =
      (impliedPYesFor b yesQuote noQuote).map (Option.map fun p : Rat => 1 - p) := by
  unfold impliedPYesFor
  cases hyes : (quoteMid b yesQuote : Exec (Option Rat)) with
  | error e =>
    cases hno : (quoteMid b noQuote : Exec (Option Rat)) with
    | error e' =>
      rw [quoteMid_error hyes, quoteMid_error hno]
      rfl
    | ok n => rfl
  | ok y =>
    cases hno : (quoteMid b noQuote : Exec (Option Rat)) with
    | error e' => rfl
    | ok n =>
      simp only [Except.ok_bind]
      cases y with
      | none =>
        cases n with
        | none => rfl
        | some n =>
          obtain ⟨q, hq, -⟩ := clamp_hint_ok n
          have hone : (1.0 - n : Rat) = 1 - n := by rw [f64_literals.2.1]
          simp only [hone, clamp_hint_one_sub, hq, Except.map, Except.ok_bind]
          change Except.ok (some q) = Except.ok (some (1 - (1 - q)))
          rw [sub_sub_cancel]
      | some y =>
        cases n with
        | none =>
          obtain ⟨q, hq, -⟩ := clamp_hint_ok y
          have hone : (1.0 - y : Rat) = 1 - y := by rw [f64_literals.2.1]
          simp only [hone, clamp_hint_one_sub, hq, Except.map, Except.ok_bind]
          rfl
        | some n =>
          obtain ⟨q, hq, -⟩ := clamp_hint_ok (y / (y + n))
          dsimp only
          rw [add_comm n y]
          split
          · next htotal =>
            have hpos : y + n ≠ 0 := by
              simp only [F64.lt, F64.isFinite, Bool.and_true, decide_eq_true_eq] at htotal
              norm_num at htotal
              intro h
              rw [h] at htotal
              norm_num at htotal
            have hshare : n / (y + n) = 1 - y / (y + n) := by
              rw [eq_sub_iff_add_eq, ← add_div, add_comm n, div_self hpos]
            simp only [hshare, clamp_hint_one_sub, hq, Except.map, Except.ok_bind]
            rfl
          · rfl

/-- The bounds of the probability. -/
theorem Balanced.clamps {cfg : SignalConfig Rat} (h : Balanced cfg) :
    F64.clamp cfg.probFloor 0.0 1.0 = .ok cfg.probFloor ∧
      F64.clamp cfg.probCeil cfg.probFloor 1.0 = .ok cfg.probCeil := by
  obtain ⟨-, hfloor, hhalf, hceil⟩ := h
  simp only [F64.clamp, F64.le, F64.lt, f64_literals.1, f64_literals.2.1, decide_eq_true_eq, hceil]
  refine ⟨?_, ?_⟩
  · rw [if_pos zero_le_one, if_neg (not_lt.2 hfloor), if_neg (by linarith)]
  · rw [if_pos (by linarith : cfg.probFloor ≤ 1),
      if_neg (by linarith : ¬1 - cfg.probFloor < cfg.probFloor), if_neg (by linarith)]

/-- The last step of the probability, for a volatility. -/
theorem Balanced.clamp_cdf {cfg : SignalConfig Rat} (h : Balanced cfg) {cdf : Rat → Rat}
    (hcdf : ∀ z, z ≠ 0 → cdf (-z) = 1 - cdf z) {drift : Rat} (hd : drift ≠ 0) (sigmaEff : Rat) :
    (if F64.le sigmaEff 1e-9 then pure none
      else do
        let p ← F64.clamp (cdf (-drift / sigmaEff)) cfg.probFloor cfg.probCeil
        pure (some p) : Exec (Option Rat)) =
      (if F64.le sigmaEff 1e-9 then pure none
        else do
          let p ← F64.clamp (cdf (drift / sigmaEff)) cfg.probFloor cfg.probCeil
          pure (some p) : Exec (Option Rat)).map (Option.map (1 - ·)) := by
  split
  · rfl
  · next hsigma =>
    have hne : sigmaEff ≠ 0 := by
      intro h₀
      rw [h₀] at hsigma
      exact hsigma (decide_eq_true (by norm_num : (0 : Rat) ≤ 1e-9))
    have hle : cfg.probFloor ≤ cfg.probCeil := by
      have := h.half
      rw [h.ceil]
      linarith
    rw [neg_div, hcdf _ (div_ne_zero hd hne), clamp_one_sub h.ceil hle]
    cases F64.clamp (cdf (drift / sigmaEff)) cfg.probFloor cfg.probCeil <;> rfl

/-- The reflected price has the complementary probability. -/
theorem Reflects.probYesWith {cdf : Rat → Rat} (hcdf : ∀ z, z ≠ 0 → cdf (-z) = 1 - cdf z)
    (h : Reflects axis engine engine') (hb : Balanced engine.cfg) {x : Rat} (hx : Inside axis x)
    (b : Build) (ts : TsUs) (tteUs : Int) (hint : Option Rat) :
    engine'.probYesWith cdf b (2 * axis - x) ts tteUs (hint.map (1 - ·)) =
      (engine.probYesWith cdf b x ts tteUs hint).map (Option.map (1 - ·)) := by
  obtain ⟨hpos, hbelow, hoff⟩ := hx
  have hdrift : 2 * axis - x - axis = -(x - axis) := by ring
  have hdrift₀ : x - axis ≠ 0 := sub_ne_zero.2 hoff
  have hfar : 0 < 2 * axis - x := by linarith
  have hx₀ : F64.le x 0.0 = false := by simpa [F64.le, f64_literals] using hpos
  have hfar₀ : F64.le (2 * axis - x) 0.0 = false := by simpa [F64.le, f64_literals] using hfar
  unfold SignalEngine.probYesWith
  rw [hx₀, hfar₀, h.cfg, h.strike, h.strike', hdrift]
  have hfinite : ∀ z : Rat, F64.isFinite z = true := fun _ => rfl
  simp only [impliedSigma_reflect, h.realizedSigmaSince, hfinite, Bool.not_true, Bool.false_or,
    Bool.false_eq_true, if_false, hb.clamps.1, hb.clamps.2, Except.ok_bind]
  split
  · rfl
  cases b.arith i64 (ts.micros - engine.cfg.maxWindowUs) with
  | error e => rfl
  | ok cutoff =>
  rw [Except.ok_bind, Except.ok_bind]
  cases engine.realizedSigmaSince b cutoff with
  | error e => rfl
  | ok sigma =>
  rw [Except.ok_bind, Except.ok_bind]
  cases impliedSigma (x - axis) hint with
  | error e => rfl
  | ok implied =>
  rw [Except.ok_bind, Except.ok_bind]
  generalize F64.max sigma engine.cfg.probSigmaFloorUsd * _ = realizedEff
  cases implied with
  | none => exact hb.clamp_cdf hcdf hdrift₀ realizedEff
  | some implied => exact hb.clamp_cdf hcdf hdrift₀ (F64.max realizedEff implied)

/-! ## The decision -/

/-- The pressure is against the one side where the reflected pressure is against the other. -/
theorem Reflects.pressureAgainst (h : Reflects axis engine engine') (side : OutcomeSide)
    (ofiSum imbalance : Rat) : engine'.pressureAgainst side.other (-ofiSum) (-imbalance) =
      engine.pressureAgainst side ofiSum imbalance := by
  unfold SignalEngine.pressureAgainst
  rw [h.cfg]
  cases side with
  | yes => simp [F64.lt, OutcomeSide.other]
  | no => simp [F64.lt, OutcomeSide.other, neg_lt]

/-- `decide_latest` from the pressure checks on, for the side of the move. -/
def decideSide {F : Type} [F64 F] (cdf : F → F) (b : Build) (engine : SignalEngine F)
    (side : OutcomeSide) (quote : Quote) (token : TokenId) (latest : SignalPoint F)
    (hint : Exec (Option F)) (now : TsUs) (tteUs : Int) : Exec (Option BuyIntent) := do
  let cutoff ← b.arith i64 (latest.tsUs.micros - engine.cfg.maxWindowUs)
  let ofiSum := engine.ofiSumSince cutoff
  if engine.pressureAgainst side ofiSum latest.imbalance then return none
  let some entryAsk ← quote.buyCutoffForCents b engine.cfg.entryNotionalCents | return none
  let quoteAge ← b.arith i64 (now.micros - quote.tsUs.micros)
  if quoteAge < 0 ∨ engine.cfg.maxQuoteAgeUs < quoteAge then return none
  let some limitTicks := i32.checked (entryAsk.ticks + engine.cfg.entrySlippageTicks) | return none
  let some limit := (PriceTick.checked limitTicks).toOption | return none
  if limit.ticks < engine.cfg.minBuyLimit.ticks ∨ engine.cfg.maxBuyLimit.ticks < limit.ticks then
    return none
  let edgeSlippageTicks := (← b.arith i32 (engine.cfg.entrySlippageTicks + 1)).tdiv 2
  let some edgePriceTicks := i32.checked (entryAsk.ticks + edgeSlippageTicks) | return none
  let some edgePrice := (PriceTick.checked edgePriceTicks).toOption | return none
  let some pYes ← engine.probYesWith cdf b latest.microprice latest.tsUs tteUs (← hint)
    | return none
  let edgeTicks := floorI32 (sideTicks pYes side - ofInt edgePrice.ticks)
  let liveSpreadTicks :=
    max ((quote.bid.map fun bid => i32.saturatingSub edgePrice.ticks bid.ticks).getD 0) 0
  let minEdgeTicks := max engine.cfg.minEdgeTicks liveSpreadTicks
  if edgeTicks < minEdgeTicks then return none
  return some { side := side, token := token, limit := limit, edgePrice := edgePrice,
                edgeTicks := edgeTicks }

/-- `decide_latest` chooses a side, and then goes on with its quote and its token alone. -/
theorem decideLatestWith_eq {F : Type} [F64 F] (cdf : F → F) (b : Build) (engine : SignalEngine F)
    (market : MarketContext) (yesQuote noQuote : Quote) (now : TsUs) (tteUs : Int) :
    engine.decideLatestWith cdf b market yesQuote noQuote now tteUs = (do
      if le engine.strike 0.0 || decide (tteUs < engine.cfg.minTteUs) then return none
      let some (latest, windowBase) ← engine.latestWindow b | return none
      let moveUsd := latest.microprice - windowBase.microprice
      if lt (F64.abs moveUsd) engine.cfg.minMoveUsd then return none
      let side : OutcomeSide := if lt 0.0 moveUsd then .yes else .no
      engine.decideSide cdf b side (side.pick yesQuote noQuote)
        (side.pick market.yesToken market.noToken) latest
        (engine.decisionHint b yesQuote noQuote) now tteUs) := by
  unfold decideLatestWith
  split
  · rfl
  cases engine.latestWindow b with
  | error e => rfl
  | ok window =>
  rcases window with _ | ⟨latest, windowBase⟩
  · rfl
  dsimp only [Except.ok_bind]
  split
  · rfl
  generalize (if lt 0.0 (latest.microprice - windowBase.microprice) = true
    then OutcomeSide.yes else OutcomeSide.no) = side
  simp only [Except.ite_bind]
  cases side <;> rfl

/-- The hint of the decision. -/
theorem Reflects.decisionHint (h : Reflects axis engine engine') (b : Build)
    (yesQuote noQuote : Quote) : engine'.decisionHint b noQuote yesQuote =
      (engine.decisionHint b yesQuote noQuote).map (Option.map (1 - ·)) := by
  unfold SignalEngine.decisionHint
  rw [h.cfg, impliedPYesFor_exchange]
  cases engine.cfg.useImpliedSigma <;> rfl

/-- The complement is worth as much on the other side. -/
theorem sideTicks_one_sub (pYes : Rat) (side : OutcomeSide) :
    sideTicks (1 - pYes) side.other = sideTicks pYes side := by
  cases side <;> simp [sideTicks, OutcomeSide.other, f64_literals]

/-- The side of a move. -/
theorem side_neg {move : Rat} (h : move ≠ 0) :
    (if F64.lt 0.0 (-move) then OutcomeSide.yes else .no) =
      (if F64.lt 0.0 move then OutcomeSide.yes else .no).other := by
  rcases lt_or_gt_of_ne h with h | h
  · have hup : F64.lt 0.0 (-move) = true := by simpa [F64.lt, f64_literals] using h
    have hdown : F64.lt 0.0 move = false := by simpa [F64.lt, f64_literals] using h.le
    rw [hup, hdown]
    rfl
  · have hup : F64.lt 0.0 move = true := by simpa [F64.lt, f64_literals] using h
    have hdown : F64.lt 0.0 (-move) = false := by simpa [F64.lt, f64_literals] using h.le
    rw [hup, hdown]
    rfl

/-- On the other side, with the same quote and token, the reflected engine decides alike. -/
theorem Reflects.decideSide {cdf : Rat → Rat} (hcdf : ∀ z, z ≠ 0 → cdf (-z) = 1 - cdf z)
    (h : Reflects axis engine engine') (hb : Balanced engine.cfg) (b : Build) (side : OutcomeSide)
    (quote : Quote) (token : TokenId) {latest : SignalPoint Rat}
    (hlatest : Inside axis latest.microprice) (hint : Exec (Option Rat)) (now : TsUs)
    (tteUs : Int) :
    engine'.decideSide cdf b side.other quote token (latest.reflect axis)
        (hint.map (Option.map (1 - ·))) now tteUs =
      (engine.decideSide cdf b side quote token latest hint now tteUs).map
        (Option.map BuyIntent.turn) := by
  unfold SignalEngine.decideSide
  simp only [SignalPoint.reflect, h.cfg, h.ofiSumSince, h.pressureAgainst]
  cases b.arith i64 (latest.tsUs.micros - engine.cfg.maxWindowUs) with
  | error e => rfl
  | ok cutoff =>
  dsimp only [Except.ok_bind]
  split
  · rfl
  cases quote.buyCutoffForCents b engine.cfg.entryNotionalCents with
  | error e => rfl
  | ok entryAsk =>
  cases entryAsk with
  | none => rfl
  | some entryAsk =>
  dsimp only [Except.ok_bind]
  cases b.arith i64 (now.micros - quote.tsUs.micros) with
  | error e => rfl
  | ok quoteAge =>
  dsimp only [Except.ok_bind]
  split
  · rfl
  cases i32.checked (entryAsk.ticks + engine.cfg.entrySlippageTicks) with
  | none => rfl
  | some limitTicks =>
  dsimp only
  cases (PriceTick.checked limitTicks).toOption with
  | none => rfl
  | some limit =>
  dsimp only
  split
  · rfl
  cases b.arith i32 (engine.cfg.entrySlippageTicks + 1) with
  | error e => rfl
  | ok slippageUp =>
  dsimp only [Except.ok_bind]
  cases i32.checked (entryAsk.ticks + slippageUp.tdiv 2) with
  | none => rfl
  | some edgeTicks =>
  dsimp only
  cases (PriceTick.checked edgeTicks).toOption with
  | none => rfl
  | some edgePrice =>
  cases hint with
  | error e => rfl
  | ok hint =>
  dsimp only [Except.map, Except.ok_bind]
  rw [h.probYesWith hcdf hb hlatest]
  cases engine.probYesWith cdf b latest.microprice latest.tsUs tteUs hint with
  | error e => rfl
  | ok pYes =>
  cases pYes with
  | none => rfl
  | some pYes =>
  dsimp only [Except.map, Except.ok_bind, Option.map_some]
  rw [sideTicks_one_sub]
  split <;> rfl

/-- The reflected engine decides the same for the other side of the market, and aborts where the
engine does. -/
theorem Reflects.decideLatest {cdf : Rat → Rat} (hcdf : ∀ z, z ≠ 0 → cdf (-z) = 1 - cdf z)
    (h : Reflects axis engine engine') (hb : Balanced engine.cfg) (b : Build)
    (market : MarketContext) (yesQuote noQuote : Quote) (now : TsUs) (tteUs : Int) :
    engine'.decideLatestWith cdf b market.exchange noQuote yesQuote now tteUs =
      (engine.decideLatestWith cdf b market yesQuote noQuote now tteUs).map
        (Option.map BuyIntent.turn) := by
  rw [decideLatestWith_eq, decideLatestWith_eq, h.strike, h.strike', h.cfg, h.latestWindow]
  split
  · rfl
  cases hwindow : engine.latestWindow b with
  | error e => rfl
  | ok window =>
  rcases window with _ | ⟨latest, windowBase⟩
  · rfl
  have hlatest := h.inside latest (List.mem_of_getLast? (latestWindow_last hwindow))
  have hmove : 2 * axis - latest.microprice - (2 * axis - windowBase.microprice) =
      -(latest.microprice - windowBase.microprice) := by
    ring
  dsimp only [Except.map, Except.ok_bind, Option.map_some, Prod.map_apply]
  have hmove' : (latest.reflect axis).microprice - (windowBase.reflect axis).microprice =
      -(latest.microprice - windowBase.microprice) := hmove
  rw [hmove', abs_neg_rat]
  split
  · rfl
  next hmin =>
  -- a balanced configuration asks for a move, so that it has a side
  have hmove₀ : latest.microprice - windowBase.microprice ≠ 0 := by
    intro h₀
    rw [h₀] at hmin
    exact hmin (decide_eq_true hb.move)
  rw [side_neg hmove₀, h.decisionHint]
  generalize (if F64.lt 0.0 (latest.microprice - windowBase.microprice) then OutcomeSide.yes
    else .no) = side
  have hpick : ∀ {α : Type} (yes no : α), side.other.pick no yes = side.pick yes no := by
    cases side <;> exact fun _ _ => rfl
  rw [hpick]
  have htoken : side.other.pick market.exchange.yesToken market.exchange.noToken =
      side.pick market.yesToken market.noToken := hpick ..
  rw [htoken]
  exact h.decideSide hcdf hb b side _ _ hlatest _ now tteUs

/-! ## The exit model -/

/-- Both engines refuse a stale sample, and only then. -/
theorem Reflects.lagRefused (h : Reflects axis engine engine') (lagUs : Int) :
    engine'.lagRefused lagUs = engine.lagRefused lagUs := by
  unfold SignalEngine.lagRefused
  rw [h.cfg]

/-- The window opposes a side where the reflected window opposes the other. -/
theorem Reflects.opposesSide (h : Reflects axis engine engine') (b : Build) (side : OutcomeSide)
    (now : TsUs) : engine'.opposesSide b side.other now = engine.opposesSide b side now := by
  unfold SignalEngine.opposesSide
  rw [h.latestWindow]
  cases engine.latestWindow b with
  | error e => rfl
  | ok window =>
  rcases window with _ | ⟨latest, windowBase⟩
  · rfl
  dsimp only [Except.map, Except.ok_bind, Option.map_some, Prod.map_apply, SignalPoint.reflect]
  cases b.arith i64 (now.micros - latest.recvTsUs.micros) with
  | error e => rfl
  | ok lagUs =>
  simp only [Except.ok_bind, h.lagRefused, h.cfg, h.ofiSumSince]
  split
  · rfl
  have hmove : 2 * axis - latest.microprice - (2 * axis - windowBase.microprice) =
      -(latest.microprice - windowBase.microprice) := by
    ring
  have hdown : ∀ x : Rat, -1.0 * -x = 1.0 * x := fun x => by norm_num
  have hup : ∀ x : Rat, 1.0 * -x = -1.0 * x := fun x => by norm_num
  cases side with
  | yes => simp only [OutcomeSide.other, hmove, hdown]
  | no => simp only [OutcomeSide.other, hmove, hup]

/-- The fair price of a side is that of the other side in the reflected engine. -/
theorem Reflects.fairTicksForSide {cdf : Rat → Rat} (hcdf : ∀ z, z ≠ 0 → cdf (-z) = 1 - cdf z)
    (h : Reflects axis engine engine') (hb : Balanced engine.cfg) (b : Build) (side : OutcomeSide)
    (now : TsUs) (tteUs : Int) (hint : Option Rat) :
    engine'.fairTicksForSideWith cdf b side.other now tteUs (hint.map (1 - ·)) =
      engine.fairTicksForSideWith cdf b side now tteUs hint := by
  unfold fairTicksForSideWith
  rw [h.latestWindow]
  cases hwindow : engine.latestWindow b with
  | error e => rfl
  | ok window =>
  rcases window with _ | ⟨latest, windowBase⟩
  · rfl
  have hlatest := h.inside latest (List.mem_of_getLast? (latestWindow_last hwindow))
  dsimp only [Except.map, Except.ok_bind, Option.map_some, Prod.map_apply, SignalPoint.reflect]
  cases b.arith i64 (now.micros - latest.recvTsUs.micros) with
  | error e => rfl
  | ok lagUs =>
  simp only [Except.ok_bind, h.lagRefused, h.cfg]
  split
  · rfl
  have hused : (if engine.cfg.useImpliedSigma then hint.map (1 - ·) else none) =
      (if engine.cfg.useImpliedSigma then hint else none).map (1 - ·) := by
    cases engine.cfg.useImpliedSigma <;> rfl
  rw [hused, h.probYesWith hcdf hb hlatest]
  cases engine.probYesWith cdf b latest.microprice latest.tsUs tteUs
      (if engine.cfg.useImpliedSigma then hint else none) with
  | error e => rfl
  | ok pYes =>
  cases pYes with
  | none => rfl
  | some pYes =>
  have hone : ∀ p : Rat, 1.0 - (1 - p) = p := fun p => by rw [f64_literals.2.1, sub_sub_cancel]
  cases side with
  | yes => simp only [Except.map, Except.ok_bind, Option.map_some, OutcomeSide.other, hone]
  | no =>
    simp only [Except.map, Except.ok_bind, Option.map_some, OutcomeSide.other, f64_literals.2.1]

/-! ## Runs -/

/-- What the program gives the engine with a sample. -/
structure Offer where
  sample : BinanceSample Rat
  market : MarketContext
  yesQuote : Quote
  noQuote : Quote
  now : TsUs
  tteUs : Int

/-- The offer with its sample reflected and the books exchanged. -/
def Offer.reflect (axis : Rat) (offer : Offer) : Offer :=
  { offer with
    sample := offer.sample.reflect axis, market := offer.market.exchange
    yesQuote := offer.noQuote, noQuote := offer.yesQuote }

/-- What the program does with the engine: a new strike resets it, a sample may be bought on, and
the exit model judges a side. -/
inductive Event where
  | strike (strike : Rat)
  | offer (offer : Offer)
  | judge (side : OutcomeSide) (now : TsUs) (tteUs : Int) (impliedPYesHint : Option Rat)

/-- What the engine says to a sample, and of a side. -/
inductive Answer where
  | entry (intent : Option BuyIntent)
  | exit (opposes : Option Bool) (fairTicks : Option Int)
  deriving DecidableEq

/-- An intent is for the other side; a judgement stays what it is. -/
def Answer.turn : Answer → Answer
  | .entry intent => .entry (intent.map .turn)
  | .exit opposes fairTicks => .exit opposes fairTicks

/-- What the engine makes of an offer. -/
def onOffer (b : Build) (engine : SignalEngine Rat) (offer : Offer) :
    Exec (SignalEngine Rat × Option BuyIntent) :=
  engine.onSample b offer.sample offer.market offer.yesQuote offer.noQuote offer.now offer.tteUs

/-- The engine, with its answers so far. -/
def feed (b : Build) (s : SignalEngine Rat × List Answer) :
    Event → Exec (SignalEngine Rat × List Answer)
  | .strike strike => .ok (s.1.setStrike strike true, s.2)
  | .offer offer => do
    let (engine, intent) ← s.1.onOffer b offer
    return (engine, s.2 ++ [.entry intent])
  | .judge side now tteUs hint => do
    let opposes ← s.1.opposesSide b side now
    let fairTicks ← s.1.fairTicksForSide b side now tteUs hint
    return (s.1, s.2 ++ [.exit opposes fairTicks])

/-- The events, reflected at the strike of the moment. -/
def reflectEvents : Rat → List Event → List Event
  | _, [] => []
  | _, .strike strike :: rest => .strike strike :: reflectEvents strike rest
  | axis, .offer offer :: rest => .offer (offer.reflect axis) :: reflectEvents axis rest
  | axis, .judge side now tteUs hint :: rest =>
    .judge side.other now tteUs (hint.map (1 - ·)) :: reflectEvents axis rest

/-- While there is a strike, samples can be reflected at it; judged is while there is one. -/
def Allowed (s : SignalEngine Rat × List Answer) : Event → Prop
  | .strike _ => True
  | .offer offer => 0 < s.1.strike → Reflectable s.1.strike offer.sample
  | .judge .. => 0 < s.1.strike

instance (s : SignalEngine Rat × List Answer) : ∀ event, Decidable (Allowed s event)
  | .strike _ => inferInstanceAs (Decidable True)
  | .offer offer =>
    inferInstanceAs (Decidable (0 < s.1.strike → Reflectable s.1.strike offer.sample))
  | .judge .. => inferInstanceAs (Decidable (0 < s.1.strike))

/-- The engines have the same strike, and hold what the other one does, reflected, if they may
decide at all. -/
structure Alike (engine engine' : SignalEngine Rat) : Prop where
  cfg : engine'.cfg = engine.cfg
  strike : engine'.strike = engine.strike
  reflects : 0 < engine.strike → Reflects engine.strike engine engine'

/-- The engines end alike, with intents for the two sides, or abort alike. -/
inductive Turned :
    Exec (SignalEngine Rat × Option BuyIntent) → Exec (SignalEngine Rat × Option BuyIntent) → Prop
  | ok {pushed pushed' : SignalEngine Rat} (intent : Option BuyIntent) (h : Alike pushed pushed') :
    Turned (.ok (pushed, intent)) (.ok (pushed', intent.map .turn))
  | error (e : Abort) : Turned (.error e) (.error e)

/-- A new strike leaves the engines alike, with nothing to reflect yet. -/
theorem Alike.setStrike (h : Alike engine engine') (strike : Rat) :
    Alike (engine.setStrike strike true) (engine'.setStrike strike true) :=
  ⟨h.cfg, rfl, fun _ => ⟨h.cfg, rfl, rfl, rfl, rfl, fun hne => absurd rfl hne, nofun⟩⟩

/-- Samples that are reflected leave the engines alike. -/
theorem SameSetup.alike {pushed pushed' : SignalEngine Rat} (h : Alike engine engine')
    (hs : engine.SameSetup pushed) (hs' : engine'.SameSetup pushed')
    (hr : 0 < engine.strike → Reflects engine.strike pushed pushed') : Alike pushed pushed' where
  cfg := by rw [hs'.cfg, hs.cfg, h.cfg]
  strike := by rw [hs'.strike, hs.strike, h.strike]
  reflects := by rwa [hs.strike]

/-- Without a strike nothing is bought. -/
theorem onOffer_idle {b : Build} (hstrike : engine.strike ≤ 0) {offer : Offer} {lagUs : Int}
    (hlag : b.arith i64 (offer.now.micros - offer.sample.tsUs.micros) = .ok lagUs) :
    engine.onOffer b offer = .ok ((engine.pushReceived offer.sample offer.now).1, none) := by
  unfold onOffer onSample onSampleWith
  rw [hlag, Except.ok_bind]
  dsimp only
  have hdecide : (engine.pushReceived offer.sample offer.now).1.decideLatestWith phi b offer.market
      offer.yesQuote offer.noQuote offer.now offer.tteUs = .ok none := by
    have hle : F64.le engine.strike 0.0 = true := by simpa [F64.le, f64_literals] using hstrike
    rw [decideLatestWith_eq, (engine.pushReceived_sameSetup offer.sample offer.now).strike, hle]
    rfl
  rw [hdecide]
  split
  · rfl
  · split <;> rfl

/-- The engines answer the sample and its reflection alike. -/
theorem Alike.onOffer {b : Build} (h : Alike engine engine') (hb : Balanced engine.cfg)
    {offer : Offer} (ha : 0 < engine.strike → Reflectable engine.strike offer.sample) :
    Turned (engine.onOffer b offer) (engine'.onOffer b (offer.reflect engine.strike)) := by
  have hsetup := engine.pushReceived_sameSetup offer.sample offer.now
  have hsetup' := engine'.pushReceived_sameSetup (offer.sample.reflect engine.strike) offer.now
  cases hlag : b.arith i64 (offer.now.micros - offer.sample.tsUs.micros) with
  | error e =>
    unfold SignalEngine.onOffer onSample onSampleWith
    dsimp only [Offer.reflect, BinanceSample.reflect]
    rw [hlag]
    exact .error e
  | ok lagUs =>
  rcases le_or_gt engine.strike 0 with hstrike | hstrike
  · have hidle := onOffer_idle hstrike hlag
    have hidle' : engine'.onOffer b (offer.reflect engine.strike) = _ :=
      onOffer_idle (h.strike.trans_le hstrike) hlag
    rw [hidle, hidle']
    exact .ok none (hsetup.alike h hsetup' fun hpos => absurd hpos (not_lt.2 hstrike))
  · obtain ⟨hflag, hpush⟩ := (h.reflects hstrike).pushReceived (ha hstrike) offer.now
    have halike := hsetup.alike h hsetup' fun _ => hpush
    have hb' : Balanced (engine.pushReceived offer.sample offer.now).1.cfg := by rwa [hsetup.cfg]
    unfold SignalEngine.onOffer onSample onSampleWith
    dsimp only [Offer.reflect]
    rw [show (offer.sample.reflect engine.strike).tsUs = offer.sample.tsUs from rfl, hlag]
    dsimp only [Except.ok_bind]
    rw [hflag, hpush.cfg, hpush.decideLatest (fun _ => phi_neg) hb']
    split
    · exact .ok none halike
    split
    · exact .ok none halike
    cases (engine.pushReceived offer.sample offer.now).1.decideLatestWith phi b offer.market
        offer.yesQuote offer.noQuote offer.now offer.tteUs with
    | error e => exact .error e
    | ok intent => exact .ok intent halike

/-- The answers to the reflected events. -/
theorem Alike.run {b : Build} (h : Alike engine engine') (hb : Balanced engine.cfg)
    {events : List Event} {answers : List Answer}
    (ha : Machine.AlongM (feed b) Allowed (engine, answers) events) :
    (Machine.runM (feed b) (engine', answers.map .turn) (reflectEvents engine.strike events)).map
        (·.2) =
      (Machine.runM (feed b) (engine, answers) events).map fun s => s.2.map .turn := by
  induction events generalizing engine engine' answers with
  | nil => rfl
  | cons event events ih =>
    have hafter := ha.2
    cases event with
    | strike strike => exact ih (h.setStrike strike) hb hafter
    | offer offer =>
      have hturned := h.onOffer (b := b) hb ha.1
      rw [reflectEvents, Machine.runM, Machine.runM, List.foldlM_cons, List.foldlM_cons]
      unfold feed at hafter ⊢
      dsimp only at hafter ⊢
      generalize hr : engine.onOffer b offer = r at hturned hafter ⊢
      generalize engine'.onOffer b (offer.reflect engine.strike) = r' at hturned ⊢
      cases hturned with
      | error e => rfl
      | ok intent halike =>
        have hsetup := onSample_sameSetup hr
        have hrun := ih halike (by rwa [hsetup.cfg]) hafter
        rw [hsetup.strike, List.map_append] at hrun
        exact hrun
    | judge side now tteUs hint =>
      have hreflects := h.reflects ha.1
      have hfair := hreflects.fairTicksForSide (fun _ => phi_neg) hb b side now tteUs hint
      rw [reflectEvents, Machine.runM, Machine.runM, List.foldlM_cons, List.foldlM_cons]
      unfold feed at hafter ⊢
      dsimp only at hafter ⊢
      rw [hreflects.opposesSide, fairTicksForSide, hfair, ← fairTicksForSide]
      cases hopposes : engine.opposesSide b side now with
      | error e => rfl
      | ok opposes =>
        cases hfair' : engine.fairTicksForSide b side now tteUs hint with
        | error e => rfl
        | ok fairTicks =>
          rw [hopposes, hfair'] at hafter
          have hrun := ih h hb hafter
          rw [List.map_append] at hrun
          exact hrun

/-- Up and down are alike: to the reflected events the engine gives the same answers, with every
intent for the other side, and aborts where it does. -/
theorem reflected_decides (b : Build) (cfg : SignalConfig Rat) (events : List Event)
    (hb : Balanced cfg)
    (ha : Machine.AlongM (feed b) Allowed (SignalEngine.new cfg, []) events) :
    (Machine.runM (feed b) (SignalEngine.new cfg, []) (reflectEvents 0 events)).map (·.2) =
      (Machine.runM (feed b) (SignalEngine.new cfg, []) events).map fun s => s.2.map .turn := by
  have hstrike : (SignalEngine.new cfg).strike = 0 := f64_literals.1
  have halike : Alike (SignalEngine.new cfg) (SignalEngine.new cfg) :=
    ⟨rfl, rfl, fun hpos => absurd hpos (by rw [hstrike]; exact lt_irrefl 0)⟩
  have hrun := halike.run (b := b) ⟨hb.move, hb.floor, hb.half, hb.ceil⟩ ha
  rwa [hstrike, List.map_nil] at hrun

end

/-- A rise of a dollar over a strike below it, and the judgement of the side it is bought as. -/
def rise : List Event :=
  let offer (second updateId : Int) (bid : Rat) : Offer :=
    { sample := risingSample second updateId bid, market := market₀
      yesQuote := quoteOf 39 40 second, noQuote := quoteOf 59 60 second
      now := ⟨second * 1000000⟩, tteUs := 100000000 }
  [.strike 100001, .offer (offer 899 1 100000), .offer (offer 900 2 100001),
    .judge .yes ⟨900000000⟩ 100000000 none]

/-- What the rise, or the fall that it is reflected to, is bought as. -/
def riseIntent (side : OutcomeSide) : BuyIntent :=
  { side := side, token := ⟨"up"⟩, limit := ⟨43⟩, edgePrice := ⟨42⟩, edgeTicks := 8 }

/-- As the rise is bought on YES, the fall is bought on NO. -/
theorem reflected_decides_rise :
    ∃ cfg : SignalConfig Rat, Config.runtimeEnvShape.signalConfig = .ok cfg ∧
      (Machine.runM (feed ⟨false⟩) (SignalEngine.new cfg, []) (reflectEvents 0 rise)).map (·.2) =
        .ok [.entry none, .entry (some (riseIntent .no)), .exit (some false) (some 50)] := by
  have h : (Config.runtimeEnvShape.signalConfig).Succeeds fun cfg : SignalConfig Rat =>
      (0 < cfg.minMoveUsd ∧ 0 ≤ cfg.probFloor ∧ cfg.probFloor ≤ 1 / 2 ∧
        cfg.probCeil = 1 - cfg.probFloor) ∧
      Machine.AlongM (feed ⟨false⟩) Allowed (SignalEngine.new cfg, []) rise ∧
      (Machine.runM (feed ⟨false⟩) (SignalEngine.new cfg, []) rise).Succeeds fun s =>
        s.2 = [.entry none, .entry (some (riseIntent .yes)), .exit (some false) (some 50)] := by
    decide +kernel
  obtain ⟨cfg, hcfg, ⟨hmove, hfloor, hhalf, hceil⟩, hallowed, hrun⟩ := h.exists
  obtain ⟨s, hrun, hanswers⟩ := hrun.exists
  refine ⟨cfg, hcfg, ?_⟩
  rw [reflected_decides ⟨false⟩ cfg rise ⟨hmove, hfloor, hhalf, hceil⟩ hallowed, hrun, Except.map,
    hanswers]
  rfl

end SignalEngine

end Polyrust
