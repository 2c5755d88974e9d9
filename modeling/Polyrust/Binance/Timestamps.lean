import Polyrust.Anchor
import Polyrust.Binance

/-!
# The timestamps of ticks

A JSON frame without an event time is parsed with the time zero, for the caller to replace; the
Binance task hands the sample on as it is. So a tick carries a usable time exactly when its frame
has one, and the buffers, which take newer ticks only, drop the others: the anchor every one of
them, the signal engine every one after the first (`tick_timestamps`).
-/

namespace Polyrust

open IntWidth F64

namespace Binance

section
variable {F : Type} [F64 F] {lib : FloatLib F} {pl : Platform} {raw : List UInt8}

/-- The event time of a binary frame. -/
def sbeEventTime (raw : List UInt8) : Option TsUs :=
  (readInt raw 8 8).toOption.map TsUs.mk

/-- The event time of a JSON value. -/
def valueEventTime (value : Json.Value) : Option TsUs := do
  let et ← (parsePositiveI64Json value "E").toOption
  (normalizeEpochToUs et).toOption.map TsUs.mk

/-- The event time of a frame, in microseconds, if the frame has one. -/
def frameEventTime (pl : Platform) (raw : List UInt8) : Option TsUs :=
  if isSbe raw then sbeEventTime raw
  else (pl.fromSlice raw).toOption.bind fun value => valueEventTime (unwrapData value)

/-- The sample that the Binance task makes of a frame. -/
def frameSample (lib : FloatLib F) (pl : Platform) (raw : List UInt8) :
    Option (BinanceSample F) :=
  match parseBookTicker lib pl raw with
  | .ok (.ok (some ticker)) => ticker.sample
  | _ => none

/-- The time of a binary ticker is that of its frame. -/
theorem parseSbe_eventTime {ticker : BinanceBookTicker F}
    (h : parseSbeBestBidAsk lib raw = .ok (.ok (some ticker))) :
    sbeEventTime raw = some ticker.eventTime := by
  unfold parseSbeBestBidAsk at h
  split at h
  · cases h
  obtain ⟨block, -, h⟩ := Except.ok_bind_inv h
  dsimp only at h
  split at h
  · cases h
  obtain ⟨template, -, h⟩ := Except.ok_bind_inv h
  split at h
  · cases h
  obtain ⟨eventTime, ht, h⟩ := Except.ok_bind_inv h
  obtain ⟨updateId, -, h⟩ := Except.ok_bind_inv h
  obtain ⟨priceExp, -, h⟩ := Except.ok_bind_inv h
  obtain ⟨qtyExp, -, h⟩ := Except.ok_bind_inv h
  obtain ⟨bid, -, h⟩ := Except.ok_bind_inv h
  obtain ⟨bidQty, -, h⟩ := Except.ok_bind_inv h
  obtain ⟨ask, -, h⟩ := Except.ok_bind_inv h
  obtain ⟨askQty, -, h⟩ := Except.ok_bind_inv h
  split at h
  · cases h
  split at h
  · cases h
  cases h
  rw [sbeEventTime, ht]
  rfl

/-- The time that is read of a JSON value, or zero. -/
theorem jsonEventTime_ok {value : Json.Value} {us : Int} (h : jsonEventTime value = .ok us) :
    ⟨us⟩ = (valueEventTime value).getD ⟨0⟩ := by
  unfold jsonEventTime at h
  unfold valueEventTime
  cases het : parsePositiveI64Json value "E" with
  | ok et =>
    rw [het] at h
    dsimp only at h
    simp only [Except.toOption, bind, Option.bind_some, h]
    rfl
  | error e =>
    rw [het] at h
    cases e <;> cases h
    rfl

/-- The time of a JSON ticker is that of its frame, or zero. -/
theorem parseJson_eventTime {ticker : BinanceBookTicker F} (hraw : isSbe raw = false)
    (h : parseBookTickerJson lib pl raw = .ok (some ticker)) :
    ticker.eventTime = (frameEventTime pl raw).getD ⟨0⟩ := by
  unfold parseBookTickerJson at h
  split at h
  · cases h
  · next value hvalue =>
    dsimp only at h
    split at h
    · cases h
    obtain ⟨eventTime, ht, h⟩ := Except.ok_bind_inv h
    obtain ⟨updateId, -, h⟩ := Except.ok_bind_inv h
    obtain ⟨bid, -, h⟩ := Except.ok_bind_inv h
    obtain ⟨bidQty, -, h⟩ := Except.ok_bind_inv h
    obtain ⟨ask, -, h⟩ := Except.ok_bind_inv h
    obtain ⟨askQty, -, h⟩ := Except.ok_bind_inv h
    split at h
    · cases h
    cases h
    rw [frameEventTime, hraw, hvalue]
    exact jsonEventTime_ok ht

/-- A parsed frame has the event time of the frame, and zero where the frame has none. -/
theorem parse_eventTime {ticker : BinanceBookTicker F}
    (h : parseBookTicker lib pl raw = .ok (.ok (some ticker))) :
    ticker.eventTime = (frameEventTime pl raw).getD ⟨0⟩ := by
  unfold parseBookTicker at h
  split at h
  · next hraw =>
    rw [frameEventTime, if_pos hraw, parseSbe_eventTime h]
    rfl
  · next hraw => exact parseJson_eventTime (Bool.eq_false_iff.2 hraw) (Except.ok.inj h)

/-- A sample has the time of its ticker. -/
theorem sample_tsUs {ticker : BinanceBookTicker F} {sample : BinanceSample F}
    (h : ticker.sample = some sample) : sample.tsUs = ticker.eventTime := by
  obtain ⟨microprice, -, h⟩ := Option.bind_eq_some_iff.1 h
  cases h
  rfl

/-- The sample of a frame has the event time of the frame, and zero where the frame has none. -/
theorem frameSample_tsUs {sample : BinanceSample F} (h : frameSample lib pl raw = some sample) :
    sample.tsUs = (frameEventTime pl raw).getD ⟨0⟩ := by
  unfold frameSample at h
  split at h
  · next ticker hticker => rw [sample_tsUs h, parse_eventTime hticker]
  · cases h

/-- A frame, the sample that was made of it, and the time at which it was received. -/
structure Tick (F : Type) where
  raw : List UInt8
  sample : BinanceSample F
  recv : TsUs

/-- The anchor takes the tick. -/
def pushAnchor (anchor : AnchorBuffer F) (tick : Tick F) : AnchorBuffer F :=
  anchor.push tick.sample.tsUs.micros tick.sample.bid tick.sample.ask tick.sample.bidQty
    tick.sample.askQty

/-- The anchor takes the tick. -/
def AnchorAccepts (anchor : AnchorBuffer F) (tick : Tick F) : Prop :=
  anchor.accepts tick.sample.tsUs.micros tick.sample.bid tick.sample.ask tick.sample.bidQty
    tick.sample.askQty = true

/-- The signal engine takes the tick. -/
def pushEngine (engine : SignalEngine F) (tick : Tick F) : SignalEngine F :=
  (engine.pushReceived tick.sample tick.recv).1

/-- The engine takes the tick. -/
def EngineAccepts (engine : SignalEngine F) (tick : Tick F) : Prop :=
  engine.accepts tick.sample = true

/-- The tick is of a frame without an event time. -/
structure Tick.Untimed (lib : FloatLib F) (pl : Platform) (tick : Tick F) : Prop where
  sample : frameSample lib pl tick.raw = some tick.sample
  untimed : frameEventTime pl tick.raw = none

/-- A tick without a time is one of time zero. -/
theorem Tick.Untimed.tsUs {tick : Tick F} (h : tick.Untimed lib pl) : tick.sample.tsUs = ⟨0⟩ := by
  rw [frameSample_tsUs h.sample, h.untimed]
  rfl

/-- A tick without a time is not newer than what the anchor has seen. -/
theorem Tick.Untimed.not_anchorAccepts {tick : Tick F} (h : tick.Untimed lib pl)
    {anchor : AnchorBuffer F} (hanchor : 0 ≤ anchor.maxTsSeen) : ¬ AnchorAccepts anchor tick := by
  intro hacc
  rw [AnchorAccepts, AnchorBuffer.accepts, h.tsUs, Bool.and_eq_true, decide_eq_true_eq] at hacc
  exact absurd hacc.2 (not_lt.2 hanchor)

/-- An accepted sample is newer than the last one. -/
theorem accepts_newer {engine : SignalEngine F} {sample : BinanceSample F} {last : SignalPoint F}
    (h : engine.accepts sample = true) (hlast : engine.samples.getLast? = some last) :
    last.tsUs.micros < sample.tsUs.micros := by
  simp only [SignalEngine.accepts, Bool.and_eq_true, hlast] at h
  simpa using h.2

/-- The last sample of the engine after an accepted tick. -/
theorem pushEngine_last {engine : SignalEngine F} {tick : Tick F} (h : EngineAccepts engine tick) :
    ∃ last, (pushEngine engine tick).samples.getLast? = some last ∧
      last.tsUs = tick.sample.tsUs := by
  unfold EngineAccepts at h
  rw [pushEngine, SignalEngine.pushReceived, h, Bool.not_true, if_neg Bool.false_ne_true]
  exact ⟨_, List.getLast?_concat, rfl⟩

/-- The engine accepts no second tick without a time. -/
theorem engine_accepts_one {engine : SignalEngine F} {ticks : List (Tick F)}
    (h : ∀ tick ∈ ticks, tick.Untimed lib pl)
    (hacc : Machine.Along pushEngine EngineAccepts engine ticks) : ticks.length ≤ 1 := by
  match ticks, h, hacc with
  | [], _, _ => exact Nat.zero_le 1
  | [_], _, _ => exact le_rfl
  | first :: second :: _, h, hacc =>
    obtain ⟨last, hlast, hts⟩ := pushEngine_last hacc.1
    have hlt := accepts_newer hacc.2.1 hlast
    rw [hts, (h first (by simp)).tsUs, (h second (by simp)).tsUs] at hlt
    exact absurd hlt (lt_irrefl _)

/-- The sample of a frame has the event time of the frame, or else the time at which it was
received, exactly when the frame has an event time; of a stream of frames without one, the anchor
accepts no tick and the signal engine at most the first. -/
theorem tick_timestamps (lib : FloatLib F) (pl : Platform) :
    (∀ (raw : List UInt8) (recv : TsUs) (sample : BinanceSample F),
      frameSample lib pl raw = some sample →
        (sample.tsUs = (frameEventTime pl raw).getD recv ↔
          (frameEventTime pl raw).isSome ∨ recv = ⟨0⟩)) ∧
    ∀ (anchor : AnchorBuffer F) (engine : SignalEngine F) (ticks : List (Tick F)),
      Machine.Reaches AnchorBuffer.step .new anchor →
      (∀ tick ∈ ticks, tick.Untimed lib pl) →
        (Machine.Along pushAnchor AnchorAccepts anchor ticks ∧
          Machine.Along pushEngine EngineAccepts engine ticks ↔ ticks = []) ∧
        (Machine.Along pushEngine EngineAccepts engine ticks → ticks.length ≤ 1) := by
  refine ⟨?_, ?_⟩
  · intro raw recv sample hsample
    rw [frameSample_tsUs hsample]
    cases frameEventTime pl raw with
    | none => simp [eq_comm]
    | some eventTime => simp
  · intro anchor engine ticks hanchor hticks
    refine ⟨⟨?_, ?_⟩, engine_accepts_one hticks⟩
    · rintro ⟨hacc, -⟩
      cases ticks with
      | nil => rfl
      | cons tick ticks =>
        exact absurd hacc.1 ((hticks tick (List.mem_cons_self ..)).not_anchorAccepts
          (AnchorBuffer.maxTsSeen_nonneg hanchor))
    · rintro rfl
      exact ⟨trivial, trivial⟩

end

/-- A frame of the public stream, as it documents them: without an event time. -/
def bookTickerFrame : Json.Value :=
  .object [("u", .number (.posInt 400900217)), ("b", .string "25"), ("B", .string "31"),
    ("a", .string "26"), ("A", .string "40")]

/-- The library on texts of whole numbers. -/
def wholeLib : FloatLib Rat where
  parse s := (parseI64 s).map fun n => n
  powi x n := x ^ n

/-- A frame with an event time, in milliseconds. -/
def timedFrame : Json.Value :=
  .object [("E", .number (.posInt 1777000000123)), ("u", .number (.posInt 400900217)),
    ("b", .string "25"), ("B", .string "31"), ("a", .string "26"), ("A", .string "40")]

/-- The sample of a frame with an event time has it. -/
theorem tick_timestamps_timed :
    ∃ sample, frameSample wholeLib (.reading [timedFrame]) timedFrame.toBytes = some sample ∧
      sample.tsUs =
        (frameEventTime (.reading [timedFrame]) timedFrame.toBytes).getD ⟨1777000000125000⟩ := by
  have hsome : (frameSample wholeLib (.reading [timedFrame]) timedFrame.toBytes).isSome = true := by
    decide +kernel
  obtain ⟨sample, hs⟩ := Option.isSome_iff_exists.1 hsome
  exact ⟨sample, hs, ((tick_timestamps wholeLib _).1 _ _ sample hs).2 (.inl (by decide +kernel))⟩

/-- The sample of a frame received at the second one has the time zero. -/
theorem tick_without_time :
    ¬ ∀ (pl : Platform) (raw : List UInt8) (recv : TsUs) (sample : BinanceSample Rat),
      frameSample wholeLib pl raw = some sample →
        sample.tsUs = (frameEventTime pl raw).getD recv := by
  intro h
  have hsample : ((frameSample wholeLib (.reading [bookTickerFrame]) bookTickerFrame.toBytes).any
      fun sample => decide (sample.tsUs = ⟨0⟩)) = true := by
    decide +kernel
  have hnone : frameEventTime (.reading [bookTickerFrame]) bookTickerFrame.toBytes = none := by
    decide +kernel
  obtain ⟨sample, hs, hzero⟩ := (Option.any_eq_true _ _).1 hsample
  have hts := h _ _ ⟨1000000⟩ sample hs
  rw [hnone, of_decide_eq_true hzero] at hts
  cases hts

end Binance

end Polyrust
