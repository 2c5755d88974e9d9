import Mathlib.Data.List.Sort
import Polyrust.Lib.Float
import Polyrust.Lib.Run

/-!
# The anchor of the strike

The buffer of recent microprices (`anchor.rs`) and the strike that it computes after a rotation: the
median over the first moments of the market, or over all samples since its start when the market was
discovered late.
-/

namespace Polyrust

open IntWidth F64

/-- Window after the start of a market for collecting samples. -/
def ANCHOR_WINDOW_END_US : Int := 300000

/-- Maximum age of a retained sample. -/
def ANCHOR_BUFFER_HORIZON_US : Int := 10000000

/-- Samples required before a strike is computed. -/
def MIN_ANCHOR_SAMPLES : Nat := 3

/-- Time past the end of the window from which the late fallback is used. -/
def LATE_DISCOVERY_THRESHOLD_US : Int := 1000000

/-- Time past the end of the window from which the anchor fails. -/
def MAX_LATE_WINDOW_US : Int := 30000000

/-- What `try_resolve` returns. -/
inductive AnchorResult (F : Type) where
  | pending
  | failed
  | resolved (strike : F)
  deriving DecidableEq, Repr

/-- The recent samples, and the start of the market whose strike is pending. -/
structure AnchorBuffer (F : Type) where
  samples : List (Int × F)
  /-- start of the market whose strike is wanted; none is where this is not positive -/
  pendingSlugTs : Int
  maxTsSeen : Int

section
variable {F : Type} [F64 F]

/-- `median`: the middle of the sorted values, or the mean of the two in the middle. -/
def median (vals : List F) : F :=
  let sorted := vals.insertionSort fun a b => lt b a = false
  let n := sorted.length
  if n % 2 = 1 then (sorted[n / 2]?).getD nan
  else ((sorted[n / 2 - 1]?).getD nan + (sorted[n / 2]?).getD nan) / 2.0

namespace AnchorBuffer

/-- `AnchorBuffer::new`. -/
def new : AnchorBuffer F := { samples := [], pendingSlugTs := 0, maxTsSeen := 0 }

/-- `AnchorBuffer::trim`. -/
def trim (anchor : AnchorBuffer F) : AnchorBuffer F :=
  let cutoff := i64.saturatingSub anchor.maxTsSeen ANCHOR_BUFFER_HORIZON_US
  { anchor with samples := anchor.samples.dropWhile fun sample => sample.1 < cutoff }

/-- The microprice of a tick, where it has one. -/
def micropriceOf (bid ask bidQty askQty : F) : Option F :=
  let denom := bidQty + askQty
  if le denom 0.0 || !isFinite denom then none
  else
    let microprice := (bid * askQty + ask * bidQty) / denom
    if !isFinite microprice || le microprice 0.0 then none else some microprice

/-- `AnchorBuffer::push`: a tick without a microprice, or not newer than all before, is dropped. -/
def push (anchor : AnchorBuffer F) (tsUs : Int) (bid ask bidQty askQty : F) : AnchorBuffer F :=
  match micropriceOf bid ask bidQty askQty with
  | none => anchor
  | some microprice =>
    if tsUs ≤ anchor.maxTsSeen then anchor
    else
      trim { anchor with maxTsSeen := tsUs, samples := anchor.samples ++ [(tsUs, microprice)] }

/-- The tick enters the buffer. -/
def accepts (anchor : AnchorBuffer F) (tsUs : Int) (bid ask bidQty askQty : F) : Bool :=
  (micropriceOf bid ask bidQty askQty).isSome && decide (anchor.maxTsSeen < tsUs)

/-- `AnchorBuffer::set_pending`. -/
def setPending (anchor : AnchorBuffer F) (slugTs : Int) : AnchorBuffer F :=
  { anchor with pendingSlugTs := slugTs }

/-- The microprices of the samples from `lo` on, up to `hi` where there is an upper bound. -/
def microprices (anchor : AnchorBuffer F) (lo : Int) (hi : Option Int) : List F :=
  (anchor.samples.filter fun sample => lo ≤ sample.1 ∧ hi.all (sample.1 ≤ ·)).map Prod.snd

/-- The start of the pending market. -/
def windowStartUs (anchor : AnchorBuffer F) : Int := i64.saturatingMul anchor.pendingSlugTs 1000000

/-- The end of the window from which the strike is taken. -/
def windowEndUs (anchor : AnchorBuffer F) : Int :=
  i64.saturatingAdd anchor.windowStartUs ANCHOR_WINDOW_END_US

/-- The market was discovered after its window. -/
def lateDiscovery (anchor : AnchorBuffer F) (nowUs : Int) : Bool :=
  decide (i64.saturatingAdd anchor.windowEndUs LATE_DISCOVERY_THRESHOLD_US < nowUs)

/-- A late discovery is only good for a limited time. -/
def tooLate (anchor : AnchorBuffer F) (nowUs : Int) : Bool :=
  anchor.lateDiscovery nowUs &&
    decide (i64.saturatingAdd anchor.windowEndUs MAX_LATE_WINDOW_US < nowUs)

/-- The samples that `try_resolve` takes the median of. -/
def candidates (anchor : AnchorBuffer F) (nowUs : Int) : List F :=
  if anchor.lateDiscovery nowUs && !anchor.tooLate nowUs then
    anchor.microprices anchor.windowStartUs none
  else if anchor.tooLate nowUs then []
  else anchor.microprices anchor.windowStartUs (some anchor.windowEndUs)

/-- `AnchorBuffer::try_resolve`. -/
def tryResolve (anchor : AnchorBuffer F) (nowUs : Int) : AnchorBuffer F × AnchorResult F :=
  if anchor.pendingSlugTs ≤ 0 then (anchor, .pending)
  else
    let samples := anchor.candidates nowUs
    if samples.length < MIN_ANCHOR_SAMPLES then
      if anchor.lateDiscovery nowUs || decide (anchor.windowEndUs < nowUs) then
        ({ anchor with pendingSlugTs := 0 }, .failed)
      else (anchor, .pending)
    else ({ anchor with pendingSlugTs := 0 }, .resolved (median samples))

/-- What `try_resolve` can do. -/
theorem tryResolve_cases (anchor : AnchorBuffer F) (nowUs : Int) :
    anchor.tryResolve nowUs = (anchor, .pending) ∨
    0 < anchor.pendingSlugTs ∧
      (anchor.tryResolve nowUs = ({ anchor with pendingSlugTs := 0 }, .failed) ∨
        MIN_ANCHOR_SAMPLES ≤ (anchor.candidates nowUs).length ∧
          anchor.tryResolve nowUs =
            ({ anchor with pendingSlugTs := 0 },
              .resolved (median (anchor.candidates nowUs)))) := by
  unfold tryResolve
  split
  · exact .inl rfl
  · next hpending =>
    dsimp only
    split
    · split
      · exact .inr ⟨not_le.1 hpending, .inl rfl⟩
      · exact .inl rfl
    · next hsamples => exact .inr ⟨not_le.1 hpending, .inr ⟨not_lt.1 hsamples, rfl⟩⟩

/-- A tick does not change what is pending. -/
theorem push_pendingSlugTs (anchor : AnchorBuffer F) (tsUs : Int) (bid ask bidQty askQty : F) :
    (anchor.push tsUs bid ask bidQty askQty).pendingSlugTs = anchor.pendingSlugTs := by
  rw [push]
  split
  · rfl
  · split <;> rfl

/-! ## Operations -/

/-- The operations on the buffer. -/
inductive Op (F : Type) where
  | push (tsUs : Int) (bid ask bidQty askQty : F)
  | setPending (slugTs : Int)
  | tryResolve (nowUs : Int)

/-- The buffer after an operation. -/
def step (anchor : AnchorBuffer F) : Op F → AnchorBuffer F
  | .push tsUs bid ask bidQty askQty => anchor.push tsUs bid ask bidQty askQty
  | .setPending slugTs => anchor.setPending slugTs
  | .tryResolve nowUs => (anchor.tryResolve nowUs).1

/-- The last timestamp seen is never taken back. -/
theorem maxTsSeen_le_step (anchor : AnchorBuffer F) (op : Op F) :
    anchor.maxTsSeen ≤ (anchor.step op).maxTsSeen := by
  cases op with
  | push tsUs bid ask bidQty askQty =>
    simp only [step, push]
    split
    · exact le_rfl
    · split
      · exact le_rfl
      · next h => exact (not_le.1 h).le
  | setPending slugTs => exact le_rfl
  | tryResolve nowUs =>
    rcases anchor.tryResolve_cases nowUs with h | ⟨-, h | ⟨-, h⟩⟩ <;> rw [step, h]

/-- No buffer has seen a negative timestamp last. -/
theorem maxTsSeen_nonneg {anchor : AnchorBuffer F} (h : Machine.Reaches step .new anchor) :
    0 ≤ anchor.maxTsSeen :=
  h.invariant (I := fun anchor => 0 ≤ anchor.maxTsSeen)
    (fun anchor op ih => ih.trans (anchor.maxTsSeen_le_step op)) le_rfl

end AnchorBuffer

end

end Polyrust
