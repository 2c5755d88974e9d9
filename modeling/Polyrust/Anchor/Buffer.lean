import Polyrust.Anchor
import Polyrust.Lib.Median
import Polyrust.Lib.Tail

/-!
# The anchor and its history

The buffer of the anchor against all ticks that it has accepted: it holds those of the last ten
seconds (`Holds`). A pending strike is resolved once, from the samples of the first moments of the
market, or from all that the buffer holds of it when the market was discovered late
(`anchor_exact`). What the buffer has trimmed by then is lost to a late discovery
(`late_discovery_median`).
-/

namespace Polyrust

open IntWidth F64

namespace AnchorBuffer

section
variable {F : Type} {history : List (Int × F)} {anchor : AnchorBuffer F} {tsUs : Int}

/-! ## The history -/

/-- The timestamp is positive and greater than every earlier one. -/
def Newer (history : List (Int × F)) (tsUs : Int) : Prop := 0 < tsUs ∧ ∀ s ∈ history, s.1 < tsUs

instance (history : List (Int × F)) (tsUs : Int) : Decidable (Newer history tsUs) :=
  inferInstanceAs (Decidable (_ ∧ _))

/-- The buffer holds the accepted pushes of the last ten seconds. -/
structure Holds (history : List (Int × F)) (anchor : AnchorBuffer F) : Prop where
  maxTsSeen : anchor.maxTsSeen = (history.getLast?.map Prod.fst).getD 0
  buffer : anchor.samples = history.filter fun s =>
    decide (anchor.maxTsSeen - ANCHOR_BUFFER_HORIZON_US ≤ s.1)
  increasing : history.Pairwise fun s s' => s.1 < s'.1
  positive : ∀ s ∈ history, 0 < s.1

/-- No sample is later than the latest time seen. -/
theorem Holds.le_maxTsSeen (h : Holds history anchor) {s : Int × F} (hs : s ∈ history) :
    s.1 ≤ anchor.maxTsSeen := by
  rw [h.maxTsSeen]
  cases hl : history.getLast? with
  | none =>
    rw [List.getLast?_eq_none_iff.1 hl] at hs
    cases hs
  | some last => exact le_getLast?_of_pairwise Prod.fst h.increasing hl hs

/-- The latest time seen is not negative. -/
theorem Holds.maxTsSeen_nonneg (h : Holds history anchor) : 0 ≤ anchor.maxTsSeen := by
  rw [h.maxTsSeen]
  cases hl : history.getLast? with
  | none => exact le_rfl
  | some last => exact (h.positive last (List.mem_of_getLast? hl)).le

/-- The newest timestamp is all that the buffer needs to know of the history. -/
theorem Holds.newer_iff (h : Holds history anchor) (tsUs : Int) :
    Newer history tsUs ↔ anchor.maxTsSeen < tsUs := by
  refine ⟨?_, ?_⟩
  · rintro ⟨hpos, hnewer⟩
    rw [h.maxTsSeen]
    cases hl : history.getLast? with
    | none => exact hpos
    | some last => exact hnewer last (List.mem_of_getLast? hl)
  · intro hlt
    exact ⟨h.maxTsSeen_nonneg.trans_lt hlt, fun s hs => (h.le_maxTsSeen hs).trans_lt hlt⟩

/-- Trimming a list in order of time keeps what is not before the cutoff. -/
theorem dropWhile_eq_filter {samples : List (Int × F)}
    (h : samples.Pairwise fun s s' => s.1 < s'.1) (cutoff : Int) :
    samples.dropWhile (fun s => decide (s.1 < cutoff)) =
      samples.filter fun s => decide (cutoff ≤ s.1) := by
  have honwards : Onwards (fun s : Int × F => decide (cutoff ≤ s.1)) samples :=
    h.imp fun hlt hle => decide_eq_true ((of_decide_eq_true hle).trans hlt.le)
  rw [← honwards.dropWhile_not]
  congr 1
  funext s
  rw [← decide_not, decide_eq_decide, not_le]

/-- What an accepted tick does to the buffer. -/
theorem Holds.push (h : Holds history anchor) (hfits : i64.Fits tsUs)
    (hlt : anchor.maxTsSeen < tsUs) (microprice : F) :
    Holds (history ++ [(tsUs, microprice)])
      (trim { anchor with
        maxTsSeen := tsUs, samples := anchor.samples ++ [(tsUs, microprice)] }) := by
  have hnonneg := h.maxTsSeen_nonneg
  have hincreasing : (history ++ [(tsUs, microprice)]).Pairwise fun s s' => s.1 < s'.1 :=
    pairwise_lt_concat Prod.fst h.increasing fun last hl =>
      (h.le_maxTsSeen (List.mem_of_getLast? hl)).trans_lt hlt
  have hcutoff : i64.saturatingSub tsUs ANCHOR_BUFFER_HORIZON_US =
      tsUs - ANCHOR_BUFFER_HORIZON_US := by
    refine saturate_of_fits ?_
    simp only [Fits, i64_lo, i64_hi, ANCHOR_BUFFER_HORIZON_US] at hfits ⊢
    omega
  refine ⟨?_, ?_, hincreasing, fun s hs => ?_⟩
  · rw [List.getLast?_concat]
    rfl
  · have hsamples : (anchor.samples ++ [(tsUs, microprice)]).Pairwise fun s s' => s.1 < s'.1 := by
      rw [h.buffer]
      exact hincreasing.sublist (List.filter_sublist.append_right _)
    rw [trim]
    dsimp only
    rw [hcutoff, dropWhile_eq_filter hsamples, h.buffer, List.filter_append, List.filter_append,
      List.filter_filter]
    congr 2
    funext s
    -- what the later cutoff keeps, the earlier one has kept
    by_cases hs : tsUs - ANCHOR_BUFFER_HORIZON_US ≤ s.1
    · rw [decide_eq_true hs, Bool.true_and, decide_eq_true_eq]
      omega
    · rw [decide_eq_false hs, Bool.false_and]
  · rcases List.mem_append.1 hs with hs | hs
    · exact h.positive s hs
    · rw [List.mem_singleton.1 hs]
      exact hnonneg.trans_lt hlt

/-! ## The times of the pending market -/

/-- The start of the window of the pending market. -/
def opens (anchor : AnchorBuffer F) : Int := anchor.pendingSlugTs * 1000000

/-- The end of that window. -/
def closes (anchor : AnchorBuffer F) : Int := anchor.opens + ANCHOR_WINDOW_END_US

/-- No operation on the times of the pending market saturates. -/
def NoSaturation (anchor : AnchorBuffer F) : Prop :=
  i64.Fits (anchor.closes + MAX_LATE_WINDOW_US)

/-- The microprices that count: those of the window until a second after its end, and those from
its start on later. -/
def counted (anchor : AnchorBuffer F) (nowUs : Int) : List F :=
  if nowUs ≤ anchor.closes + LATE_DISCOVERY_THRESHOLD_US then
    (anchor.samples.filter fun s => decide (anchor.opens ≤ s.1 ∧ s.1 ≤ anchor.closes)).map Prod.snd
  else (anchor.samples.filter fun s => decide (anchor.opens ≤ s.1)).map Prod.snd

/-- There is a strike to resolve: in time, and with enough samples. -/
def Ready (anchor : AnchorBuffer F) (nowUs : Int) : Prop :=
  nowUs ≤ anchor.closes + MAX_LATE_WINDOW_US ∧
    MIN_ANCHOR_SAMPLES ≤ (anchor.counted nowUs).length

instance (anchor : AnchorBuffer F) (nowUs : Int) : Decidable (anchor.Ready nowUs) :=
  inferInstanceAs (Decidable (_ ∧ _))

/-- Late discovery begins at a 64-bit timestamp. -/
def LateFits (anchor : AnchorBuffer F) : Prop :=
  i64.Fits (anchor.closes + LATE_DISCOVERY_THRESHOLD_US)

section
variable (hpending : 0 < anchor.pendingSlugTs)

include hpending

/-- Where nothing saturates, late discovery begins at a 64-bit timestamp. -/
theorem NoSaturation.lateFits (hfits : anchor.NoSaturation) : anchor.LateFits := by
  simp only [NoSaturation, LateFits, closes, opens, Fits, i64_lo, i64_hi, ANCHOR_WINDOW_END_US,
    MAX_LATE_WINDOW_US, LATE_DISCOVERY_THRESHOLD_US] at hfits ⊢
  omega

/-- The start of the window does not saturate. -/
theorem windowStartUs_eq (hfits : anchor.LateFits) : anchor.windowStartUs = anchor.opens := by
  refine saturate_of_fits ?_
  simp only [LateFits, closes, opens, Fits, i64_lo, i64_hi, ANCHOR_WINDOW_END_US,
    LATE_DISCOVERY_THRESHOLD_US] at hfits ⊢
  omega

/-- The end of the window does not saturate. -/
theorem windowEndUs_eq (hfits : anchor.LateFits) : anchor.windowEndUs = anchor.closes := by
  rw [windowEndUs, windowStartUs_eq hpending hfits, closes]
  refine saturate_of_fits ?_
  simp only [LateFits, closes, opens, Fits, i64_lo, i64_hi, ANCHOR_WINDOW_END_US,
    LATE_DISCOVERY_THRESHOLD_US] at hfits ⊢
  omega

/-- Late discovery is what comes after its threshold. -/
theorem lateDiscovery_eq (hfits : anchor.LateFits) (nowUs : Int) :
    anchor.lateDiscovery nowUs = decide (anchor.closes + LATE_DISCOVERY_THRESHOLD_US < nowUs) := by
  rw [lateDiscovery, windowEndUs_eq hpending hfits, IntWidth.saturatingAdd, saturate_of_fits hfits]

variable (hfits : anchor.NoSaturation)

include hfits

/-- Too late is what comes after the longest window. -/
theorem tooLate_eq (nowUs : Int) :
    anchor.tooLate nowUs = decide (anchor.closes + MAX_LATE_WINDOW_US < nowUs) := by
  have hlate := NoSaturation.lateFits hpending hfits
  rw [tooLate, lateDiscovery_eq hpending hlate, windowEndUs_eq hpending hlate,
    IntWidth.saturatingAdd, saturate_of_fits hfits, ← Bool.decide_and, decide_eq_decide]
  simp only [LATE_DISCOVERY_THRESHOLD_US, MAX_LATE_WINDOW_US]
  omega

/-- The candidates are those that count, as long as it is not too late. -/
theorem candidates_eq (nowUs : Int) :
    anchor.candidates nowUs =
      if nowUs ≤ anchor.closes + MAX_LATE_WINDOW_US then anchor.counted nowUs else [] := by
  have hlateFits := NoSaturation.lateFits hpending hfits
  rw [candidates, lateDiscovery_eq hpending hlateFits, tooLate_eq hpending hfits,
    windowStartUs_eq hpending hlateFits, windowEndUs_eq hpending hlateFits, counted]
  by_cases hlate : anchor.closes + LATE_DISCOVERY_THRESHOLD_US < nowUs
  · by_cases htoo : anchor.closes + MAX_LATE_WINDOW_US < nowUs
    · rw [decide_eq_true htoo, Bool.not_true, Bool.and_false, if_neg Bool.false_ne_true, if_pos rfl,
        if_neg (not_le.2 htoo)]
    · rw [decide_eq_true hlate, decide_eq_false htoo, Bool.not_false, Bool.true_and, if_pos rfl,
        if_pos (not_lt.1 htoo), if_neg (not_le.2 hlate), microprices]
      simp
  · have htoo : ¬anchor.closes + MAX_LATE_WINDOW_US < nowUs := by
      simp only [LATE_DISCOVERY_THRESHOLD_US, MAX_LATE_WINDOW_US] at hlate ⊢
      omega
    rw [decide_eq_false hlate, decide_eq_false htoo, Bool.false_and, if_neg Bool.false_ne_true,
      if_neg Bool.false_ne_true, if_pos (not_lt.1 htoo), if_pos (not_lt.1 hlate), microprices]
    simp

end

/-! ## The samples of a late discovery -/

/-- The microprices of all accepted pushes since the market opened. -/
def sinceOpening (history : List (Int × F)) (anchor : AnchorBuffer F) : List F :=
  (history.filter fun s => decide (anchor.opens ≤ s.1)).map Prod.snd

/-- No accepted push since the market opened is ten seconds older than another one. -/
def AllHeld (history : List (Int × F)) (anchor : AnchorBuffer F) : Prop :=
  ∀ s ∈ history, anchor.opens ≤ s.1 → ∀ s' ∈ history, s'.1 - ANCHOR_BUFFER_HORIZON_US ≤ s.1

/-- The buffer still holds them. -/
theorem Holds.allHeld_iff (h : Holds history anchor) :
    AllHeld history anchor ↔ ∀ s ∈ history, anchor.opens ≤ s.1 →
      anchor.maxTsSeen - ANCHOR_BUFFER_HORIZON_US ≤ s.1 := by
  refine ⟨?_, ?_⟩
  · intro hall s hs hopens
    cases hl : history.getLast? with
    | none =>
      rw [List.getLast?_eq_none_iff.1 hl] at hs
      cases hs
    | some last =>
      have hmax := h.maxTsSeen
      rw [hl, Option.map_some, Option.getD_some] at hmax
      rw [hmax]
      exact hall s hs hopens last (List.mem_of_getLast? hl)
  · intro hall s hs hopens s' hs'
    have := h.le_maxTsSeen hs'
    have := hall s hs hopens
    omega

/-- The samples since the opening that the buffer holds are all there were exactly when no push has
been trimmed. -/
theorem Holds.microprices_iff (h : Holds history anchor) :
    anchor.microprices anchor.opens none = sinceOpening history anchor ↔
      AllHeld history anchor := by
  have hheld : anchor.microprices anchor.opens none =
      ((history.filter fun s => decide (anchor.opens ≤ s.1)).filter fun s =>
        decide (anchor.maxTsSeen - ANCHOR_BUFFER_HORIZON_US ≤ s.1)).map Prod.snd := by
    rw [microprices, h.buffer, List.filter_filter, List.filter_filter]
    congr 2
    funext s
    simp [Bool.and_comm]
  rw [h.allHeld_iff, hheld, sinceOpening]
  refine ⟨?_, ?_⟩
  · intro he s hs hopens
    have hlength := congrArg List.length he
    rw [List.length_map, List.length_map] at hlength
    have hall := List.filter_sublist.eq_of_length hlength
    rw [List.filter_eq_self] at hall
    exact of_decide_eq_true (hall s (List.mem_filter.2 ⟨hs, decide_eq_true hopens⟩))
  · intro hall
    rw [List.filter_eq_self.2]
    intro s hs
    obtain ⟨hs, hopens⟩ := List.mem_filter.1 hs
    exact decide_eq_true (hall s hs (of_decide_eq_true hopens))

/-- In late discovery the candidates are the samples since the opening. -/
theorem candidates_late (hpending : 0 < anchor.pendingSlugTs) {nowUs : Int}
    (hnow : i64.Fits nowUs) (hlate : anchor.closes + LATE_DISCOVERY_THRESHOLD_US < nowUs)
    (htime : nowUs ≤ anchor.closes + MAX_LATE_WINDOW_US) :
    anchor.candidates nowUs = anchor.microprices anchor.opens none := by
  have hfits : anchor.LateFits := by
    simp only [LateFits, closes, opens, Fits, i64_lo, i64_hi, ANCHOR_WINDOW_END_US,
      LATE_DISCOVERY_THRESHOLD_US] at hnow hlate ⊢
    omega
  have htoo : anchor.tooLate nowUs = false := by
    rw [tooLate, windowEndUs_eq hpending hfits, Bool.and_eq_false_iff]
    refine .inr (decide_eq_false (not_lt.2 ?_))
    simp only [IntWidth.saturatingAdd, saturate]
    simp only [Fits] at hnow
    omega
  rw [candidates, lateDiscovery_eq hpending hfits, htoo, decide_eq_true hlate,
    windowStartUs_eq hpending hfits]
  rfl

/-! ## Runs -/

variable [F64 F]

/-- The accepted pushes, oldest first: those with a microprice and a newer timestamp. -/
def record (_ : AnchorBuffer F) : Op F → List (Int × F) → List (Int × F)
  | .push tsUs bid ask bidQty askQty, history =>
    match micropriceOf bid ask bidQty askQty with
    | none => history
    | some microprice => if Newer history tsUs then history ++ [(tsUs, microprice)] else history
  | .setPending _, history | .tryResolve _, history => history

/-- The anchor after a run. -/
def after (ops : List (Op F)) : AnchorBuffer F := Machine.run step .new ops

/-- The pushes that a run accepts. -/
def accepted (ops : List (Op F)) : List (Int × F) := Machine.recorded step record .new [] ops

/-- The timestamp of a tick is a 64-bit number. -/
def Op.InRange : Op F → Prop
  | .push tsUs _ _ _ _ => i64.Fits tsUs
  | .setPending _ | .tryResolve _ => True

instance : ∀ op : Op F, Decidable op.InRange
  | .push tsUs _ _ _ _ => inferInstanceAs (Decidable (i64.Fits tsUs))
  | .setPending _ | .tryResolve _ => inferInstanceAs (Decidable True)

/-- An attempt to resolve leaves the samples alone. -/
theorem Holds.tryResolve (h : Holds history anchor) (nowUs : Int) :
    Holds history (anchor.tryResolve nowUs).1 := by
  rcases anchor.tryResolve_cases nowUs with he | ⟨-, he | ⟨-, he⟩⟩
  · rw [he]
    exact h
  · rw [he]
    exact ⟨h.maxTsSeen, h.buffer, h.increasing, h.positive⟩
  · rw [he]
    exact ⟨h.maxTsSeen, h.buffer, h.increasing, h.positive⟩

/-- What one operation does to the buffer and to the history. -/
theorem Holds.step (h : Holds history anchor) (op : Op F) (hop : op.InRange) :
    Holds (record anchor op history) (anchor.step op) := by
  cases op with
  | push tsUs bid ask bidQty askQty =>
    rw [record, AnchorBuffer.step, AnchorBuffer.push]
    cases micropriceOf bid ask bidQty askQty with
    | none => exact h
    | some microprice =>
      by_cases hlt : anchor.maxTsSeen < tsUs
      · dsimp only
        rw [if_pos ((h.newer_iff tsUs).2 hlt), if_neg (not_le.2 hlt)]
        exact h.push hop hlt microprice
      · dsimp only
        rw [if_neg fun hn => hlt ((h.newer_iff tsUs).1 hn), if_pos (not_lt.1 hlt)]
        exact h
  | setPending slugTs => exact ⟨h.maxTsSeen, h.buffer, h.increasing, h.positive⟩
  | tryResolve nowUs => exact h.tryResolve nowUs

/-- What a run does to them. -/
theorem Holds.run {ops : List (Op F)} (hops : ∀ op ∈ ops, op.InRange) :
    Holds (accepted ops) (after ops) :=
  Machine.recorded_along (fun _ op => op.InRange) (I := fun anchor history => Holds history anchor)
    (fun _ op _ h hop => h.step op hop)
    ⟨rfl, rfl, .nil, nofun⟩ (Machine.along_of_forall (fun op hop _ => hops op hop) _)

/-! ## The strike -/

/-- What `try_resolve` does while a market is pending. -/
theorem tryResolve_eq (hpending : 0 < anchor.pendingSlugTs) (hfits : anchor.NoSaturation)
    (nowUs : Int) :
    anchor.tryResolve nowUs =
      if anchor.Ready nowUs then
        ({ anchor with pendingSlugTs := 0 }, .resolved (median (anchor.counted nowUs)))
      else if anchor.closes < nowUs then ({ anchor with pendingSlugTs := 0 }, .failed)
      else (anchor, .pending) := by
  have hclosed : (decide (anchor.closes + LATE_DISCOVERY_THRESHOLD_US < nowUs) ||
      decide (anchor.closes < nowUs)) = decide (anchor.closes < nowUs) := by
    rw [← Bool.decide_or, decide_eq_decide]
    simp only [LATE_DISCOVERY_THRESHOLD_US]
    omega
  have hlate := NoSaturation.lateFits hpending hfits
  rw [AnchorBuffer.tryResolve, if_neg (not_le.2 hpending), candidates_eq hpending hfits,
    lateDiscovery_eq hpending hlate, windowEndUs_eq hpending hlate, hclosed]
  simp only [decide_eq_true_eq]
  by_cases htime : nowUs ≤ anchor.closes + MAX_LATE_WINDOW_US
  · by_cases hcount : MIN_ANCHOR_SAMPLES ≤ (anchor.counted nowUs).length
    · have hready : anchor.Ready nowUs := ⟨htime, hcount⟩
      rw [if_pos htime, if_neg (not_lt.2 hcount), if_pos hready]
    · have hready : ¬anchor.Ready nowUs := fun hr => hcount hr.2
      rw [if_pos htime, if_pos (not_le.1 hcount), if_neg hready]
  · have hready : ¬anchor.Ready nowUs := fun hr => htime hr.1
    have hnone : ([] : List F).length < MIN_ANCHOR_SAMPLES := Nat.zero_lt_succ 2
    rw [if_neg htime, if_neg hready, if_pos hnone]

/-- What `try_resolve` returns. -/
theorem tryResolve_snd (hpending : 0 < anchor.pendingSlugTs) (hfits : anchor.NoSaturation)
    (nowUs : Int) :
    (∀ m, (anchor.tryResolve nowUs).2 = .resolved m ↔
        anchor.Ready nowUs ∧ m = median (anchor.counted nowUs)) ∧
      ((anchor.tryResolve nowUs).2 = .failed ↔ anchor.closes < nowUs ∧ ¬anchor.Ready nowUs) ∧
      ((anchor.tryResolve nowUs).2 = .pending ↔
        ¬anchor.closes < nowUs ∧ ¬anchor.Ready nowUs) := by
  rw [tryResolve_eq hpending hfits]
  by_cases hready : anchor.Ready nowUs
  · simp [hready, eq_comm]
  · by_cases hclosed : anchor.closes < nowUs <;> simp [hready, hclosed]

/-- Nothing is pending. -/
theorem tryResolve_of_nonpos (h : anchor.pendingSlugTs ≤ 0) (nowUs : Int) :
    anchor.tryResolve nowUs = (anchor, .pending) := if_pos h

/-- A resolved or failed strike is not resolved again before another market is pending. -/
theorem tryResolve_once {nowUs : Int} (h : (anchor.tryResolve nowUs).2 ≠ .pending)
    {later : List (Op F)} (hlater : ∀ slugTs, .setPending slugTs ∈ later → slugTs ≤ 0)
    (nowUs' : Int) :
    ((Machine.run AnchorBuffer.step (anchor.tryResolve nowUs).1 later).tryResolve nowUs').2 =
      .pending := by
  have hspent : (anchor.tryResolve nowUs).1.pendingSlugTs ≤ 0 := by
    rcases anchor.tryResolve_cases nowUs with he | ⟨-, he | ⟨-, he⟩⟩
    · rw [he] at h
      exact absurd rfl h
    · rw [he]
    · rw [he]
  have halong : Machine.Along AnchorBuffer.step
      (fun _ op => ∀ slugTs, op = .setPending slugTs → slugTs ≤ 0) (anchor.tryResolve nowUs).1
      later := by
    refine Machine.along_of_forall ?_ _
    rintro op hop - slugTs rfl
    exact hlater slugTs hop
  have hrun : (Machine.run AnchorBuffer.step (anchor.tryResolve nowUs).1 later).pendingSlugTs ≤
      0 := by
    refine Machine.run_invariant (I := fun anchor : AnchorBuffer F => anchor.pendingSlugTs ≤ 0)
      ?_ hspent halong
    intro anchor op hnone hop
    cases op with
    | push tsUs bid ask bidQty askQty =>
      exact (push_pendingSlugTs anchor tsUs bid ask bidQty askQty).trans_le hnone
    | setPending slugTs => exact hop slugTs rfl
    | tryResolve nowUs =>
      rw [AnchorBuffer.step, tryResolve_of_nonpos hnone]
      exact hnone
  rw [tryResolve_of_nonpos hrun]

/-! ## The median -/

/-- Where halving is exact, the median is the middle of the rational numbers that the values stand
for. -/
theorem val_median [Exact F] (hhalf : ∀ x : F, Exact.val (x / 2.0) = Exact.val x / 2) {l : List F}
    (hl : l ≠ []) : Exact.val (median l) = (l.map Exact.val).middle := by
  have hpos := List.length_pos_of_ne_nil hl
  have hsorted : (l.insertionSort fun a b => lt b a = false).map Exact.val =
      (l.map Exact.val).inOrder :=
    List.map_insertionSort _ _ _ _ fun _ _ _ _ => Exact.lt_false_iff
  have hlength : (l.insertionSort fun a b => lt b a = false).length = l.length :=
    List.length_insertionSort _ l
  -- an element of the sorted list stands for the one of the list in order
  have hget : ∀ i < l.length,
      Exact.val (((l.insertionSort fun a b => lt b a = false)[i]?).getD nan) =
        (l.map Exact.val).inOrder.getD i 0 := by
    intro i hi
    rw [← hsorted, List.getD_eq_getElem?_getD, List.getElem?_map,
      List.getElem?_eq_getElem (hlength.symm ▸ hi)]
    rfl
  rw [median, List.middle, List.length_map, hlength]
  split
  · next hodd =>
    rw [hget _ (by omega), show (l.length - 1) / 2 = l.length / 2 by omega]
    linarith
  · next heven =>
    rw [hhalf, Exact.add, hget _ (by omega), hget _ (by omega),
      show (l.length - 1) / 2 = l.length / 2 - 1 by omega]

/-! ## After every run -/

/-- After every run the buffer holds exactly the accepted pushes of the last ten seconds. A pending
market whose times do not saturate is resolved while it is in time and enough samples count, with
their median; it fails once its window is over and it does not resolve. Either happens once. The
median is the middle of the microprices, within any bounds of them and the same in any order. -/
theorem anchor_exact (ops : List (Op F)) (hops : ∀ op ∈ ops, op.InRange) :
    Holds (accepted ops) (after ops) ∧
      (0 < (after ops).pendingSlugTs → (after ops).NoSaturation → ∀ nowUs,
        (∀ m, ((after ops).tryResolve nowUs).2 = .resolved m ↔
          (after ops).Ready nowUs ∧ m = median ((after ops).counted nowUs)) ∧
        (((after ops).tryResolve nowUs).2 = .failed ↔
          (after ops).closes < nowUs ∧ ¬(after ops).Ready nowUs) ∧
        (((after ops).tryResolve nowUs).2 = .pending ↔
          ¬(after ops).closes < nowUs ∧ ¬(after ops).Ready nowUs)) ∧
      (∀ nowUs, ((after ops).tryResolve nowUs).2 ≠ .pending →
        ∀ later : List (Op F), (∀ slugTs, Op.setPending slugTs ∈ later → slugTs ≤ 0) →
          ∀ nowUs', ((Machine.run step ((after ops).tryResolve nowUs).1 later).tryResolve
            nowUs').2 = .pending) ∧
      ∀ [Exact F], (∀ x : F, Exact.val (x / 2.0) = Exact.val x / 2) → ∀ l : List F, l ≠ [] →
        Exact.val (median l) = (l.map Exact.val).middle ∧
          (∀ a, (∀ x ∈ l, a ≤ Exact.val x) → a ≤ Exact.val (median l)) ∧
          (∀ a, (∀ x ∈ l, Exact.val x ≤ a) → Exact.val (median l) ≤ a) ∧
          ∀ l', l.Perm l' → Exact.val (median l') = Exact.val (median l) := by
  refine ⟨.run hops, fun hpending hfits => tryResolve_snd hpending hfits,
    fun nowUs h later hlater => tryResolve_once h hlater, ?_⟩
  intro _ hhalf l hl
  have hmap : l.map (Exact.val : F → ℚ) ≠ [] := by simpa using hl
  refine ⟨val_median hhalf hl, fun a ha => ?_, fun a ha => ?_, fun l' hperm => ?_⟩
  · rw [val_median hhalf hl]
    exact List.le_middle hmap (List.forall_mem_map.2 ha)
  · rw [val_median hhalf hl]
    exact List.middle_le hmap (List.forall_mem_map.2 ha)
  · rw [val_median hhalf hl, val_median hhalf fun h => hl (List.perm_nil.1 (h ▸ hperm)),
      List.middle_perm (hperm.map _)]

/-- After every run, a late discovery resolves to the median of the samples since the opening that
the buffer holds. Those are all samples accepted since the opening, in the case that no push has
been trimmed of them, and only then. -/
theorem late_discovery_median (ops : List (Op F)) (hops : ∀ op ∈ ops, op.InRange)
    (hpending : 0 < (after ops).pendingSlugTs) (nowUs : Int) (hnow : i64.Fits nowUs)
    (hlate : (after ops).closes + LATE_DISCOVERY_THRESHOLD_US < nowUs)
    (htime : nowUs ≤ (after ops).closes + MAX_LATE_WINDOW_US) (m : F)
    (h : ((after ops).tryResolve nowUs).2 = .resolved m) :
    m = median ((after ops).candidates nowUs) ∧
      ((after ops).candidates nowUs = sinceOpening (accepted ops) (after ops) ↔
        AllHeld (accepted ops) (after ops)) ∧
      (AllHeld (accepted ops) (after ops) →
        m = median (sinceOpening (accepted ops) (after ops))) := by
  have hmedian : m = median ((after ops).candidates nowUs) := by
    rcases (after ops).tryResolve_cases nowUs with he | ⟨-, he | ⟨-, he⟩⟩
    · rw [he] at h
      cases h
    · rw [he] at h
      cases h
    · rw [he] at h
      cases h
      rfl
  have hiff := (Holds.run hops).microprices_iff
  rw [← candidates_late hpending hnow hlate htime] at hiff
  exact ⟨hmedian, hiff, fun hall => hmedian.trans (congrArg median (hiff.2 hall))⟩

end

/-- A tick of the microprice `price`. -/
def tick (tsUs : Int) (price : Rat) : Op Rat := .push tsUs price price 1 1

/-- Three ticks in the first moments of the market that starts at second 1000, with that market
pending. -/
def opening : List (Op Rat) :=
  [tick 1000100000 90, tick 1000150000 92, tick 1000200000 91, .setPending 1000]

/-- The three ticks resolve to the one in the middle. -/
theorem anchor_exact_opening :
    ((after opening).tryResolve 1000250000).2 = .resolved 91 ∧
      ((after opening).tryResolve 1000250000).2 ≠ .pending := by
  have hpending : 0 < (after opening).pendingSlugTs := by decide +kernel
  have hfits : i64.Fits ((after opening).closes + MAX_LATE_WINDOW_US) := by decide +kernel
  have hready : (after opening).Ready 1000250000 := by decide +kernel
  have hmedian : (91 : Rat) = median ((after opening).counted 1000250000) := by decide +kernel
  obtain ⟨-, hresolve, -, -⟩ := anchor_exact opening (by decide +kernel)
  have hresolved := ((hresolve hpending hfits 1000250000).1 91).2 ⟨hready, hmedian⟩
  exact ⟨hresolved, by rw [hresolved]; nofun⟩

/-- Three ticks at the opening of the market, and three twelve seconds later. -/
def discoveredLate : List (Op Rat) :=
  opening ++ [tick 1012100000 100, tick 1012150000 102, tick 1012200000 101]

/-- Found two seconds after its opening, the market resolves to the median of all its samples. -/
theorem late_discovery_median_opening :
    sinceOpening (accepted opening) (after opening) = [90, 92, 91] ∧
      (91 : Rat) = median (sinceOpening (accepted opening) (after opening)) := by
  have hsince : sinceOpening (accepted opening) (after opening) = [90, 92, 91] := by
    decide +kernel
  have hall : AllHeld (accepted opening) (after opening) := by
    simp only [AllHeld]
    decide +kernel
  obtain ⟨-, -, hmedian⟩ := late_discovery_median opening (by decide +kernel) (by decide +kernel)
    1002000000 (by decide) (by decide +kernel) (by decide +kernel) 91 (by decide +kernel)
  exact ⟨hsince, hmedian hall⟩

/-- Found twelve seconds after its opening, the market resolves to the median of what the buffer
still holds: the ticks of the opening are lost. -/
theorem late_discovery_loses_opening :
    (after discoveredLate).closes + LATE_DISCOVERY_THRESHOLD_US < 1012300000 ∧
      1012300000 ≤ (after discoveredLate).closes + MAX_LATE_WINDOW_US ∧
      ((after discoveredLate).tryResolve 1012300000).2 = .resolved 101 ∧
      sinceOpening (accepted discoveredLate) (after discoveredLate) =
        [90, 92, 91, 100, 102, 101] ∧
      median (sinceOpening (accepted discoveredLate) (after discoveredLate)) = 96 := by
  refine ⟨?_, ?_, ?_, ?_, ?_⟩ <;> decide +kernel

end AnchorBuffer

end Polyrust
