import Polyrust.Lib.Mean
import Polyrust.Runtime.Latency

/-!
# The average round trip

The average of the BUY submits is a running mean of the round trips that are positive: a sample
moves it by an eighth of the difference, rounded down, and a sample that is not positive is none.
An average of zero stands for no sample. The running mean is computed over all integers
(`averageUs`), and the one of the runtime is it, in every build.
-/

namespace Polyrust

open IntWidth

/-- The average after a sample that is not the first. -/
def blend (ewma rttUs : Int) : Int := ewma + (rttUs - ewma) >>> RTT_EWMA_SHIFT

/-- The blend of the source is a mean with weights seven and one. -/
theorem blend_eq (ewma rttUs : Int) : blend ewma rttUs = (7 * ewma + rttUs) / 8 := by
  rw [blend, RTT_EWMA_SHIFT, Int.shiftRight_eq_div_pow]
  omega

/-- A blend lies between what it blends. -/
theorem isMean_blend : IsMean blend where
  min_le a x := by
    rw [blend_eq]
    omega
  le_max a x := by
    rw [blend_eq]
    omega
  mono ha hx := by
    rw [blend_eq, blend_eq]
    omega

/-- The running mean of the samples that are positive. -/
def averageUs (samples : List Int) : Option Int :=
  Mean.running blend (samples.filter fun rttUs => decide (0 < rttUs))

section
variable {samples : List Int} {rttUs avg : Int}

/-- A further round trip is blended in. -/
theorem averageUs_concat_pos (h : 0 < rttUs) :
    averageUs (samples ++ [rttUs]) = some ((averageUs samples).elim rttUs (blend · rttUs)) := by
  simp [averageUs, h]

/-- A round trip that is not positive is ignored. -/
theorem averageUs_concat_nonpos (h : rttUs ≤ 0) :
    averageUs (samples ++ [rttUs]) = averageUs samples := by
  simp [averageUs, not_lt.2 h]

/-- There is no average without a positive round trip. -/
theorem averageUs_eq_none : averageUs samples = none ↔ ∀ rttUs ∈ samples, rttUs ≤ 0 := by
  simp [averageUs, Mean.running_eq_none]

/-- The average is between two of the positive samples. -/
theorem averageUs_hull (h : averageUs samples = some avg) :
    (∃ rttUs ∈ samples, 0 < rttUs ∧ rttUs ≤ avg) ∧ ∃ rttUs ∈ samples, 0 < rttUs ∧ avg ≤ rttUs := by
  obtain ⟨x, hx, hle⟩ := Mean.exists_le_running isMean_blend h
  obtain ⟨y, hy, hge⟩ := Mean.exists_running_le isMean_blend h
  simp only [List.mem_filter, decide_eq_true_eq] at hx hy
  exact ⟨⟨x, hx.1, hx.2, hle⟩, ⟨y, hy.1, hy.2, hge⟩⟩

/-- An average is positive. -/
theorem averageUs_pos (h : averageUs samples = some avg) : 0 < avg := by
  obtain ⟨⟨rttUs, -, hpos, hle⟩, -⟩ := averageUs_hull h
  exact hpos.trans_le hle

/-- Of samples that are all positive, larger ones have a larger average. -/
theorem averageUs_mono {samples' : List Int} (hle : List.Forall₂ (· ≤ ·) samples samples')
    (hpos : ∀ rttUs ∈ samples, 0 < rttUs) (hpos' : ∀ rttUs ∈ samples', 0 < rttUs) :
    (averageUs samples).getD 0 ≤ (averageUs samples').getD 0 := by
  rw [averageUs, averageUs, List.filter_eq_self.2 (by simpa using hpos),
    List.filter_eq_self.2 (by simpa using hpos')]
  exact Mean.running_mono isMean_blend hle 0

end

/-! ## The average of the runtime -/

namespace RuntimeCore

section
variable {F : Type} {b : Build} {core core' : RuntimeCore F} {samples : List Int} {rttUs : Int}

/-- The core ignores a round trip that is not positive. -/
theorem recordRtt_nonpos (b : Build) (core : RuntimeCore F) (h : rttUs ≤ 0) :
    core.recordRtt b rttUs = .ok core := by
  rw [recordRtt, if_pos h]
  rfl

/-- The average of the core is that of the samples; without one it is zero. -/
def Averages (core : RuntimeCore F) (samples : List Int) : Prop :=
  core.rttEwmaUs = (averageUs samples).getD 0

/-- The average of 64-bit round trips is one. -/
theorem Averages.range (h : core.Averages samples) (hfit : ∀ rttUs ∈ samples, rttUs ≤ i64.hi) :
    0 ≤ core.rttEwmaUs ∧ core.rttEwmaUs ≤ i64.hi := by
  rw [h]
  cases havg : averageUs samples with
  | none => decide
  | some avg =>
    obtain ⟨-, rttUs, hmem, -, hle⟩ := averageUs_hull havg
    exact ⟨(averageUs_pos havg).le, hle.trans (hfit rttUs hmem)⟩

/-- The average is zero exactly when no sample was positive. -/
theorem Averages.eq_zero_iff (h : core.Averages samples) :
    core.rttEwmaUs = 0 ↔ ∀ rttUs ∈ samples, rttUs ≤ 0 := by
  rw [h, ← averageUs_eq_none]
  cases havg : averageUs samples with
  | none => simp
  | some avg => simp [(averageUs_pos havg).ne']

/-- The average after a positive sample. -/
theorem Averages.nextEwma (h : core.Averages samples) :
    nextEwma core.rttEwmaUs rttUs = (averageUs samples).elim rttUs (blend · rttUs) := by
  rw [h]
  cases havg : averageUs samples with
  | none => rfl
  | some avg => exact if_neg (averageUs_pos havg).ne'

/-- A sample is recorded in every build, and nothing but the average changes. -/
theorem Averages.recordRtt (h : core.Averages samples)
    (hfit : ∀ rttUs ∈ samples, rttUs ≤ i64.hi) (hrtt : rttUs ≤ i64.hi) :
    ∃ ewma, core.recordRtt b rttUs = .ok { core with rttEwmaUs := ewma } ∧
      Averages { core with rttEwmaUs := ewma } (samples ++ [rttUs]) := by
  rcases le_or_gt rttUs 0 with hnonpos | hpos
  · refine ⟨core.rttEwmaUs, recordRtt_nonpos b core hnonpos, ?_⟩
    rw [Averages, averageUs_concat_nonpos hnonpos]
    exact h
  · obtain ⟨h0, h1⟩ := h.range hfit
    refine ⟨_, recordRtt_eq ⟨rttUs, hpos, hrtt⟩ h0 h1, ?_⟩
    rw [Averages, averageUs_concat_pos hpos]
    exact h.nextEwma

/-- Samples are recorded in every build, and nothing but the average changes. -/
theorem run_recordRtt (h : core.rttEwmaUs = 0) (hfit : ∀ rttUs ∈ samples, rttUs ≤ i64.hi) :
    ∃ ewma, Machine.runM (RuntimeCore.recordRtt b) core samples =
        .ok { core with rttEwmaUs := ewma } ∧
      Averages { core with rttEwmaUs := ewma } samples := by
  induction samples using List.reverseRecOn with
  | nil => exact ⟨core.rttEwmaUs, rfl, h⟩
  | append_singleton samples rttUs ih =>
    obtain ⟨ewma, hrun, havg⟩ := ih fun x hx => hfit x (by simp [hx])
    obtain ⟨ewma', hstep, havg'⟩ := Averages.recordRtt havg (fun x hx => hfit x (by simp [hx]))
      (hfit rttUs (by simp))
    refine ⟨ewma', ?_, havg'⟩
    exact Machine.runM_concat.2 ⟨_, hrun, hstep⟩

/-- However many samples a new core records, in every build: the average is the running mean of the
positive ones over all integers, so nothing overflows; a sample that is not positive changes
nothing; the average is zero as long as no sample is positive, and is between two of the positive
samples from then on; and larger samples have a larger average. -/
theorem rtt_average_mean [F64 F] (b : Build) (config : Config F) (core : RuntimeCore F)
    (hnew : RuntimeCore.new config = .ok core) (samples : List Int)
    (hfit : ∀ rttUs ∈ samples, i64.Fits rttUs) :
    ∃ core', Machine.runM (RuntimeCore.recordRtt b) core samples = .ok core' ∧
      core' = { core with rttEwmaUs := (averageUs samples).getD 0 } ∧
      (∀ rttUs ≤ 0, core'.recordRtt b rttUs = .ok core') ∧
      (core'.rttEwmaUs = 0 ↔ ∀ rttUs ∈ samples, rttUs ≤ 0) ∧
      ((∃ rttUs ∈ samples, 0 < rttUs) →
        (∃ rttUs ∈ samples, 0 < rttUs ∧ rttUs ≤ core'.rttEwmaUs) ∧
          ∃ rttUs ∈ samples, 0 < rttUs ∧ core'.rttEwmaUs ≤ rttUs) ∧
      ∀ samples' core'', (∀ rttUs ∈ samples, 0 < rttUs) →
        (∀ rttUs ∈ samples', 0 < rttUs ∧ i64.Fits rttUs) →
        List.Forall₂ (· ≤ ·) samples samples' →
        Machine.runM (RuntimeCore.recordRtt b) core samples' = .ok core'' →
          core'.rttEwmaUs ≤ core''.rttEwmaUs := by
  have hzero : core.rttEwmaUs = 0 := by
    obtain ⟨signalConfig, -, hnew⟩ := Except.ok_bind_inv hnew
    cases hnew
    rfl
  obtain ⟨ewma, hrun, havg⟩ := @run_recordRtt F b core samples hzero fun x hx => (hfit x hx).2
  refine ⟨_, hrun, ?_, fun _ h => recordRtt_nonpos b _ h, havg.eq_zero_iff, ?_, ?_⟩
  · rw [← havg]
  · rintro ⟨rttUs, hmem, hpos⟩
    rw [havg]
    cases hr : averageUs samples with
    | none => exact absurd hpos (averageUs_eq_none.1 hr rttUs hmem).not_gt
    | some avg => exact averageUs_hull hr
  · intro samples' core'' hpos hpos' hle hrun'
    obtain ⟨ewma', hrun'', havg'⟩ :=
      @run_recordRtt F b core samples' hzero fun x hx => (hpos' x hx).2.2
    cases hrun''.symm.trans hrun'
    rw [havg, havg']
    exact averageUs_mono hle hpos fun x hx => (hpos' x hx).1

end

/-- Of 800, -5 and 1600 the average is 900, and of larger samples it is no less. -/
theorem rtt_average_mean_example :
    ∃ core core' core'' : RuntimeCore Rat,
      RuntimeCore.new Config.runtimeEnvShape = .ok core ∧
        Machine.runM (RuntimeCore.recordRtt ⟨true⟩) core [800, -5, 1600] = .ok core' ∧
        core'.rttEwmaUs = 900 ∧ core'.recordRtt ⟨true⟩ (-5) = .ok core' ∧
        Machine.runM (RuntimeCore.recordRtt ⟨true⟩) core [800, 1600] = .ok core'' ∧
        ∀ core₃, Machine.runM (RuntimeCore.recordRtt ⟨true⟩) core [900, i64.hi] = .ok core₃ →
          core''.rttEwmaUs ≤ core₃.rttEwmaUs := by
  have h : (RuntimeCore.new (Config.runtimeEnvShape : Config Rat)).Succeeds fun _ => True := by
    decide +kernel
  obtain ⟨core, hnew, -⟩ := h.exists
  obtain ⟨core', hrun, rfl, hnonpos, -⟩ :=
    rtt_average_mean ⟨true⟩ _ core hnew [800, -5, 1600] (by decide)
  obtain ⟨core'', hrun', -, -, -, -, hmono⟩ :=
    rtt_average_mean ⟨true⟩ _ core hnew [800, 1600] (by decide)
  have hewma : (averageUs [800, -5, 1600]).getD 0 = 900 := by decide
  refine ⟨core, _, core'', hnew, hrun, hewma, hnonpos (-5) (by decide), hrun', ?_⟩
  exact fun core₃ hrun₃ => hmono [900, i64.hi] core₃ (by decide) (by decide) (by simp) hrun₃

end RuntimeCore

end Polyrust
