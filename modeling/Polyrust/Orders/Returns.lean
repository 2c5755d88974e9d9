import Polyrust.Orders.Overshoot

/-!
# Where the canonical BUY returns

The canonical BUY multiplies its target by a hundred twice, with a panic where that overflows, and
adds to the size and to the target in plain arithmetic. It returns, in a build that checks for
overflow too, up to a bound on the target that depends on the price (`notionalLimit`), as long as
the absolute overrun leaves room above the target (`canonicalBuyTargetForNotional_returns_iff`).
-/

namespace Polyrust

open IntWidth Rounding

/-- The largest target whose size is a 64-bit number on the lattice of the price. -/
def notionalLimit (p : Int) : Int := p * (i64.hi / sizeQuantum p * sizeQuantum p / 100) / 100

section
variable {b : Build} {inp : BuyCanonicalInput}

/-- A size is rounded up within 64 bits as long as a multiple is left above it. -/
theorem ceilToMultiple_returns_iff (hb : b.overflowChecks = true) {x m : Int} (hm : 0 < m)
    (hmf : i64.Fits m) (hx : 0 ≤ x) (hxf : i64.Fits x) :
    (∃ y, ceilToMultiple b x m = .ok y) ↔ i64.Fits (up m x) := by
  refine ⟨?_, ?_⟩
  · rintro ⟨y, hy⟩
    by_cases hr : x % m = 0
    · rwa [up_of_dvd hm hr]
    · rw [ceilToMultiple, if_neg (not_le.2 hm), Int.tmod_eq_emod_of_nonneg hx] at hy
      dsimp only at hy
      rw [if_neg hr] at hy
      rw [up_of_not_dvd hm hr]
      have hsum := Build.arith_bind_checked hb hy
      exact ((Build.arith_checked hb).1 hsum).1
  · exact fun hf => ⟨_, ceilToMultiple_eq hm hmf hx hf⟩

/-- The size rounded up is a 64-bit number only with a raw size and a target that are. -/
theorem fits_of_ceilSize (hp : 1 ≤ inp.price.ticks ∧ inp.price.ticks ≤ 99)
    (hT : 1 ≤ inp.targetMakerCents) (h : i64.Fits inp.ceilSize) :
    i64.Fits (100 * inp.targetMakerCents) ∧ i64.Fits inp.rawSize := by
  have hraw := @rawSize_nonneg inp hp.1 hT
  have hcovers := (@rawSize_bounds inp hp.1).1
  have hle : inp.rawSize ≤ inp.ceilSize := le_up (sizeQuantum_pos inp.price.ticks) inp.rawSize
  have hcost := mul_le_mul_of_nonneg_right hp.2 hraw
  simp only [Fits, i64_lo, i64_hi] at h ⊢
  omega

/-- The choice returns where the size is rounded up and the risk band is computed. -/
theorem chooseTarget_returns_iff :
    (∃ r, chooseTarget b inp = .ok r) ↔
      (∃ size, ceilToMultiple b inp.rawSize (sizeQuantum inp.price.ticks) = .ok size) ∧
        ∃ top, inp.maxAllowedCents b = .ok top := by
  refine ⟨?_, ?_⟩
  · rintro ⟨r, h⟩
    obtain ⟨size, hsize, h⟩ := Except.ok_bind_inv h
    obtain ⟨top, htop, -⟩ := Except.ok_bind_inv h
    exact ⟨⟨size, hsize⟩, top, htop⟩
  · rintro ⟨⟨size, hsize⟩, top, htop⟩
    unfold chooseTarget
    dsimp only
    rw [hsize, Except.ok_bind, htop, Except.ok_bind]
    split
    · exact ⟨_, rfl⟩
    split
    · split
      · exact ⟨_, rfl⟩
      · split
        · exact ⟨_, rfl⟩
        · exact ⟨_, rfl⟩
    · split
      · exact ⟨_, rfl⟩
      · exact ⟨_, rfl⟩

/-- Past the two multiplications and the minimum size, the canonical BUY returns where the choice
does. -/
theorem returns_of_fits (hp : 1 ≤ inp.price.ticks ∧ inp.price.ticks ≤ 99)
    (hnumer : i64.Fits (100 * inp.targetMakerCents)) (hrawf : i64.Fits inp.rawSize)
    (hmin : inp.minSizeTakerUnits ≤ inp.rawSize) :
    (∃ r, canonicalBuyTargetForNotional b inp = .ok r) ↔
      (∃ size, ceilToMultiple b inp.rawSize (sizeQuantum inp.price.ticks) = .ok size) ∧
        ∃ top, inp.maxAllowedCents b = .ok top := by
  rw [canonicalBuyTargetForNotional_of_fits hp hnumer hrawf, if_neg (not_lt.2 hmin),
    chooseTarget_returns_iff]

/-- The bound on the target, from the size rounded up. -/
theorem fits_ceilSize_iff (hp : 1 ≤ inp.price.ticks) (hT : 1 ≤ inp.targetMakerCents) :
    i64.Fits inp.ceilSize ↔ inp.targetMakerCents ≤ notionalLimit inp.price.ticks := by
  have hq := sizeQuantum_pos inp.price.ticks
  have hraw := @rawSize_nonneg inp hp hT
  have hle : inp.rawSize ≤ inp.ceilSize := le_up hq inp.rawSize
  have hdown : down (sizeQuantum inp.price.ticks) i64.hi =
      i64.hi / sizeQuantum inp.price.ticks * sizeQuantum inp.price.ticks := by
    rw [down, floor_div_eq hq, mul_comm]
  calc i64.Fits inp.ceilSize
      ↔ inp.ceilSize ≤ i64.hi := by
        simp only [Fits, i64_lo, i64_hi]
        omega
    _ ↔ 100 * ⌈((100 * inp.targetMakerCents : Int) : ℚ) / inp.price.ticks⌉ ≤
          down (sizeQuantum inp.price.ticks) i64.hi := up_le_iff hq
    _ ↔ ⌈((100 * inp.targetMakerCents : Int) : ℚ) / inp.price.ticks⌉ ≤
          down (sizeQuantum inp.price.ticks) i64.hi / 100 := by
        rw [Int.le_ediv_iff_mul_le (by decide), mul_comm]
    _ ↔ 100 * inp.targetMakerCents ≤
          inp.price.ticks * (down (sizeQuantum inp.price.ticks) i64.hi / 100) :=
        ceil_div_le_iff (by omega)
    _ ↔ inp.targetMakerCents ≤ notionalLimit inp.price.ticks := by
        rw [notionalLimit, hdown, Int.le_ediv_iff_mul_le (by decide), mul_comm]

/-- The ten-thousandth part of a 64-bit number. -/
theorem tdiv_bounds {x : Int} (hx : i64.Fits x) :
    -922337203685477 ≤ x.tdiv 10000 ∧ x.tdiv 10000 ≤ 922337203685477 := by
  simp only [Fits, i64_lo, i64_hi] at hx
  rcases le_or_gt 0 x with h | h
  · rw [Int.tdiv_eq_ediv_of_nonneg h]
    omega
  · have hneg : x.tdiv 10000 = -(-x / 10000) := by
      rw [← Int.tdiv_eq_ediv_of_nonneg (by omega : 0 ≤ -x), Int.neg_tdiv, neg_neg]
    omega

/-- Below that bound the overrun in basis points leaves room, and the absolute one decides. -/
theorem fits_bandTop_iff (hT : 1 ≤ inp.targetMakerCents)
    (hnumer : i64.Fits (100 * inp.targetMakerCents)) :
    i64.Fits inp.bandTop ↔ inp.targetMakerCents + inp.maxOverrunCents ≤ i64.hi := by
  obtain ⟨hlo, hhi⟩ := tdiv_bounds (saturate_fits (inp.targetMakerCents * inp.maxOverrunBps))
  unfold BuyCanonicalInput.bandTop
  simp only [saturatingMul, Fits, i64_lo, i64_hi] at hnumer ⊢
  omega

/-- The canonical BUY returns in every build if and only if the target is within the bound of its
price and the absolute overrun leaves room above it. -/
theorem canonicalBuyTargetForNotional_returns_iff
    (hp : 1 ≤ inp.price.ticks ∧ inp.price.ticks ≤ 99) (hT : 1 ≤ inp.targetMakerCents)
    (hmin : inp.minSizeTakerUnits ≤ inp.rawSize) :
    (∀ b, ∃ r, canonicalBuyTargetForNotional b inp = .ok r) ↔
      inp.targetMakerCents ≤ notionalLimit inp.price.ticks ∧
        inp.targetMakerCents + inp.maxOverrunCents ≤ i64.hi := by
  have hq := sizeQuantum_pos inp.price.ticks
  have hqf : i64.Fits (sizeQuantum inp.price.ticks) := by
    have hle := sizeQuantum_le inp.price.ticks
    simp only [Fits, i64_lo, i64_hi]
    omega
  have hraw := @rawSize_nonneg inp hp.1 hT
  refine ⟨?_, ?_⟩
  · intro h
    have hchecked := h ⟨true⟩
    obtain ⟨hnumer, hrawf⟩ := fits_of_returns hp hchecked
    obtain ⟨hsize, top, htop⟩ := (returns_of_fits hp hnumer hrawf hmin).1 hchecked
    refine ⟨(fits_ceilSize_iff hp.1 hT).1 ?_, (fits_bandTop_iff hT hnumer).1 ?_⟩
    · exact (ceilToMultiple_returns_iff rfl hq hqf hraw hrawf).1 hsize
    · exact ((Build.arith_checked rfl).1 htop).1
  · rintro ⟨hlimit, hroom⟩ b
    have hceil := (fits_ceilSize_iff hp.1 hT).2 hlimit
    obtain ⟨hnumer, hrawf⟩ := fits_of_ceilSize hp hT hceil
    refine (returns_of_fits hp hnumer hrawf hmin).2 ⟨⟨_, ceilToMultiple_eq hq hqf hraw hceil⟩, ?_⟩
    exact ⟨_, Build.arith_of_fits ((fits_bandTop_iff hT hnumer).2 hroom)⟩

end

end Polyrust
