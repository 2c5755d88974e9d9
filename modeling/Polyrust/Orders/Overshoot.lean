import Polyrust.Orders.Lattice

/-!
# The overshoot of the canonical BUY

The canonical BUY rounds the target up twice: to the next 0.01 share, and from there to the lattice
of the price. Where the target is a maker amount of the lattice whose size is no whole number of
0.01 shares, the first rounding leaves that point and the second goes on to the next, so the BUY
costs one lattice step more than the target (`Skips`). In every other case the point it takes is the
least that covers the target (`canonical_buy_least_iff`).
-/

namespace Polyrust

open IntWidth Rounding

/-! ## Rounding a size that may be out of range -/

/-- A sum that is too large by less than the range wraps below zero. -/
theorem arith_of_gt {b : Build} {x y : Int} (h : b.arith i64 x = .ok y) (hgt : i64.hi < x)
    (hle : x ≤ i64.hi + 10000) : y < 0 := by
  rcases Build.arith_ok h with ⟨hfits, -⟩ | ⟨-, rfl⟩
  · exact absurd hfits.2 hgt.not_ge
  · simp only [i64_hi] at hgt hle
    rw [wrap_eq_sub (by simp only [Fits, i64_lo, i64_hi]; omega), i64_lo, i64_hi]
    omega

/-- Where the next multiple above is out of range, what `ceil_to_multiple` returns has wrapped. -/
theorem ceilToMultiple_wraps {b : Build} {x m y : Int} (hm : 0 < m) (hmle : m ≤ 10000)
    (hx : i64.Fits x) (hpos : 0 < x) (hf : ¬i64.Fits (up m x))
    (h : ceilToMultiple b x m = .ok y) : y < 0 := by
  have hlt := Int.emod_lt_of_pos x hm
  have hnn := Int.emod_nonneg x hm.ne'
  have hne : x % m ≠ 0 := fun he => hf (by rwa [up_of_dvd hm he])
  rw [up_of_not_dvd hm hne] at hf
  rw [ceilToMultiple, if_neg hm.not_ge, Int.tmod_eq_emod_of_nonneg hpos.le] at h
  dsimp only at h
  have hup : i64.Fits (m - x % m) := by
    simp only [Fits, i64_lo, i64_hi]
    omega
  rw [if_neg hne, Build.arith_of_fits hup, Except.ok_bind] at h
  simp only [Fits, i64_lo, i64_hi] at hf hx
  exact arith_of_gt h (by simp only [i64_hi]; omega) (by simp only [i64_hi]; omega)

/-- Of a number that is not positive `ceil_to_multiple` returns no more than one multiple. -/
theorem ceilToMultiple_of_nonpos {b : Build} {x m y : Int} (hm : 0 < m) (hmle : m ≤ 10000)
    (hx : i64.Fits x) (hneg : x ≤ 0) (h : ceilToMultiple b x m = .ok y) : y ≤ m := by
  -- the remainder has the sign of `x`, and without it `x` is a multiple that is not positive
  have hrem : x.tmod m = -(-x % m) := by
    rw [← Int.tmod_eq_emod_of_nonneg (by omega : 0 ≤ -x), Int.neg_tmod, neg_neg]
  have hdiv := Int.ediv_mul_add_emod (-x) m
  have hquot := mul_nonneg (Int.ediv_nonneg (by omega : 0 ≤ -x) hm.le) hm.le
  have hlt := Int.emod_lt_of_pos (-x) hm
  have hnn := Int.emod_nonneg (-x) hm.ne'
  rw [ceilToMultiple, if_neg hm.not_ge, hrem] at h
  dsimp only at h
  split at h
  · cases h
    omega
  · have hup : i64.Fits (m - -(-x % m)) := by
      simp only [Fits, i64_lo, i64_hi]
      omega
    have hsum : i64.Fits (x + (m - -(-x % m))) := by
      simp only [Fits, i64_lo, i64_hi] at hx ⊢
      omega
    rw [Build.arith_of_fits hup, Except.ok_bind, Build.arith_of_fits hsum] at h
    cases h
    omega

/-- What `ceil_to_multiple` returns is the next multiple above, or no more than one multiple. -/
theorem ceilToMultiple_ok {b : Build} {x m y : Int} (hm : 0 < m) (hmle : m ≤ 10000)
    (hx : i64.Fits x) (h : ceilToMultiple b x m = .ok y) : 0 < x ∧ y = up m x ∨ y ≤ m := by
  rcases lt_or_ge 0 x with hpos | hneg
  · by_cases hf : i64.Fits (up m x)
    · have hmf : i64.Fits m := by
        simp only [Fits, i64_lo, i64_hi]
        omega
      rw [ceilToMultiple_eq hm hmf hpos.le hf] at h
      cases h
      exact .inl ⟨hpos, rfl⟩
    · have hwrap := ceilToMultiple_wraps hm hmle hx hpos hf h
      omega
  · exact .inr (ceilToMultiple_of_nonpos hm hmle hx hneg h)

/-- A size that is not positive is rounded down to none that is. -/
theorem floorToMultiple_nonpos {x m : Int} (hm : 0 < m) (hx : x ≤ 0) :
    floorToMultiple x m ≤ 0 := by
  have hquot : x.tdiv m = -(-x / m) := by
    rw [← Int.tdiv_eq_ediv_of_nonneg (by omega : 0 ≤ -x), Int.neg_tdiv, neg_neg]
  have hnn := mul_nonneg (Int.ediv_nonneg (by omega : 0 ≤ -x) hm.le) hm.le
  rw [floorToMultiple, if_neg hm.not_ge, hquot, neg_mul]
  omega

/-- A maker amount is the exact cost of its size. -/
theorem makerCentsFor_some {p size : Int} {maker : UsdcCents}
    (h : makerCentsFor p size = some maker) :
    i64.Fits (p * size) ∧ p * size = 10000 * maker.cents := by
  obtain ⟨product, hproduct, h⟩ := Option.bind_eq_some_iff.1 h
  obtain ⟨rfl, hfits⟩ := checked_eq_some.1 hproduct
  split_ifs at h with hmod
  cases h
  exact ⟨hfits, (Int.mul_tdiv_cancel' (Int.dvd_of_tmod_eq_zero (not_not.1 hmod))).symm⟩

/-! ## What a target comes from -/

section
variable {b : Build} {inp : BuyCanonicalInput} {target : BuyCanonicalTarget}

/-- A chosen target is the raw size rounded up or down. -/
theorem chooseTarget_ok (h : chooseTarget b inp = .ok (.ok target)) :
    (∃ top, inp.maxAllowedCents b = .ok top) ∧
      makerCentsFor inp.price.ticks target.size.units = some target.makerAmount ∧
      (target.size.units = floorToMultiple inp.rawSize (sizeQuantum inp.price.ticks) ∨
        ceilToMultiple b inp.rawSize (sizeQuantum inp.price.ticks) = .ok target.size.units) := by
  obtain ⟨ceilSize, hup, h⟩ := Except.ok_bind_inv h
  obtain ⟨top, htop, h⟩ := Except.ok_bind_inv h
  refine ⟨⟨top, htop⟩, ?_⟩
  -- what is rounded up is taken only with a maker amount
  have hceilMaker : ∀ {p q : Bool}, ((makerCentsFor inp.price.ticks ceilSize).any
      (fun maker => decide (inp.minMakerCents ≤ maker.cents)) && p && q) = true →
      makerCentsFor inp.price.ticks ceilSize =
        some ((makerCentsFor inp.price.ticks ceilSize).getD ⟨0⟩) := by
    intro p q hany
    cases hmaker : makerCentsFor inp.price.ticks ceilSize with
    | none =>
      rw [hmaker] at hany
      cases hany
    | some maker => rfl
  dsimp only at h
  split at h
  · rename_i hband
    cases h
    exact ⟨hceilMaker hband, .inr hup⟩
  split at h
  · rename_i maker hmaker
    split at h
    · cases h
      exact ⟨hmaker, .inl rfl⟩
    · split at h
      · rename_i hok
        cases h
        exact ⟨hceilMaker (by rwa [Bool.and_true]), .inr hup⟩
      · cases h
  · split at h
    · rename_i hok
      cases h
      exact ⟨hceilMaker (by rwa [Bool.and_true]), .inr hup⟩
    · cases h

/-- A target comes from a price in range, and from the raw size, rounded up or down. -/
theorem canonicalBuyTargetForNotional_ok
    (h : canonicalBuyTargetForNotional b inp = .ok (.ok target)) :
    (1 ≤ inp.price.ticks ∧ inp.price.ticks ≤ 99) ∧ i64.Fits inp.rawSize ∧
      (∃ top, inp.maxAllowedCents b = .ok top) ∧
      makerCentsFor inp.price.ticks target.size.units = some target.makerAmount ∧
      (target.size.units = floorToMultiple inp.rawSize (sizeQuantum inp.price.ticks) ∨
        ceilToMultiple b inp.rawSize (sizeQuantum inp.price.ticks) = .ok target.size.units) := by
  have hp : MIN_PRICE_TICK ≤ inp.price.ticks ∧ inp.price.ticks ≤ MAX_PRICE_TICK := by
    by_contra hrange
    rw [canonicalBuyTargetForNotional] at h
    dsimp only at h
    rw [if_pos hrange] at h
    cases h
  obtain ⟨hnumer, hrawf⟩ := fits_of_returns hp ⟨_, h⟩
  rw [canonicalBuyTargetForNotional_of_fits hp hnumer hrawf] at h
  split at h
  · cases h
  · exact ⟨hp, hrawf, chooseTarget_ok h⟩

end

/-! ## The point that is skipped -/

/-- No smaller size on the lattice of the price covers the target and keeps both minima. -/
def BuyCanonicalTarget.Least (inp : BuyCanonicalInput) (target : BuyCanonicalTarget) : Prop :=
  ∀ units maker : Int, 0 < units → sizeQuantum inp.price.ticks ∣ units →
    inp.price.ticks * units = 10000 * maker → units < target.size.units →
    ¬(max inp.targetMakerCents inp.minMakerCents ≤ maker ∧ inp.minSizeTakerUnits ≤ units)

/-- The target is the maker amount of a size on the lattice that is no whole number of 0.01 shares,
and the next one above is taken. -/
structure BuyCanonicalInput.Skips (b : Build) (inp : BuyCanonicalInput) : Prop where
  price : 1 ≤ inp.price.ticks ∧ inp.price.ticks ≤ 99
  target : 1 ≤ inp.targetMakerCents
  step : makerStep inp.price.ticks ∣ inp.targetMakerCents
  grid : ¬inp.price.ticks ∣ 100 * inp.targetMakerCents
  minMaker : inp.minMakerCents ≤ inp.targetMakerCents
  minSize : inp.price.ticks * inp.minSizeTakerUnits ≤ 10000 * inp.targetMakerCents
  room : 10000 * (inp.targetMakerCents + makerStep inp.price.ticks) ≤ i64.hi
  band : ∃ top, inp.maxAllowedCents b = .ok top ∧
    (inp.targetMakerCents + makerStep inp.price.ticks ≤ top ∨ top < inp.targetMakerCents)

section
variable {b : Build} {inp : BuyCanonicalInput} {target : BuyCanonicalTarget} {n : Int}

/-- A size quantum of a tradeable price is more than 0.01 shares. -/
theorem lt_sizeQuantum {p : Int} (hp : 1 ≤ p ∧ p ≤ 99) : 100 < sizeQuantum p := by
  obtain ⟨q, hq⟩ := Int.gcd_dvd_right p 10000
  have hpos : (0 : Int) < Int.gcd p 10000 := by
    exact_mod_cast Int.gcd_pos_of_ne_zero_right p (by decide)
  have hle : (Int.gcd p 10000 : Int) ≤ p := Int.le_of_dvd (by omega) (Int.gcd_dvd_left p 10000)
  have hquantum : sizeQuantum p = q := Int.ediv_eq_of_eq_mul_right hpos.ne' hq
  rw [hquantum]
  by_contra hle'
  have := mul_le_mul_of_nonneg_left (not_lt.1 hle') hpos.le
  omega

/-- What `n` size quanta cost. -/
theorem price_mul_quanta (p n : Int) : p * (sizeQuantum p * n) = 10000 * (makerStep p * n) := by
  rw [← mul_assoc, price_mul_sizeQuantum, mul_assoc]

/-- Where the target is the cost of `n` size quanta but no whole number of 0.01 shares, the raw size
is above them and below one more. -/
theorem rawSize_between (hp : 1 ≤ inp.price.ticks ∧ inp.price.ticks ≤ 99)
    (hn : inp.targetMakerCents = makerStep inp.price.ticks * n)
    (hgrid : ¬inp.price.ticks ∣ 100 * inp.targetMakerCents) :
    sizeQuantum inp.price.ticks * n < inp.rawSize ∧
      inp.rawSize < sizeQuantum inp.price.ticks * (n + 1) := by
  have hcost := price_mul_quanta inp.price.ticks n
  have hnext := price_mul_quanta inp.price.ticks (n + 1)
  obtain ⟨hlo, hhi⟩ := @rawSize_bounds inp hp.1
  have hquantum := lt_sizeQuantum hp
  have hpos : 0 < inp.price.ticks := by omega
  rw [← hn] at hcost
  refine ⟨?_, ?_⟩
  · refine lt_of_le_of_ne (le_of_mul_le_mul_left (by omega) hpos) fun he => hgrid ?_
    refine ⟨⌈((100 * inp.targetMakerCents : Int) : ℚ) / inp.price.ticks⌉, ?_⟩
    rw [he, BuyCanonicalInput.rawSize] at hcost
    linarith
  · refine lt_of_mul_lt_mul_left ?_ hpos.le
    have hstep := mul_lt_mul_of_pos_left hquantum hpos
    calc inp.price.ticks * inp.rawSize
        < 10000 * inp.targetMakerCents + 100 * inp.price.ticks := hhi
      _ ≤ inp.price.ticks * (sizeQuantum inp.price.ticks * (n + 1)) := by linarith

/-- So it is rounded up to the next size quantum, and down to the target. -/
theorem points_of_between
    (hlo : sizeQuantum inp.price.ticks * n < inp.rawSize)
    (hhi : inp.rawSize < sizeQuantum inp.price.ticks * (n + 1)) :
    ceilPoint inp = latticePoint inp.price.ticks (n + 1) ∧
      floorPoint inp = latticePoint inp.price.ticks n := by
  have hpos := sizeQuantum_pos inp.price.ticks
  have hceil : ⌈(inp.rawSize : ℚ) / sizeQuantum inp.price.ticks⌉ = n + 1 :=
    (ceil_div_eq_iff hpos).2 ⟨by linarith, by linarith⟩
  have hfloor : ⌊(inp.rawSize : ℚ) / sizeQuantum inp.price.ticks⌋ = n :=
    (floor_div_eq_iff hpos).2 ⟨by linarith, by linarith⟩
  exact ⟨by rw [ceilPoint, hceil], by rw [floorPoint, hfloor]⟩

/-- What is skipped covers the target for less. -/
theorem BuyCanonicalInput.Skips.not_least (h : inp.Skips b) :
    ∃ target, canonicalBuyTargetForNotional b inp = .ok (.ok target) ∧
      inp.targetMakerCents ≤ target.makerAmount.cents ∧ ¬target.Least inp := by
  obtain ⟨n, hn⟩ := h.step
  obtain ⟨top, htop, hband⟩ := h.band
  have hpos : 0 < inp.price.ticks := by linarith [h.price.1]
  have hstep := makerStep_pos hpos
  have hquantum := sizeQuantum_pos inp.price.ticks
  obtain ⟨hlo, hhi⟩ := rawSize_between h.price hn h.grid
  obtain ⟨hceil, hfloor⟩ := points_of_between hlo hhi
  have hnpos : 0 < n := by
    by_contra hneg
    have := Int.mul_nonpos_of_nonneg_of_nonpos hstep.le (not_lt.1 hneg)
    linarith [h.target]
  have hmakerUp : (ceilPoint inp).makerAmount.cents =
      inp.targetMakerCents + makerStep inp.price.ticks := by
    rw [hceil, hn, latticePoint]
    ring
  have hmakerDown : (floorPoint inp).makerAmount.cents = inp.targetMakerCents := by
    rw [hfloor, hn, latticePoint]
  have hcost := price_mul_quanta inp.price.ticks n
  rw [← hn] at hcost
  have hsize : inp.minSizeTakerUnits ≤ sizeQuantum inp.price.ticks * n :=
    le_of_mul_le_mul_left (by linarith [h.minSize]) hpos
  have hsizeDown : inp.minSizeTakerUnits ≤ (floorPoint inp).size.units := by
    rw [hfloor]
    exact hsize
  have hprod : i64.Fits (inp.price.ticks * inp.ceilSize) := by
    have hexact : inp.price.ticks * inp.ceilSize = 10000 * (ceilPoint inp).makerAmount.cents :=
      latticePoint_exact _ _
    have hroom := h.room
    have htarget := h.target
    rw [hexact, hmakerUp]
    simp only [Fits, i64_lo, i64_hi] at hroom ⊢
    omega
  have heq := @canonicalBuyTargetForNotional_eq b inp top h.price h.target hprod htop
  have hminMaker := h.minMaker
  rw [hmakerUp, hmakerDown, if_neg (by omega)] at heq
  have hresult : canonicalBuyTargetForNotional b inp = .ok (.ok (ceilPoint inp)) := by
    rw [heq]
    rcases hband with hin | hout
    · rw [if_pos ⟨by omega, hin⟩]
    · rw [if_neg (by omega), if_neg (by omega), if_pos (by omega)]
  refine ⟨_, hresult, by rw [hmakerUp]; omega, fun hleast => ?_⟩
  refine hleast (sizeQuantum inp.price.ticks * n) inp.targetMakerCents (mul_pos hquantum hnpos)
    (dvd_mul_right _ _) hcost ?_ ⟨by simp [hminMaker], hsize⟩
  rw [hceil]
  exact mul_lt_mul_of_pos_left (by omega) hquantum

/-- If `n` size quanta cost the target and are fewer than the size that is rounded up, that size is
no multiple of 0.01 shares before it is rounded. -/
theorem not_dvd_of_next {n : Int} (hpos : 0 < inp.price.ticks)
    (hn : inp.targetMakerCents = makerStep inp.price.ticks * n)
    (habove : n * sizeQuantum inp.price.ticks < inp.rawSize) :
    ¬inp.price.ticks ∣ 100 * inp.targetMakerCents := by
  rintro ⟨c, hc⟩
  have hraw : inp.rawSize = 100 * c := by
    rw [BuyCanonicalInput.rawSize, hc, (ceil_div_eq_iff hpos).2 ⟨by linarith, by linarith⟩]
  have hcost : inp.price.ticks * inp.rawSize =
      inp.price.ticks * (sizeQuantum inp.price.ticks * n) := by
    rw [hraw, price_mul_quanta, ← hn]
    linarith
  have hsame := mul_left_cancel₀ hpos.ne' hcost
  linarith

/-- If `n` size quanta cost the target and one more is out of the band, the `n` are taken. -/
theorem point_taken {n top : Int} (hp : 1 ≤ inp.price.ticks ∧ inp.price.ticks ≤ 99)
    (hT : 1 ≤ inp.targetMakerCents) (hn : inp.targetMakerCents = makerStep inp.price.ticks * n)
    (hgrid : ¬inp.price.ticks ∣ 100 * inp.targetMakerCents)
    (hprod : i64.Fits (inp.price.ticks * inp.ceilSize)) (htop : inp.maxAllowedCents b = .ok top)
    (hminMaker : inp.minMakerCents ≤ inp.targetMakerCents)
    (hminSize : inp.minSizeTakerUnits ≤ sizeQuantum inp.price.ticks * n)
    (hout : top < inp.targetMakerCents + makerStep inp.price.ticks)
    (hin : inp.targetMakerCents ≤ top) :
    canonicalBuyTargetForNotional b inp = .ok (.ok (latticePoint inp.price.ticks n)) := by
  obtain ⟨hlo, hhi⟩ := rawSize_between hp hn hgrid
  obtain ⟨hceil, hfloor⟩ := points_of_between hlo hhi
  have hmakerUp : makerStep inp.price.ticks * (n + 1) =
      inp.targetMakerCents + makerStep inp.price.ticks := by
    rw [mul_add, mul_one, hn]
  rw [canonicalBuyTargetForNotional_eq hp hT hprod htop, hceil, hfloor]
  simp only [latticePoint, hmakerUp, ← hn]
  rw [if_neg (by omega), if_neg (by omega), if_pos ⟨⟨hminMaker, hin⟩, hminSize⟩]

/-- If `n` size quanta cost the target and one more is taken, `n` were skipped. -/
theorem skips_of_next {top : Int} (hp : 1 ≤ inp.price.ticks ∧ inp.price.ticks ≤ 99)
    (hn : inp.targetMakerCents = makerStep inp.price.ticks * n) (hnpos : 0 < n)
    (hm : ⌈(inp.rawSize : ℚ) / sizeQuantum inp.price.ticks⌉ = n + 1)
    (hprod : i64.Fits (inp.price.ticks * inp.ceilSize)) (htop : inp.maxAllowedCents b = .ok top)
    (h : canonicalBuyTargetForNotional b inp = .ok (.ok target))
    (hsize : target.size.units = sizeQuantum inp.price.ticks * (n + 1))
    (hminMaker : inp.minMakerCents ≤ makerStep inp.price.ticks * n)
    (hminSize : inp.minSizeTakerUnits ≤ sizeQuantum inp.price.ticks * n) : inp.Skips b := by
  have hpos : 0 < inp.price.ticks := by omega
  have hquantum := sizeQuantum_pos inp.price.ticks
  have hT : 1 ≤ inp.targetMakerCents := by
    have := mul_pos (makerStep_pos hpos) hnpos
    omega
  have hcost := price_mul_quanta inp.price.ticks n
  rw [← hn] at hcost hminMaker
  have habove : n * sizeQuantum inp.price.ticks < inp.rawSize := by
    have := ((ceil_div_eq_iff hquantum).1 hm).1
    rwa [add_sub_cancel_right] at this
  have hgrid := not_dvd_of_next hpos hn habove
  have hroom : 10000 * (inp.targetMakerCents + makerStep inp.price.ticks) ≤ i64.hi := by
    have hexact : inp.price.ticks * inp.ceilSize =
        10000 * (makerStep inp.price.ticks * (n + 1)) := by
      rw [BuyCanonicalInput.ceilSize, up, hm]
      exact price_mul_quanta _ _
    have hle := hprod.2
    rw [hexact, mul_add, mul_one, ← hn] at hle
    exact hle
  refine ⟨hp, hT, ⟨n, hn⟩, hgrid, hminMaker, ?_, hroom, top, htop, ?_⟩
  · rw [← hcost]
    exact mul_le_mul_of_nonneg_left hminSize hpos.le
  · by_contra hout
    rw [not_or, not_le, not_lt] at hout
    rw [point_taken hp hT hn hgrid hprod htop hminMaker hminSize hout.1 hout.2] at h
    cases h
    have hsame : n = n + 1 := mul_left_cancel₀ hquantum.ne' hsize
    omega

/-- If a smaller size would do, it was skipped. -/
theorem skips_of_not_least (h : canonicalBuyTargetForNotional b inp = .ok (.ok target))
    (hleast : ¬target.Least inp) : inp.Skips b := by
  obtain ⟨hp, hraw, ⟨top, htop⟩, hmaker, hfrom⟩ := canonicalBuyTargetForNotional_ok h
  have hpos : 0 < inp.price.ticks := by omega
  have hstep := makerStep_pos hpos
  have hquantum := sizeQuantum_pos inp.price.ticks
  obtain ⟨hprod, hcost⟩ := makerCentsFor_some hmaker
  simp only [BuyCanonicalTarget.Least, not_forall, not_not] at hleast
  obtain ⟨_, maker, hunits, ⟨n, rfl⟩, hn, hlt, hcovers, hminSize⟩ := hleast
  have hnpos : 0 < n := pos_of_mul_pos_right hunits hquantum.le
  have hmakern : maker = makerStep inp.price.ticks * n := by
    have := price_mul_quanta inp.price.ticks n
    omega
  subst hmakern
  rcases hfrom with hdown | hup
  · -- the size rounded down costs no more than the target
    rcases le_or_gt inp.rawSize 0 with hneg | hrawpos
    · have := floorToMultiple_nonpos hquantum hneg
      omega
    · rw [floorToMultiple_eq hquantum hrawpos.le, down] at hdown
      rw [hdown] at hlt
      have hle := @floorPoint_maker_le inp hp
      have hless := mul_lt_mul_of_pos_left (lt_of_mul_lt_mul_left hlt hquantum.le) hstep
      rw [floorPoint, latticePoint] at hle
      dsimp only at hle
      omega
  · rcases ceilToMultiple_ok hquantum (sizeQuantum_le _) hraw hup with ⟨hrawpos, hsize⟩ | hle
    · rw [up] at hsize
      set m := ⌈(inp.rawSize : ℚ) / sizeQuantum inp.price.ticks⌉ with hm
      have hnm : n < m := lt_of_mul_lt_mul_left (hsize ▸ hlt) hquantum.le
      have hle : makerStep inp.price.ticks * m ≤
          inp.targetMakerCents + makerStep inp.price.ticks := @ceilPoint_maker_le inp hp
      have hnext := mul_le_mul_of_nonneg_left (show n + 1 ≤ m by omega) hstep.le
      rw [mul_add, mul_one] at hnext
      have hT : inp.targetMakerCents = makerStep inp.price.ticks * n := by omega
      have hmn : m = n + 1 := by
        refine le_antisymm (le_of_mul_le_mul_left ?_ hstep) hnm
        rw [mul_add]
        omega
      have hprodUp : i64.Fits (inp.price.ticks * inp.ceilSize) := by
        rwa [BuyCanonicalInput.ceilSize, up, ← hm, ← hsize]
      rw [hmn] at hm hsize
      exact skips_of_next hp hT hnpos hm.symm hprodUp htop h hsize
        ((le_max_right _ _).trans hcovers) hminSize
    · have := lt_of_mul_lt_mul_left (show sizeQuantum inp.price.ticks * n <
        sizeQuantum inp.price.ticks * 1 by omega) hquantum.le
      omega

/-- Every BUY that covers the target costs the least that does if and only if no point is
skipped. -/
theorem canonical_buy_least_iff (b : Build) (inp : BuyCanonicalInput) :
    (∀ target, canonicalBuyTargetForNotional b inp = .ok (.ok target) →
        inp.targetMakerCents ≤ target.makerAmount.cents → target.Least inp) ↔
      ¬inp.Skips b := by
  refine ⟨?_, ?_⟩
  · intro hleast hskips
    obtain ⟨target, hok, hcovers, hnot⟩ := hskips.not_least
    exact hnot (hleast target hok hcovers)
  · intro hskips target hok _
    by_contra hnot
    exact hskips (skips_of_not_least hok hnot)

/-- A dollar and a cent at the price of 16 cents, which 6.3125 shares cost. -/
def gridGap : BuyCanonicalInput := ⟨⟨16⟩, 101, 100, 100, 1, 0⟩

/-- The size is rounded up to 6.32 and then to 6.375 shares, which cost a cent more. -/
theorem canonical_buy_not_least :
    (∀ b, canonicalBuyTargetForNotional b gridGap = .ok (.ok ⟨⟨63750⟩, ⟨102⟩⟩)) ∧
      ¬BuyCanonicalTarget.Least gridGap ⟨⟨63750⟩, ⟨102⟩⟩ := by
  refine ⟨?_, ?_⟩
  · rintro ⟨_ | _⟩ <;> decide +kernel
  · intro hleast
    have hcheaper := hleast 63125 101 (by decide) ⟨101, by decide +kernel⟩ (by decide) (by decide)
    exact hcheaper (by decide)

end

end Polyrust
