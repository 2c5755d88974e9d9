import Polyrust.Lib.Rounding
import Polyrust.Signing

/-!
# The lattice of BUY sizes

At a price of `p` cents a size makes a whole number of cents when it is a multiple of
`10000 / gcd p 10000`; one multiple more costs `p / gcd p 10000` cents. The canonical BUY rounds the
raw size to that lattice, up or down, so that its maker amount is exact and at most one step above
the target.
-/

namespace Polyrust

open IntWidth Rounding

/-! ## The functions of the lattice -/

/-- The loop of `gcd` ends in the greatest common divisor. -/
theorem gcdLoop_eq {fuel : Nat} {a b : Int} (ha : 0 ≤ a) (hb : 0 ≤ b) (h : b.toNat < fuel) :
    gcdLoop fuel a b = Int.gcd a b := by
  induction fuel generalizing a b with
  | zero => omega
  | succ fuel ih =>
    rw [gcdLoop]
    rcases eq_or_ne b 0 with rfl | hne
    · rw [if_neg (not_not.2 rfl), Int.gcd_zero_right, Int.natAbs_of_nonneg ha]
    · have hmod := Int.emod_nonneg a hne
      have hlt := Int.emod_lt_of_pos a (lt_of_le_of_ne hb hne.symm)
      rw [if_pos hne, Int.tmod_eq_emod_of_nonneg ha, ih hb hmod (by omega)]
      rw [Int.gcd_comm, Int.gcd_emod]

/-- `gcd` of two numbers that are not negative. -/
theorem gcd_eq {a b : Int} (ha : 0 ≤ a) (hb : 0 ≤ b) : gcd a b = Int.gcd a b := by
  unfold gcd
  rw [if_neg (not_lt.2 ha), if_neg (not_lt.2 hb)]
  exact gcdLoop_eq ha hb (Nat.lt_succ_self _)

/-- The size quantum of a price. -/
def sizeQuantum (p : Int) : Int := 10000 / Int.gcd p 10000

/-- What a size quantum costs, in cents. -/
def makerStep (p : Int) : Int := p / Int.gcd p 10000

section
variable {p : Int}

/-- A quantum of the size costs a step of the lattice. -/
theorem price_mul_sizeQuantum (p : Int) : p * sizeQuantum p = 10000 * makerStep p := by
  obtain ⟨a, ha⟩ := Int.gcd_dvd_left p 10000
  obtain ⟨c, hc⟩ := Int.gcd_dvd_right p 10000
  have hpos : (0 : Int) < Int.gcd p 10000 := by
    exact_mod_cast Int.gcd_pos_of_ne_zero_right p (by decide)
  have hq : sizeQuantum p = c := Int.ediv_eq_of_eq_mul_right hpos.ne' hc
  have hs : makerStep p = a := Int.ediv_eq_of_eq_mul_right hpos.ne' ha
  rw [hq, hs]
  nth_rewrite 1 [ha]
  nth_rewrite 2 [hc]
  ring

/-- The quantum is positive. -/
theorem sizeQuantum_pos (p : Int) : 0 < sizeQuantum p := by
  have hpos : (0 : Int) < Int.gcd p 10000 := by
    exact_mod_cast Int.gcd_pos_of_ne_zero_right p (by decide)
  exact Int.ediv_pos_of_pos_of_dvd (by decide) hpos.le (Int.gcd_dvd_right p 10000)

/-- The quantum is at most one share. -/
theorem sizeQuantum_le (p : Int) : sizeQuantum p ≤ 10000 := by
  exact Int.ediv_le_self _ (by decide)

/-- The multiple of the source is the quantum. -/
theorem buySizeMultipleTakerUnits_eq (hp : 0 ≤ p) :
    buySizeMultipleTakerUnits p = sizeQuantum p := by
  rw [buySizeMultipleTakerUnits, gcd_eq hp (by decide), sizeQuantum,
    Int.tdiv_eq_ediv_of_nonneg (by decide)]

variable {x m : Int}

/-- The floor is the multiple below. -/
theorem floorToMultiple_eq (hm : 0 < m) (hx : 0 ≤ x) : floorToMultiple x m = down m x := by
  rw [floorToMultiple, if_neg (not_le.2 hm), Int.tdiv_eq_ediv_of_nonneg hx, down,
    floor_div_eq hm, mul_comm]

/-- The ceiling is the multiple above. -/
theorem ceilToMultiple_eq {b : Build} (hm : 0 < m) (hmf : i64.Fits m) (hx : 0 ≤ x)
    (hf : i64.Fits (up m x)) : ceilToMultiple b x m = .ok (up m x) := by
  have hlt := Int.emod_lt_of_pos x hm
  have hnn := Int.emod_nonneg x hm.ne'
  rw [ceilToMultiple, if_neg (not_le.2 hm), Int.tmod_eq_emod_of_nonneg hx]
  by_cases hr : x % m = 0
  · rw [up_of_dvd hm hr]
    exact if_pos hr
  · rw [up_of_not_dvd hm hr] at hf ⊢
    have hup : i64.Fits (m - x % m) := by
      simp only [Fits, i64_lo, i64_hi] at hmf ⊢
      omega
    simp only [hr, if_false, Build.arith_of_fits hup, Except.ok_bind, Build.arith_of_fits hf]

/-- A quotient of a 64-bit number is one when it is rounded up. -/
theorem fits_ceil_div (hm : 1 ≤ m) (hx : i64.Fits x) :
    i64.Fits ⌈(x : ℚ) / m⌉ := by
  obtain ⟨hlo, hhi⟩ := ceil_div_spec (show 0 < m by omega) x
  simp only [Fits, i64_lo, i64_hi] at hx ⊢
  refine ⟨?_, ?_⟩
  · by_contra hlt
    have := mul_le_mul_of_nonpos_left hm (show ⌈(x : ℚ) / m⌉ ≤ 0 by omega)
    omega
  · by_contra hgt
    have := mul_le_mul_of_nonneg_left hm (show 0 ≤ ⌈(x : ℚ) / m⌉ - 1 by omega)
    omega

/-- The maker amount of a size on the lattice. -/
theorem makerCentsFor_eq {size cents : Int} (h : p * size = 10000 * cents)
    (hf : i64.Fits (p * size)) : makerCentsFor p size = some ⟨cents⟩ := by
  have hc : i64.checked (p * size) = some (10000 * cents) := by
    rw [← h]
    exact checked_eq_some.2 ⟨rfl, hf⟩
  simp [makerCentsFor, hc]

end

/-! ## The canonical BUY -/

namespace BuyCanonicalInput

variable (inp : BuyCanonicalInput)

/-- The smallest size in 0.01 shares that covers the target, in taker units. -/
def rawSize : Int := 100 * ⌈((100 * inp.targetMakerCents : Int) : ℚ) / inp.price.ticks⌉

/-- The raw size rounded up to the lattice. -/
def ceilSize : Int := up (sizeQuantum inp.price.ticks) inp.rawSize

/-- The maker amount of the raw size rounded up. -/
def ceilMaker : Int := inp.price.ticks * inp.ceilSize / 10000

/-- The risk band's upper bound in exact arithmetic. -/
def bandTop : Int :=
  inp.targetMakerCents +
    max inp.maxOverrunCents
      ((i64.saturatingMul inp.targetMakerCents inp.maxOverrunBps).tdiv 10000)

/-- No 64-bit operation on the way to the canonical BUY overflows. -/
structure NoOverflow : Prop where
  numer : i64.Fits (100 * inp.targetMakerCents)
  rawSize : i64.Fits inp.rawSize
  ceilSize : i64.Fits inp.ceilSize
  product : i64.Fits (inp.price.ticks * inp.ceilSize)
  bandTop : i64.Fits inp.bandTop

end BuyCanonicalInput

/-- The point of the lattice of a price with `n` size quanta. -/
def latticePoint (p n : Int) : BuyCanonicalTarget :=
  ⟨⟨sizeQuantum p * n⟩, ⟨makerStep p * n⟩⟩

/-- A point of the lattice is exact: price times size is its maker amount. -/
theorem latticePoint_exact (p n : Int) :
    p * (latticePoint p n).size.units = 10000 * (latticePoint p n).makerAmount.cents := by
  rw [latticePoint, ← mul_assoc, price_mul_sizeQuantum, mul_assoc]

section
variable {b : Build} {inp : BuyCanonicalInput}

/-- The raw size rounded up, as a point of the lattice. -/
def ceilPoint (inp : BuyCanonicalInput) : BuyCanonicalTarget :=
  latticePoint inp.price.ticks ⌈(inp.rawSize : ℚ) / sizeQuantum inp.price.ticks⌉

/-- The raw size rounded down, as a point of the lattice. -/
def floorPoint (inp : BuyCanonicalInput) : BuyCanonicalTarget :=
  latticePoint inp.price.ticks ⌊(inp.rawSize : ℚ) / sizeQuantum inp.price.ticks⌋

/-- The step is positive. -/
theorem makerStep_pos {p : Int} (hp : 0 < p) : 0 < makerStep p := by
  have hpos : (0 : Int) < Int.gcd p 10000 := by
    exact_mod_cast Int.gcd_pos_of_ne_zero_right p (by decide)
  exact Int.ediv_pos_of_pos_of_dvd hp hpos.le (Int.gcd_dvd_left p 10000)

/-- The raw size covers the target, and is less than a hundredth of a share above what does. -/
theorem rawSize_bounds (hp : 1 ≤ inp.price.ticks) :
    10000 * inp.targetMakerCents ≤ inp.price.ticks * inp.rawSize ∧
      inp.price.ticks * inp.rawSize < 10000 * inp.targetMakerCents + 100 * inp.price.ticks := by
  obtain ⟨hlo, hhi⟩ := ceil_div_spec (m := inp.price.ticks) (by omega) (100 * inp.targetMakerCents)
  unfold BuyCanonicalInput.rawSize
  constructor <;> linarith

/-- The size asked for is not negative. -/
theorem rawSize_nonneg (hp : 1 ≤ inp.price.ticks) (hT : 1 ≤ inp.targetMakerCents) :
    0 ≤ inp.rawSize := by
  have := (@rawSize_bounds inp hp).1
  by_contra hneg
  have : inp.price.ticks * inp.rawSize ≤ 0 :=
    Int.mul_nonpos_of_nonneg_of_nonpos (by omega) (by omega)
  omega

/-- The maker amount of the size rounded up is at most one step above the target. -/
theorem ceilPoint_maker_le (hp : 1 ≤ inp.price.ticks ∧ inp.price.ticks ≤ 99) :
    (ceilPoint inp).makerAmount.cents ≤ inp.targetMakerCents + makerStep inp.price.ticks := by
  set n := ⌈(inp.rawSize : ℚ) / sizeQuantum inp.price.ticks⌉ with hn
  have hlo : (n - 1) * sizeQuantum inp.price.ticks < inp.rawSize :=
    (ceil_div_spec (sizeQuantum_pos inp.price.ticks) inp.rawSize).1
  have hraw := (@rawSize_bounds inp hp.1).2
  have hmul := mul_lt_mul_of_pos_left hlo (show 0 < inp.price.ticks by omega)
  have hexact : inp.price.ticks * ((n - 1) * sizeQuantum inp.price.ticks) =
      10000 * (makerStep inp.price.ticks * (n - 1)) := by
    rw [mul_comm (n - 1), ← mul_assoc, price_mul_sizeQuantum, mul_assoc]
  have hle : makerStep inp.price.ticks * (n - 1) ≤ inp.targetMakerCents := by omega
  calc makerStep inp.price.ticks * n
      = makerStep inp.price.ticks * (n - 1) + makerStep inp.price.ticks := by ring
    _ ≤ inp.targetMakerCents + makerStep inp.price.ticks := by omega

/-- The maker amount of the size rounded down is at most the target. -/
theorem floorPoint_maker_le (hp : 1 ≤ inp.price.ticks ∧ inp.price.ticks ≤ 99) :
    (floorPoint inp).makerAmount.cents ≤ inp.targetMakerCents := by
  have hexact := latticePoint_exact inp.price.ticks
    ⌊(inp.rawSize : ℚ) / sizeQuantum inp.price.ticks⌋
  have hle : (floorPoint inp).size.units ≤ inp.rawSize :=
    down_le (sizeQuantum_pos inp.price.ticks) inp.rawSize
  have hmul := mul_le_mul_of_nonneg_left hle (show 0 ≤ inp.price.ticks by omega)
  have hraw := (@rawSize_bounds inp hp.1).2
  rw [floorPoint] at hmul ⊢
  omega

/-- The point above costs at least as much as the point below. -/
theorem floorPoint_le_ceilPoint (hp : 1 ≤ inp.price.ticks) :
    (floorPoint inp).makerAmount.cents ≤ (ceilPoint inp).makerAmount.cents :=
  mul_le_mul_of_nonneg_left (Int.floor_le_ceil _) (makerStep_pos (by omega)).le

/-- The raw size rounded up and what it costs are 64-bit numbers only with a raw size and a target
that are. -/
theorem fits_of_product (hp : 1 ≤ inp.price.ticks) (hT : 1 ≤ inp.targetMakerCents)
    (hprod : i64.Fits (inp.price.ticks * inp.ceilSize)) :
    i64.Fits (100 * inp.targetMakerCents) ∧ i64.Fits inp.rawSize ∧ i64.Fits inp.ceilSize := by
  have hraw := @rawSize_nonneg inp hp hT
  have hcovers := (@rawSize_bounds inp hp).1
  have hup : inp.rawSize ≤ inp.ceilSize := le_up (sizeQuantum_pos inp.price.ticks) inp.rawSize
  have hcost := mul_le_mul_of_nonneg_left hup (show 0 ≤ inp.price.ticks by omega)
  have hceil : inp.ceilSize ≤ inp.price.ticks * inp.ceilSize :=
    le_mul_of_one_le_left (by omega) hp
  simp only [Fits, i64_lo, i64_hi] at hprod ⊢
  omega

/-- What `canonical_buy_target_for_notional` does with the raw size: the choice between the two
lattice points. -/
def chooseTarget (b : Build) (inp : BuyCanonicalInput) :
    Exec (Except BuyCanonicalError BuyCanonicalTarget) := do
  let floorSize := floorToMultiple inp.rawSize (sizeQuantum inp.price.ticks)
  let ceilSize ← ceilToMultiple b inp.rawSize (sizeQuantum inp.price.ticks)
  let floorMaker := makerCentsFor inp.price.ticks floorSize
  let ceilMaker := makerCentsFor inp.price.ticks ceilSize
  let maxAllowedCents ← inp.maxAllowedCents b
  let ceilOk := ceilMaker.any (fun maker => inp.minMakerCents ≤ maker.cents) &&
    decide (inp.minSizeTakerUnits ≤ ceilSize)
  if ceilOk && ceilMaker.any (inp.inBand maxAllowedCents) then
    return .ok ⟨⟨ceilSize⟩, ceilMaker.getD ⟨0⟩⟩
  if let some maker := floorMaker then
    if inp.inBand maxAllowedCents maker && decide (inp.minSizeTakerUnits ≤ floorSize) then
      return .ok ⟨⟨floorSize⟩, maker⟩
  if ceilOk then return .ok ⟨⟨ceilSize⟩, ceilMaker.getD ⟨0⟩⟩
  return .error (.noValidSizeWithinNotionalBounds inp.price.ticks inp.targetMakerCents
    maxAllowedCents inp.minMakerCents (floorMaker.map fun maker => (floorSize, maker.cents))
    (ceilMaker.map fun maker => (ceilSize, maker.cents)))

/-- The steps of the canonical BUY before that choice, where the two multiplications fit. -/
theorem canonicalBuyTargetForNotional_of_fits
    (hp : 1 ≤ inp.price.ticks ∧ inp.price.ticks ≤ 99)
    (hnumer : i64.Fits (100 * inp.targetMakerCents)) (hrawf : i64.Fits inp.rawSize) :
    canonicalBuyTargetForNotional b inp =
      if inp.rawSize < inp.minSizeTakerUnits then
        .ok (.error (.rawSizeBelowMin inp.price.ticks inp.rawSize inp.minSizeTakerUnits))
      else chooseTarget b inp := by
  have hrange : MIN_PRICE_TICK ≤ inp.price.ticks ∧ inp.price.ticks ≤ MAX_PRICE_TICK := hp
  have hnumer' : i64.checked (inp.targetMakerCents * 100) = some (100 * inp.targetMakerCents) :=
    checked_eq_some.2 ⟨mul_comm _ _, by rwa [mul_comm]⟩
  have hceil := ceil_div_eq (m := inp.price.ticks) (by omega) (100 * inp.targetMakerCents)
  have hraw : i64.checked (⌈((100 * inp.targetMakerCents : Int) : ℚ) / inp.price.ticks⌉ * 100) =
      some inp.rawSize :=
    checked_eq_some.2 ⟨mul_comm _ _, by rwa [mul_comm]⟩
  have hquantum : buySizeMultipleTakerUnits inp.price.ticks = sizeQuantum inp.price.ticks :=
    buySizeMultipleTakerUnits_eq (by omega)
  unfold canonicalBuyTargetForNotional
  simp only [hrange, hnumer', ← hceil, Build.arith_of_fits (fits_ceil_div hp.1 hnumer),
    Except.ok_bind, hraw, hquantum, and_self, not_true, if_false]
  rfl

/-- A target that the canonical BUY returns from is not multiplied beyond 64 bits. -/
theorem fits_of_returns (hp : 1 ≤ inp.price.ticks ∧ inp.price.ticks ≤ 99)
    (h : ∃ r, canonicalBuyTargetForNotional b inp = .ok r) :
    i64.Fits (100 * inp.targetMakerCents) ∧ i64.Fits inp.rawSize := by
  obtain ⟨r, h⟩ := h
  have hrange : MIN_PRICE_TICK ≤ inp.price.ticks ∧ inp.price.ticks ≤ MAX_PRICE_TICK := hp
  rw [canonicalBuyTargetForNotional] at h
  dsimp only at h
  rw [if_neg (not_not.2 hrange)] at h
  split at h
  · next numer hnumer =>
    obtain ⟨rfl, hfits⟩ := checked_eq_some.1 hnumer
    have hceil := ceil_div_eq (m := inp.price.ticks) (by omega) (inp.targetMakerCents * 100)
    rw [← hceil, Build.arith_of_fits (fits_ceil_div hp.1 hfits), Except.ok_bind] at h
    split at h
    · next rawSize hraw =>
      obtain ⟨rfl, hrawf⟩ := checked_eq_some.1 hraw
      rw [mul_comm] at hfits
      rw [mul_comm, mul_comm inp.targetMakerCents] at hrawf
      exact ⟨hfits, hrawf⟩
    · cases h
  · cases h

/-- The size rounded down and what it costs are 64-bit numbers when the size rounded up is. -/
theorem fits_floorPoint (hp : 1 ≤ inp.price.ticks) (hT : 1 ≤ inp.targetMakerCents)
    (hprod : i64.Fits (inp.price.ticks * inp.ceilSize)) :
    i64.Fits (inp.price.ticks * (floorPoint inp).size.units) := by
  have hqpos := sizeQuantum_pos inp.price.ticks
  have hraw := @rawSize_nonneg inp hp hT
  have hnn : 0 ≤ (floorPoint inp).size.units :=
    mul_nonneg hqpos.le (Int.floor_nonneg.2 (div_nonneg (by exact_mod_cast hraw)
      (by exact_mod_cast hqpos.le)))
  have hle : (floorPoint inp).size.units ≤ inp.ceilSize :=
    (down_le hqpos inp.rawSize).trans (le_up hqpos inp.rawSize)
  have hmul := mul_le_mul_of_nonneg_left hle (show 0 ≤ inp.price.ticks by omega)
  have hmul0 := mul_nonneg (show 0 ≤ inp.price.ticks by omega) hnn
  simp only [Fits, i64_lo, i64_hi] at hprod ⊢
  omega

/-- The canonical BUY in exact arithmetic. -/
theorem canonicalBuyTargetForNotional_eq {top : Int}
    (hp : 1 ≤ inp.price.ticks ∧ inp.price.ticks ≤ 99) (hT : 1 ≤ inp.targetMakerCents)
    (hprod : i64.Fits (inp.price.ticks * inp.ceilSize)) (htop : inp.maxAllowedCents b = .ok top) :
    canonicalBuyTargetForNotional b inp =
      .ok (
        if inp.rawSize < inp.minSizeTakerUnits then
          .error (.rawSizeBelowMin inp.price.ticks inp.rawSize inp.minSizeTakerUnits)
        else if inp.minMakerCents ≤ (ceilPoint inp).makerAmount.cents ∧
            (ceilPoint inp).makerAmount.cents ≤ top then
          .ok (ceilPoint inp)
        else if (inp.minMakerCents ≤ (floorPoint inp).makerAmount.cents ∧
            (floorPoint inp).makerAmount.cents ≤ top) ∧
            inp.minSizeTakerUnits ≤ (floorPoint inp).size.units then
          .ok (floorPoint inp)
        else if inp.minMakerCents ≤ (ceilPoint inp).makerAmount.cents then
          .ok (ceilPoint inp)
        else
          .error (.noValidSizeWithinNotionalBounds inp.price.ticks inp.targetMakerCents top
            inp.minMakerCents
            (some ((floorPoint inp).size.units, (floorPoint inp).makerAmount.cents))
            (some ((ceilPoint inp).size.units, (ceilPoint inp).makerAmount.cents)))) := by
  obtain ⟨hnumer, hrawf, hceilf⟩ := fits_of_product hp.1 hT hprod
  have hraw := @rawSize_nonneg inp hp.1 hT
  have hqpos := sizeQuantum_pos inp.price.ticks
  have hup : ceilToMultiple b inp.rawSize (sizeQuantum inp.price.ticks) =
      .ok (ceilPoint inp).size.units := by
    refine ceilToMultiple_eq hqpos ?_ hraw hceilf
    have := sizeQuantum_le inp.price.ticks
    simp only [Fits, i64_lo, i64_hi]
    omega
  have hdown : floorToMultiple inp.rawSize (sizeQuantum inp.price.ticks) =
      (floorPoint inp).size.units := floorToMultiple_eq hqpos hraw
  have hmakerUp : makerCentsFor inp.price.ticks (ceilPoint inp).size.units =
      some (ceilPoint inp).makerAmount :=
    makerCentsFor_eq (latticePoint_exact _ _) hprod
  have hmakerDown : makerCentsFor inp.price.ticks (floorPoint inp).size.units =
      some (floorPoint inp).makerAmount :=
    makerCentsFor_eq (latticePoint_exact _ _) (fits_floorPoint hp.1 hT hprod)
  have hsize : inp.rawSize ≤ (ceilPoint inp).size.units := le_up hqpos inp.rawSize
  rw [canonicalBuyTargetForNotional_of_fits hp hnumer hrawf]
  by_cases hmin : inp.rawSize < inp.minSizeTakerUnits
  · rw [if_pos hmin, if_pos hmin]
  · have hceilMin : inp.minSizeTakerUnits ≤ (ceilPoint inp).size.units := by omega
    unfold chooseTarget
    simp only [hup, hdown, hmakerUp, hmakerDown, htop, Except.ok_bind, hmin, if_false,
      Option.any_some, hceilMin, BuyCanonicalInput.inBand, Bool.and_eq_true, decide_eq_true_eq,
      and_true, and_self_left]
    split_ifs <;> rfl

/-- An exact target is signed at its price. -/
theorem signFakBuy_limit {p : Int} {target : BuyCanonicalTarget} {order : FakOrder}
    (hexact : p * target.size.units = 10000 * target.makerAmount.cents)
    (h : signFakBuy target = .ok order) :
    100 * (order.makerAmount : Int) = p * order.takerAmount := by
  obtain ⟨-, hm, ht⟩ := signFakBuy_ok h
  rw [hm, ht, ← mul_assoc p, hexact]
  ring

/-- What the canonical BUY promises of its target. -/
structure BuyCanonicalTarget.Sound (inp : BuyCanonicalInput) (target : BuyCanonicalTarget) :
    Prop where
  exact : inp.price.ticks * target.size.units = 10000 * target.makerAmount.cents
  minSize : inp.minSizeTakerUnits ≤ target.size.units
  minMaker : inp.minMakerCents ≤ target.makerAmount.cents
  bounded : target.makerAmount.cents ≤ inp.targetMakerCents + makerStep inp.price.ticks
  signed : 0 < target.makerAmount.cents → ∃ order, signFakBuy target = .ok order
  limit : ∀ order, signFakBuy target = .ok order →
    100 * (order.makerAmount : Int) = inp.price.ticks * order.takerAmount

/-- A lattice point that keeps the minima, is in the bound and no larger than the size rounded up
is sound. -/
theorem latticePoint_sound {n : Int} (hp : 1 ≤ inp.price.ticks) (h : inp.NoOverflow)
    (hsize : inp.minSizeTakerUnits ≤ (latticePoint inp.price.ticks n).size.units)
    (hmaker : inp.minMakerCents ≤ (latticePoint inp.price.ticks n).makerAmount.cents)
    (hbound : (latticePoint inp.price.ticks n).makerAmount.cents ≤
      inp.targetMakerCents + makerStep inp.price.ticks)
    (hle : (latticePoint inp.price.ticks n).size.units ≤ inp.ceilSize) :
    (latticePoint inp.price.ticks n).Sound inp := by
  have hexact := latticePoint_exact inp.price.ticks n
  refine ⟨hexact, hsize, hmaker, hbound, fun hpos => ?_, fun order => signFakBuy_limit hexact⟩
  have hspos : 0 < (latticePoint inp.price.ticks n).size.units := by
    by_contra hneg
    have := Int.mul_nonpos_of_nonneg_of_nonpos (show 0 ≤ inp.price.ticks by omega)
      (not_lt.1 hneg)
    omega
  have hmul := mul_le_mul_of_nonneg_left hle (show 0 ≤ inp.price.ticks by omega)
  have hprod := h.product
  have hceil := h.ceilSize
  refine ⟨_, signFakBuy_of_pos hpos ?_ hspos ?_⟩
  · simp only [Fits, i64_lo, i64_hi] at hprod ⊢
    omega
  · simp only [Fits, i64_lo, i64_hi] at hceil ⊢
    omega

/-- The canonical BUY exists when the raw size reaches the minimum size and its maker amount,
rounded up, the minimum amount; it is exact, keeps both minima, is at most one lattice step above
the target, and the amounts it is signed with are at the limit price. -/
theorem canonical_buy_sound_complete (b : Build) (inp : BuyCanonicalInput)
    (hp : 1 ≤ inp.price.ticks ∧ inp.price.ticks ≤ 99) (hT : 1 ≤ inp.targetMakerCents)
    (h : inp.NoOverflow) :
    ∃ result, canonicalBuyTargetForNotional b inp = .ok result ∧
      ((∃ target, result = .ok target) ↔
        inp.minSizeTakerUnits ≤ inp.rawSize ∧ inp.minMakerCents ≤ inp.ceilMaker) ∧
      ∀ target, result = .ok target → target.Sound inp := by
  have hceilMaker : inp.ceilMaker = (ceilPoint inp).makerAmount.cents := by
    have hexact : inp.price.ticks * inp.ceilSize = 10000 * (ceilPoint inp).makerAmount.cents :=
      latticePoint_exact _ _
    rw [BuyCanonicalInput.ceilMaker, hexact, Int.mul_ediv_cancel_left _ (by decide)]
  have hqpos := sizeQuantum_pos inp.price.ticks
  have hraw : inp.rawSize ≤ (ceilPoint inp).size.units := le_up hqpos inp.rawSize
  have hceil (hmin : inp.minSizeTakerUnits ≤ inp.rawSize)
      (hmaker : inp.minMakerCents ≤ (ceilPoint inp).makerAmount.cents) :
      (ceilPoint inp).Sound inp :=
    latticePoint_sound hp.1 h (hmin.trans hraw) hmaker (ceilPoint_maker_le hp) le_rfl
  refine ⟨_, canonicalBuyTargetForNotional_eq hp hT h.product (Build.arith_of_fits h.bandTop), ?_⟩
  rw [hceilMaker]
  split_ifs with hmin hband hfloor hmaker
  · exact ⟨⟨nofun, fun hc => absurd hc.1 (not_le.2 hmin)⟩, nofun⟩
  · refine ⟨⟨fun _ => ⟨not_lt.1 hmin, hband.1⟩, fun _ => ⟨_, rfl⟩⟩, ?_⟩
    rintro target ⟨⟩
    exact hceil (not_lt.1 hmin) hband.1
  · have hle := @floorPoint_le_ceilPoint inp hp.1
    have hstep := makerStep_pos (p := inp.price.ticks) (by omega)
    have hbound := @floorPoint_maker_le inp hp
    refine ⟨⟨fun _ => ⟨not_lt.1 hmin, hfloor.1.1.trans hle⟩, fun _ => ⟨_, rfl⟩⟩, ?_⟩
    rintro target ⟨⟩
    exact latticePoint_sound hp.1 h hfloor.2 hfloor.1.1 (hbound.trans (by omega))
      ((down_le hqpos inp.rawSize).trans (le_up hqpos inp.rawSize))
  · refine ⟨⟨fun _ => ⟨not_lt.1 hmin, hmaker⟩, fun _ => ⟨_, rfl⟩⟩, ?_⟩
    rintro target ⟨⟩
    exact hceil (not_lt.1 hmin) hmaker
  · exact ⟨⟨nofun, fun hc => absurd hc.2 hmaker⟩, nofun⟩

/-- A dollar and a cent at the price of 67 cents, where one lattice step is wider than the band. -/
def latticeGap : BuyCanonicalInput := ⟨⟨67⟩, 101, 100, 100, 1, 0⟩

/-- No operation on it overflows. -/
theorem latticeGap_noOverflow : latticeGap.NoOverflow :=
  ⟨by decide +kernel, by decide +kernel, by decide +kernel, by decide +kernel, by decide +kernel⟩

/-- A dollar and a cent at 67 cents, where one lattice step is wider than the band. -/
theorem canonical_buy_sound_complete_gap :
    (1 ≤ latticeGap.price.ticks ∧ latticeGap.price.ticks ≤ 99) ∧
      1 ≤ latticeGap.targetMakerCents ∧ latticeGap.NoOverflow ∧
      ∃ result, canonicalBuyTargetForNotional ⟨true⟩ latticeGap = .ok result ∧
        ((∃ target, result = .ok target) ↔
          latticeGap.minSizeTakerUnits ≤ latticeGap.rawSize ∧
            latticeGap.minMakerCents ≤ latticeGap.ceilMaker) ∧
        ∀ target, result = .ok target → target.Sound latticeGap :=
  ⟨by decide, by decide, latticeGap_noOverflow,
    canonical_buy_sound_complete ⟨true⟩ latticeGap (by decide) (by decide) latticeGap_noOverflow⟩

end

end Polyrust
