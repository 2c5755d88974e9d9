import Mathlib.Algebra.Order.Ring.Abs
import Mathlib.Data.List.ReduceOption
import Polyrust.State.Depth

/-!
# The ask cutoff

The price up to which the asks of a book have to be taken to spend an amount: the best of the four
best prices at which the asks listed so far are worth the amount, or the best ask if none is.
-/

namespace Polyrust

open IntWidth

namespace BookDepth

/-- What is listed at a price is worth, in millionths of a cent. -/
def worth (levels : List BookLevel) (price : PriceTick) : Int :=
  price.ticks * min i64.hi (listedSize levels price)

/-- What is listed up to a price is worth. -/
def worthUpTo (levels : List BookLevel) (price : PriceTick) : Int :=
  (((listedPrices levels false).filter fun q => decide (q.ticks ≤ price.ticks)).map
    (worth levels)).sum

/-- The price is one of the four best, and the asks up to it are worth the target. -/
def Covers (levels : List BookLevel) (targetCents : Int) (price : PriceTick) : Prop :=
  price ∈ (listedPrices levels false).take BOOK_DEPTH_LEVELS ∧
    targetCents * 1000000 ≤ worthUpTo levels price

/-- Prices and sizes are numbers of their types. -/
def InRange (levels : List BookLevel) : Prop :=
  ∀ level ∈ levels, i32.Fits level.price.ticks ∧ i64.Fits level.sizeAtoms

instance (levels : List BookLevel) : Decidable (InRange levels) :=
  inferInstanceAs (Decidable (∀ level ∈ levels, _ ∧ _))

section
variable {b : Build} {levels : List BookLevel} {price p q : PriceTick} {target : Int}

/-- The listed prices increase. -/
theorem sorted_listedPrices (levels : List BookLevel) :
    (listedPrices levels false).Pairwise fun p q => p.ticks < q.ticks := by
  rw [← whole_prices]
  exact List.pairwise_map.2 (sorted_whole levels false)

/-- A price is listed if a level of some size has it. -/
theorem mem_listedPrices {wantBid : Bool} :
    p ∈ listedPrices levels wantBid ↔ ∃ level ∈ levels, 0 < level.sizeAtoms ∧ level.price = p := by
  simp only [listedPrices, List.mem_insertionSort, List.mem_dedup, List.mem_map, List.mem_filter,
    decide_eq_true_eq, and_assoc]

/-- The size at a price is not negative. -/
theorem listedSize_nonneg (levels : List BookLevel) (price : PriceTick) :
    0 ≤ listedSize levels price := by
  refine List.sum_nonneg fun size hsize => ?_
  obtain ⟨level, hlevel, rfl⟩ := List.mem_map.1 hsize
  rw [List.mem_filter, Bool.and_eq_true, decide_eq_true_eq] at hlevel
  exact hlevel.2.1.le

/-- The prices up to one of a sorted list are those in front of it. -/
theorem filter_le_eq {pre post : List PriceTick}
    (h : (pre ++ p :: post).Pairwise fun p q => p.ticks < q.ticks) :
    (pre ++ p :: post).filter (fun q => decide (q.ticks ≤ p.ticks)) = pre ++ [p] := by
  obtain ⟨-, hpost, hpre⟩ := List.pairwise_append.1 h
  rw [List.filter_append, List.filter_cons_of_pos (by simp), List.filter_eq_self.2,
    List.filter_eq_nil_iff.2]
  · intro q hq
    simpa using (List.pairwise_cons.1 hpost).1 q hq
  · intro q hq
    simpa using (hpre q hq p (by simp)).le

/-- The worth of one price is below 2 to the 94. -/
theorem worth_bounds (h : InRange levels) (hp : p ∈ listedPrices levels false) :
    -2 ^ 94 ≤ worth levels p ∧ worth levels p ≤ 2 ^ 94 := by
  obtain ⟨level, hlevel, -, rfl⟩ := mem_listedPrices.1 hp
  have hticks : |level.price.ticks| ≤ 2 ^ 31 := by
    have := (h level hlevel).1
    simp only [Fits, i32_lo, i32_hi] at this
    exact abs_le.2 (by omega)
  have hsize : |min i64.hi (listedSize levels level.price)| ≤ 2 ^ 63 := by
    have := listedSize_nonneg levels level.price
    simp only [i64_hi]
    exact abs_le.2 (by omega)
  refine abs_le.1 ?_
  calc |worth levels level.price|
      = |level.price.ticks| * |min i64.hi (listedSize levels level.price)| := abs_mul ..
    _ ≤ 2 ^ 31 * 2 ^ 63 := mul_le_mul hticks hsize (abs_nonneg _) (by decide)
    _ = 2 ^ 94 := by norm_num

/-- So is the worth of several, times their number. -/
theorem sum_worth_bounds (h : InRange levels) {prices : List PriceTick}
    (hp : ∀ p ∈ prices, p ∈ listedPrices levels false) :
    -(prices.length * 2 ^ 94) ≤ (prices.map (worth levels)).sum ∧
      (prices.map (worth levels)).sum ≤ prices.length * 2 ^ 94 := by
  induction prices with
  | nil => simp
  | cons p prices ih =>
    obtain ⟨hlo, hhi⟩ := worth_bounds h (hp p (List.mem_cons_self ..))
    obtain ⟨ihlo, ihhi⟩ := ih fun q hq => hp q (List.mem_cons_of_mem _ hq)
    rw [List.map_cons, List.sum_cons, List.length_cons]
    push_cast
    constructor <;> linarith

/-- The loop finds the first price up to which the asks are worth the target. -/
theorem cutoffLoop_eq (h : InRange levels) {pre rest post : List PriceTick}
    (hl : listedPrices levels false = pre ++ (rest ++ post))
    (hlength : pre.length + rest.length ≤ BOOK_DEPTH_LEVELS) :
    cutoffLoop b target (pre.map (worth levels)).sum
        (rest.map fun p => ⟨p, min i64.hi (listedSize levels p)⟩) =
      .ok (rest.find? fun p => decide (target ≤ worthUpTo levels p)) := by
  induction rest generalizing pre with
  | nil => rfl
  | cons p rest ih =>
    have hworth : worthUpTo levels p = (pre.map (worth levels)).sum + worth levels p := by
      have hsorted := sorted_listedPrices levels
      rw [worthUpTo, hl]
      rw [hl] at hsorted
      rw [List.cons_append] at hsorted ⊢
      rw [filter_le_eq hsorted]
      simp
    have hpre := sum_worth_bounds h fun q hq => by rw [hl]; exact List.mem_append_left _ hq
    obtain ⟨hlo, hhi⟩ := worth_bounds h (p := p) (by rw [hl]; simp)
    have hshort : (pre.length : Int) ≤ 3 := by
      simp only [List.length_cons, BOOK_DEPTH_LEVELS] at hlength
      omega
    have hvalue : i128.Fits (worth levels p) := by
      simp only [Fits, i128]
      omega
    have htotal : i128.Fits ((pre.map (worth levels)).sum + worth levels p) := by
      simp only [Fits, i128]
      constructor <;> linarith [hpre.1, hpre.2]
    rw [List.map_cons, cutoffLoop]
    dsimp only
    rw [← worth, Build.arith_of_fits hvalue, Except.ok_bind, Build.arith_of_fits htotal,
      Except.ok_bind, ← hworth]
    by_cases hle : target ≤ worthUpTo levels p
    · rw [if_pos hle, List.find?_cons_of_pos (by simpa using hle)]
      rfl
    · rw [if_neg hle, List.find?_cons_of_neg (by simpa using hle), hworth]
      have hrest := @ih (pre ++ [p]) (by rw [hl]; simp) (by simp at hlength ⊢; omega)
      simpa using hrest

/-- The levels of filled slots. -/
theorem reduceOption_fill (l : List BookLevel) : (fill l).reduceOption = l := by
  rw [fill, List.reduceOption_append, List.reduceOption_replicate_none, List.append_nil]
  exact (List.filterMap_map ..).trans List.filterMap_some

/-- The cutoff of the depth is the first of its prices up to which the asks are worth the target. -/
theorem cutoffForBuyCents_eq (h : InRange levels) (ht : i64.Fits target) :
    (fromLevels levels false).cutoffForBuyCents b target =
      .ok (if target ≤ 0 then none
        else ((listedPrices levels false).take BOOK_DEPTH_LEVELS).find? fun p =>
          decide (target * 1000000 ≤ worthUpTo levels p)) := by
  have hmicro : i128.Fits (target * 1000000) := by
    simp only [Fits, i128, i64_lo, i64_hi] at ht ⊢
    omega
  rw [cutoffForBuyCents]
  split_ifs with hnonpos
  · rfl
  · rw [Build.arith_of_fits hmicro, Except.ok_bind, fromLevels_eq fun level hlevel =>
      (h level hlevel).2, reduceOption_fill]
    have hlength : ((listedPrices levels false).take BOOK_DEPTH_LEVELS).length ≤
        BOOK_DEPTH_LEVELS := List.length_take_le ..
    exact @cutoffLoop_eq b levels _ h [] _ ((listedPrices levels false).drop BOOK_DEPTH_LEVELS)
      (List.take_append_drop ..).symm (by rwa [List.length_nil, zero_add])

/-- The first price of a sorted list that passes a test is the least one. -/
theorem find_iff_least {l : List PriceTick} (hl : l.Pairwise fun p q => p.ticks < q.ticks)
    (test : PriceTick → Bool) :
    l.find? test = some p ↔
      (p ∈ l ∧ test p = true) ∧ ∀ q, q ∈ l ∧ test q = true → p.ticks ≤ q.ticks := by
  have hleast {p : PriceTick} (hp : l.find? test = some p) :
      ∀ q, q ∈ l ∧ test q = true → p.ticks ≤ q.ticks := by
    obtain ⟨-, pre, post, rfl, hpre⟩ := List.find?_eq_some_iff_append.1 hp
    rintro q ⟨hq, htest⟩
    rcases List.mem_append.1 hq with hq | hq
    · simpa [htest] using hpre q hq
    · rcases List.mem_cons.1 hq with rfl | hq
      · exact le_rfl
      · exact ((List.pairwise_cons.1 (List.pairwise_append.1 hl).2.1).1 q hq).le
  refine ⟨?_, ?_⟩
  · intro hp
    exact ⟨⟨List.mem_of_find?_eq_some hp, List.find?_some hp⟩, hleast hp⟩
  · rintro ⟨⟨hmem, htest⟩, hp⟩
    obtain ⟨q, hq⟩ := Option.isSome_iff_exists.1 (List.find?_isSome.2 ⟨p, hmem, htest⟩)
    have hqp := hleast hq p ⟨hmem, htest⟩
    have hpq := hp q ⟨List.mem_of_find?_eq_some hq, List.find?_some hq⟩
    rw [hq]
    exact congrArg some (congrArg PriceTick.mk (le_antisymm hqp hpq))

/-- A larger target covers less. -/
theorem Covers.mono {target' : Int} (h : target ≤ target') (hp : Covers levels target' p) :
    Covers levels target p :=
  ⟨hp.1, by linarith [hp.2]⟩

end

end BookDepth

namespace Quote

open BookDepth

/-- The cutoff of a quote for a target that is covered, or not. -/
theorem buyCutoffForCents_spec (b : Build) {levels : List BookLevel} (h : InRange levels)
    {quote : Quote} (hquote : quote.askDepth = fromLevels levels false) {targetCents : Int}
    (ht : i64.Fits targetCents) :
    ∃ cutoff, quote.buyCutoffForCents b targetCents = .ok cutoff ∧
      (0 < targetCents → (∃ p, Covers levels targetCents p) →
        ∃ p, cutoff = some p ∧ Covers levels targetCents p ∧
          ∀ q, Covers levels targetCents q → p.ticks ≤ q.ticks) ∧
      (¬(0 < targetCents ∧ ∃ p, Covers levels targetCents p) → cutoff = quote.ask) := by
  have hsorted := (sorted_listedPrices levels).sublist (List.take_sublist BOOK_DEPTH_LEVELS _)
  set test : PriceTick → Bool := fun p => decide (targetCents * 1000000 ≤ worthUpTo levels p)
    with htest
  have hcovers (p : PriceTick) : p ∈ (listedPrices levels false).take BOOK_DEPTH_LEVELS ∧
      test p = true ↔ Covers levels targetCents p := by
    rw [htest, decide_eq_true_eq]
    rfl
  rw [buyCutoffForCents, hquote, cutoffForBuyCents_eq h ht]
  refine ⟨_, rfl, fun hpos hcov => ?_, fun hcov => ?_⟩
  · obtain ⟨p, hp⟩ := hcov
    obtain ⟨q, hq⟩ := Option.isSome_iff_exists.1 (List.find?_isSome.2 ⟨p, (hcovers p).2 hp⟩)
    have hleast := (find_iff_least hsorted test).1 hq
    simp only [hcovers] at hleast
    rw [if_neg hpos.not_ge, hq]
    exact ⟨q, rfl, hleast⟩
  · split_ifs with hnonpos
    · rfl
    · rw [List.find?_eq_none.2]
      · rfl
      · intro p hmem hp
        exact hcov ⟨not_le.1 hnonpos, p, (hcovers p).1 ⟨hmem, hp⟩⟩

/-- The cutoff of a quote is the best of its four best prices up to which the asks are worth the
target, and the best ask if there is none or no target; nothing overflows, and of two targets that
are covered the larger one does not have the better cutoff. -/
theorem buy_cutoff_covers (b : Build) (levels : List BookLevel) (h : InRange levels)
    (quote : Quote) (hquote : quote.askDepth = fromLevels levels false) (targetCents : Int)
    (ht : i64.Fits targetCents) :
    ∃ cutoff, quote.buyCutoffForCents b targetCents = .ok cutoff ∧
      (0 < targetCents → (∃ p, Covers levels targetCents p) →
        ∃ p, cutoff = some p ∧ Covers levels targetCents p ∧
          ∀ q, Covers levels targetCents q → p.ticks ≤ q.ticks) ∧
      (¬(0 < targetCents ∧ ∃ p, Covers levels targetCents p) → cutoff = quote.ask) ∧
      ∀ targetCents' cutoff', i64.Fits targetCents' → 0 < targetCents →
        targetCents ≤ targetCents' → (∃ p, Covers levels targetCents' p) →
        quote.buyCutoffForCents b targetCents' = .ok (some cutoff') →
          ∃ p, cutoff = some p ∧ p.ticks ≤ cutoff'.ticks := by
  obtain ⟨cutoff, hok, hcovered, hask⟩ := buyCutoffForCents_spec b h hquote ht
  refine ⟨cutoff, hok, hcovered, hask, ?_⟩
  rintro targetCents' cutoff' ht' hpos hle ⟨q, hq⟩ hok'
  obtain ⟨p, hp, -, hleast⟩ := hcovered hpos ⟨q, hq.mono hle⟩
  obtain ⟨cutoff'', hok'', hcovered', -⟩ := buyCutoffForCents_spec b h hquote ht'
  obtain ⟨p', hp', hcov', -⟩ := hcovered' (hpos.trans_le hle) ⟨q, hq⟩
  cases hok''.symm.trans hok'
  cases hp'
  exact ⟨p, hp, hleast cutoff' (hcov'.mono hle)⟩

/-- Asks of which the best one is thin. -/
def thinAsks : List BookLevel := [⟨⟨42⟩, 5000000⟩, ⟨⟨40⟩, 1000000⟩, ⟨⟨43⟩, 9000000⟩]

/-- For a dollar the asks are taken up to the second one, and for three dollars up to the third. -/
theorem buy_cutoff_covers_example :
    ∃ quote : Quote, quote.askDepth = fromLevels thinAsks false ∧
      quote.buyCutoffForCents ⟨true⟩ 100 = .ok (some ⟨42⟩) ∧
      (∃ p, Covers thinAsks 300 p) ∧
      ∀ cutoff', quote.buyCutoffForCents ⟨true⟩ 300 = .ok (some cutoff') → 42 ≤ cutoff'.ticks := by
  have h : InRange thinAsks := by decide
  have hcov : Covers thinAsks 100 ⟨42⟩ := by
    constructor <;> decide
  have hcov' : Covers thinAsks 300 ⟨43⟩ := by
    constructor <;> decide
  obtain ⟨cutoff, hok, hcovered, -, hmono⟩ := buy_cutoff_covers ⟨true⟩ thinAsks h
    ⟨none, some ⟨40⟩, fromLevels thinAsks false, ⟨1⟩, ⟨0⟩⟩ rfl 100 (by decide)
  have hfind : Quote.buyCutoffForCents ⟨true⟩
      ⟨none, some ⟨40⟩, fromLevels thinAsks false, ⟨1⟩, ⟨0⟩⟩ 100 = .ok (some ⟨42⟩) := by
    decide +kernel
  cases hok.symm.trans hfind
  refine ⟨_, rfl, hfind, ⟨_, hcov'⟩, fun cutoff' hok' => ?_⟩
  obtain ⟨p, hp, hle⟩ := hmono 300 cutoff' (by decide) (by decide) (by decide) ⟨_, hcov'⟩ hok'
  cases hp
  exact hle

end Quote

end Polyrust
