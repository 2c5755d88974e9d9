import Mathlib.Algebra.Order.BigOperators.Group.List
import Mathlib.Data.List.Dedup
import Polyrust.Lib.Ranked
import Polyrust.State

/-!
# The depth of a book

The slots of a book depth are the top of the whole book: the best prices that are listed with a
positive size, each with the sum of the sizes listed for it. The bounded insertion of the code is
the unbounded one of `Lib/Ranked`, cut to the number of slots after every level.
-/

namespace Polyrust

open IntWidth

namespace BookDepth

/-! ## The whole book -/

/-- A better price has a smaller rank. -/
def priceRank (wantBid : Bool) (price : PriceTick) : Int :=
  if wantBid then -price.ticks else price.ticks

/-- The distinct prices that are listed with a positive size, best first. -/
def listedPrices (levels : List BookLevel) (wantBid : Bool) : List PriceTick :=
  ((levels.filter fun level => decide (0 < level.sizeAtoms)).map (·.price)).dedup.insertionSort
    fun p q => priceRank wantBid p ≤ priceRank wantBid q

/-- The positive sizes listed at a price, together. -/
def listedSize (levels : List BookLevel) (price : PriceTick) : Int :=
  ((levels.filter fun level =>
    decide (0 < level.sizeAtoms) && decide (level.price = price)).map (·.sizeAtoms)).sum

/-- The best prices, each with what is listed at it. -/
def top (levels : List BookLevel) (wantBid : Bool) : List BookLevel :=
  ((listedPrices levels wantBid).take BOOK_DEPTH_LEVELS).map fun price =>
    ⟨price, min i64.hi (listedSize levels price)⟩

/-- The slots filled from the first one on. -/
def fill (levels : List BookLevel) : List (Option BookLevel) :=
  levels.map some ++ List.replicate (BOOK_DEPTH_LEVELS - levels.length) none

/-! ## One insertion -/

/-- The rank of a level is that of its price. -/
def levelRank (wantBid : Bool) (level : BookLevel) : Int := priceRank wantBid level.price

/-- Two levels of one price as one. -/
def mergeSize (existing level : BookLevel) : BookLevel :=
  { existing with sizeAtoms := i64.saturatingAdd existing.sizeAtoms level.sizeAtoms }

section
variable {wantBid : Bool} {level : BookLevel} {l : List BookLevel} {p q : PriceTick}

/-- Different prices have different ranks. -/
theorem priceRank_inj : priceRank wantBid p = priceRank wantBid q ↔ p = q := by
  obtain ⟨p⟩ := p
  obtain ⟨q⟩ := q
  cases wantBid <;> simp [priceRank]

/-- A merged level keeps its rank. -/
theorem levelRank_mergeSize (existing level : BookLevel) :
    levelRank wantBid (mergeSize existing level) = levelRank wantBid existing := rfl

/-- A level goes before a worse one. -/
theorem shouldInsert_some {existing : BookLevel} :
    shouldInsert level wantBid (some existing) =
      decide (levelRank wantBid level < levelRank wantBid existing) := by
  simp only [shouldInsert, levelRank, priceRank]
  split
  · rw [decide_eq_decide]
    omega
  · rfl

/-- A rank is taken exactly if its price is. -/
theorem mem_ranks : levelRank wantBid level ∈ l.map (levelRank wantBid) ↔
    level.price ∈ l.map (·.price) := by
  simp only [List.mem_map, levelRank, priceRank_inj]

/-- Insertion into the whole book. -/
abbrev insertWhole (wantBid : Bool) (level : BookLevel) (l : List BookLevel) : List BookLevel :=
  Ranked.insert (levelRank wantBid) mergeSize level l

/-- A level with a new price is one more. -/
theorem length_insertWhole (h : level.price ∉ l.map (·.price)) :
    (insertWhole wantBid level l).length = l.length + 1 :=
  Ranked.length_insert (mem_ranks.not.2 h)

/-- A level with a price that is there is merged. -/
theorem length_insertWhole_of_mem (hl : Ranked.Sorted (levelRank wantBid) l)
    (h : level.price ∈ l.map (·.price)) : (insertWhole wantBid level l).length = l.length :=
  Ranked.length_insert_of_mem hl (mem_ranks.2 h)

/-- The size of a level is added to the level of its price. -/
theorem mergeLevel_of_mem (hl : Ranked.Sorted (levelRank wantBid) l)
    (h : level.price ∈ l.map (·.price)) (m : Nat) :
    mergeLevel level (l.map some ++ List.replicate m none) =
      some ((insertWhole wantBid level l).map some ++ List.replicate m none) := by
  induction l with
  | nil => cases h
  | cons y l ih =>
    obtain ⟨hy, hl⟩ := List.pairwise_cons.1 hl
    rw [List.map_cons, List.cons_append, mergeLevel, insertWhole, Ranked.insert]
    by_cases heq : y.price = level.price
    · have hrank : levelRank wantBid level = levelRank wantBid y := by
        rw [levelRank, levelRank, heq]
      rw [if_pos heq, if_neg hrank.not_lt, if_pos hrank]
      rfl
    · have hmem : level.price ∈ l.map (·.price) := by
        rw [List.map_cons, List.mem_cons] at h
        exact h.resolve_left (Ne.symm heq)
      obtain ⟨z, hz, hzp⟩ := List.mem_map.1 hmem
      have hlt : levelRank wantBid y < levelRank wantBid level := by
        have := hy z hz
        rwa [levelRank, levelRank, hzp] at this
      rw [if_neg heq, ih hl hmem, if_neg hlt.not_gt, if_neg hlt.ne']
      rfl

/-- There is none to add it to. -/
theorem mergeLevel_of_not_mem (h : level.price ∉ l.map (·.price)) (m : Nat) :
    mergeLevel level (l.map some ++ List.replicate m none) = none := by
  induction l with
  | nil =>
    induction m with
    | zero => rfl
    | succ m ih => exact Option.map_eq_none_iff.2 ih
  | cons y l ih =>
    rw [List.map_cons, List.mem_cons, not_or] at h
    rw [List.map_cons, List.cons_append, mergeLevel, if_neg (Ne.symm h.1), ih h.2]
    rfl

/-- A level of a new price takes its place, and the last slot is lost. -/
theorem shiftLevel_of_not_mem (h : level.price ∉ l.map (·.price)) (m : Nat) :
    shiftLevel level wantBid (l.map some ++ List.replicate m none) =
      ((insertWhole wantBid level l).map some ++ List.replicate m none).dropLast := by
  induction l with
  | nil =>
    cases m with
    | zero => rfl
    | succ m =>
      rfl
  | cons y l ih =>
    have hne : levelRank wantBid level ≠ levelRank wantBid y := by
      intro heq
      rw [levelRank, levelRank, priceRank_inj] at heq
      simp [heq] at h
    rw [List.map_cons, List.mem_cons, not_or] at h
    rw [List.map_cons, List.cons_append, shiftLevel, shouldInsert_some, insertWhole,
      Ranked.insert]
    by_cases hlt : levelRank wantBid level < levelRank wantBid y
    · rw [if_pos (decide_eq_true hlt), if_pos hlt]
      rfl
    · rw [if_neg (by simpa using hlt), if_neg hlt, if_neg hne, ih h.2]
      have hne' : insertWhole wantBid level l ≠ [] := by
        rw [← List.length_pos_iff, length_insertWhole h.2]
        omega
      rw [List.map_cons, List.cons_append, List.dropLast_cons_of_ne_nil (by simp [hne'])]

/-- One slot more than there are, without the last. -/
theorem dropLast_fill {m : Nat} (h : l.length + m = BOOK_DEPTH_LEVELS + 1) :
    (l.map some ++ List.replicate m none).dropLast = fill (l.take BOOK_DEPTH_LEVELS) := by
  cases m with
  | zero =>
    have hlength : l.length - 1 = BOOK_DEPTH_LEVELS := by omega
    rw [List.replicate_zero, List.append_nil, ← List.map_dropLast, List.dropLast_eq_take, hlength,
      fill, List.length_take_of_le (by omega), Nat.sub_self, List.replicate_zero, List.append_nil]
  | succ m =>
    have hm : m = BOOK_DEPTH_LEVELS - l.length := by omega
    rw [List.replicate_succ', ← List.append_assoc, List.dropLast_concat,
      List.take_of_length_le (by omega), fill, ← hm]

/-- The insertion of a level into slots that are sorted. -/
theorem insert_levels {depth : BookDepth} (hl : Ranked.Sorted (levelRank wantBid) l)
    (hlength : l.length ≤ BOOK_DEPTH_LEVELS) (h : depth.levels = fill l) (level : BookLevel) :
    (depth.insert level wantBid).levels =
      fill ((insertWhole wantBid level l).take BOOK_DEPTH_LEVELS) := by
  rw [fill] at h
  by_cases hmem : level.price ∈ l.map (·.price)
  · have hmerge := mergeLevel_of_mem hl hmem (BOOK_DEPTH_LEVELS - l.length)
    have hwhole := length_insertWhole_of_mem hl hmem
    rw [← h] at hmerge
    rw [List.take_of_length_le (hwhole.trans_le hlength), fill, hwhole, insert]
    split
    · next he => exact Option.some.inj (he.symm.trans hmerge)
    · next he => cases he.symm.trans hmerge
  · have hmerge := mergeLevel_of_not_mem hmem (BOOK_DEPTH_LEVELS - l.length)
    have hshift := @shiftLevel_of_not_mem wantBid _ _ hmem (BOOK_DEPTH_LEVELS - l.length)
    rw [← h] at hmerge hshift
    rw [insert]
    split
    · next he => cases he.symm.trans hmerge
    · refine hshift.trans (dropLast_fill ?_)
      rw [length_insertWhole hmem]
      omega

/-! ## All levels -/

/-- The levels of the whole book, best first. -/
def whole (levels : List BookLevel) (wantBid : Bool) : List BookLevel :=
  Ranked.collect (levelRank wantBid) mergeSize
    (levels.filter fun level => decide (0 < level.sizeAtoms))

/-- The whole side is sorted by rank. -/
theorem sorted_whole (levels : List BookLevel) (wantBid : Bool) :
    Ranked.Sorted (levelRank wantBid) (whole levels wantBid) :=
  Ranked.sorted_collect levelRank_mergeSize _

/-- The slots are the top of the whole book. -/
theorem fromLevels_levels (levels : List BookLevel) (wantBid : Bool) :
    (fromLevels levels wantBid).levels = fill ((whole levels wantBid).take BOOK_DEPTH_LEVELS) := by
  induction levels using List.reverseRecOn with
  | nil => rfl
  | append_singleton levels level ih =>
    have hstep : fromLevels (levels ++ [level]) wantBid =
        if 0 < level.sizeAtoms then (fromLevels levels wantBid).insert level wantBid
        else fromLevels levels wantBid := by
      rw [fromLevels, List.foldl_append]
      rfl
    rw [hstep, whole, List.filter_append]
    split_ifs with hpos
    · have hsorted := (sorted_whole levels wantBid).sublist (List.take_sublist BOOK_DEPTH_LEVELS _)
      rw [insert_levels hsorted (List.length_take_le ..) ih level, insertWhole, Ranked.take_insert]
      simp [hpos, whole]
    · simp [hpos, ih, whole]

/-- The whole book has the listed prices. -/
theorem whole_prices (levels : List BookLevel) (wantBid : Bool) :
    (whole levels wantBid).map (·.price) = listedPrices levels wantBid := by
  have hlt : ((whole levels wantBid).map (·.price)).Pairwise fun p q =>
      priceRank wantBid p < priceRank wantBid q :=
    List.pairwise_map.2 (sorted_whole levels wantBid)
  refine List.Perm.eq_of_pairwise
    (fun p q _ _ hpq hqp => priceRank_inj.1 (le_antisymm hpq hqp)) (hlt.imp le_of_lt)
    (List.pairwise_insertionSort _ _) ?_
  refine List.Perm.trans ?_ (List.perm_insertionSort _ _).symm
  refine (List.perm_ext_iff_of_nodup ?_ (List.nodup_dedup _)).2 fun p => ?_
  · exact hlt.imp fun hpq heq => hpq.ne (priceRank_inj.2 heq)
  · have hkeys := @Ranked.mem_keys_collect BookLevel Int _ (levelRank wantBid) mergeSize
      (levels.filter fun level => decide (0 < level.sizeAtoms)) (priceRank wantBid p)
      levelRank_mergeSize
    rw [List.mem_dedup, whole]
    simpa only [List.mem_map, levelRank, priceRank_inj] using hkeys

/-- The size of levels that were merged. -/
theorem sizeAtoms_combine (h : ∀ level ∈ l, 0 < level.sizeAtoms ∧ level.sizeAtoms ≤ i64.hi)
    {merged : BookLevel} (hm : Ranked.combine mergeSize l = some merged) :
    merged.sizeAtoms = min i64.hi (l.map (·.sizeAtoms)).sum := by
  induction l using List.reverseRecOn generalizing merged with
  | nil => cases hm
  | append_singleton l level ih =>
    obtain ⟨hpos, hle⟩ := h level (by simp)
    rw [Ranked.combine_concat] at hm
    rw [List.map_append, List.sum_append, List.map_singleton, List.sum_singleton]
    cases hc : Ranked.combine mergeSize l with
    | none =>
      rw [hc] at hm
      cases hm
      rw [Ranked.combine_eq_none.1 hc, List.map_nil, List.sum_nil, zero_add, min_eq_right hle]
      rfl
    | some first =>
      rw [hc] at hm
      cases hm
      have hsum : 0 ≤ (l.map (·.sizeAtoms)).sum :=
        List.sum_nonneg fun x hx => by
          obtain ⟨y, hy, rfl⟩ := List.mem_map.1 hx
          exact (h y (by simp [hy])).1.le
      rw [Option.elim_some, mergeSize, ih (fun y hy => h y (by simp [hy])) hc]
      simp only [saturatingAdd, saturate, i64_lo, i64_hi]
      omega

/-- Each with the sizes listed at it. -/
theorem whole_size {levels : List BookLevel} (hfit : ∀ level ∈ levels, i64.Fits level.sizeAtoms)
    (h : level ∈ whole levels wantBid) :
    level.sizeAtoms = min i64.hi (listedSize levels level.price) := by
  have hfind := Ranked.find_of_mem (sorted_whole levels wantBid) h
  have hfilter : (levels.filter fun level => decide (0 < level.sizeAtoms)).filter
      (fun y => decide (levelRank wantBid y = levelRank wantBid level)) =
        levels.filter fun y => decide (0 < y.sizeAtoms) && decide (y.price = level.price) := by
    rw [List.filter_filter]
    refine List.filter_congr fun y _ => ?_
    simp [levelRank, priceRank_inj, Bool.and_comm]
  rw [whole, Ranked.find_collect levelRank_mergeSize, hfilter] at hfind
  refine sizeAtoms_combine (fun y hy => ?_) hfind
  rw [List.mem_filter, Bool.and_eq_true, decide_eq_true_eq] at hy
  exact ⟨hy.2.1, (hfit y hy.1).2⟩

/-- The slots hold the best prices, each with the sizes listed at it. -/
theorem fromLevels_eq {levels : List BookLevel}
    (hfit : ∀ level ∈ levels, i64.Fits level.sizeAtoms) (wantBid : Bool) :
    (fromLevels levels wantBid).levels = fill (top levels wantBid) := by
  rw [fromLevels_levels, top, ← whole_prices, ← List.map_take, List.map_map]
  congr 1
  symm
  refine (List.map_congr_left fun level hlevel => ?_).trans (List.map_id _)
  have hsize := whole_size hfit (List.mem_of_mem_take hlevel)
  rw [Function.comp_apply, ← hsize]
  rfl

/-! ## The order of the list -/

/-- The prices do not depend on the order of the levels. -/
theorem listedPrices_perm {levels levels' : List BookLevel} (h : levels.Perm levels')
    (wantBid : Bool) : listedPrices levels wantBid = listedPrices levels' wantBid := by
  refine List.Perm.eq_of_pairwise
    (fun p q _ _ hpq hqp => priceRank_inj.1 (le_antisymm hpq hqp))
    (List.pairwise_insertionSort _ _) (List.pairwise_insertionSort _ _) ?_
  refine (List.perm_insertionSort _ _).trans (List.Perm.trans ?_ (List.perm_insertionSort _ _).symm)
  exact ((h.filter _).map _).dedup

/-- The size at a price does not depend on the order of the levels. -/
theorem listedSize_perm {levels levels' : List BookLevel} (h : levels.Perm levels')
    (price : PriceTick) : listedSize levels price = listedSize levels' price :=
  ((h.filter _).map _).sum_eq

/-- The best levels do not depend on the order of the levels. -/
theorem top_perm {levels levels' : List BookLevel} (h : levels.Perm levels') (wantBid : Bool) :
    top levels wantBid = top levels' wantBid := by
  rw [top, top, listedPrices_perm h]
  exact List.map_congr_left fun price _ => by rw [listedSize_perm h]

/-- Depths with the same levels are equal. -/
theorem ext_levels {depth depth' : BookDepth} (h : depth.levels = depth'.levels) :
    depth = depth' := by
  cases depth
  cases h
  rfl

/-- The slots are filled from the first one on, best first, with the four best of the prices that
are listed with a positive size, or all of them if they are fewer, each with all that is listed at
it; the order of the list does not matter. -/
theorem from_levels_top (levels : List BookLevel) (wantBid : Bool)
    (hfit : ∀ level ∈ levels, i64.Fits level.sizeAtoms) :
    ∃ best : List BookLevel,
      (fromLevels levels wantBid).levels =
        best.map some ++ List.replicate (BOOK_DEPTH_LEVELS - best.length) none ∧
      (best.Pairwise fun level level' =>
        if wantBid then level'.price.ticks < level.price.ticks
        else level.price.ticks < level'.price.ticks) ∧
      best.map (·.price) = (listedPrices levels wantBid).take BOOK_DEPTH_LEVELS ∧
      best.length = min BOOK_DEPTH_LEVELS (listedPrices levels wantBid).length ∧
      (∀ level ∈ best, level.sizeAtoms = min i64.hi (listedSize levels level.price)) ∧
      ∀ levels', levels.Perm levels' → fromLevels levels' wantBid = fromLevels levels wantBid := by
  have hsorted := (sorted_whole levels wantBid).sublist (List.take_sublist BOOK_DEPTH_LEVELS _)
  refine ⟨(whole levels wantBid).take BOOK_DEPTH_LEVELS, fromLevels_levels levels wantBid,
    hsorted.imp fun {level level'} hlt => ?_, ?_, ?_, fun level hlevel => ?_,
    fun levels' hperm => ext_levels ?_⟩
  · cases wantBid <;> simpa [levelRank, priceRank] using hlt
  · rw [← whole_prices, List.map_take]
  · rw [← whole_prices, List.length_take, List.length_map]
  · exact whole_size hfit (List.mem_of_mem_take hlevel)
  · have hfit' : ∀ level ∈ levels', i64.Fits level.sizeAtoms := fun level hlevel =>
      hfit level (hperm.mem_iff.2 hlevel)
    rw [fromLevels_eq hfit, fromLevels_eq hfit', top_perm hperm]

end

/-- Six levels of five prices, in no order. -/
def sixLevels : List BookLevel :=
  [⟨⟨44⟩, 5⟩, ⟨⟨41⟩, 7⟩, ⟨⟨43⟩, 2⟩, ⟨⟨40⟩, 1⟩, ⟨⟨41⟩, 3⟩, ⟨⟨42⟩, 9⟩]

/-- The fifth best price is not in the depth, and the price that is listed twice has both sizes. -/
theorem from_levels_top_example :
    (∀ level ∈ sixLevels, i64.Fits level.sizeAtoms) ∧
      ∃ best : List BookLevel,
        (fromLevels sixLevels false).levels =
          best.map some ++ List.replicate (BOOK_DEPTH_LEVELS - best.length) none ∧
        best.map (·.price) = [⟨40⟩, ⟨41⟩, ⟨42⟩, ⟨43⟩] ∧
        (∀ level ∈ best, level.price = ⟨41⟩ → level.sizeAtoms = 10) ∧
        fromLevels sixLevels.reverse false = fromLevels sixLevels false := by
  have hfit : ∀ level ∈ sixLevels, i64.Fits level.sizeAtoms := by decide
  obtain ⟨best, hlevels, -, hprices, -, hsizes, hperm⟩ := from_levels_top sixLevels false hfit
  refine ⟨hfit, best, hlevels, hprices.trans (by decide), fun level hlevel hprice => ?_,
    hperm _ (List.reverse_perm _).symm⟩
  rw [hsizes level hlevel, hprice]
  decide

end BookDepth

end Polyrust
