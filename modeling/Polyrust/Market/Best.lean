import Polyrust.Market
import Polyrust.State.Depth

/-!
# The best price of a book

The bid of a book frame is found by a scan of its levels (`best_book_price`), the ask is the price
in the first slot of the depth. Both are the best of the prices that are listed with a positive
size, so that either way gives the same price on either side (`best_prices_agree`).
-/

namespace Polyrust

namespace BookDepth

/-- The prices that are listed with a positive size. -/
def positivePrices (levels : List BookLevel) : List PriceTick :=
  (levels.filter fun level => decide (0 < level.sizeAtoms)).map (·.price)

/-- The prices of one more level. -/
theorem positivePrices_concat (levels : List BookLevel) (level : BookLevel) :
    positivePrices (levels ++ [level]) =
      positivePrices levels ++ if 0 < level.sizeAtoms then [level.price] else [] := by
  rw [positivePrices, List.filter_append, List.map_append]
  congr 1
  split_ifs with h
  · simp [h]
  · simp [not_lt.1 h]

/-- The best price of a depth is that of its first level. -/
theorem bestPrice_of_levels {depth : BookDepth} {levels : List BookLevel}
    (h : depth.levels = fill (levels.take BOOK_DEPTH_LEVELS)) :
    depth.bestPrice = (levels.map (·.price)).head? := by
  rw [bestPrice, h]
  cases levels <;> rfl

/-- The price in the first slot is the best one. -/
theorem fromLevels_bestPrice (levels : List BookLevel) (wantBid : Bool) :
    (fromLevels levels wantBid).bestPrice =
      Ranked.least (priceRank wantBid) (positivePrices levels) := by
  rw [bestPrice_of_levels (fromLevels_levels levels wantBid)]
  refine Ranked.head?_eq_least (List.pairwise_map.2 (sorted_whole levels wantBid)) fun p => ?_
  rw [whole_prices, listedPrices, List.mem_insertionSort, List.mem_dedup]
  rfl

end BookDepth

namespace Market

open BookDepth Json

/-- The scan keeps the better price. -/
theorem betterPrice_eq (wantBid : Bool) (best : Option PriceTick) (price : PriceTick) :
    betterPrice wantBid best price = some (best.elim price fun prev =>
      if priceRank wantBid price < priceRank wantBid prev then price else prev) := by
  cases best with
  | none => rfl
  | some prev =>
    cases wantBid with
    | true =>
      simp only [betterPrice, priceRank, if_true, neg_lt_neg_iff, Option.elim_some]
    | false =>
      simp only [betterPrice, priceRank, Bool.false_eq_true, if_false, Option.elim_some]

/-- What it finds is the best one. -/
theorem foldl_betterPrice (wantBid : Bool) (parsed : List (PriceTick × SharesAtoms)) :
    parsed.foldl (fun best (price, size) =>
      if size.atoms ≤ 0 then best else betterPrice wantBid best price) none =
      Ranked.least (priceRank wantBid)
        (positivePrices (parsed.map fun (price, size) => ⟨price, size.atoms⟩)) := by
  induction parsed using List.reverseRecOn with
  | nil => rfl
  | append_singleton parsed level ih =>
    obtain ⟨price, size⟩ := level
    rw [List.foldl_append, ih, List.map_append, List.map_singleton, positivePrices_concat]
    by_cases hsize : size.atoms ≤ 0
    · rw [if_neg (not_lt.2 hsize), List.append_nil, List.foldl_cons, List.foldl_nil]
      exact if_pos hsize
    · rw [if_pos (not_le.1 hsize), Ranked.least_concat]
      exact (if_neg hsize).trans (betterPrice_eq ..)

/-- The scan of a side finds the price in the first slot of its depth. -/
theorem bestBookPrice_eq (b : Build) (value : Option Value) (wantBid : Bool) :
    bestBookPrice b value wantBid = (bookDepth b value wantBid).map BookDepth.bestPrice := by
  unfold bestBookPrice bookDepth
  cases value.bind Value.asArray with
  | none => rfl
  | some levels =>
    dsimp only
    cases parseLevels b levels with
    | error e => rfl
    | ok parsed =>
      simp only [Except.ok_bind, foldl_betterPrice]
      exact congrArg Except.ok (fromLevels_bestPrice _ wantBid).symm

/-- The two paths to a best price agree on every side of a book, in every build, and so the bid and
the ask of a frame are found by one rule. -/
theorem best_prices_agree (b : Build) :
    (∀ (value : Option Value) (wantBid : Bool),
      bestBookPrice b value wantBid = (bookDepth b value wantBid).map BookDepth.bestPrice) ∧
    ∀ (value : Value) (update : QuoteUpdate), quoteFromBook b value = .ok (some update) →
      (bookDepth b (value.get "bids") true).map BookDepth.bestPrice = .ok update.bid ∧
        bestBookPrice b (value.get "asks") false = .ok update.ask := by
  refine ⟨bestBookPrice_eq b, fun value update h => ?_⟩
  obtain ⟨-, hdepth, hbid, hask, -⟩ := quoteFromBook_some h
  refine ⟨?_, ?_⟩
  · rw [← bestBookPrice_eq, hbid]
  · rw [bestBookPrice_eq, hdepth, hask]
    rfl

/-- A book of mixed levels: a level of no size, one that is no level, and two that are. -/
def mixedBook : Value := .object [
  ("asset_id", .string "t"),
  ("bids", .array [
    .array [.string "0.50", .string "0"],
    .object [("price", .string "0.40"), ("size", .string "1")],
    .null,
    .array [.string "0.45", .string "2"]]),
  ("asks", .array [.array [.string "0.60", .string "1"], .array [.string "0.55", .string "3"]])]

/-- The quote of the mixed book. -/
def mixedQuote : QuoteUpdate where
  token := ⟨"t"⟩
  bid := some ⟨45⟩
  ask := some ⟨55⟩
  askDepth := .fromLevels [⟨⟨60⟩, 1000000⟩, ⟨⟨55⟩, 3000000⟩] false
  tick := DEFAULT_TICK

/-- The two best prices of the mixed book. -/
theorem best_prices_agree_mixed :
    (bookDepth ⟨true⟩ (mixedBook.get "bids") true).map BookDepth.bestPrice = .ok (some ⟨45⟩) ∧
      bestBookPrice ⟨true⟩ (mixedBook.get "asks") false = .ok (some ⟨55⟩) :=
  (best_prices_agree ⟨true⟩).2 mixedBook mixedQuote (by decide +kernel)

end Market

end Polyrust
