import Polyrust.Inventory.History
import Polyrust.Inventory.Pending

/-!
# Which submit a trade is matched to

A trade is matched to the first candidate in the iteration order of the pending map
(`matchPendingSubmit_candidate`): the candidates are the submits that carry its order id, or, when
there is none, the submits on its token and side. Three questions are settled from it. When does the
choice depend on the iteration order (`match_reordered_iff`)? When does an event, redelivered or
not, leave the pending submits alone (`applyUserTrade_pending_eq_iff`)? When does a trade with an
order id leave the submits of other orders alone (`match_keeps_other_orders_iff`)?
-/

namespace Polyrust

/-- Some pending submit carries the trade's order id. -/
def carried (pending : HashMap SubmitId PendingSubmit) (trade : UserTrade) : Bool :=
  trade.takerOrderId.any fun oid => pending.anyValue fun p => p.carries oid

/-- The submit carries the trade's order id, or no submit does and it is on the trade's leg. -/
def candidate (pending : HashMap SubmitId PendingSubmit) (trade : UserTrade)
    (p : PendingSubmit) : Bool :=
  if carried pending trade then trade.takerOrderId.any fun oid => p.carries oid
  else p.onLegOf trade

section
variable {pending pending' : HashMap SubmitId PendingSubmit} {trade : UserTrade}

/-- Matching takes the first candidate. -/
theorem matchPendingSubmit_candidate (pending : HashMap SubmitId PendingSubmit)
    (trade : UserTrade) :
    (matchPendingSubmit pending trade).1 =
      pending.findKey? fun _ p => candidate pending trade p := by
  rw [Inventory.matchPendingSubmit_fst]
  cases ho : trade.takerOrderId with
  | none => simp [candidate, carried, ho]
  | some oid =>
    have hsome :=
      HashMap.findKey?_isSome (p := fun p : PendingSubmit => p.carries oid) (m := pending)
    rw [Option.bind_some]
    cases hc : pending.anyValue fun p => p.carries oid with
    | true =>
      rw [hc, Option.isSome_iff_exists] at hsome
      obtain ⟨id, hid⟩ := hsome
      simp [candidate, carried, ho, hc, hid]
    | false =>
      rw [hc, Option.isSome_eq_false_iff, Option.isNone_iff_eq_none] at hsome
      simp [candidate, carried, ho, hc, hsome]

/-- What the candidates are does not depend on the iteration order. -/
theorem candidate_reordered (h : pending.Reordered pending') :
    candidate pending' trade = candidate pending trade := by
  have hc : carried pending' trade = carried pending trade := by
    simp only [carried, h.anyValue]
  funext p
  rw [candidate, candidate, hc]

/-- A candidate of a trade whose order id no submit carries is on the trade's leg. -/
theorem candidate_of_not_carried (h : carried pending trade = false) :
    candidate pending trade = fun p => p.onLegOf trade := by
  funext p
  simp [candidate, h]

/-- A trade leaves a submit as it is exactly when it is accepted already, at the trade's time, and
has no order id to take from it. -/
theorem PendingSubmit.accept_eq_self_iff {p : PendingSubmit} :
    p.accept trade = p ↔
      p.status = .accepted ∧ p.updatedTsUs = trade.tsUs ∧
        (p.orderId ≠ none ∨ trade.takerOrderId = none) := by
  obtain ⟨id, token, side, size, orderId, status, created, updated⟩ := p
  simp only [accept, PendingSubmit.mk.injEq, true_and]
  refine ⟨?_, ?_⟩
  · rintro ⟨ho, hs, ht⟩
    refine ⟨hs.symm, ht.symm, ?_⟩
    cases orderId with
    | none => exact .inr (by simpa using ho)
    | some o => exact .inl (by simp)
  · rintro ⟨hs, ht, ho⟩
    refine ⟨?_, hs.symm, ht.symm⟩
    cases orderId with
    | none => simpa using ho
    | some o => rfl

end

namespace Inventory

section
variable {inv : Inventory} {trade : UserTrade}

/-! ## Iteration order -/

/-- An event gives the same match and the same pending submits in every iteration order exactly when
it has at most one candidate. -/
theorem match_reordered_iff (inv : Inventory) (trade : UserTrade) :
    (∀ pending', inv.pending.Reordered pending' →
      ({ inv with pending := pending' }.applyUserTrade trade).2.matchedSubmit =
          (inv.applyUserTrade trade).2.matchedSubmit ∧
        (inv.applyUserTrade trade).1.pending.Reordered
          ({ inv with pending := pending' }.applyUserTrade trade).1.pending) ↔
      ∀ id id' p p', inv.pending.lookup id = some p → inv.pending.lookup id' = some p' →
        candidate inv.pending trade p = true → candidate inv.pending trade p' = true →
          id = id' := by
  simp only [applyUserTrade_matchedSubmit]
  refine ⟨?_, ?_⟩
  · intro h id id' p p' hp hp' hc hc'
    -- each of the two candidates is the first one in some iteration order
    have hfirst : ∀ i q, inv.pending.lookup i = some q → candidate inv.pending trade q = true →
        (matchPendingSubmit inv.pending trade).1 = some i := by
      intro i q hq hcq
      have hr := HashMap.front_reordered i inv.pending
      rw [← (h _ hr).1, matchPendingSubmit_candidate, candidate_reordered hr]
      exact HashMap.findKey?_front hq hcq
    exact Option.some.inj ((hfirst id p hp hc).symm.trans (hfirst id' p' hp' hc'))
  · intro h pending' hr
    have hmatch :
        (matchPendingSubmit pending' trade).1 = (matchPendingSubmit inv.pending trade).1 := by
      rw [matchPendingSubmit_candidate, matchPendingSubmit_candidate, candidate_reordered hr]
      exact (hr.findKey? fun k k' v v' hv hv' hp hp' => h k k' v v' hv hv' hp hp').symm
    refine ⟨hmatch, ?_⟩
    cases hm : (matchPendingSubmit inv.pending trade).1 with
    | none =>
      rw [applyUserTrade_pending_none hm]
      rw [applyUserTrade_pending_none (hmatch.trans hm)]
      exact hr
    | some id =>
      rw [applyUserTrade_pending_some hm]
      rw [applyUserTrade_pending_some (hmatch.trans hm)]
      split
      · exact (hr.modify id _).erase id
      · exact hr.modify id _

/-- An unknown submit that expired, and a new claim on the token: a trade without order id has two
candidates. -/
theorem match_not_reordered :
    ¬ ∀ ops, Machine.Along step EntryGuard new ops → ∀ trade pending',
      (runOps ops).pending.Reordered pending' →
        ({ runOps ops with pending := pending' }.applyUserTrade trade).2.matchedSubmit =
            ((runOps ops).applyUserTrade trade).2.matchedSubmit ∧
          ((runOps ops).applyUserTrade trade).1.pending.Reordered
            ({ runOps ops with pending := pending' }.applyUserTrade trade).1.pending := by
  intro h
  have := (h [.setUserWssTrusted true, .claimEntry ⟨"up"⟩ .buy ⟨50000⟩ 0,
      .recordBuySubmitOutcome (submitId 1) (.unknown 0 none) 1, .expireStaleEntryClaims 6000000,
      .claimEntry ⟨"up"⟩ .buy ⟨50000⟩ 6000001]
    (by decide +kernel) (upTrade "t1" none .buy 50000 .matched) _
    (HashMap.front_reordered (submitId 1) _)).1
  revert this
  decide +kernel

/-! ## Events that leave the pending submits alone -/

/-- The first candidate, by its entry. -/
theorem matchPendingSubmit_entry {id : SubmitId}
    (h : (matchPendingSubmit inv.pending trade).1 = some id) :
    ∃ p, inv.pending.lookup id = some p ∧ candidate inv.pending trade p = true ∧
      (inv.pending.entries.find? fun e => candidate inv.pending trade e.2) = some ⟨id, p⟩ := by
  rw [matchPendingSubmit_candidate] at h
  obtain ⟨⟨i, p⟩, hf, rfl⟩ := Option.map_eq_some_iff.1 h
  refine ⟨p, HashMap.mem_entries.1 (List.mem_of_find?_eq_some hf), ?_, hf⟩
  simpa using List.find?_some hf

/-- An event, redelivered or not, leaves the pending submits as they are exactly when it has no
candidate, or when it is not terminal and its first candidate is accepted already, at the time of
the event, with no order id left to take from it. -/
theorem applyUserTrade_pending_eq_iff (inv : Inventory) (trade : UserTrade) :
    (inv.applyUserTrade trade).1.pending = inv.pending ↔
      (∀ id p, inv.pending.lookup id = some p → candidate inv.pending trade p = false) ∨
        (trade.status.terminal = false ∧
          ∃ e, (inv.pending.entries.find? fun e => candidate inv.pending trade e.2) = some e ∧
            e.2.status = .accepted ∧ e.2.updatedTsUs = trade.tsUs ∧
              (e.2.orderId ≠ none ∨ trade.takerOrderId = none)) := by
  cases hm : (matchPendingSubmit inv.pending trade).1 with
  | none =>
    have hnone := HashMap.findKey?_none.1 ((matchPendingSubmit_candidate _ _).symm.trans hm)
    exact iff_of_true (applyUserTrade_pending_none hm) (.inl hnone)
  | some id =>
    obtain ⟨p, hp, hc, hf⟩ := matchPendingSubmit_entry hm
    have hself := applyUserTrade_pending_self hm
    rw [applyUserTrade_pending_some hm]
    refine ⟨?_, ?_⟩
    · intro h
      rw [applyUserTrade_pending_some hm, h, hp] at hself
      -- the candidate is still there, so the event was not terminal and accepting changed nothing
      cases ht : trade.status.terminal with
      | true => simp [ht] at hself
      | false =>
        rw [ht] at hself
        have hacc : p.accept trade = p := by simpa using hself.symm
        exact .inr ⟨rfl, ⟨id, p⟩, hf, PendingSubmit.accept_eq_self_iff.1 hacc⟩
    · rintro (h | ⟨ht, e, he, hacc⟩)
      · rw [h id p hp] at hc
        cases hc
      · rw [hf] at he
        obtain rfl := Option.some.inj he
        rw [ht]
        refine HashMap.modify_eq_self fun q hq => ?_
        rw [hp] at hq
        obtain rfl := Option.some.inj hq
        exact PendingSubmit.accept_eq_self_iff.2 hacc

/-- A FAILED event delivered again, after the claim that followed it: the new claim is removed. -/
theorem redelivery_consumes_claim :
    ¬ ∀ (ops : List Op) (trade : UserTrade),
      (∃ e ∈ eventsOf trade.tradeId ops, e.status.terminal = true) →
        ((runOps ops).applyUserTrade trade).1.pending = (runOps ops).pending := by
  intro h
  have := congrArg (fun m => AList.lookup (submitId 2) m)
    (h [.setUserWssTrusted true, .claimEntry ⟨"up"⟩ .buy ⟨50000⟩ 0,
      .applyUserTrade (upTrade "t1" (some "o1") .buy 50000 .failed),
      .claimEntry ⟨"up"⟩ .buy ⟨50000⟩ 1]
    (upTrade "t1" (some "o1") .buy 50000 .failed) (by decide))
  revert this
  decide +kernel

/-! ## Submits of other orders -/

/-- A trade leaves the submits of other orders alone exactly when the submit it matches, if it has
an order id, has the trade's. -/
theorem keeps_other_orders_iff_match (hinv : PendingInv inv) (o : OrderId) :
    (∀ id p o', inv.pending.lookup id = some p → p.orderId = some o' → o' ≠ o →
      (inv.applyUserTrade trade).2.matchedSubmit ≠ some p.id ∧
        (inv.applyUserTrade trade).1.pending.lookup id = some p) ↔
      ∀ id p o', (matchPendingSubmit inv.pending trade).1 = some id →
        inv.pending.lookup id = some p → p.orderId = some o' → o' = o := by
  refine ⟨?_, ?_⟩
  · intro h id p o' hm hp ho'
    by_contra hne
    obtain ⟨hmatch, -⟩ := h id p o' hp ho' hne
    rw [applyUserTrade_matchedSubmit, hinv.own_id id p hp] at hmatch
    exact hmatch hm
  · intro h id p o' hp ho' hne
    have hm : (matchPendingSubmit inv.pending trade).1 ≠ some id := fun hm =>
      hne (h id p o' hm hp ho')
    refine ⟨?_, (applyUserTrade_pending_ne hm).trans hp⟩
    rw [applyUserTrade_matchedSubmit, hinv.own_id id p hp]
    exact hm

/-- Where some submit carries the trade's order id, the submit matched has that order id. -/
theorem orderId_of_carried {o : OrderId} (ho : trade.takerOrderId = some o)
    (hany : (inv.pending.anyValue fun p => p.carries o) = true) {id : SubmitId} {p : PendingSubmit}
    (hm : (matchPendingSubmit inv.pending trade).1 = some id)
    (hp : inv.pending.lookup id = some p) : p.orderId = some o := by
  obtain ⟨q, hq, hc, -⟩ := matchPendingSubmit_entry hm
  rw [hp] at hq
  obtain rfl := Option.some.inj hq
  have hcarries : p.carries o = true := by
    simpa [candidate, carried, hany, ho] using hc
  simp only [PendingSubmit.carries, Bool.and_eq_true, beq_iff_eq] at hcarries
  exact hcarries.1

/-- Where no submit carries an order id, none has it recorded. -/
theorem orderId_ne_of_not_carried {o : OrderId}
    (hany : (inv.pending.anyValue fun p => p.carries o) = false) {id : SubmitId} {p : PendingSubmit}
    (hp : inv.pending.lookup id = some p) : p.orderId ≠ some o := by
  intro hpo
  have hcarries : p.carries o = true := by
    rw [PendingSubmit.carries, hpo, beq_self_eq_true]
    cases p.status <;> rfl
  rw [HashMap.anyValue_iff.2 ⟨id, p, hp, hcarries⟩] at hany
  cases hany

/-- A trade with an order id leaves the submits of other orders alone exactly when some submit
carries its order id, or the first submit on its leg has no order id yet. -/
theorem match_keeps_other_orders_iff (ops : List Op) (trade : UserTrade) (o : OrderId)
    (ho : trade.takerOrderId = some o) :
    (∀ id p o', (runOps ops).pending.lookup id = some p → p.orderId = some o' → o' ≠ o →
      ((runOps ops).applyUserTrade trade).2.matchedSubmit ≠ some p.id ∧
        ((runOps ops).applyUserTrade trade).1.pending.lookup id = some p) ↔
      ((runOps ops).pending.anyValue fun p => p.carries o) = true ∨
        ∀ e, ((runOps ops).pending.entries.find? fun e => e.2.onLegOf trade) = some e →
          e.2.orderId = none := by
  have hinv := runOps_pendingInv ops
  generalize runOps ops = inv at hinv
  rw [keeps_other_orders_iff_match hinv]
  cases hany : inv.pending.anyValue fun p => p.carries o with
  | true =>
    refine iff_of_true (fun id p o' hm hp ho' => ?_) (.inl rfl)
    exact Option.some.inj (ho'.symm.trans (orderId_of_carried ho hany hm hp))
  | false =>
    have hcarried : carried inv.pending trade = false := by simp [carried, ho, hany]
    have hcand := candidate_of_not_carried hcarried
    refine ⟨?_, ?_⟩
    · intro h
      refine .inr fun e he => ?_
      have hm : (matchPendingSubmit inv.pending trade).1 = some e.1 := by
        rw [matchPendingSubmit_candidate, hcand, HashMap.findKey?, he]
        rfl
      have hp := HashMap.mem_entries.1 (List.mem_of_find?_eq_some he)
      cases hoe : e.2.orderId with
      | none => rfl
      | some o' =>
        have hsame := h e.1 e.2 o' hm hp hoe
        exact absurd (hsame ▸ hoe) (orderId_ne_of_not_carried hany hp)
    · rintro (h | h) id p o' hm hp ho'
      · cases h
      · obtain ⟨q, hq, -, hf⟩ := matchPendingSubmit_entry hm
        rw [hcand] at hf
        rw [hp] at hq
        obtain rfl := Option.some.inj hq
        rw [h _ hf] at ho'
        cases ho'

/-- A trade of the order that the only submit was accepted under. -/
theorem match_keeps_other_orders_iff_example :
    let ops : List Op := [.setUserWssTrusted true, .claimEntry ⟨"up"⟩ .buy ⟨50000⟩ 0,
      .recordBuySubmitOutcome (submitId 1) (.accepted "o1" 200) 1]
    let trade := upTrade "t1" (some "o1") .buy 50000 .matched
    ∀ id p o', (runOps ops).pending.lookup id = some p → p.orderId = some o' → o' ≠ ⟨"o1"⟩ →
      ((runOps ops).applyUserTrade trade).2.matchedSubmit ≠ some p.id ∧
        ((runOps ops).applyUserTrade trade).1.pending.lookup id = some p :=
  (match_keeps_other_orders_iff _ _ ⟨"o1"⟩ rfl).2 (.inl (by decide +kernel))

/-- Two fills of the order `o1`: the second is confirmed after a SELL cleared the position and a new
claim was accepted as `o2`, and it removes that claim. -/
theorem match_takes_other_order :
    ¬ ∀ (ops : List Op) (trade : UserTrade) (o : OrderId), trade.takerOrderId = some o →
      ∀ id p o', (runOps ops).pending.lookup id = some p → p.orderId = some o' → o' ≠ o →
        ((runOps ops).applyUserTrade trade).2.matchedSubmit ≠ some p.id ∧
          ((runOps ops).applyUserTrade trade).1.pending.lookup id = some p := by
  intro h
  have hlookup : (runOps [.setUserWssTrusted true, .claimEntry ⟨"up"⟩ .buy ⟨50000⟩ 0,
      .recordBuySubmitOutcome (submitId 1) (.accepted "o1" 200) 1,
      .applyUserTrade (upTrade "t1" (some "o1") .buy 20000 .confirmed),
      .applyUserTrade (upTrade "t3" none .sell 20000 .matched),
      .claimEntry ⟨"up"⟩ .buy ⟨50000⟩ 2,
      .recordBuySubmitOutcome (submitId 2) (.accepted "o2" 200) 3]).pending.lookup (submitId 2) =
      some ⟨submitId 2, ⟨"up"⟩, .buy, ⟨50000⟩, some ⟨"o2"⟩, .accepted, 2, 3⟩ := by
    decide +kernel
  have := (h _ (upTrade "t2" (some "o1") .buy 30000 .confirmed) ⟨"o1"⟩ rfl _ _ ⟨"o2"⟩ hlookup rfl
    (by decide)).1
  revert this
  decide +kernel

end

end Inventory

end Polyrust
