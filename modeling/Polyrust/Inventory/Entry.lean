import Polyrust.Inventory.Pending

/-!
# Entry exclusivity

Two laws of the claims. Guarded claims are exclusive: ids are issued once, and of two pending
submits of one token, one has expired before (`entry_exclusive`). A submit that a trade was matched
to blocks entry until it is released (`matched_blocks_entry`), provided that it does not expire in
between; a late unknown HTTP outcome makes it unknown again, and so lets it expire
(`matched_stops_blocking`).
-/

namespace Polyrust

open IntWidth

namespace Inventory

/-! ## Issued ids -/

/-- The ids that the claims of a run from `inv` return, in order. -/
def issuedIds : Inventory → List Op → List SubmitId
  | _, [] => []
  | inv, op :: ops =>
    match op with
    | .claimEntry token side size now =>
      (inv.claimEntry token side size now).2 :: issuedIds (step inv op) ops
    | _ => issuedIds (step inv op) ops

/-- The submit `id` has been in status `ExpiredUnknown` in some state of the run. -/
def EverExpired (id : SubmitId) (ops : List Op) : Prop :=
  Machine.Ever step (fun inv => ∃ p, inv.pending.lookup id = some p ∧ p.status = .expiredUnknown)
    new ops

section
variable {inv : Inventory} {op : Op} {ops : List Op}

/-- Without a claim, no id is issued. -/
theorem issuedIds_of_not_claim (h : op.isClaim = false) :
    issuedIds inv (op :: ops) = issuedIds (step inv op) ops := by
  cases op with
  | claimEntry token side size now => cases h
  | _ => rfl

/-- The ids are issued in the order of the counter, from the value it has. -/
theorem issuedIds_eq (inv : Inventory) (ops : List Op)
    (h : inv.nextSubmitId + ops.countP Op.isClaim ≤ MAX_SUBMIT_COUNTER) :
    issuedIds inv ops =
      (List.range' (inv.nextSubmitId + 1) (ops.countP Op.isClaim)).map submitId := by
  induction ops generalizing inv with
  | nil => rfl
  | cons op ops ih =>
    cases hc : op.isClaim with
    | false =>
      rw [List.countP_cons_of_neg (by simp [hc])] at h ⊢
      rw [issuedIds_of_not_claim hc, ih _ (by rwa [step_nextSubmitId hc]), step_nextSubmitId hc]
    | true =>
      obtain ⟨token, side, size, now, rfl⟩ := Op.isClaim_eq_true hc
      rw [List.countP_cons_of_pos hc] at h ⊢
      have hnext : inv.nextCounter = inv.nextSubmitId + 1 := min_eq_left (by omega)
      have hstep : (step inv (.claimEntry token side size now)).nextSubmitId =
          inv.nextSubmitId + 1 := hnext
      rw [issuedIds, claimEntry_id, hnext, ih _ (by rw [hstep]; omega), hstep, List.range'_succ,
        List.map_cons]

/-- What has expired has expired at some time of a longer run. -/
theorem EverExpired.concat {id : SubmitId} (h : EverExpired id ops) (op : Op) :
    EverExpired id (ops ++ [op]) :=
  Machine.ever_concat.2 (.inl h)

/-- Of two pending submits of one token, one has expired before. -/
theorem exclusive_of_guarded (hguard : Machine.Along step EntryGuard new ops)
    {id id' : SubmitId} {p p' : PendingSubmit} (hp : (runOps ops).pending.lookup id = some p)
    (hp' : (runOps ops).pending.lookup id' = some p') (ht : p.token = p'.token) (hne : id ≠ id') :
    EverExpired id ops ∨ EverExpired id' ops := by
  induction ops using List.reverseRecOn generalizing id id' p p' with
  | nil => cases hp
  | append_singleton ops op ih =>
    rw [Machine.along_append] at hguard
    obtain ⟨hguard, hop, -⟩ := hguard
    rw [runOps, Machine.run_concat] at hp hp'
    -- a submit that a guarded claim finds on its token has expired
    have hfound : ∀ {i q token side size now},
        op = .claimEntry token side size now → (runOps ops).pending.lookup i = some q →
          q.token = token → EverExpired i (ops ++ [op]) := by
      intro i q token side size now hop' hq hqt
      rw [hop'] at hop
      have hexp := expired_of_entry_allowed hop hq hqt
      exact EverExpired.concat (Machine.Ever.last ⟨q, hq, hexp⟩) op
    rcases step_pending_from hp with ⟨token, side, size, now, hc, hid, rfl⟩ | ⟨q, hq, hs⟩
    · rcases step_pending_from hp' with ⟨_, _, _, _, _, hid', -⟩ | ⟨q', hq', hs'⟩
      · exact absurd (hid.trans hid'.symm) hne
      · exact .inr (hfound hc hq' (hs'.token.symm.trans ht.symm))
    · rcases step_pending_from hp' with ⟨token, side, size, now, hc, -, rfl⟩ | ⟨q', hq', hs'⟩
      · exact .inl (hfound hc hq (hs.token.symm.trans ht))
      · have htok : q.token = q'.token := hs.token.symm.trans (ht.trans hs'.token)
        rcases ih hguard hq hq' htok hne with h | h
        · exact .inl (h.concat op)
        · exact .inr (h.concat op)

/-- Guarded claims are exclusive: no id is issued twice, every submit is stored under its own id,
and of the submits of a token, at most one has never been expired. -/
theorem entry_exclusive (ops : List Op) (hguard : Machine.Along step EntryGuard new ops)
    (hclaims : ops.countP Op.isClaim < MAX_SUBMIT_COUNTER) :
    (issuedIds new ops).Nodup ∧
      (∀ id p, (runOps ops).pending.lookup id = some p → p.id = id) ∧
      ∀ id id' p p', (runOps ops).pending.lookup id = some p →
        (runOps ops).pending.lookup id' = some p' → p.token = p'.token →
          ¬EverExpired id ops → ¬EverExpired id' ops → id = id' := by
  refine ⟨?_, (runOps_pendingInv ops).own_id, ?_⟩
  · have hle : new.nextSubmitId + ops.countP Op.isClaim ≤ MAX_SUBMIT_COUNTER := by
      simp only [new]
      omega
    rw [issuedIds_eq new ops hle]
    exact List.Nodup.map (fun _ _ h => submitId_inj.1 h) List.nodup_range'
  · intro id id' p p' hp hp' ht hid hid'
    by_contra hne
    rcases exclusive_of_guarded hguard hp hp' ht hne with h | h
    · exact hid h
    · exact hid' h

/-- A claim that expires as unknown, and the claim that follows it. -/
theorem entry_exclusive_example :
    let ops : List Op := [.setUserWssTrusted true, .claimEntry ⟨"up"⟩ .buy ⟨50000⟩ 0,
      .recordBuySubmitOutcome (submitId 1) (.unknown 0 none) 1, .expireStaleEntryClaims 6000000,
      .claimEntry ⟨"up"⟩ .buy ⟨50000⟩ 6000001]
    (issuedIds new ops).Nodup ∧
      (∀ id p, (runOps ops).pending.lookup id = some p → p.id = id) ∧
      ∀ id id' p p', (runOps ops).pending.lookup id = some p →
        (runOps ops).pending.lookup id' = some p' → p.token = p'.token →
          ¬EverExpired id ops → ¬EverExpired id' ops → id = id' :=
  entry_exclusive _ (by decide +kernel) (by decide)

end

/-! ## The block of a matched submit -/

/-- The operation ends the block that the matched submit `id` keeps on `token`: a terminal event is
matched to it, its claim is released, or its market is dropped. -/
def Releases (id : SubmitId) (token : TokenId) (inv : Inventory) : Op → Prop
  | .applyUserTrade trade =>
    trade.status.terminal = true ∧ (inv.applyUserTrade trade).2.matchedSubmit = some id
  | .releaseClaim i => i = id
  | .recordBuySubmitOutcome i outcome _ =>
    match outcome with
    | .rejected _ _ => i = id
    | .accepted _ _ | .unknown _ _ => False
  | .releaseMarketScope active => token ∉ active
  | _ => False

/-- The submit `id` is unknown and not younger than the cutoff. -/
def StaleUnknown (id : SubmitId) (cutoff : Int) (inv : Inventory) : Prop :=
  ∃ p, inv.pending.lookup id = some p ∧ p.status = .unknown ∧ p.updatedTsUs ≤ cutoff

/-- The operation is no expiry that finds `id` stale, and no claim at the end of the counter. -/
def KeepsMatched (id : SubmitId) (inv : Inventory) : Op → Prop
  | .expireUnknowns cutoff => ¬StaleUnknown id cutoff inv
  | .expireStaleEntryClaims now =>
    ¬StaleUnknown id (i64.saturatingSub now UNKNOWN_SUBMIT_EXPIRE_US) inv
  | .claimEntry _ _ _ _ => inv.nextSubmitId < MAX_SUBMIT_COUNTER
  | _ => True

instance (id : SubmitId) (token : TokenId) (inv : Inventory) (op : Op) :
    Decidable (Releases id token inv op) :=
  match op with
  | .applyUserTrade _ => inferInstanceAs (Decidable (_ ∧ _))
  | .releaseClaim _ => inferInstanceAs (Decidable (_ = _))
  | .recordBuySubmitOutcome _ (.rejected _ _) _ => inferInstanceAs (Decidable (_ = _))
  | .releaseMarketScope _ => inferInstanceAs (Decidable (_ ∉ _))
  | .recordBuySubmitOutcome _ (.accepted _ _) _ | .recordBuySubmitOutcome _ (.unknown _ _) _
  | .setUserWssTrusted _ | .claimEntry .. | .markSubmitAccepted .. | .markSubmitUnknown ..
  | .expireUnknowns _ | .expirePending _ | .expireStaleEntryClaims _ | .rehash _ =>
    inferInstanceAs (Decidable False)

instance (id : SubmitId) (cutoff : Int) (inv : Inventory) :
    Decidable (StaleUnknown id cutoff inv) :=
  decidable_of_iff
    (((inv.pending.lookup id).any fun p =>
      p.status == .unknown && decide (p.updatedTsUs ≤ cutoff)) = true)
    (by simp [StaleUnknown, Option.any_eq_true])

instance (id : SubmitId) (inv : Inventory) (op : Op) : Decidable (KeepsMatched id inv op) :=
  match op with
  | .expireUnknowns _ => inferInstanceAs (Decidable (¬_))
  | .expireStaleEntryClaims _ => inferInstanceAs (Decidable (¬_))
  | .claimEntry _ _ _ _ => inferInstanceAs (Decidable (_ < _))
  | .setUserWssTrusted _ | .applyUserTrade _ | .markSubmitAccepted .. | .markSubmitUnknown ..
  | .releaseClaim _ | .expirePending _ | .releaseMarketScope _ | .recordBuySubmitOutcome ..
  | .rehash _ => inferInstanceAs (Decidable True)

/-- The submit `id` of the token is accepted, or unknown again. -/
def Matched (id : SubmitId) (token : TokenId) (inv : Inventory) : Prop :=
  ∃ p, inv.pending.lookup id = some p ∧ p.token = token ∧
    (p.status = .accepted ∨ p.status = .unknown)

section
variable {inv : Inventory} {id : SubmitId} {token : TokenId}

/-- A matched submit blocks entry on its token. -/
theorem Matched.blocks (h : Matched id token inv) : inv.hasEntryExposureOrPending token = true := by
  obtain ⟨p, hp, ht, hs⟩ := h
  unfold hasEntryExposureOrPending
  split
  · rfl
  · refine Bool.or_eq_true_iff.2 (.inr (HashMap.anyValue_iff.2 ⟨id, p, hp, ?_⟩))
    rw [ht, beq_self_eq_true]
    rcases hs with hs | hs <;> rw [hs] <;> rfl

/-- An update of some submit that leaves it accepted or unknown keeps the matched one. -/
theorem Matched.modify (h : Matched id token inv) (i : SubmitId)
    {f : PendingSubmit → PendingSubmit} (hf : ∀ p : PendingSubmit, p.SameClaim (f p))
    (hs : ∀ p, (f p).status = .accepted ∨ (f p).status = .unknown) :
    Matched id token { inv with pending := inv.pending.modify i f } := by
  obtain ⟨p, hp, ht, hst⟩ := h
  by_cases hi : id = i
  · subst hi
    refine ⟨f p, ?_, (hf p).token.trans ht, hs p⟩
    show (inv.pending.modify id f).lookup id = _
    rw [HashMap.lookup_modify_self, hp]
    rfl
  · refine ⟨p, ?_, ht, hst⟩
    show (inv.pending.modify i f).lookup id = _
    rw [HashMap.lookup_modify_ne hi, hp]

/-- Releasing another claim keeps the matched submit. -/
theorem Matched.releaseClaim (h : Matched id token inv) {i : SubmitId} (hi : i ≠ id) :
    Matched id token (inv.releaseClaim i) := by
  obtain ⟨p, hp, ht, hst⟩ := h
  exact ⟨p, (AList.lookup_erase_ne hi.symm).trans hp, ht, hst⟩

/-- An expiry that does not find the matched submit stale keeps it. -/
theorem Matched.expireUnknowns (h : Matched id token inv) {cutoff : Int}
    (hstale : ¬StaleUnknown id cutoff inv) : Matched id token (inv.expireUnknowns cutoff) := by
  obtain ⟨p, hp, ht, hst⟩ := h
  refine ⟨p, ?_, ht, hst⟩
  have hif : ¬(p.status = .unknown ∧ p.updatedTsUs ≤ cutoff) := fun hc =>
    hstale ⟨p, hp, hc.1, hc.2⟩
  simp only [Inventory.expireUnknowns, HashMap.lookup_mapValues, hp, Option.map_some, if_neg hif]

/-- Only submits without outcome are dropped by age. -/
theorem Matched.expirePending (h : Matched id token inv) (cutoff : Int) :
    Matched id token (inv.expirePending cutoff) := by
  obtain ⟨p, hp, ht, hst⟩ := h
  refine ⟨p, ?_, ht, hst⟩
  simp only [Inventory.expirePending, HashMap.lookup_retain, hp, Option.filter_eq_some_iff,
    true_and]
  rcases hst with hs | hs <;> rw [hs] <;> rfl

/-- A trade event keeps the matched submit, unless it is terminal and matched to it. -/
theorem Matched.applyUserTrade (h : Matched id token inv) {trade : UserTrade}
    (hr : ¬(trade.status.terminal = true ∧
      (inv.applyUserTrade trade).2.matchedSubmit = some id)) :
    Matched id token (inv.applyUserTrade trade).1 := by
  obtain ⟨p, hp, ht, hst⟩ := h
  by_cases hm : (matchPendingSubmit inv.pending trade).1 = some id
  · have hopen : trade.status.terminal = false :=
      Bool.of_not_eq_true fun hterm => hr ⟨hterm, hm⟩
    refine ⟨p.accept trade, ?_, ht, .inl rfl⟩
    rw [applyUserTrade_pending_self hm, hopen, hp]
    rfl
  · exact ⟨p, (applyUserTrade_pending_ne hm).trans hp, ht, hst⟩

/-- One operation keeps a matched submit. -/
theorem Matched.step {op : Op} (h : Matched id token inv) (hinv : PendingInv inv)
    (hr : ¬Releases id token inv op) (hk : KeepsMatched id inv op) :
    Matched id token (step inv op) := by
  cases op with
  | setUserWssTrusted trusted => exact h
  | claimEntry t side size now =>
    obtain ⟨p, hp, ht, hst⟩ := h
    exact ⟨p, (AList.lookup_insert_ne (hinv.fresh hk hp)).trans hp, ht, hst⟩
  | markSubmitAccepted i orderId now =>
    exact h.modify i (fun _ => ⟨rfl, rfl, rfl, rfl, rfl⟩) fun _ => .inl rfl
  | markSubmitUnknown i now =>
    exact h.modify i (fun _ => ⟨rfl, rfl, rfl, rfl, rfl⟩) fun _ => .inr rfl
  | releaseClaim i => exact h.releaseClaim hr
  | expireUnknowns cutoff => exact h.expireUnknowns hk
  | expirePending cutoff => exact h.expirePending cutoff
  | applyUserTrade trade => exact h.applyUserTrade hr
  | releaseMarketScope active =>
    obtain ⟨p, hp, ht, hst⟩ := h
    have hmem : token ∈ active := not_not.1 hr
    refine ⟨p, ?_, ht, hst⟩
    simp only [Inventory.step, Inventory.releaseMarketScope, HashMap.lookup_retain, hp,
      Option.filter_eq_some_iff, true_and, ht, hmem, decide_true]
  | recordBuySubmitOutcome i outcome now =>
    cases outcome with
    | accepted orderId httpStatus =>
      exact h.modify i (fun _ => ⟨rfl, rfl, rfl, rfl, rfl⟩) fun _ => .inl rfl
    | rejected httpStatus error => exact h.releaseClaim hr
    | unknown httpStatus error =>
      exact h.modify i (fun _ => ⟨rfl, rfl, rfl, rfl, rfl⟩) fun _ => .inr rfl
  | expireStaleEntryClaims now => exact (h.expireUnknowns hk).expirePending _
  | rehash pending =>
    simp only [Inventory.step]
    split
    · next hro =>
      obtain ⟨p, hp, ht, hst⟩ := h
      exact ⟨p, (hro.lookup id).symm.trans hp, ht, hst⟩
    · exact h

/-- Once a non-terminal event is matched to a submit, entry on the token of that submit is blocked
in every later state that no release and no expiry of the submit has come before. -/
theorem matched_blocks_entry (ops ops' : List Op) (trade : UserTrade) (id : SubmitId)
    (p : PendingSubmit) (hopen : trade.status.terminal = false)
    (hmatch : ((runOps ops).applyUserTrade trade).2.matchedSubmit = some id)
    (hp : (runOps ops).pending.lookup id = some p)
    (hkept : Machine.Along step (fun inv op => ¬Releases id p.token inv op)
      (runOps (ops ++ [.applyUserTrade trade])) ops')
    (hyoung : Machine.Along step (KeepsMatched id) (runOps (ops ++ [.applyUserTrade trade])) ops') :
    (runOps (ops ++ [.applyUserTrade trade] ++ ops')).hasEntryExposureOrPending p.token = true := by
  have hstart : Matched id p.token (runOps (ops ++ [.applyUserTrade trade])) := by
    refine ⟨p.accept trade, ?_, rfl, .inl rfl⟩
    rw [runOps, Machine.run_concat]
    simp only [step]
    rw [applyUserTrade_pending_self hmatch, hopen, hp]
    rfl
  have hend : Matched id p.token (runOps (ops ++ [.applyUserTrade trade] ++ ops')) := by
    rw [runOps, Machine.run_append]
    refine Machine.run_history (P := fun _ inv => Matched id p.token inv) hstart ?_
      (hkept.and hyoung)
    rintro l op ih ⟨hr, hk⟩
    have hinv : PendingInv (Machine.run step (runOps (ops ++ [.applyUserTrade trade])) l) := by
      rw [← Machine.run_append]
      exact runOps_pendingInv _
    exact ih.step hinv hr hk
  exact hend.blocks

/-- A MATCHED event, a late accepted outcome, a SELL that clears the position, an expiry. -/
theorem matched_blocks_entry_example :
    (runOps ([.setUserWssTrusted true, .claimEntry ⟨"up"⟩ .buy ⟨50000⟩ 0] ++
      [.applyUserTrade (upTrade "t1" (some "o1") .buy 50000 .matched)] ++
      [.recordBuySubmitOutcome (submitId 1) (.accepted "o1" 200) 1,
        .applyUserTrade (upTrade "t2" none .sell 50000 .matched),
        .expireStaleEntryClaims 6000000])).hasEntryExposureOrPending ⟨"up"⟩ = true := by
  refine matched_blocks_entry _ _ _ (submitId 1)
    ⟨submitId 1, ⟨"up"⟩, .buy, ⟨50000⟩, none, .pending, 0, 0⟩ rfl ?_ ?_ ?_ ?_ <;> decide +kernel

/-- The HTTP outcome of a matched submit comes late, and unknown. Five seconds later the submit has
expired, and a SELL that clears the position reopens entry before any terminal event. -/
theorem matched_stops_blocking :
    ¬ ∀ (ops ops' : List Op) (trade : UserTrade) (id : SubmitId) (p : PendingSubmit),
      Machine.Along step EntryGuard new (ops ++ [.applyUserTrade trade] ++ ops') →
      trade.status.terminal = false →
      ((runOps ops).applyUserTrade trade).2.matchedSubmit = some id →
      (runOps ops).pending.lookup id = some p →
      Machine.Along step (fun inv op => ¬Releases id p.token inv op)
        (runOps (ops ++ [.applyUserTrade trade])) ops' →
      (runOps (ops ++ [.applyUserTrade trade] ++ ops')).hasEntryExposureOrPending p.token =
        true := by
  intro h
  have := h [.setUserWssTrusted true, .claimEntry ⟨"up"⟩ .buy ⟨50000⟩ 0]
    [.recordBuySubmitOutcome (submitId 1) (.unknown 0 none) 1, .expireStaleEntryClaims 6000000,
      .applyUserTrade (upTrade "t2" none .sell 50000 .matched)]
    (upTrade "t1" (some "o1") .buy 50000 .matched) (submitId 1)
    ⟨submitId 1, ⟨"up"⟩, .buy, ⟨50000⟩, none, .pending, 0, 0⟩
    (by decide +kernel) rfl (by decide +kernel) (by decide +kernel) (by decide +kernel)
  revert this
  decide +kernel
end

end Inventory

end Polyrust
