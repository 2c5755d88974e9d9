import Mathlib.Data.List.Nodup
import Polyrust.Inventory.Machine

/-!
# The pending submits along a run

What an operation can do to the pending map, said once: only `claimEntry` adds a submit, under the
next id, and every other submit after an operation is one that was there before, possibly with
another status, order id or update time (`step_pending_from`). From it follow the two invariants
every property of the map rests on (`PendingInv`): a submit is stored under its own id, and that id
was issued at a value the counter has reached.
-/

namespace Polyrust

/-- The submit `p'` is `p` at a later time: what a claim fixes is the same. -/
structure PendingSubmit.SameClaim (p p' : PendingSubmit) : Prop where
  id : p'.id = p.id
  token : p'.token = p.token
  side : p'.side = p.side
  sizeAtoms : p'.sizeAtoms = p.sizeAtoms
  createdTsUs : p'.createdTsUs = p.createdTsUs

/-- Every submit of `m'` is a submit of `m` at a later time. -/
def Descends (m m' : HashMap SubmitId PendingSubmit) : Prop :=
  ∀ id p', m'.lookup id = some p' → ∃ p, m.lookup id = some p ∧ p.SameClaim p'

section
variable {m m' m'' : HashMap SubmitId PendingSubmit}

/-- A submit is of its own claim. -/
theorem PendingSubmit.SameClaim.refl (p : PendingSubmit) : p.SameClaim p :=
  ⟨rfl, rfl, rfl, rfl, rfl⟩

/-- Submits of the same claim as one submit are of the same claim. -/
theorem PendingSubmit.SameClaim.trans {p p' p'' : PendingSubmit} (h : p.SameClaim p')
    (h' : p'.SameClaim p'') : p.SameClaim p'' :=
  ⟨h'.id.trans h.id, h'.token.trans h.token, h'.side.trans h.side,
    h'.sizeAtoms.trans h.sizeAtoms, h'.createdTsUs.trans h.createdTsUs⟩

/-- A trade that accepts a submit keeps its claim. -/
theorem PendingSubmit.SameClaim.accept (p : PendingSubmit) (trade : UserTrade) :
    p.SameClaim (p.accept trade) :=
  ⟨rfl, rfl, rfl, rfl, rfl⟩

namespace Descends

/-- A pending map descends from itself. -/
theorem refl (m : HashMap SubmitId PendingSubmit) : Descends m m :=
  fun _ p' h => ⟨p', h, .refl p'⟩

/-- Descent over two changes. -/
theorem trans (h : Descends m m') (h' : Descends m' m'') : Descends m m'' := by
  intro id p'' hp''
  obtain ⟨p', hp', hs'⟩ := h' id p'' hp''
  obtain ⟨p, hp, hs⟩ := h id p' hp'
  exact ⟨p, hp, hs.trans hs'⟩

/-- All submits are changed, each within its claim. -/
theorem mapValues {f : SubmitId → PendingSubmit → PendingSubmit}
    (hf : ∀ id (p : PendingSubmit), p.SameClaim (f id p)) : Descends m (m.mapValues f) := by
  intro id p' hp'
  rw [HashMap.lookup_mapValues] at hp'
  obtain ⟨p, hp, rfl⟩ := Option.map_eq_some_iff.1 hp'
  exact ⟨p, hp, hf id p⟩

/-- One submit is changed within its claim. -/
theorem modify {i : SubmitId} {f : PendingSubmit → PendingSubmit}
    (hf : ∀ p : PendingSubmit, p.SameClaim (f p)) : Descends m (m.modify i f) := by
  refine mapValues fun id p => ?_
  split
  · exact hf p
  · exact .refl p

/-- Some submits are dropped. -/
theorem retain (f : SubmitId → PendingSubmit → Bool) : Descends m (m.retain f) := by
  intro id p' hp'
  rw [HashMap.lookup_retain, Option.filter_eq_some_iff] at hp'
  exact ⟨p', hp'.1, .refl p'⟩

/-- One submit is dropped. -/
theorem erase (i : SubmitId) : Descends m (m.erase i) := by
  intro id p' hp'
  by_cases h : id = i
  · subst h
    rw [AList.lookup_erase] at hp'
    cases hp'
  · rw [AList.lookup_erase_ne h] at hp'
    exact ⟨p', hp', .refl p'⟩

/-- The map iterates in another order. -/
theorem reordered (h : m.Reordered m') : Descends m m' :=
  fun id p' hp' => ⟨p', (h.lookup id).trans hp', .refl p'⟩

end Descends

end

namespace Inventory

section
variable {inv : Inventory}

/-- A claim of an entry. -/
def Op.isClaim : Op → Bool
  | .claimEntry .. => true
  | _ => false

/-- A trade claims nothing. -/
theorem applyUserTrade_descends (trade : UserTrade) :
    Descends inv.pending (inv.applyUserTrade trade).1.pending := by
  cases hm : (matchPendingSubmit inv.pending trade).1 with
  | none =>
    rw [applyUserTrade_pending_none hm]
    exact .refl _
  | some id =>
    rw [applyUserTrade_pending_some hm]
    have hacc : Descends inv.pending (inv.pending.modify id fun p => p.accept trade) :=
      Descends.modify fun p => .accept p trade
    split
    · exact hacc.trans (.erase id)
    · exact hacc

/-- An expiry claims nothing. -/
theorem expireUnknowns_descends (cutoff : Int) :
    Descends inv.pending (inv.expireUnknowns cutoff).pending := by
  refine Descends.mapValues fun _ p => ?_
  split
  · exact ⟨rfl, rfl, rfl, rfl, rfl⟩
  · exact .refl p

/-- Without a claim, no submit appears. -/
theorem step_descends {op : Op} (h : op.isClaim = false) :
    Descends inv.pending (step inv op).pending := by
  cases op with
  | claimEntry token side size now => cases h
  | setUserWssTrusted trusted => exact .refl _
  | markSubmitAccepted id orderId now => exact Descends.modify fun _ => ⟨rfl, rfl, rfl, rfl, rfl⟩
  | markSubmitUnknown id now => exact Descends.modify fun _ => ⟨rfl, rfl, rfl, rfl, rfl⟩
  | releaseClaim id => exact .erase id
  | expireUnknowns cutoff => exact expireUnknowns_descends cutoff
  | expirePending cutoff => exact .retain _
  | applyUserTrade trade => exact applyUserTrade_descends trade
  | releaseMarketScope active => exact .retain _
  | recordBuySubmitOutcome id outcome now =>
    cases outcome with
    | accepted orderId httpStatus => exact Descends.modify fun _ => ⟨rfl, rfl, rfl, rfl, rfl⟩
    | rejected httpStatus error => exact .erase id
    | unknown httpStatus error => exact Descends.modify fun _ => ⟨rfl, rfl, rfl, rfl, rfl⟩
  | expireStaleEntryClaims now => exact (expireUnknowns_descends _).trans (.retain _)
  | rehash pending =>
    simp only [step]
    split
    · next h => exact .reordered h
    · exact .refl _

/-- Without a claim, the counter stands still. -/
theorem step_nextSubmitId {op : Op} (h : op.isClaim = false) :
    (step inv op).nextSubmitId = inv.nextSubmitId := by
  cases op with
  | claimEntry token side size now => cases h
  | recordBuySubmitOutcome id outcome now => cases outcome <;> rfl
  | rehash pending =>
    simp only [step]
    split_ifs <;> rfl
  | _ => rfl

/-- The only claim is that of an entry. -/
theorem Op.isClaim_eq_true {op : Op} (h : op.isClaim = true) :
    ∃ token side size now, op = .claimEntry token side size now := by
  cases op <;> cases h
  exact ⟨_, _, _, _, rfl⟩

/-- The counter after a claim. -/
def nextCounter (inv : Inventory) : Nat := min (inv.nextSubmitId + 1) MAX_SUBMIT_COUNTER

/-- The submit a claim adds. -/
def claimed (inv : Inventory) (token : TokenId) (side : OrderSide) (sizeAtoms : SharesAtoms)
    (nowTsUs : Int) : PendingSubmit :=
  { id := submitId inv.nextCounter, token := token, side := side, sizeAtoms := sizeAtoms,
    orderId := none, status := .pending, createdTsUs := nowTsUs, updatedTsUs := nowTsUs }

/-- A claim inserts one submit. -/
theorem claimEntry_pending (inv : Inventory) (token : TokenId) (side : OrderSide)
    (size : SharesAtoms) (now : Int) :
    (inv.claimEntry token side size now).1.pending =
      inv.pending.insert (submitId inv.nextCounter) (inv.claimed token side size now) :=
  rfl

/-- The id of a claim is the next one. -/
theorem claimEntry_id (inv : Inventory) (token : TokenId) (side : OrderSide)
    (size : SharesAtoms) (now : Int) :
    (inv.claimEntry token side size now).2 = submitId inv.nextCounter :=
  rfl

/-- A submit after an operation is the one a claim adds, or one that was there before. -/
theorem step_pending_from {op : Op} {id : SubmitId} {p' : PendingSubmit}
    (h : (step inv op).pending.lookup id = some p') :
    (∃ token side size now, op = .claimEntry token side size now ∧
        id = submitId inv.nextCounter ∧ p' = inv.claimed token side size now) ∨
      ∃ p, inv.pending.lookup id = some p ∧ p.SameClaim p' := by
  cases hc : op.isClaim with
  | false => exact .inr (step_descends hc id p' h)
  | true =>
    obtain ⟨token, side, size, now, rfl⟩ := Op.isClaim_eq_true hc
    simp only [step, claimEntry_pending] at h
    by_cases hid : id = submitId inv.nextCounter
    · subst hid
      rw [AList.lookup_insert] at h
      exact .inl ⟨token, side, size, now, rfl, rfl, (Option.some.inj h).symm⟩
    · rw [AList.lookup_insert_ne hid] at h
      exact .inr ⟨p', h, .refl p'⟩

/-! ## Issued ids -/

/-- Different values of the counter give different ids. -/
theorem submitId_inj {n n' : Nat} : submitId n = submitId n' ↔ n = n' := by
  refine ⟨fun h => ?_, congrArg submitId⟩
  have hs : n.repr = n'.repr := (String.append_right_inj "s").1 (congrArg SubmitId.str h)
  have hd := congrArg String.toList hs
  rw [Nat.toList_repr, Nat.toList_repr] at hd
  rw [← Nat.ofDigitChars_ten_toDigits (n := n), hd, Nat.ofDigitChars_ten_toDigits]

/-- A submit is stored under its own id, issued at a value the counter has reached. -/
structure PendingInv (inv : Inventory) : Prop where
  own_id : ∀ id p, inv.pending.lookup id = some p → p.id = id
  issued : ∀ id p, inv.pending.lookup id = some p → ∃ n, id = submitId n ∧ n ≤ inv.nextSubmitId

/-- The counter does not pass its largest value. -/
theorem nextSubmitId_le (ops : List Op) : (runOps ops).nextSubmitId ≤ MAX_SUBMIT_COUNTER := by
  refine Machine.run_invariant (I := fun inv => inv.nextSubmitId ≤ MAX_SUBMIT_COUNTER) ?_
    (Nat.zero_le _) (Machine.along_true new ops)
  intro inv op ih _
  cases hc : op.isClaim with
  | false => exact (step_nextSubmitId hc).trans_le ih
  | true =>
    obtain ⟨token, side, size, now, rfl⟩ := Op.isClaim_eq_true hc
    exact min_le_right _ _

/-- The counter does not fall. -/
theorem le_nextCounter (h : inv.nextSubmitId ≤ MAX_SUBMIT_COUNTER) :
    inv.nextSubmitId ≤ inv.nextCounter :=
  le_min (Nat.le_succ _) h

/-- Every operation keeps the ids of the submits distinct and below the counter. -/
theorem PendingInv.step {op : Op} (h : PendingInv inv)
    (hmax : inv.nextSubmitId ≤ MAX_SUBMIT_COUNTER) : PendingInv (step inv op) := by
  refine ⟨?_, ?_⟩
  · intro id p' hp'
    rcases step_pending_from hp' with ⟨token, side, size, now, -, rfl, rfl⟩ | ⟨p, hp, hs⟩
    · rfl
    · exact hs.id.trans (h.own_id id p hp)
  · intro id p' hp'
    have hle : inv.nextSubmitId ≤ (Inventory.step inv op).nextSubmitId := by
      cases hc : op.isClaim with
      | false => exact (step_nextSubmitId hc).ge
      | true =>
        obtain ⟨token, side, size, now, rfl⟩ := Op.isClaim_eq_true hc
        exact le_nextCounter hmax
    rcases step_pending_from hp' with ⟨token, side, size, now, rfl, rfl, rfl⟩ | ⟨p, hp, -⟩
    · exact ⟨_, rfl, le_refl _⟩
    · obtain ⟨n, rfl, hn⟩ := h.issued id p hp
      exact ⟨n, rfl, hn.trans hle⟩

/-- The pending map of every run is in order. -/
theorem runOps_pendingInv (ops : List Op) : PendingInv (runOps ops) := by
  refine Machine.run_history (P := fun _ inv => PendingInv inv) ?_ ?_ (Machine.along_true new ops)
  · exact { own_id := fun id p h => (by cases h), issued := fun id p h => (by cases h) }
  · intro ops op ih _
    exact ih.step (nextSubmitId_le ops)

/-- The id of the next claim is that of no pending submit, as long as the counter can move. -/
theorem PendingInv.fresh {id : SubmitId} {p : PendingSubmit} (h : PendingInv inv)
    (hmax : inv.nextSubmitId < MAX_SUBMIT_COUNTER) (hp : inv.pending.lookup id = some p) :
    id ≠ submitId inv.nextCounter := by
  intro he
  obtain ⟨n, rfl, hn⟩ := h.issued id p hp
  have := submitId_inj.1 he
  simp only [nextCounter] at this
  omega

end

/-! ## The entry protocol -/

/-- A claim is made only where the token has no exposure and no blocking submit. -/
def EntryGuard (inv : Inventory) : Op → Prop
  | .claimEntry token _ _ _ => inv.hasEntryExposureOrPending token = false
  | _ => True

instance (inv : Inventory) (op : Op) : Decidable (EntryGuard inv op) :=
  match op with
  | .claimEntry _ _ _ _ => inferInstanceAs (Decidable (_ = _))
  | .setUserWssTrusted _ | .applyUserTrade _ | .markSubmitAccepted .. | .markSubmitUnknown ..
  | .releaseClaim _ | .expireUnknowns _ | .expirePending _ | .releaseMarketScope _
  | .recordBuySubmitOutcome .. | .expireStaleEntryClaims _ | .rehash _ =>
    inferInstanceAs (Decidable True)

/-- Where entry is allowed, the submits of the token are expired ones. -/
theorem expired_of_entry_allowed {inv : Inventory} {token : TokenId} {id : SubmitId}
    {p : PendingSubmit} (h : inv.hasEntryExposureOrPending token = false)
    (hp : inv.pending.lookup id = some p) (ht : p.token = token) : p.status = .expiredUnknown := by
  unfold hasEntryExposureOrPending at h
  split at h
  · cases h
  · obtain ⟨-, hany⟩ := Bool.or_eq_false_iff.1 h
    by_contra hs
    have hblock : (p.token == token && p.status.blocksEntry) = true := by
      rw [ht]
      cases hst : p.status <;> simp_all [SubmitStatus.blocksEntry]
    rw [HashMap.anyValue_iff.2 ⟨id, p, hp, hblock⟩] at hany
    cases hany

end Inventory

end Polyrust
