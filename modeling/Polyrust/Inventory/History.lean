import Mathlib.Data.Finset.Dedup
import Polyrust.Inventory.Machine

/-!
# The history of a trade id

The record of a trade id is a function of the events of that id (`runOps_trades`), and so is what
the id contributes to the balance of a token (`netSize`): the size of its first event, when some
event was MATCHED or CONFIRMED and no FAILED event took it back (`counted`). One more event moves
the contribution by the delta of the record it is applied to (`netSize_concat`).
-/

namespace Polyrust

/-! ## Histories -/

/-- The statuses that make a trade inventory. -/
def TradeStatus.applying : TradeStatus → Bool
  | .matched | .confirmed => true
  | _ => false

/-- A trade is applied when it is matched or confirmed. -/
theorem TradeStatus.applying_iff {s : TradeStatus} :
    s.applying = true ↔ s = .matched ∨ s = .confirmed := by
  cases s <;> simp [TradeStatus.applying]

/-- A trade is applied when it is matched or confirmed, as a test. -/
theorem TradeStatus.applying_eq (s : TradeStatus) :
    s.applying = (s == .matched || s == .confirmed) := by
  cases s <;> rfl

/-- Of the statuses that are not terminal, only MATCHED makes a trade inventory. -/
theorem TradeStatus.applying_of_open {s : TradeStatus} (h : s.terminal = false) :
    s.applying = (s == .matched) := by
  cases s <;> first | rfl | cases h

namespace Inventory

/-- The trade event of an operation, if it is one. -/
def Op.trade? : Op → Option UserTrade
  | .applyUserTrade trade => some trade
  | _ => none

/-- The trade events of a run, in order. -/
def tradeEvents (ops : List Op) : List UserTrade := ops.filterMap Op.trade?

/-- The events of one trade id, in order. -/
def eventsOf (id : TradeId) (ops : List Op) : List UserTrade :=
  (tradeEvents ops).filter fun e => e.tradeId = id

/-- The trade ids of a run. -/
def tradeIds (ops : List Op) : Finset TradeId := ((tradeEvents ops).map UserTrade.tradeId).toFinset

end Inventory

/-- The first terminal event of the history is FAILED, and a MATCHED event precedes it. -/
def reversed (es : List UserTrade) : Bool :=
  ((es.find? fun e => e.status.terminal).any fun e => e.status == .failed) &&
    (es.takeWhile fun e => !e.status.terminal).any fun e => e.status == .matched

/-- The history counts as inventory: it has a MATCHED or CONFIRMED event and is not reversed. -/
def counted (es : List UserTrade) : Bool :=
  (es.any fun e => e.status.applying) && !reversed es

/-- What a counted history adds to the traded volume of a token and a side. Token, side and size
are those of the first event. -/
def countedSize (t : TokenId) (side : OrderSide) (es : List UserTrade) : Int :=
  match es with
  | [] => 0
  | e :: _ => if e.token = t ∧ e.side = side ∧ counted es then e.sizeAtoms.atoms else 0

/-- The record a trade id's first event makes. -/
def firstRecord (e : UserTrade) : TradeRecord :=
  { token := e.token, side := e.side, sizeAtoms := e.sizeAtoms, applied := false,
    finalized := false }

/-- The record a history leaves. -/
def historyRecord (es : List UserTrade) : Option TradeRecord :=
  es.head?.map fun e =>
    { token := e.token, side := e.side, sizeAtoms := e.sizeAtoms
      applied := es.any fun e => e.status.applying
      finalized := es.any fun e => e.status.terminal }

section
variable {es : List UserTrade} {e : UserTrade}

/-- Only the first terminal event decides whether a history is reversed. -/
theorem reversed_concat (es : List UserTrade) (e : UserTrade) :
    reversed (es ++ [e]) =
      if es.any fun e => e.status.terminal then reversed es
      else e.status == .failed && es.any fun e => e.status == .matched := by
  by_cases h : es.any fun e => e.status.terminal
  · obtain ⟨x, hx, ht⟩ := List.any_eq_true.1 h
    have hf : (es.find? fun e => e.status.terminal).isSome := List.find?_isSome.2 ⟨x, hx, ht⟩
    have hw : (es.takeWhile fun e => !e.status.terminal).length ≠ es.length := by
      intro hl
      have := List.takeWhile_eq_self_iff.1 ((List.takeWhile_sublist _).eq_of_length hl) x hx
      simp [ht] at this
    rw [if_pos h, reversed, reversed, List.find?_append, List.takeWhile_append, if_neg hw]
    cases hc : es.find? fun e => e.status.terminal with
    | none => rw [hc] at hf; cases hf
    | some y => rfl
  · have hall : ∀ x ∈ es, x.status.terminal = false := by simpa using h
    have hf : (es.find? fun e => e.status.terminal) = none :=
      List.find?_eq_none.2 fun x hx => by simp [hall x hx]
    have hw : (es.takeWhile fun e => !e.status.terminal) = es :=
      List.takeWhile_eq_self_iff.2 fun x hx => by simp [hall x hx]
    rw [if_neg h, reversed, List.find?_append, hf, List.takeWhile_append, hw, if_pos rfl]
    cases hs : e.status <;> simp [TradeStatus.terminal, hs]

/-- The record of a history that one more event joins. -/
theorem historyRecord_concat (es : List UserTrade) (e : UserTrade) :
    historyRecord (es ++ [e]) =
      some (((historyRecord es).getD (firstRecord e)).after e.status) := by
  cases es with
  | nil => simp [historyRecord, firstRecord, TradeRecord.after, TradeStatus.applying_eq]
  | cons x es =>
    simp [historyRecord, TradeRecord.after, TradeStatus.applying_eq, Bool.or_assoc]

end

/-! ## What one operation does to balances and records -/

namespace Inventory

/-- Only the events of trades have a trade. -/
theorem Op.trade?_eq_some {op : Op} {trade : UserTrade} (h : op.trade? = some trade) :
    op = .applyUserTrade trade := by
  cases op <;> cases h
  rfl

section
variable {inv : Inventory} {op : Op}

/-- An operation that is no trade event leaves the records alone. -/
theorem step_trades_of_not_trade (h : op.trade? = none) : (step inv op).trades = inv.trades := by
  cases op with
  | applyUserTrade trade => cases h
  | recordBuySubmitOutcome id outcome now => cases outcome <;> rfl
  | rehash pending =>
    simp only [step]
    split_ifs <;> rfl
  | _ => rfl

/-- An operation that is no trade event leaves the balances alone, unless it drops markets. -/
theorem step_owned_of_not_trade (h : op.trade? = none)
    (hr : ∀ active, op ≠ .releaseMarketScope active) :
    (step inv op).ownedByToken = inv.ownedByToken := by
  cases op with
  | applyUserTrade trade => cases h
  | releaseMarketScope active => exact absurd rfl (hr active)
  | recordBuySubmitOutcome id outcome now => cases outcome <;> rfl
  | rehash pending =>
    simp only [step]
    split_ifs <;> rfl
  | _ => rfl

/-- The trades of a longer run. -/
theorem tradeEvents_concat (ops : List Op) (op : Op) :
    tradeEvents (ops ++ [op]) = tradeEvents ops ++ op.trade?.toList := by
  cases h : op.trade? <;> simp [tradeEvents, h]

/-- The events of a trade in a longer run. -/
theorem eventsOf_concat (id : TradeId) (ops : List Op) (op : Op) :
    eventsOf id (ops ++ [op]) =
      eventsOf id ops ++ op.trade?.toList.filter fun e => e.tradeId = id := by
  simp [eventsOf, tradeEvents_concat]

/-- One more event of the trade. -/
theorem eventsOf_concat_self (ops : List Op) (trade : UserTrade) :
    eventsOf trade.tradeId (ops ++ [.applyUserTrade trade]) =
      eventsOf trade.tradeId ops ++ [trade] := by
  simp [eventsOf_concat, Op.trade?]

/-- An event of another trade is none of this one. -/
theorem eventsOf_concat_ne {id : TradeId} {trade : UserTrade} (h : id ≠ trade.tradeId)
    (ops : List Op) : eventsOf id (ops ++ [.applyUserTrade trade]) = eventsOf id ops := by
  simp [eventsOf_concat, Op.trade?, h.symm]

/-- What is no trade is no event of it. -/
theorem eventsOf_concat_of_not_trade (id : TradeId) (ops : List Op) (h : op.trade? = none) :
    eventsOf id (ops ++ [op]) = eventsOf id ops := by
  simp [eventsOf_concat, h]

/-- A trade is known once it has an event. -/
theorem mem_tradeIds {id : TradeId} {ops : List Op} : id ∈ tradeIds ops ↔ eventsOf id ops ≠ [] := by
  simp only [tradeIds, List.mem_toFinset, List.mem_map, eventsOf, ne_eq, List.filter_eq_nil_iff,
    decide_eq_true_eq, not_forall, not_not, exists_prop]

/-- The record of every trade id is the one its history leaves. -/
theorem runOps_trades (ops : List Op) (id : TradeId) :
    (runOps ops).trades.lookup id = historyRecord (eventsOf id ops) := by
  refine Machine.run_history
    (P := fun ops inv => ∀ id, inv.trades.lookup id = historyRecord (eventsOf id ops))
    (fun id => rfl) ?_ (Machine.along_true new ops) id
  intro ops op ih _ id
  cases hop : op.trade? with
  | none => rw [step_trades_of_not_trade hop, eventsOf_concat_of_not_trade id ops hop, ih id]
  | some trade =>
    obtain rfl := Op.trade?_eq_some hop
    simp only [step, applyUserTrade_trades]
    by_cases hid : id = trade.tradeId
    · subst hid
      rw [AList.lookup_insert, eventsOf_concat_self, historyRecord_concat, recordOf, ih]
      rfl
    · rw [AList.lookup_insert_ne hid, eventsOf_concat_ne hid, ih id]

/-- The record an event is applied to, read off the history. -/
theorem recordOf_runOps (ops : List Op) (trade : UserTrade) :
    (runOps ops).recordOf trade =
      (historyRecord (eventsOf trade.tradeId ops)).getD (firstRecord trade) := by
  rw [recordOf, runOps_trades]
  rfl

end

end Inventory

/-! ## What a history contributes to a balance -/

/-- The share of a trade id in the balance of a token. -/
def netSize (t : TokenId) (es : List UserTrade) : Int :=
  countedSize t .buy es - countedSize t .sell es

/-- A size as a change of the balance. -/
def OrderSide.signed (size : SharesAtoms) : OrderSide → Int
  | .buy => size.atoms
  | .sell => -size.atoms

@[simp] theorem OrderSide.signed_reverse (size : SharesAtoms) (side : OrderSide) :
    side.reverse.signed size = -side.signed size := by
  cases side <;> simp [OrderSide.signed, OrderSide.reverse]

section
variable {es : List UserTrade} {e : UserTrade}

@[simp] theorem counted_nil : counted [] = false := rfl

@[simp] theorem netSize_nil (t : TokenId) : netSize t [] = 0 := rfl

/-- The contribution of a history, read off its record. -/
theorem netSize_of_record {r : TradeRecord} (h : historyRecord es = some r) (t : TokenId) :
    netSize t es = if t = r.token ∧ counted es then r.side.signed r.sizeAtoms else 0 := by
  cases es with
  | nil => cases h
  | cons e es =>
    obtain rfl := Option.some.inj h
    by_cases ht : e.token = t
    · cases hs : e.side <;> cases hc : counted (e :: es) <;>
        simp [netSize, countedSize, ht, hs, hc, OrderSide.signed]
    · simp [netSize, countedSize, ht, Ne.symm ht]

/-- Before a terminal event, MATCHED is the only way to be applied. -/
theorem any_matched_of_open (h : (es.any fun e => e.status.terminal) = false) :
    (es.any fun e => e.status == .matched) = es.any fun e => e.status.applying := by
  induction es with
  | nil => rfl
  | cons x es ih =>
    obtain ⟨hx, hes⟩ := Bool.or_eq_false_iff.1 (List.any_cons.symm.trans h)
    rw [List.any_cons, List.any_cons, ih hes, TradeStatus.applying_of_open hx]

/-- A reversed history has a terminal event. -/
theorem terminal_of_reversed (h : reversed es = true) :
    (es.any fun e => e.status.terminal) = true := by
  obtain ⟨hf, -⟩ := Bool.and_eq_true_iff.1 h
  cases hc : es.find? fun e => e.status.terminal with
  | none => rw [hc] at hf; cases hf
  | some x =>
    exact List.any_eq_true.2
      ⟨x, List.mem_of_find?_eq_some hc, by simpa using List.find?_some hc⟩

/-- A reversed history was applied. -/
theorem applying_of_reversed (h : reversed es = true) :
    (es.any fun e => e.status.applying) = true := by
  obtain ⟨-, hm⟩ := Bool.and_eq_true_iff.1 h
  obtain ⟨x, hx, hs⟩ := List.any_eq_true.1 hm
  refine List.any_eq_true.2 ⟨x, (List.takeWhile_sublist _).subset hx, ?_⟩
  rw [beq_iff_eq.1 hs]
  rfl

/-- The first MATCHED or CONFIRMED event makes the history count. -/
theorem counted_concat_apply (hs : e.status.applying = true)
    (ha : (es.any fun e => e.status.applying) = false) :
    counted es = false ∧ counted (es ++ [e]) = true := by
  have hr : reversed es = false := by
    by_contra hc
    rw [applying_of_reversed (Bool.of_not_eq_false hc)] at ha
    cases ha
  have hf : e.status ≠ .failed := by
    intro hf
    rw [hf] at hs
    cases hs
  refine ⟨by simp [counted, ha], ?_⟩
  rw [counted, reversed_concat, hr]
  simp [hs, hf]

/-- FAILED on an applied history without terminal event takes it back. -/
theorem counted_concat_reverse (hs : e.status = .failed)
    (ha : (es.any fun e => e.status.applying) = true)
    (ht : (es.any fun e => e.status.terminal) = false) :
    counted es = true ∧ counted (es ++ [e]) = false := by
  have hr : reversed es = false := by
    by_contra hc
    rw [terminal_of_reversed (Bool.of_not_eq_false hc)] at ht
    cases ht
  refine ⟨by simp [counted, ha, hr], ?_⟩
  rw [counted, reversed_concat, ht, any_matched_of_open ht, ha]
  simp [hs]

/-- Every other event leaves the count of the history as it was. -/
theorem counted_concat_same
    (h : ¬(e.status.applying = true ∧ (es.any fun e => e.status.applying) = false))
    (h' : ¬(e.status = .failed ∧ (es.any fun e => e.status.applying) = true ∧
      (es.any fun e => e.status.terminal) = false)) :
    counted (es ++ [e]) = counted es := by
  have happ : ((es ++ [e]).any fun e => e.status.applying) = es.any fun e => e.status.applying := by
    simp only [List.any_append, List.any_cons, List.any_nil, Bool.or_false]
    cases ha : es.any fun e => e.status.applying <;> simp_all
  rw [counted, counted, happ, reversed_concat]
  cases ht : es.any fun e => e.status.terminal with
  | true => rfl
  | false =>
    have hr : reversed es = false := by
      by_contra hc
      rw [terminal_of_reversed (Bool.of_not_eq_false hc)] at ht
      cases ht
    rw [hr, any_matched_of_open ht]
    cases ha : es.any fun e => e.status.applying with
    | false => rfl
    | true =>
      have hf : e.status ≠ .failed := fun hf => h' ⟨hf, ha, ht⟩
      simp [hf]

/-- An event that applies the record changes the balance on the record's side. -/
theorem TradeRecord.delta_apply {r : TradeRecord} {s : TradeStatus} (hs : s.applying = true)
    (ha : r.applied = false) : r.delta s = some r.side :=
  if_pos ⟨TradeStatus.applying_iff.1 hs, ha⟩

/-- FAILED on an applied record that is not final changes the balance on the other side. -/
theorem TradeRecord.delta_reverse {r : TradeRecord} {s : TradeStatus} (hs : s = .failed)
    (ha : r.applied = true) (hf : r.finalized = false) : r.delta s = some r.side.reverse := by
  rw [delta, if_neg (by simp [ha]), if_pos ⟨hs, ha, hf⟩]

/-- No other event changes the balance. -/
theorem TradeRecord.delta_none {r : TradeRecord} {s : TradeStatus}
    (h : ¬(s.applying = true ∧ r.applied = false))
    (h' : ¬(s = .failed ∧ r.applied = true ∧ r.finalized = false)) : r.delta s = none := by
  rw [TradeStatus.applying_iff] at h
  rw [delta, if_neg h, if_neg h']

/-- One more event changes the contribution of a history by the delta of its record. -/
theorem netSize_concat (t : TokenId) (es : List UserTrade) (e : UserTrade) {r : TradeRecord}
    (hr : (historyRecord es).getD (firstRecord e) = r) :
    netSize t (es ++ [e]) =
      netSize t es +
        match r.delta e.status with
        | some side => if t = r.token then side.signed r.sizeAtoms else 0
        | none => 0 := by
  have hnew := netSize_of_record (historyRecord_concat es e) t
  rw [hr] at hnew
  have hold : netSize t es = if t = r.token ∧ counted es then r.side.signed r.sizeAtoms else 0 := by
    cases es with
    | nil => simp
    | cons x es => exact hr ▸ netSize_of_record rfl t
  have ha : (es.any fun e => e.status.applying) = r.applied := by
    cases es with
    | nil => rw [← hr]; rfl
    | cons x es => rw [← hr]; rfl
  have ht : (es.any fun e => e.status.terminal) = r.finalized := by
    cases es with
    | nil => rw [← hr]; rfl
    | cons x es => rw [← hr]; rfl
  rw [hnew, hold]
  -- the event applies the record, takes it back, or leaves it as it is
  by_cases h1 : e.status.applying = true ∧ r.applied = false
  · obtain ⟨hc, hc'⟩ := counted_concat_apply h1.1 (ha.trans h1.2)
    rw [hc, hc', TradeRecord.delta_apply h1.1 h1.2]
    simp [TradeRecord.after]
  by_cases h2 : e.status = .failed ∧ r.applied = true ∧ r.finalized = false
  · obtain ⟨hc, hc'⟩ := counted_concat_reverse h2.1 (ha.trans h2.2.1) (ht.trans h2.2.2)
    rw [hc, hc', TradeRecord.delta_reverse h2.1 h2.2.1 h2.2.2]
    by_cases hx : t = r.token <;> simp [hx]
  · have hc : counted (es ++ [e]) = counted es :=
      counted_concat_same (by rwa [ha]) (by rwa [ha, ht])
    rw [hc, TradeRecord.delta_none h1 h2]
    exact (add_zero _).symm

end

end Polyrust
