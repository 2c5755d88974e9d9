import Polyrust.Lib.DepthFirst
import Polyrust.Submit

/-!
# The order id of a response

A response may hold its order id under one of four names, itself or below any number of wrappers.
The classifier searches it depth first, so it accepts an order exactly when a path of wrappers leads
to an id, and then takes the first one (`classify_accepted_iff`).
-/

namespace Polyrust

open Json DepthFirst

namespace Submit

variable {value : Value} {id : String}

/-! ## What a value holds itself -/

/-- The strings under the names of an order id, in the order of the names. -/
def heldIds (value : Value) : List String :=
  [value.get "orderID", value.get "orderId", value.get "order_id",
    (value.get "order").bind fun order => order.get "id"].filterMap fun v => v.bind Value.asStr

/-- The first of them that is not empty. -/
def heldId (value : Value) : Option String := (heldIds value).find? (· ≠ "")

/-- The value holds the id under one of the names. -/
def Holds (value : Value) (id : String) : Prop := id ∈ heldIds value ∧ id ≠ ""

/-- To search what is mapped is to map and search. -/
theorem find?_filterMap_eq {α β : Type _} (f : α → Option β) (p : β → Bool) (l : List α) :
    (l.filterMap f).find? p = l.findSome? fun a => (f a).filter p := by
  induction l with
  | nil => rfl
  | cons a l ih =>
    rw [List.filterMap_cons, List.findSome?_cons]
    cases f a with
    | none => exact ih
    | some b =>
      by_cases hb : p b = true
      · rw [Option.filter_some_pos hb, List.find?_cons_of_pos hb]
      · rw [Option.filter_some_neg (Bool.eq_false_iff.2 hb), List.find?_cons_of_neg hb]
        exact ih

/-- The names are tried in their order. -/
theorem shallow_eq_heldId (value : Value) : shallow value = heldId value := by
  rw [shallow, heldId, heldIds, find?_filterMap_eq]
  simp only [List.findSome?_cons, List.findSome?_nil]
  cases ((value.get "orderID").bind Value.asStr).filter (· ≠ "") with
  | some id => rfl
  | none =>
    cases ((value.get "orderId").bind Value.asStr).filter (· ≠ "") with
    | some id => rfl
    | none =>
      cases ((value.get "order_id").bind Value.asStr).filter (· ≠ "") with
      | some id => rfl
      | none =>
        cases (((value.get "order").bind fun order => order.get "id").bind Value.asStr).filter
          (· ≠ "") <;> rfl

/-- A value holds an id itself, or it does not. -/
theorem heldId_isSome_iff : (heldId value).isSome = true ↔ ∃ id, Holds value id := by
  simp [heldId, Holds]

/-! ## The search -/

/-- What a value wraps under the `i`-th of the keys. -/
def wrapped (value : Value) (i : Fin 4) : Option Value := value.get wrapperKeys[i]

/-- The id is that of the value, or that of the first wrapped value with one. -/
theorem extractOrderId_eq (value : Value) :
    extractOrderId value =
      (heldId value).or ((List.finRange 4).findSome? fun i =>
        (wrapped value i).bind extractOrderId) := by
  have hkeys : wrapperKeys = (List.finRange 4).map fun i : Fin 4 => wrapperKeys[i] := by decide
  rw [extractOrderId, shallow_eq_heldId, hkeys, List.findSome?_map]
  congr 2
  funext i
  rw [Function.comp_apply, wrapped]
  cases value.get wrapperKeys[i] <;> rfl

/-- The search finds the first id. -/
theorem extractOrderId_iff :
    extractOrderId value = some id ↔ IsFirst wrapped heldId value id :=
  find_eq_some_iff extractOrderId_eq (fun value : Value => sizeOf value)
    fun _ _ _ h => Value.sizeOf_get_lt h

/-- An id that is found is not empty. -/
theorem ne_empty_of_isFirst (h : IsFirst wrapped heldId value id) : id ≠ "" := by
  obtain ⟨path, hid, -⟩ := h
  obtain ⟨inner, -, hheld⟩ := Option.bind_eq_some_iff.1 hid
  rw [heldId] at hheld
  have hne := List.find?_some hheld
  exact of_decide_eq_true hne

/-- There is a first id exactly when a path of wrappers leads to an id. -/
theorem exists_isFirst_iff :
    (∃ id, IsFirst wrapped heldId value id) ↔
      ∃ path inner id, follow wrapped value path = some inner ∧ Holds inner id := by
  have hiff := find_isSome_iff (a := value) extractOrderId_eq (fun value : Value => sizeOf value)
    fun _ _ _ h => Value.sizeOf_get_lt h
  simp only [← extractOrderId_iff, ← Option.isSome_iff_exists, hiff]
  refine ⟨?_, ?_⟩
  · rintro ⟨path, hpath⟩
    obtain ⟨id, hid⟩ := Option.isSome_iff_exists.1 hpath
    obtain ⟨inner, hinner, hheld⟩ := Option.bind_eq_some_iff.1 hid
    obtain ⟨id', hholds⟩ := heldId_isSome_iff.1 (Option.isSome_iff_exists.2 ⟨id, hheld⟩)
    exact ⟨path, inner, id', hinner, hholds⟩
  · rintro ⟨path, inner, id, hinner, hholds⟩
    refine ⟨path, ?_⟩
    rw [labelAt, hinner]
    exact heldId_isSome_iff.2 ⟨id, hholds⟩

/-! ## The outcomes -/

variable {pl : Platform} {httpStatus : Nat} {rawBody : List UInt8}

/-- The flag `success` of a response. -/
def successOf (value : Value) : Option Bool := (value.get "success").bind Value.asBool

/-- What the classifier makes of a response below 400 with a JSON body. -/
theorem classify_below (hpos : 0 < httpStatus) (hlt : httpStatus < 400)
    (hvalue : pl.fromSlice rawBody = .ok value) :
    classify pl httpStatus rawBody =
      if extractErrorField value = some "transport_error" then
        .unknown httpStatus (extractErrorField value)
      else if successOf value = some false then .rejected httpStatus (extractErrorField value)
      else
        match extractOrderId value with
        | some id => .accepted id httpStatus
        | none => .unknown httpStatus (some "accepted_missing_order_id") := by
  have hfilter : (extractOrderId value).filter (· ≠ "") = extractOrderId value := by
    cases hid : extractOrderId value with
    | none => rfl
    | some id =>
      exact Option.filter_some_pos (decide_eq_true (ne_empty_of_isFirst (extractOrderId_iff.1 hid)))
  rw [classify, hvalue]
  simp only [Except.toOption, Option.bind_some, hfilter]
  by_cases herror : extractErrorField value = some "transport_error"
  · rw [if_pos (.inr herror), if_pos herror]
  · rw [if_neg (not_or.2 ⟨hpos.ne', herror⟩), if_neg (by omega), if_neg (by omega), if_neg herror]
    rfl

/-- When such a response is accepted. -/
theorem classify_below_accepted (hpos : 0 < httpStatus) (hlt : httpStatus < 400)
    (hvalue : pl.fromSlice rawBody = .ok value) {status : Nat} :
    classify pl httpStatus rawBody = .accepted id status ↔
      status = httpStatus ∧ extractErrorField value ≠ some "transport_error" ∧
        successOf value ≠ some false ∧ extractOrderId value = some id := by
  rw [classify_below hpos hlt hvalue]
  split
  · next herror => simp [herror]
  · next herror =>
    split
    · next hsuccess => simp [hsuccess]
    · next hsuccess =>
      cases extractOrderId value with
      | none => simp
      | some id' => simp [herror, hsuccess, and_comm, eq_comm]

/-- Without a JSON body nothing is accepted or rejected. -/
theorem classify_garbage (hpos : 0 < httpStatus) (hlt : httpStatus < 400) {e : String}
    (hvalue : pl.fromSlice rawBody = .error e) :
    classify pl httpStatus rawBody =
      .unknown httpStatus (some "accepted_missing_order_id") := by
  have h500 : ¬500 ≤ httpStatus := by omega
  have h400 : ¬400 ≤ httpStatus := by omega
  simp [classify, hvalue, Except.toOption, hpos.ne', h500, h400]

/-- Outside of the range nothing is accepted. -/
theorem classify_outside (h : ¬(0 < httpStatus ∧ httpStatus < 400)) (id : String) (status : Nat) :
    classify pl httpStatus rawBody ≠ .accepted id status := by
  rw [classify]
  dsimp only
  split
  · simp
  · next hzero =>
    have hpos : 0 < httpStatus := Nat.pos_of_ne_zero fun hz => hzero (.inl hz)
    split
    · split <;> simp
    · rw [if_pos (by omega)]
      simp

/-- A pending claim is removed only when the outcome of its own submit is a rejection. -/
theorem recordBuySubmitOutcome_removes {inv : Inventory} {submitId claim : SubmitId}
    {outcome : SubmitOutcome} {nowTsUs : Int} (hpending : (inv.pending.lookup claim).isSome)
    (h : (recordBuySubmitOutcome inv submitId outcome nowTsUs).pending.lookup claim = none) :
    claim = submitId ∧ ∃ status error, outcome = .rejected status error := by
  have hmodify : ∀ f, (inv.pending.modify submitId f).lookup claim ≠ none := by
    intro f hnone
    by_cases hc : claim = submitId
    · rw [hc, HashMap.lookup_modify_self, Option.map_eq_none_iff, ← hc] at hnone
      rw [hnone] at hpending
      cases hpending
    · rw [HashMap.lookup_modify_ne hc] at hnone
      rw [hnone] at hpending
      cases hpending
  cases outcome with
  | accepted orderId status => exact absurd h (hmodify _)
  | unknown status error => exact absurd h (hmodify _)
  | rejected status error =>
    refine ⟨by_contra fun hc => ?_, status, error, rfl⟩
    rw [recordBuySubmitOutcome, Inventory.releaseClaim] at h
    dsimp only at h
    rw [AList.lookup_erase_ne hc] at h
    rw [h] at hpending
    cases hpending

/-- A response is accepted if and only if its status is below 400, its body is JSON without
transport error and without a failure flag, and a path of wrappers leads to an order id; the id is
the first one of the search. Below 400 a rejection needs the failure flag, and only a rejection
removes the claim of a submit. -/
theorem classify_accepted_iff (pl : Platform) (httpStatus : Nat) (rawBody : List UInt8) :
    (∀ id status, classify pl httpStatus rawBody = .accepted id status ↔
      status = httpStatus ∧ 0 < httpStatus ∧ httpStatus < 400 ∧
        ∃ value, pl.fromSlice rawBody = .ok value ∧
          extractErrorField value ≠ some "transport_error" ∧ successOf value ≠ some false ∧
          (∃ path inner id, follow wrapped value path = some inner ∧ Holds inner id) ∧
          IsFirst wrapped heldId value id ∧ id ≠ "") ∧
      ((∀ id status, classify pl httpStatus rawBody ≠ .accepted id status) →
        (∃ status error, classify pl httpStatus rawBody = .rejected status error) ∨
          ∃ status error, classify pl httpStatus rawBody = .unknown status error) ∧
      (0 < httpStatus → httpStatus < 400 →
        ∀ status error, classify pl httpStatus rawBody = .rejected status error →
          ∃ value, pl.fromSlice rawBody = .ok value ∧ successOf value = some false) ∧
      ∀ (inv : Inventory) (submitId claim : SubmitId) (nowTsUs : Int),
        (inv.pending.lookup claim).isSome →
        (recordBuySubmitOutcome inv submitId (classify pl httpStatus rawBody)
          nowTsUs).pending.lookup claim = none →
        claim = submitId ∧
          ∃ status error, classify pl httpStatus rawBody = .rejected status error := by
  refine ⟨fun id status => ?_, fun hnot => ?_, fun hpos hlt status error h => ?_,
    fun _ _ _ _ => recordBuySubmitOutcome_removes⟩
  · by_cases hrange : 0 < httpStatus ∧ httpStatus < 400
    · obtain ⟨hpos, hlt⟩ := hrange
      cases hvalue : pl.fromSlice rawBody with
      | error e =>
        rw [classify_garbage hpos hlt hvalue]
        refine ⟨nofun, ?_⟩
        rintro ⟨-, -, -, value, hv, -⟩
        cases hv
      | ok value =>
        rw [classify_below_accepted hpos hlt hvalue, extractOrderId_iff]
        refine ⟨?_, ?_⟩
        · rintro ⟨rfl, herror, hsuccess, hfirst⟩
          exact ⟨rfl, hpos, hlt, value, rfl, herror, hsuccess,
            exists_isFirst_iff.1 ⟨id, hfirst⟩, hfirst, ne_empty_of_isFirst hfirst⟩
        · rintro ⟨rfl, -, -, value', hv, herror, hsuccess, -, hfirst, -⟩
          cases hv
          exact ⟨rfl, herror, hsuccess, hfirst⟩
    · refine ⟨fun h => absurd h (classify_outside hrange id status), ?_⟩
      rintro ⟨-, hpos, hlt, -⟩
      exact absurd ⟨hpos, hlt⟩ hrange
  · cases hout : classify pl httpStatus rawBody with
    | accepted id status => exact absurd hout (hnot id status)
    | rejected status error => exact .inl ⟨status, error, rfl⟩
    | unknown status error => exact .inr ⟨status, error, rfl⟩
  · cases hvalue : pl.fromSlice rawBody with
    | error e =>
      rw [classify_garbage hpos hlt hvalue] at h
      cases h
    | ok value =>
      refine ⟨value, rfl, by_contra fun hsuccess => ?_⟩
      rw [classify_below hpos hlt hvalue, if_neg hsuccess] at h
      split at h
      · cases h
      · split at h <;> cases h

end Submit

end Polyrust
