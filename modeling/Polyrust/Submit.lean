import Polyrust.Inventory
import Polyrust.Json
import Polyrust.Text

/-!
# Outcomes of a BUY submit

The three outcomes of the HTTP boundary, the classifier that reads them off a response
(`submit.rs`), and what the runtime records of them in the inventory, with the periodic expiry of
stale claims (`runtime.rs`).
-/

namespace Polyrust

open IntWidth

/-- Outcome of a submit attempt. -/
inductive SubmitOutcome where
  | accepted (orderId : String) (httpStatus : Nat)
  | rejected (httpStatus : Nat) (error : Option String)
  | unknown (httpStatus : Nat) (error : Option String)
  deriving DecidableEq, Repr

/-! ## The classifier -/

namespace Submit

open Json

/-- `extract_error_field`: the error text of a response, `error` before `errorMsg`. -/
def extractErrorField (value : Value) : Option String :=
  ["error", "errorMsg"].findSome? fun key =>
    ((value.get key).bind Value.asStr).filter (· ≠ "")

/-- The order id that a value holds itself (`shallow`). -/
def shallow (value : Value) : Option String :=
  (["orderID", "orderId", "order_id"].findSome? fun key =>
      ((value.get key).bind Value.asStr).filter (· ≠ "")).or
    ((((value.get "order").bind fun order => order.get "id").bind Value.asStr).filter (· ≠ ""))

/-- The keys that responses are wrapped under. -/
def wrapperKeys : List String := ["data", "result", "response", "payload"]

/-- `extract_order_id`: the order id of a value, or else of what it wraps. -/
def extractOrderId (value : Value) : Option String :=
  (shallow value).or (wrapperKeys.findSome? fun key =>
    match _h : value.get key with
    | some inner => extractOrderId inner
    | none => none)
termination_by sizeOf value
decreasing_by exact Value.sizeOf_get_lt _h

/-- `classify`: the outcome that a response stands for. -/
def classify (pl : Platform) (httpStatus : Nat) (rawBody : List UInt8) : SubmitOutcome :=
  let bodyValue := (pl.fromSlice rawBody).toOption
  let success := (bodyValue.bind (·.get "success")).bind Value.asBool
  let error := bodyValue.bind extractErrorField
  if httpStatus = 0 ∨ error = some "transport_error" then .unknown httpStatus error
  else if 500 ≤ httpStatus then
    let definitiveReject := success = some false ∧ error.any fun e =>
      !Text.contains (Text.toAsciiLowercase e.toList) "transport".toList
    if definitiveReject then .rejected httpStatus error else .unknown httpStatus error
  else if 400 ≤ httpStatus then .rejected httpStatus error
  else if success = some false then .rejected httpStatus error
  else
    match (bodyValue.bind extractOrderId).filter (· ≠ "") with
    | some id => .accepted id httpStatus
    | none => .unknown httpStatus (some "accepted_missing_order_id")

end Submit

/-! ## The inventory -/

/-- Age at which an unknown submit stops blocking entry. -/
def UNKNOWN_SUBMIT_EXPIRE_US : Int := 5000000

/-- Age at which a pending submit without outcome is dropped. -/
def PENDING_SUBMIT_EXPIRE_US : Int := 60000000

/-- `record_buy_submit_outcome`. -/
def recordBuySubmitOutcome (inv : Inventory) (submitId : SubmitId) (outcome : SubmitOutcome)
    (nowTsUs : Int) : Inventory :=
  match outcome with
  | .accepted orderId _ => inv.markSubmitAccepted submitId ⟨orderId⟩ nowTsUs
  | .unknown _ _ => inv.markSubmitUnknown submitId nowTsUs
  | .rejected _ _ => inv.releaseClaim submitId

/-- `expire_stale_entry_claims`. -/
def expireStaleEntryClaims (inv : Inventory) (nowTsUs : Int) : Inventory :=
  let inv := inv.expireUnknowns (i64.saturatingSub nowTsUs UNKNOWN_SUBMIT_EXPIRE_US)
  inv.expirePending (i64.saturatingSub nowTsUs PENDING_SUBMIT_EXPIRE_US)

end Polyrust
