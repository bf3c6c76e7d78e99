import TossSleeve.Http

/-!
# `Api/Constants.lean` — paths, errors, and how a response is classified (`api/constants.py`)

Toss wraps a success as `result` and a failure as `error`, and a business rejection is a failure
like any other: what tells them apart is the status. `parse_toss` is where that is decided, for
every call of the package.
-/

set_option autoImplicit false

namespace TossSleeve

/-! ## 1. Paths -/

def ordersPath : String := "/api/v1/orders"

def cancelPath (orderId : String) : String := ordersPath ++ "/" ++ orderId ++ "/cancel"

/-! ## 2. Errors -/

/-- `TossError` and the two classes under it, each below the one before. -/
inductive ErrorClass where
  | error | transport | ambiguous
  deriving DecidableEq, Repr

structure TossError where
  cls : ErrorClass
  message : String
  status : Option ℕ := none
  code : Option String := none
  msg : Option String := none
  requestId : Option String := none
  deriving DecidableEq

/-- `isinstance(exc, TossTransportError)`. -/
def TossError.IsTransport (e : TossError) : Prop := e.cls ≠ .error

instance (e : TossError) : Decidable e.IsTransport := inferInstanceAs (Decidable (_ ≠ _))

/-- `str(exc)`, by `_format`: the message, and the fields that are there. -/
def TossError.text (e : TossError) : String :=
  let fields := [("status", e.status.map toString), ("code", e.code), ("msg", e.msg),
    ("request_id", e.requestId)]
  let parts := fields.filterMap fun f => f.2.map fun value => f.1 ++ "=" ++ value
  if parts = [] then e.message else e.message ++ " [" ++ " ".intercalate parts ++ "]"

/-- `_opt_str`. -/
def optStr : Json → Option String
  | .null => none
  | .str "" => none
  | x => some x.pyStr

/-! ## 3. Classification -/

/-- A field of the body's `error` object, as `parse_toss` reads it. -/
def errorField (resp : Response) (key : String) : Option String :=
  let error := ((jsonOrNone resp).get? "error").getD .null
  (error.get? key).bind optStr

/-- The payload of a success: what is under `result`, or the body itself. -/
def Response.result (resp : Response) : Json :=
  ((jsonOrNone resp).get? "result").getD (jsonOrNone resp)

/-- `parse_toss`: the payload of a success, or the classified error. -/
def parseToss (resp : Response) (ambiguous : Bool := false) : Except TossError Json :=
  let body := jsonOrNone resp
  if resp.Success then .ok resp.result
  else
    let code := errorField resp "code"
    let msg := errorField resp "message"
    let requestId := (errorField resp "requestId").or (resp.requestId.bind fun s => optStr (.str s))
    if resp.status ≥ 500 ∨ resp.status = 429 ∨ body.isNull then
      .error
        { cls := if ambiguous then .ambiguous else .transport
          message := "Toss 전송/게이트웨이 오류"
          status := resp.status
          code, msg, requestId }
    else
      .error
        { cls := .error
          message := "Toss 응답 오류"
          status := resp.status
          code, msg, requestId }

/-- `_BUSINESS_STATUSES`. -/
def businessStatuses : List ℕ := [400, 422]

/-- `is_business_rejection`. -/
def isBusinessRejection (e : TossError) : Bool :=
  decide (¬ e.IsTransport) && e.status.any (· ∈ businessStatuses)

/-- A business rejection is no failure of the transport, ambiguous or not. -/
theorem cls_of_isBusinessRejection {e : TossError} (h : isBusinessRejection e) :
    e.cls = .error := by
  rw [isBusinessRejection, Bool.and_eq_true, decide_eq_true_eq] at h
  exact of_not_not h.1

/-- The answers to an order that say Toss did **not** take it: an error with a body, that is
    neither a conflict nor a gateway's. -/
def Response.Refuses (r : Response) : Prop :=
  ¬ r.Success ∧ ¬ (jsonOrNone r).isNull ∧ r.status < 500 ∧ r.status ≠ 409 ∧ r.status ≠ 429

instance (r : Response) : Decidable r.Refuses := inferInstanceAs (Decidable (_ ∧ _))

theorem parseToss_success {r : Response} (h : r.Success) (ambiguous : Bool) :
    parseToss r ambiguous = .ok r.result := by
  simp only [parseToss]
  rw [if_pos h]

/-- How the error of a response relates to the response. -/
structure TossError.Of (e : TossError) (r : Response) (ambiguous : Bool) : Prop where
  status : e.status = some r.status
  code : e.code = errorField r "code"
  transport : e.IsTransport ↔ r.status ≥ 500 ∨ r.status = 429 ∨ (jsonOrNone r).isNull
  ambiguous : e.cls = .ambiguous ↔ ambiguous ∧ e.IsTransport

/-- A response that is no success raises. -/
theorem parseToss_error {r : Response} (h : ¬ r.Success) (ambiguous : Bool) :
    ∃ e, parseToss r ambiguous = .error e ∧ e.Of r ambiguous := by
  simp only [parseToss, if_neg h]
  split
  · next hgw =>
    refine ⟨_, rfl, rfl, rfl, ⟨fun _ => hgw, fun _ => ?_⟩, ?_⟩
    · cases ambiguous <;> simp [TossError.IsTransport]
    · cases ambiguous <;> simp [TossError.IsTransport]
  · next hgw =>
    refine ⟨_, rfl, rfl, rfl, ⟨fun h => absurd rfl h, fun h => absurd h hgw⟩, ?_⟩
    simp [TossError.IsTransport]

/-- An answer that raises was no success, and the error is its own. -/
theorem of_parseToss_error {r : Response} {ambiguous : Bool} {e : TossError}
    (h : parseToss r ambiguous = .error e) : ¬ r.Success ∧ e.Of r ambiguous := by
  have hs : ¬ r.Success := by
    intro hs
    rw [parseToss_success hs] at h
    exact absurd h (by simp)
  obtain ⟨e', he, hof⟩ := parseToss_error hs ambiguous
  obtain rfl := Except.error.inj (he.symm.trans h)
  exact ⟨hs, hof⟩

end TossSleeve
