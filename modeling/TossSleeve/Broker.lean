import TossSleeve.Api.Auth

/-!
# `TossSleeve/Broker.lean` — `TossBroker` (`broker.py`)

`place` and `cancel`, from the guard to the last write. Two retries are nested in every POST: a
transmission that never left is repeated up to `transport_retries` times, and a 401 that says the
token is dead is repeated once with a new token. Around them `place` takes a cover on the ledger
*before* it sends anything — a reservation for a BUY, a registration for a SELL — and decides on
the way out whether the order may be live: if not, `_unwind` gives the cover back.

The two flags `reserved` and `sell_recorded` are the source's own.
-/

set_option autoImplicit false

namespace TossSleeve

open Lib

/-- A `TossBroker`: which one (each has its own `_acks`, and a restarted one is a new one), its
    denylist, and its `transport_retries`. -/
structure TossBroker where
  id : ℕ
  denylist : List String := []
  transportRetries : ℕ := 2

/-! ## 1. Orders as Toss and the ledger see them -/

/-- `_reject`. -/
def reject (req : OrderRequest) (message : String) : OrderAck :=
  { accepted := false, orderId := "", clientOrderId := req.clientOrderId, message }

/-- `_reserve_amount`: what a BUY reserves; `none` where no cap can be computed. -/
def reserveAmount (req : OrderRequest) : Option Decimal :=
  match req.orderType, req.price, req.quantity with
  | .LIMIT, some price, some quantity => some (price * quantity)
  | _, _, _ => req.orderAmount

/-- `_build_body`. -/
def buildBody (req : OrderRequest) : OrderBody where
  symbol := req.ticker
  side := match req.side with | .BUY => "BUY" | .SELL => "SELL"
  orderType := match req.orderType with | .LIMIT => "LIMIT" | .MARKET => "MARKET"
  timeInForce := match req.timeInForce with | .DAY => "DAY" | .CLS => "CLS" | .OPG => "OPG"
  quantity := req.quantity
  orderAmount := req.orderAmount
  price := if req.orderType = .LIMIT then req.price else none
  clientOrderId := if req.clientOrderId = "" then none else some req.clientOrderId

/-- The `orderId` of an accepted order, stripped; `""` when the payload has none. -/
def orderIdIn (result : Json) : String :=
  match result with
  | .obj _ => strip ((result.get? "orderId").getD (.str "")).pyStr
  | _ => ""

/-- What a reservation for the request may cost at Toss: the body's price times its quantity, or
    its amount. -/
def OrderBody.notional (body : OrderBody) : Option Decimal :=
  match body.price, body.quantity with
  | some price, some quantity => some (price * quantity)
  | _, _ => body.orderAmount

/-- **What is reserved is what the body authorises**, whatever the shape of the request. -/
theorem notional_buildBody (req : OrderRequest) : (buildBody req).notional = reserveAmount req := by
  simp only [OrderBody.notional, buildBody, reserveAmount]
  cases ht : req.orderType with
  | LIMIT =>
    rw [if_pos rfl]
    cases req.price <;> cases req.quantity <;> rfl
  | MARKET =>
    rw [if_neg (by decide)]

namespace TossBroker

variable (b : TossBroker)

/-! ## 2. Transmission -/

/-- The loop of `_send`, with `n` attempts left. Every attempt takes a slot of the rate limiter. -/
def sendLoop (makeRequest : Prog PostOutcome) (ambiguous : Bool) : ℕ → Prog Response
  | 0 => .raise (.toss { cls := .transport
                         message := "Toss 연결 실패 — 멱등 재시도 " ++
                           toString b.transportRetries ++ "회 소진" })
  | n + 1 => do
    ask .acquire
    let outcome ← makeRequest
    match outcome with
    | .answered resp => .ret resp
    | .connectFailed => sendLoop makeRequest ambiguous n
    | .sendFailed => .raise (.toss { cls := if ambiguous then .ambiguous else .transport
                                     message := "Toss 발주/취소 전송 실패" })

/-- `_send`. -/
def send (makeRequest : Prog PostOutcome) (ambiguous : Bool) : Prog Response :=
  b.sendLoop makeRequest ambiguous (b.transportRetries + 1)

/-- `_post`. -/
def post (path : String) (payload : Payload) (ambiguous : Bool) : Prog Json :=
  requestWithReauth (fun authorization => do
    let account ← accountSeq
    b.send (ask (.post path payload { authorization, account })) ambiguous) ambiguous

/-! ## 3. `place` -/

/-- `client_order_id in self._acks`; an empty id is never looked up. -/
def cached (clientOrderId : String) : Prog (Option OrderAck) :=
  if clientOrderId = "" then .ret none else ask (.cachedAck b.id clientOrderId)

/-- `_unwind`. -/
def unwind (req : OrderRequest) (reserved sellRecorded : Bool) : Prog Unit := do
  if req.clientOrderId = "" then .ret ()
  else
    if reserved then discard <| ledgerCall (.release req.clientOrderId)
    if sellRecorded then discard <| ledgerCall (.markOrderTerminal req.clientOrderId .REJECTED)

/-- `_handle_order_error`. -/
def handleOrderError (e : TossError) (req : OrderRequest) (reserved sellRecorded : Bool) :
    Prog OrderAck := do
  if e.status = some 409 then
    match ← b.cached req.clientOrderId with
    | some ack => .ret ack
    | none => .raise (.toss { e with
        cls := .ambiguous
        message := "중복 주문(409) — 접수 여부 불확정, clientOrderId 로 reconcile 필요" })
  else if isBusinessRejection e then
    unwind req reserved sellRecorded
    .ret (reject req e.text)
  else if e.cls = .ambiguous then .raise (.toss e)
  else
    unwind req reserved sellRecorded
    .raise (.toss e)

/-- `place` once Toss answered with a payload. -/
def accept (req : OrderRequest) (reserved sellRecorded : Bool) (result : Json) :
    Prog OrderAck := do
  let orderId := orderIdIn result
  if orderId = "" then
    unwind req reserved sellRecorded
    .raise (.toss { cls := .error
                    message := "주문 응답에 orderId 없음: " ++ reprStr req.ticker })
  else
    let ack : OrderAck := { accepted := true, orderId, clientOrderId := req.clientOrderId }
    if req.clientOrderId = "" then .ret ack
    else
      discard <| ledgerCall (.recordOrder req.clientOrderId orderId req.ticker req.side req.currency
        (req.quantity.getD 0))
      ask (.cacheAck b.id req.clientOrderId ack)
      .ret ack

/-- `place` past its guard: the cover is on the ledger. -/
def submit (req : OrderRequest) (reserved sellRecorded : Bool) : Prog OrderAck :=
  (b.post ordersPath (.order (buildBody req)) true).attempt (b.accept req reserved sellRecorded)
    fun
    | .toss e => b.handleOrderError e req reserved sellRecorded
    | .http => do
      unwind req reserved sellRecorded
      .raise (.toss { cls := .transport, message := "발주 전 인증/계좌조회 전송 실패" })
    | e => .raise e

/-- The BUY guard: denylist, key, a computable cap, and the cap itself. -/
def placeBuy (req : OrderRequest) : Prog OrderAck := do
  if req.ticker ∈ b.denylist then
    .ret (reject req ("denylist 종목 매수 차단(개인 보유분 보호): " ++ req.ticker))
  else if req.clientOrderId = "" then
    .ret (reject req "BUY 에는 client_order_id 필요(귀속·하드캡)")
  else
    match reserveAmount req with
    | none => .ret (reject req "수량기반 MARKET BUY 는 하드캡 불가 — order_amount 사용")
    | some amount =>
      if (← ledgerCall (.reserve req.clientOrderId amount req.currency)) = .verdict true then
        b.submit req true false
      else .ret (reject req "sleeve 하드캡: 가상현금 부족")

/-- The SELL guard: key, quantity, and the check-and-register of the ledger. -/
def placeSell (req : OrderRequest) : Prog OrderAck := do
  if req.clientOrderId = "" then
    .ret (reject req "SELL 에는 client_order_id 필요(미체결 매도 가드·귀속)")
  else
    match req.quantity with
    | none => .ret (reject req "SELL 에는 quantity 필요")
    | some quantity =>
      if (← ledgerCall (.reserveSell req.clientOrderId "" req.ticker req.currency quantity)) =
          .verdict true then
        b.submit req false true
      else .ret (reject req ("sleeve 보유수량 초과: 매도 " ++ toString quantity ++ " > 매도가능"))

/-- `place` past the look into `_acks`. -/
def placeGuarded (req : OrderRequest) : Prog OrderAck :=
  match req.side with
  | .BUY => b.placeBuy req
  | .SELL => b.placeSell req

def place (req : OrderRequest) : Prog OrderAck := do
  match ← b.cached req.clientOrderId with
  | some ack => .ret ack
  | none => b.placeGuarded req

/-! ## 4. `cancel`, and the consumer's poll -/

def cancel (orderId : String) : Prog Bool :=
  (b.post (cancelPath orderId) .empty false).attempt
    (fun _ => do
      match ← ask (.clientOrderIdFor orderId) with
      | none => .ret true
      | some clientOrderId =>
        if clientOrderId = "" then .ret true
        else
          discard <| ledgerCall (.markOrderTerminal clientOrderId .CANCELLED)
          .ret true)
    fun
    | .toss e => if isBusinessRejection e then .ret false else .raise (.toss e)
    | e => .raise e

end TossBroker

/-- The consumer's side of the contract: ask Toss for an order's cumulative execution and hand it
    to the ledger. -/
def pollFill (orderId : String) : Prog Unit := do
  match ← Prog.lookup (← ask (.orderFill orderId)) with
  | none => .ret ()
  | some fill => discard <| ledgerCall (.applyFill fill)

end TossSleeve
