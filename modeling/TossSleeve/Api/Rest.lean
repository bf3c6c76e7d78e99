import TossSleeve.Api.Auth
import TossSleeve.Lib.Trace

/-!
# `Api/Rest.lean` — reading from Toss (`api/rest.py`, and the token of `api/auth.py`)

`TossRest` is the reading half of the package: one GET with the same single re-authentication as
everything else, and a decoder for each payload. The decoders are total in the shape of what they
get — what is not the expected object counts as empty — and partial in its amounts, where `money`
raises and `_required_money` does not. `order_fill` is the one whose result the ledger books.

§4 is what the broker's lookups do. A method of the broker awaits a token and an account number;
`Prog.lookedUp` puts in their place what obtains them, so that a run of the method shows the token
endpoint and the accounts endpoint, too.
-/

set_option autoImplicit false

namespace TossSleeve

open Lib

/-! ## 1. Fields -/

/-- `d.get(key)`. -/
def Json.field (d : Json) (key : String) : Json := (d.get? key).getD .null

/-- `isinstance(x, dict)`. -/
def Json.isDict : Json → Bool
  | .obj _ => true
  | _ => false

/-- `x if isinstance(x, list) else []`. -/
def Json.items : Json → List Json
  | .arr items => items
  | _ => []

/-- `currency.value`. -/
def Currency.value : Currency → String
  | .KRW => "KRW"
  | .USD => "USD"

/-- `Currency(str(value))`, where it does not raise. -/
def currencyNamed (value : Json) : Option Currency :=
  if value.pyStr = "KRW" then some .KRW
  else if value.pyStr = "USD" then some .USD
  else none

/-- `_currency`. -/
def currencyOr (value : Json) (default : Currency := .KRW) : Currency :=
  (currencyNamed value).getD default

/-- `_opt_iso`. -/
def optIso (value : Json) : String := if value.isBlank then "" else value.pyStr

/-- `_required_money`. -/
def requiredMoney (d : Json) (key : String) : Option PyDecimal :=
  if (d.field key).isBlank then none else pyDecimal (d.field key).pyStr

/-- `s.upper()`, as far as a comparison with ASCII letters can tell: two letters outside of ASCII
    have one as their upper case. -/
def pyUpper (s : String) : String :=
  String.ofList (s.toList.map fun c =>
    if c = 'ſ' then 'S' else if c = 'ı' then 'I' else c.toUpper)

/-! ## 2. Decoders -/

/-- The side of an order: SELL if the report says so, and BUY otherwise. -/
def sideIn (result : Json) : OrderSide :=
  if pyUpper ((result.get? "side").getD (.str "")).pyStr = "SELL" then .SELL else .BUY

/-- The `Fill` of a report with a quantity and a price. -/
def filledOf (orderId : String) (result : Json) (filledQty avgPrice : PyDecimal) :
    Except PyError Fill := do
  let execution := result.field "execution"
  let commission ← money (execution.field "commission")
  let tax ← money (execution.field "tax")
  newFill orderId (optIso (result.field "clientOrderId")) (optIso (result.field "symbol"))
    (sideIn result) (currencyOr (result.field "currency")) filledQty avgPrice commission tax
    (optIso (execution.field "filledAt")) (optIso (execution.field "settlementDate"))

/-- A quantity was executed at a price that is missing or not positive. -/
def noPrice (orderId : String) : TossError where
  cls := .error
  message := "체결수량 있으나 평균체결가 누락/비정상 — 실행금액 검증 불가: order_id=" ++ reprStr orderId

/-- A report with a positive quantity: the price is required. -/
def pricedOf (orderId : String) (result : Json) (filledQty : PyDecimal) :
    Except LookupFailure (Option Fill) :=
  match requiredMoney (result.field "execution") "averageFilledPrice" with
  | none => .error (.toss (noPrice orderId))
  | some avgPrice => do
    if ← avgPrice.nonPositive.mapError .python then .error (.toss (noPrice orderId))
    else some <$> (filledOf orderId result filledQty avgPrice).mapError .python

/-- `order_fill`, from the payload on. -/
def orderFillOf (orderId : String) (result : Json) : Except LookupFailure (Option Fill) :=
  let execution := result.field "execution"
  if execution.isDict then do
    let filledQty ← (money (execution.field "filledQuantity")).mapError .python
    if ← filledQty.nonPositive.mapError .python then return none
    else pricedOf orderId result filledQty
  else return none

/-- A `BrokerPosition` as `holdings` builds it: nothing has checked that its amounts are finite. -/
structure Holding where
  ticker : String
  quantity : PyDecimal
  avgPrice : PyDecimal
  currency : Currency
  deriving DecidableEq

/-- One row of `holdings`; `none` if it is skipped. -/
def holdingOf (row : Json) : Except PyError (Option Holding) :=
  if row.isDict then do
    let quantity ← money (row.field "quantity")
    if ← quantity.nonPositive then return none
    let avgPrice ← money (row.field "averagePurchasePrice")
    return some {
      ticker := ((row.get? "symbol").getD (.str "")).pyStr
      quantity, avgPrice
      currency := currencyOr (row.field "currency") }
  else return none

/-- `holdings`, from the payload on. -/
def holdingsOf (result : Json) : Except PyError (List Holding) :=
  ((result.field "items").items).filterMapM holdingOf

structure PriceQuote where
  symbol : String
  lastPrice : PyDecimal
  currency : Currency
  timestamp : String
  deriving DecidableEq

/-- One row of `prices`; `none` if it is skipped. -/
def priceOf (row : Json) : Except PyError (Option PriceQuote) :=
  if row.isDict then do
    let lastPrice ← money (row.field "lastPrice")
    return some {
      symbol := ((row.get? "symbol").getD (.str "")).pyStr
      lastPrice
      currency := currencyOr (row.field "currency")
      timestamp := ((row.get? "timestamp").getD (.str "")).pyStr }
  else return none

/-- `prices`, from the payload of one batch on. -/
def pricesOf (result : Json) : Except PyError (List PriceQuote) :=
  (if result.isDict then result.field "items" else result).items.filterMapM priceOf

structure OrderBookLevel where
  price : PyDecimal
  volume : PyDecimal
  deriving DecidableEq

structure OrderBook where
  symbol : String
  bids : List OrderBookLevel
  asks : List OrderBookLevel
  currency : Currency
  timestamp : String
  deriving DecidableEq

/-- One row of `_levels`; `none` if it is skipped. -/
def levelOf (row : Json) : Except PyError (Option OrderBookLevel) :=
  if row.isDict then do
    let price ← money (row.field "price")
    let volume ← money (row.field "volume")
    return some { price, volume }
  else return none

/-- `_levels`. -/
def levels (raw : Json) : Except PyError (List OrderBookLevel) := raw.items.filterMapM levelOf

/-- `orderbook`, from the payload on. -/
def orderbookOf (symbol : String) (result : Json) : Except PyError OrderBook := do
  let bids ← levels (result.field "bids")
  let asks ← levels (result.field "asks")
  return {
    symbol, bids, asks
    currency := currencyOr (result.field "currency")
    timestamp := ((result.get? "timestamp").getD (.str "")).pyStr }

/-- `buying_power`, from the payload on. -/
def buyingPowerOf (result : Json) : Except LookupFailure PyDecimal :=
  match result.get? "cashBuyingPower" with
  | some value => (money value).mapError .python
  | none => .error (.toss { cls := .error
                            message := "주문가능현금 파싱 실패(cashBuyingPower 없음)" })

/-- `accounts[0].get("accountSeq")` of the payload of `GET /accounts`. -/
def accountSeqOf (result : Json) : Except LookupFailure String :=
  match result.items with
  | [] => .error (.toss { cls := .error, message := "계좌 조회 실패: accounts 비어있음" })
  | account :: _ =>
    if account.isDict then
      let seq := account.field "accountSeq"
      if seq.isBlank then
        .error (.toss { cls := .error, message := "계좌 조회 실패: accountSeq 없음" })
      else .ok seq.pyStr
    else .error (.toss { cls := .error, message := "계좌 조회 실패: accounts 비어있음" })

/-! ## 3. `TossRest` -/

def accountsPath : String := "/api/v1/accounts"

def holdingsPath : String := "/api/v1/holdings"

def pricesPath : String := "/api/v1/prices"

def orderbookPath : String := "/api/v1/orderbook"

def buyingPowerPath : String := "/api/v1/buying-power"

def pricesBatchMax : ℕ := 200

def orderDetailPath (orderId : String) : String := ordersPath ++ "/" ++ orderId

/-- The value of a decoder, or its exception. -/
def Prog.decoded {α : Type} : Except PyError α → Prog α
  | .ok a => .ret a
  | .error e => .raise (.python e)

namespace TossRest

/-- One GET: a transmission that failed is a `TossTransportError`. -/
def fetch (path : String) (params : List (String × String)) (authorization : String)
    (account : Option String) (message : String) : Prog Response := do
  match ← ask (.get path params authorization account) with
  | .answered resp => .ret resp
  | _ => .raise (.toss { cls := .transport, message })

/-- `_get`. Each attempt takes a slot of the rate limiter. -/
def get (path : String) (account : Bool) (params : List (String × String) := []) : Prog Json :=
  requestWithReauth (fun authorization => do
    ask .acquireRead
    let seq ← if account then some <$> TossSleeve.accountSeq else .ret none
    fetch path params authorization seq "Toss 읽기 전송 실패") false

def accountSeq : Prog String := do
  match ← ask .cachedAccountSeq with
  | some seq => .ret seq
  | none => do
    let result ← requestWithReauth (fun authorization => do
      ask .acquireRead
      fetch accountsPath [] authorization none "계좌 조회 전송 실패") false
    let seq ← Prog.lookup (accountSeqOf result)
    ask (.cacheAccountSeq seq)
    .ret seq

def holdings : Prog (List Holding) := do Prog.decoded (holdingsOf (← get holdingsPath true))

def orderFill (orderId : String) : Prog (Option Fill) := do
  Prog.lookup (orderFillOf orderId (← get (orderDetailPath orderId) true))

/-- The loop of `prices`, over the batches that are left. -/
def pricesLoop : List (List String) → List PriceQuote → Prog (List PriceQuote)
  | [], out => .ret out
  | batch :: batches, out => do
    let result ← get pricesPath false [("symbols", ",".intercalate batch)]
    pricesLoop batches (out ++ (← Prog.decoded (pricesOf result)))

def prices (symbols : List String) : Prog (List PriceQuote) :=
  pricesLoop (symbols.toChunks pricesBatchMax) []

def orderbook (symbol : String) : Prog OrderBook := do
  Prog.decoded (orderbookOf symbol (← get orderbookPath false [("symbol", symbol)]))

def buyingPower (currency : Currency) : Prog PyDecimal := do
  Prog.lookup (buyingPowerOf (← get buyingPowerPath true [("currency", currency.value)]))

end TossRest

/-! ## 4. What a lookup does -/

/-- Does `float(value)` overflow in `_to_float`? Only for an integer does it raise. -/
def toFloatOverflows : Json → Bool
  | .num text =>
    let (ds, rest) := scanDigits (scanSign text.toList).2
    rest = [] ∧ 2 ^ 1024 - 2 ^ 970 ≤ natOfDigits ds
  | _ => false

/-- `_issue_token`, from the outcome of its POST on. How long the token is kept does not matter
    here, but that is where a preposterous `expires_in` raises. -/
def issueToken : PostOutcome → Except LookupFailure String
  | .answered resp =>
    match parseToss resp with
    | .error e => .error (.toss e)
    | .ok data =>
      match data.get? "access_token" with
      | none => .error (.toss { cls := .error
                                message := "토큰 발급 실패: access_token 없음"
                                status := resp.status })
      | some token =>
        if toFloatOverflows (data.field "expires_in") then .error (.python .overflowError)
        else .ok token.pyStr
  | _ => .error (.toss { cls := .transport, message := "토큰 발급 전송 실패" })

namespace TossAuth

def token : Prog String := do
  match ← ask .cachedToken with
  | some token => .ret token
  | none => do
    let token ← Prog.lookup (issueToken (← ask .postToken))
    ask (.cacheToken token)
    .ret token

def authHeaders : Prog String := do return "Bearer " ++ (← token)

end TossAuth

/-- How a lookup ends, as the answer to the request for it. -/
def Prog.outcome {α : Type} (p : Prog α) : Prog (Except LookupFailure α) :=
  p.attempt (fun a => .ret (.ok a)) fun
    | .toss e => .ret (.error (.toss e))
    | .http => .ret (.error .http)
    | .python e => .ret (.error (.python e))
    | .ledger e => .raise (.ledger e)

/-- A token is looked up; anything else is asked for. -/
def tokenLookup : (q : BrokerReq) → Prog q.Resp
  | .authHeaders => Prog.outcome TossAuth.authHeaders
  | q => ask q

/-- A token and an account number are looked up; anything else is asked for. -/
def brokerLookup : (q : BrokerReq) → Prog q.Resp
  | .authHeaders => Prog.outcome TossAuth.authHeaders
  | .accountSeq => Prog.outcome (TossRest.accountSeq.inline tokenLookup)
  | q => ask q

/-- A method of the broker, with what its lookups do. -/
def Prog.lookedUp {α : Type} (p : Prog α) : Prog α := p.inline brokerLookup

end TossSleeve
