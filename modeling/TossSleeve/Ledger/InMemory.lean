import TossSleeve.Ledger.Position

/-!
# `Ledger/InMemory.lean` — `InMemorySleeveLedger`

The dictionary implementation of the sleeve ledger: four dictionaries, nine operations. Every
method is translated in its own order of effects. A method that raises does so before it writes,
so it returns `Except`: on an error there is no new state to speak of.

`today_func` is the one input a ledger does not own. Its value is an argument of the two methods
that read it, so that a run may give every call its own day.

§1–§3 are the translation. §4 packages the operations as one step function, the vocabulary of
every statement about runs, shared with the SQL ledger. `Ledger/Steps.lean` says **once** what each
dictionary and each derived figure is after each step; the invariants of the later files are derived
from that and never unfold an operation again.
-/

set_option autoImplicit false

namespace TossSleeve

open Lib

/-! ## 1. State -/

/-- The `ValueError`s a ledger raises. -/
inductive LedgerError where
  | sleeveIdEmpty
  | capitalNegative (cap : Decimal)
  | reserveWithoutCoid
  | reserveNegative (amount : Decimal)
  | reserveSellWithoutCoid
  | desync (orderId : String) (prev next : Decimal)
  deriving DecidableEq

/-- The message, up to the values interpolated into it. -/
def LedgerError.text : LedgerError → String
  | .sleeveIdEmpty => "sleeve_id 는 비어있을 수 없음"
  | .capitalNegative _ => "allocated_capital 은 음수일 수 없음: "
  | .reserveWithoutCoid => "reserve 에는 client_order_id 가 필요함(귀속)"
  | .reserveNegative _ => "reserve amount 는 음수일 수 없음: "
  | .reserveSellWithoutCoid => "reserve_sell 에는 client_order_id 가 필요함(귀속)"
  | .desync orderId _ _ => "누적 체결수량 감소(desync): " ++ orderId

/-- One value of `_orders`. -/
structure Order where
  orderId : String
  symbol : String
  side : OrderSide
  currency : Currency
  quantity : Decimal
  status : OrderStatus
  deriving DecidableEq

structure InMemorySleeveLedger where
  sleeveId : String
  cash : Dict Currency Decimal
  /-- client order id → (currency, amount). -/
  reserved : Dict String (Currency × Decimal)
  /-- order id → latest cumulative snapshot. -/
  snapshots : Dict String Fill
  /-- client order id → recorded order. -/
  orders : Dict String Order

namespace InMemorySleeveLedger

/-- `__init__`. -/
def init (sleeveId : String) (allocatedCapital : Decimal) (baseCurrency : Currency) :
    Except LedgerError InMemorySleeveLedger :=
  if sleeveId = "" then .error .sleeveIdEmpty
  else if allocatedCapital < 0 then .error (.capitalNegative allocatedCapital)
  else .ok
    { sleeveId
      cash := Dict.set ∅ baseCurrency allocatedCapital
      reserved := ∅
      snapshots := ∅
      orders := ∅ }

/-- The ledger of a sleeve that has done nothing yet. -/
def fresh (sleeveId : String) (cap : Decimal) (b : Currency) : InMemorySleeveLedger :=
  { sleeveId, cash := Dict.set ∅ b cap, reserved := ∅, snapshots := ∅, orders := ∅ }

theorem init_ok (sleeveId : String) (cap : Decimal) (b : Currency) (hs : sleeveId ≠ "")
    (hc : 0 ≤ cap) : init sleeveId cap b = .ok (fresh sleeveId cap b) := by
  unfold init
  rw [if_neg hs, if_neg (not_lt.mpr hc)]
  rfl

/-- A constructor that returned built the empty ledger, on a capital that is not negative. -/
theorem init_inv {sleeveId : String} {cap : Decimal} {b : Currency} {l : InMemorySleeveLedger}
    (h : init sleeveId cap b = .ok l) : sleeveId ≠ "" ∧ 0 ≤ cap ∧ l = fresh sleeveId cap b := by
  unfold init at h
  split at h
  · exact absurd h (by simp)
  · next hs =>
    split at h
    · exact absurd h (by simp)
    · next hc => exact ⟨hs, not_lt.mp hc, (Except.ok.inj h).symm⟩

/-! ## 2. Reads -/

/-- `_vc`. -/
def vc (l : InMemorySleeveLedger) (c : Currency) : Decimal := (l.cash.get? c).getD 0

/-- `_reserved_total`. -/
def reservedTotal (l : InMemorySleeveLedger) (c : Currency) : Decimal :=
  ((l.reserved.rows.filter (fun e => decide (e.2.1 = c))).map (fun e => e.2.2)).sum

/-- Is this snapshot's money still on its way at `today`? -/
def unsettled (today : String) (c : Currency) (f : Fill) : Bool :=
  decide (f.side = .SELL ∧ f.currency = c ∧ f.settlementDate ≠ "" ∧ f.settlementDate > today)

/-- `_settlement_pending`. -/
def settlementPending (l : InMemorySleeveLedger) (today : String) (c : Currency) : Decimal :=
  ((l.snapshots.rows.filter (fun e => unsettled today c e.2)).map
    (fun e => e.2.costBasis - e.2.commission - e.2.tax)).sum

def available (l : InMemorySleeveLedger) (today : String) (c : Currency) : Decimal :=
  l.vc c - l.reservedTotal c - l.settlementPending today c

def virtualCash (l : InMemorySleeveLedger) (c : Currency) : Decimal := l.vc c

/-- `_recorded_qty`. -/
def recordedQty (l : InMemorySleeveLedger) (clientOrderId : String) : Decimal :=
  ((l.orders.get? clientOrderId).map (·.quantity)).getD 0

/-- `client_order_id_for`: the first order, in insertion order, recorded with `orderId`. -/
def clientOrderIdFor (l : InMemorySleeveLedger) (orderId : String) : Option String :=
  (l.orders.rows.find? (fun e => e.2.orderId = orderId)).map Prod.fst

def orderStatus (l : InMemorySleeveLedger) (clientOrderId : String) : Option OrderStatus :=
  (l.orders.get? clientOrderId).map (·.status)

def positions (l : InMemorySleeveLedger) : List BrokerPosition :=
  positionRows (l.snapshots.rows.map Prod.snd)

def positionQuantity (l : InMemorySleeveLedger) (ticker : String) : Decimal :=
  TossSleeve.positionQuantity l.positions ticker

/-- `filled_by_order_id.get(·, 0)`, over the stored snapshots. -/
def filledByOrderId (l : InMemorySleeveLedger) (orderId : String) : Decimal :=
  ((l.snapshots.get? orderId).map (·.filledQuantity)).getD 0

/-- An order as `_open_sell_qty` reads it. -/
def orderRow (e : String × Order) : OrderRow :=
  { clientOrderId := e.1
    symbol := e.2.symbol
    side := e.2.side
    status := e.2.status
    orderId := e.2.orderId
    recorded := e.2.quantity }

/-- `_sell_availability`. -/
def sellAvailability (l : InMemorySleeveLedger) (ticker : String)
    (excludeCoid : Option String := none) : Decimal :=
  l.positionQuantity ticker -
    openSellQty (l.orders.rows.map orderRow) l.filledByOrderId ticker excludeCoid

def availableToSell (l : InMemorySleeveLedger) (ticker : String) : Decimal :=
  l.sellAvailability ticker

/-! ## 3. Writes -/

def reserve (l : InMemorySleeveLedger) (today : String) (clientOrderId : String)
    (amount : Decimal) (currency : Currency) : Except LedgerError (Bool × InMemorySleeveLedger) :=
  if clientOrderId = "" then .error .reserveWithoutCoid
  else if amount < 0 then .error (.reserveNegative amount)
  else
    let prev := (l.reserved.get? clientOrderId).getD (currency, 0)
    let prevSame := if prev.1 = currency then prev.2 else 0
    if canReserve (l.available today currency) prevSame amount then
      .ok (true, { l with reserved := l.reserved.set clientOrderId (currency, amount) })
    else .ok (false, l)

def release (l : InMemorySleeveLedger) (clientOrderId : String) : InMemorySleeveLedger :=
  { l with reserved := l.reserved.erase clientOrderId }

def markOrderTerminal (l : InMemorySleeveLedger) (clientOrderId : String) (status : OrderStatus) :
    InMemorySleeveLedger :=
  let l' := match l.orders.get? clientOrderId with
    | some o => { l with orders := l.orders.set clientOrderId { o with status } }
    | none => l
  l'.release clientOrderId

/-- `record_order`: an empty order id does not overwrite a recorded one. -/
def recordOrder (l : InMemorySleeveLedger) (clientOrderId orderId symbol : String)
    (side : OrderSide) (currency : Currency) (quantity : Decimal) : InMemorySleeveLedger :=
  let orderId := match l.orders.get? clientOrderId with
    | some existing => if orderId = "" then existing.orderId else orderId
    | none => orderId
  let order : Order := { orderId, symbol, side, currency, quantity, status := .PENDING }
  { l with orders := l.orders.set clientOrderId order }

/-- The reservations once `fill` moved its order's notional by `deltaNotional`. -/
def reservedAfterFill (l : InMemorySleeveLedger) (fill : Fill) (deltaNotional : Decimal) :
    Dict String (Currency × Decimal) :=
  if fill.side = .BUY then
    match l.reserved.get? fill.clientOrderId with
    | some (cur, remaining) =>
      match reservationAfterFill (l.recordedQty fill.clientOrderId) fill.filledQuantity remaining
          deltaNotional with
      | none => l.reserved.erase fill.clientOrderId
      | some left => l.reserved.set fill.clientOrderId (cur, left)
    | none => l.reserved
  else l.reserved

/-- The recorded orders once `fill` arrived. -/
def ordersAfterFill (l : InMemorySleeveLedger) (fill : Fill) : Dict String Order :=
  match l.orders.get? fill.clientOrderId with
  | some o =>
    let status := terminalOrderStatus (l.recordedQty fill.clientOrderId) fill.filledQuantity
    l.orders.set fill.clientOrderId { o with status }
  | none => l.orders

/-- The body of `apply_fill` past the progress test: settle the delta against `prev`. -/
def settle (l : InMemorySleeveLedger) (prev : Option Fill) (fill : Fill) : InMemorySleeveLedger :=
  let deltaCash := signedCash fill - prev.elim 0 signedCash
  let deltaNotional := fill.costBasis - prev.elim 0 Fill.costBasis
  { l with
    cash := l.cash.set fill.currency (l.vc fill.currency + deltaCash)
    reserved := l.reservedAfterFill fill deltaNotional
    snapshots := l.snapshots.set fill.orderId fill
    orders := l.ordersAfterFill fill }

def applyFill (l : InMemorySleeveLedger) (fill : Fill) : Except LedgerError InMemorySleeveLedger :=
  let prev := l.snapshots.get? fill.orderId
  match fillProgress prev fill with
  | .noop => .ok l
  | .regression =>
    .error (.desync fill.orderId ((prev.map (·.filledQuantity)).getD 0) fill.filledQuantity)
  | .apply => .ok (l.settle prev fill)

def recordCashflow (l : InMemorySleeveLedger) (amount : Decimal) (currency : Currency) :
    InMemorySleeveLedger :=
  { l with cash := l.cash.set currency (l.vc currency + amount) }

def reserveSell (l : InMemorySleeveLedger) (clientOrderId orderId symbol : String)
    (currency : Currency) (quantity : Decimal) :
    Except LedgerError (Bool × InMemorySleeveLedger) :=
  if clientOrderId = "" then .error .reserveSellWithoutCoid
  else if quantity > l.sellAvailability symbol (some clientOrderId) then .ok (false, l)
  else .ok (true, l.recordOrder clientOrderId orderId symbol .SELL currency quantity)

end InMemorySleeveLedger

/-! ## 4. One step -/

/-- The operations of the `SleeveLedger` protocol that write. -/
inductive LedgerOp where
  | reserve (clientOrderId : String) (amount : Decimal) (currency : Currency)
  | release (clientOrderId : String)
  | recordOrder (clientOrderId orderId symbol : String) (side : OrderSide) (currency : Currency)
      (quantity : Decimal)
  | reserveSell (clientOrderId orderId symbol : String) (currency : Currency) (quantity : Decimal)
  | applyFill (fill : Fill)
  | recordCashflow (amount : Decimal) (currency : Currency) (memo : String)
  | markOrderTerminal (clientOrderId : String) (status : OrderStatus)
  deriving DecidableEq

/-- What the caller gets back: nothing, the guard's verdict, or an exception. -/
inductive Reply where
  | done
  | verdict (b : Bool)
  | raised (e : LedgerError)
  deriving DecidableEq

/-- Did the call return? -/
def Reply.Returned : Reply → Prop
  | .raised _ => False
  | _ => True

instance (r : Reply) : Decidable r.Returned := by cases r <;> unfold Reply.Returned <;> infer_instance

/-- A method's result as a step: an exception leaves the ledger as it was. -/
def settleReply {σ α : Type} (s : σ) (reply : α → Reply) : Except LedgerError (α × σ) → σ × Reply
  | .ok (a, s') => (s', reply a)
  | .error e => (s, .raised e)

namespace InMemorySleeveLedger

/-- One operation, on the day `today_func` gives. -/
def step (l : InMemorySleeveLedger) (today : String) : LedgerOp → InMemorySleeveLedger × Reply
  | .reserve c amount cur => settleReply l .verdict (l.reserve today c amount cur)
  | .release c => (l.release c, .done)
  | .recordOrder c o sym side cur q => (l.recordOrder c o sym side cur q, .done)
  | .reserveSell c o sym cur q => settleReply l .verdict (l.reserveSell c o sym cur q)
  | .applyFill f => settleReply l (fun _ => .done) ((l.applyFill f).map (fun l' => ((), l')))
  | .recordCashflow amount cur _ => (l.recordCashflow amount cur, .done)
  | .markOrderTerminal c st => (l.markOrderTerminal c st, .done)

/-- The ledger after a sequence of operations, each on its own day. -/
def run (l : InMemorySleeveLedger) (ops : List (String × LedgerOp)) : InMemorySleeveLedger :=
  ops.foldl (fun l op => (l.step op.1 op.2).1) l

end InMemorySleeveLedger

end TossSleeve
