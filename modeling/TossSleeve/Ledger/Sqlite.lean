import TossSleeve.Ledger.InMemory
import TossSleeve.Lib.Txn

/-!
# `Ledger/Sqlite.lean` — `SqliteSleeveLedger`

The same ledger over five tables that all sleeves of a database share. Every method is translated
**statement by statement**: a SELECT is one `Proc.get`, a write one `Proc.modify`, and what a
method reads between two of its writes is read there and not earlier. What surrounds the
statements — BEGIN IMMEDIATE, `with self._conn`, or a bare `commit()` — is the bracket of the call.

The tables. A primary key is the key of the `Table`, so a `fetchone` by primary key is a lookup.
`INSERT OR IGNORE` and `ON CONFLICT DO UPDATE SET` are `upsert`s that keep, of the old row, what
the statement does not name. Enumerations stand for their `.value` strings and decimals for
themselves: `Decimal(str(x)) = x`.

Order. SQLite promises none where the statement has no ORDER BY. Every such result but one is
summed up, or has one row at most. The one is `client_order_id_for`, which takes some row of
those recorded under an order id: `RowChoice` is SQLite's choice, an argument of that method.
-/

set_option autoImplicit false

namespace TossSleeve

open Lib

/-! ## 1. The schema -/

/-- `sleeve_cash`. -/
structure CashRow where
  sleeveId : String
  currency : Currency
  allocatedCapital : Decimal
  virtualCash : Decimal

/-- `sleeve_reservations`. -/
structure ReservationRow where
  sleeveId : String
  clientOrderId : String
  currency : Currency
  amount : Decimal

/-- `sleeve_orders`. -/
structure OrderRecord extends Order where
  sleeveId : String
  clientOrderId : String

/-- The columns of a recorded order that `_open_sell_qty` reads. -/
def OrderRecord.orderRow (r : OrderRecord) : OrderRow :=
  { clientOrderId := r.clientOrderId
    symbol := r.symbol
    side := r.side
    status := r.status
    orderId := r.orderId
    recorded := r.quantity }

/-- `sleeve_fills`: the columns of a `Fill`, and `_row_to_fill` is the projection. -/
structure FillRow extends Fill where
  sleeveId : String

/-- `sleeve_cashflows`. Rows are only ever appended, so the position of a row is its `id`. -/
structure CashflowRow where
  sleeveId : String
  currency : Currency
  amount : Decimal
  memo : String

abbrev CashRow.key (r : CashRow) : String × Currency := (r.sleeveId, r.currency)

abbrev ReservationRow.key (r : ReservationRow) : String × String := (r.sleeveId, r.clientOrderId)

abbrev OrderRecord.key (r : OrderRecord) : String × String := (r.sleeveId, r.clientOrderId)

abbrev FillRow.key (r : FillRow) : String × String := (r.sleeveId, r.orderId)

structure SleeveDb where
  cash : Table CashRow (String × Currency) CashRow.key
  reservations : Table ReservationRow (String × String) ReservationRow.key
  orders : Table OrderRecord (String × String) OrderRecord.key
  fills : Table FillRow (String × String) FillRow.key
  cashflows : List CashflowRow

/-- The tables as `_SCHEMA` creates them. -/
def SleeveDb.empty : SleeveDb := ⟨∅, ∅, ∅, ∅, []⟩

/-- The rows of one sleeve. -/
def SleeveDb.only (sid : String) (db : SleeveDb) : SleeveDb where
  cash := db.cash.part sid
  reservations := db.reservations.part sid
  orders := db.orders.part sid
  fills := db.fills.part sid
  cashflows := db.cashflows.filter (fun r => decide (r.sleeveId = sid))

/-- Which of the rows a query matched SQLite returns first: one of them, if there are any, and
    nothing but these rows has a say in it. -/
structure RowChoice where
  pick : List OrderRecord → Option OrderRecord
  pick_mem : ∀ rows r, pick rows = some r → r ∈ rows
  pick_none : ∀ rows, pick rows = none → rows = []

/-- In the order of the rows. -/
def RowChoice.first : RowChoice where
  pick := List.head?
  pick_mem _ _ h := List.mem_of_head? h
  pick_none _ h := List.head?_eq_none_iff.mp h

/-! ## 2. Statements -/

/-- Statements await nothing. -/
def NoAnswer : Empty → Type := fun _ => Unit

abbrev Sql (α : Type) := Proc SleeveDb Empty NoAnswer LedgerError α

abbrev SqlCall (α : Type) := Call SleeveDb NoAnswer LedgerError α

/-- A ledger object: its sleeve. The connection it holds is the database its programs run on. -/
structure SqliteSleeveLedger where
  sleeveId : String

namespace SqliteSleeveLedger

variable (self : SqliteSleeveLedger)

/-- `_ensure_currency`. -/
def ensureCurrency (c : Currency) : Sql Unit :=
  .modify fun db => { db with
    cash := db.cash.upsert (fun old _ => old) ⟨self.sleeveId, c, 0, 0⟩ (fun _ h => h) }

/-- `_vc`. -/
def vc (c : Currency) : Sql Decimal :=
  .get fun db => ((db.cash.find? (self.sleeveId, c)).map (·.virtualCash)).getD 0

/-- `_set_vc`. -/
def setVc (c : Currency) (value : Decimal) : Sql Unit :=
  .modify fun db => { db with
    cash := db.cash.update (fun r => decide (r.key = (self.sleeveId, c)))
      (fun r => { r with virtualCash := value }) (fun _ => rfl) }

/-- `_reserved_total`. -/
def reservedTotal (c : Currency) : Sql Decimal :=
  .get fun db => ((db.reservations.rows.filter
    (fun r => decide (r.sleeveId = self.sleeveId ∧ r.currency = c))).map (·.amount)).sum

/-- `_settlement_pending`. -/
def settlementPending (today : String) (c : Currency) : Sql Decimal :=
  .get fun db => ((db.fills.rows.filter (fun r => decide (r.sleeveId = self.sleeveId ∧
    r.currency = c ∧ r.side = .SELL ∧ r.settlementDate > today))).map
    (fun r => r.avgPrice * r.filledQuantity - r.commission - r.tax)).sum

def available (today : String) (c : Currency) : Sql Decimal := do
  let cash ← self.vc c
  let reserved ← self.reservedTotal c
  let pending ← self.settlementPending today c
  return cash - reserved - pending

def virtualCash (c : Currency) : Sql Decimal := self.vc c

/-- `SELECT currency, amount FROM sleeve_reservations WHERE sleeve_id = ? AND client_order_id =
    ?`. -/
def reservation (clientOrderId : String) : Sql (Option ReservationRow) :=
  .get fun db => db.reservations.find? (self.sleeveId, clientOrderId)

/-- `INSERT INTO sleeve_reservations … ON CONFLICT … DO UPDATE SET amount, currency`. -/
def writeReservation (clientOrderId : String) (currency : Currency) (amount : Decimal) :
    Sql Unit :=
  .modify fun db => { db with
    reservations := db.reservations.upsert
      (fun old new => { old with amount := new.amount, currency := new.currency })
      ⟨self.sleeveId, clientOrderId, currency, amount⟩ (fun _ h => h) }

/-- `UPDATE sleeve_reservations SET amount = ?`. -/
def setReservation (clientOrderId : String) (amount : Decimal) : Sql Unit :=
  .modify fun db => { db with
    reservations := db.reservations.update
      (fun r => decide (r.key = (self.sleeveId, clientOrderId)))
      (fun r => { r with amount }) (fun _ => rfl) }

/-- `DELETE FROM sleeve_reservations`. -/
def deleteReservation (clientOrderId : String) : Sql Unit :=
  .modify fun db => { db with
    reservations := db.reservations.delete
      (fun r => decide (r.key = (self.sleeveId, clientOrderId))) }

/-- `_write_order`: one upsert. An empty order id keeps the recorded one; the status is pending
    again. -/
def writeOrder (clientOrderId orderId symbol : String) (side : OrderSide) (currency : Currency)
    (quantity : Decimal) : Sql Unit :=
  .modify fun db => { db with
    orders := db.orders.upsert
      (fun old new => { new with
        sleeveId := old.sleeveId
        clientOrderId := old.clientOrderId
        orderId := if new.orderId = "" then old.orderId else new.orderId
        status := .PENDING })
      { sleeveId := self.sleeveId, clientOrderId, orderId, symbol, side, currency, quantity,
        status := .PENDING } (fun _ h => h) }

/-- `UPDATE sleeve_orders SET status = ?`. -/
def setStatus (clientOrderId : String) (status : OrderStatus) : Sql Unit :=
  .modify fun db => { db with
    orders := db.orders.update (fun r => decide (r.key = (self.sleeveId, clientOrderId)))
      (fun r => { r with status }) (fun _ => rfl) }

/-- `_recorded_qty`. -/
def recordedQty (clientOrderId : String) : Sql Decimal :=
  .get fun db => ((db.orders.find? (self.sleeveId, clientOrderId)).map (·.quantity)).getD 0

/-- `_snapshot`. -/
def snapshot (orderId : String) : Sql (Option Fill) :=
  .get fun db => (db.fills.find? (self.sleeveId, orderId)).map (·.toFill)

/-- What a conflicting `INSERT INTO sleeve_fills` leaves: the executed amounts and the dates are
    the new row's, the identity of the order is the old one's. -/
def mergeFill (old new : FillRow) : FillRow :=
  { old with
    filledQuantity := new.filledQuantity
    avgPrice := new.avgPrice
    commission := new.commission
    tax := new.tax
    filledAt := new.filledAt
    settlementDate := new.settlementDate
    filledQuantity_pos := new.filledQuantity_pos
    avgPrice_pos := new.avgPrice_pos
    commission_nonneg := new.commission_nonneg
    tax_nonneg := new.tax_nonneg }

theorem key_mergeFill {new : FillRow} (old : FillRow) (h : old.key = new.key) :
    (mergeFill old new).key = new.key := h

/-- `INSERT INTO sleeve_fills … ON CONFLICT … DO UPDATE SET …`. -/
def writeFill (fill : Fill) : Sql Unit :=
  .modify fun db => { db with
    fills := db.fills.upsert mergeFill { fill with sleeveId := self.sleeveId } key_mergeFill }

/-- `INSERT INTO sleeve_cashflows`. -/
def insertCashflow (currency : Currency) (amount : Decimal) (memo : String) : Sql Unit :=
  .modify fun db => { db with
    cashflows := db.cashflows ++ [⟨self.sleeveId, currency, amount, memo⟩] }

/-! ## 3. Reads -/

/-- `_all_snapshots`. -/
def allSnapshots : Sql (List Fill) :=
  .get fun db => ((db.fills.rows.filter (fun r => decide (r.sleeveId = self.sleeveId))).insertionSort
    (fun r s => r.orderId ≤ s.orderId)).map (·.toFill)

def positions : Sql (List BrokerPosition) := do
  let snapshots ← self.allSnapshots
  return positionRows snapshots

def positionQuantity (ticker : String) : Sql Decimal := do
  let positions ← self.positions
  return TossSleeve.positionQuantity positions ticker

/-- The rows of `sleeve_orders` as `_sell_availability` reads them. -/
def orderRows : Sql (List OrderRow) :=
  .get fun db => (db.orders.rows.filter (fun r => decide (r.sleeveId = self.sleeveId))).map
    OrderRecord.orderRow

/-- `filled_by_order_id.get(·, 0)`. -/
def filledByOrderId : Sql (String → Decimal) :=
  .get fun db orderId =>
    ((findRow (·.orderId) orderId
      (db.fills.rows.filter (fun r => decide (r.sleeveId = self.sleeveId)))).map
      (·.filledQuantity)).getD 0

/-- `_sell_availability`. -/
def sellAvailability (ticker : String) (excludeCoid : Option String) : Sql Decimal := do
  let orders ← self.orderRows
  let filled ← self.filledByOrderId
  let held ← self.positionQuantity ticker
  return held - openSellQty orders filled ticker excludeCoid

def availableToSell (ticker : String) : Sql Decimal := self.sellAvailability ticker none

def orderStatus (clientOrderId : String) : Sql (Option OrderStatus) :=
  .get fun db => (db.orders.find? (self.sleeveId, clientOrderId)).map (·.status)

def clientOrderIdFor (choice : RowChoice) (orderId : String) : Sql (Option String) :=
  .get fun db => (choice.pick (db.orders.rows.filter
    (fun r => decide (r.sleeveId = self.sleeveId ∧ r.orderId = orderId)))).map (·.clientOrderId)

/-! ## 4. Calls -/

/-- `__init__`, on a database whose tables exist: reopening changes nothing. -/
def init (sleeveId : String) (allocatedCapital : Decimal) (baseCurrency : Currency) :
    SqlCall Unit :=
  if sleeveId = "" then .rejects .sleeveIdEmpty
  else if allocatedCapital < 0 then .rejects (.capitalNegative allocatedCapital)
  else .txn .bare (.modify fun db => { db with
    cash := db.cash.upsert (fun old _ => old)
      ⟨sleeveId, baseCurrency, allocatedCapital, allocatedCapital⟩ (fun _ h => h) })

def reserve (today : String) (clientOrderId : String) (amount : Decimal) (currency : Currency) :
    SqlCall Bool :=
  if clientOrderId = "" then .rejects .reserveWithoutCoid
  else if amount < 0 then .rejects (.reserveNegative amount)
  else .txn .immediate do
    let row ← self.reservation clientOrderId
    let prevSame := row.elim 0 (fun r => if r.currency = currency then r.amount else 0)
    let available ← self.available today currency
    if canReserve available prevSame amount then
      self.writeReservation clientOrderId currency amount
      return true
    else
      return false

def release (clientOrderId : String) : SqlCall Unit :=
  .txn .bare (self.deleteReservation clientOrderId)

def recordOrder (clientOrderId orderId symbol : String) (side : OrderSide) (currency : Currency)
    (quantity : Decimal) : SqlCall Unit :=
  .txn .scoped (self.writeOrder clientOrderId orderId symbol side currency quantity)

def reserveSell (clientOrderId orderId symbol : String) (currency : Currency)
    (quantity : Decimal) : SqlCall Bool :=
  if clientOrderId = "" then .rejects .reserveSellWithoutCoid
  else .txn .immediate do
    let available ← self.sellAvailability symbol (some clientOrderId)
    if quantity > available then
      return false
    else
      self.writeOrder clientOrderId orderId symbol .SELL currency quantity
      return true

def markOrderTerminal (clientOrderId : String) (status : OrderStatus) : SqlCall Unit :=
  .txn .scoped do
    self.setStatus clientOrderId status
    self.deleteReservation clientOrderId

/-- The part of `apply_fill` that reduces or frees a BUY's reservation. -/
def consumeReservation (fill : Fill) (deltaNotional : Decimal) : Sql Unit :=
  if fill.side = .BUY ∧ fill.clientOrderId ≠ "" then do
    let row ← self.reservation fill.clientOrderId
    match row with
    | none => return ()
    | some r =>
      let recorded ← self.recordedQty fill.clientOrderId
      match reservationAfterFill recorded fill.filledQuantity r.amount deltaNotional with
      | none => self.deleteReservation fill.clientOrderId
      | some left => self.setReservation fill.clientOrderId left
  else return ()

/-- The part of `apply_fill` that moves the recorded order's status. -/
def progressOrder (fill : Fill) : Sql Unit :=
  if fill.clientOrderId ≠ "" then do
    let recorded ← self.recordedQty fill.clientOrderId
    self.setStatus fill.clientOrderId (terminalOrderStatus recorded fill.filledQuantity)
  else return ()

/-- The part of `apply_fill` past the progress test. -/
def settle (prev : Option Fill) (fill : Fill) : Sql Unit := do
  let deltaCash := signedCash fill - prev.elim 0 signedCash
  let deltaNotional := fill.costBasis - prev.elim 0 Fill.costBasis
  self.ensureCurrency fill.currency
  let cash ← self.vc fill.currency
  self.setVc fill.currency (cash + deltaCash)
  self.consumeReservation fill deltaNotional
  self.writeFill fill
  self.progressOrder fill

/-- The part of `apply_fill` past the read of the stored snapshot. -/
def progress (prev : Option Fill) (fill : Fill) : Sql Unit :=
  match fillProgress prev fill with
  | .noop => return ()
  | .regression =>
    throw (.desync fill.orderId ((prev.map (·.filledQuantity)).getD 0) fill.filledQuantity)
  | .apply => self.settle prev fill

def applyFill (fill : Fill) : SqlCall Unit :=
  .txn .immediate do
    let prev ← self.snapshot fill.orderId
    self.progress prev fill

def recordCashflow (amount : Decimal) (currency : Currency) (memo : String) : SqlCall Unit :=
  .txn .immediate do
    self.ensureCurrency currency
    let cash ← self.vc currency
    self.setVc currency (cash + amount)
    self.insertCashflow currency amount memo

end SqliteSleeveLedger

/-! ## 5. One step -/

/-- What a process does with a ledger object: open it, or call an operation on a day. -/
inductive LedgerEvent where
  | opened (allocatedCapital : Decimal) (baseCurrency : Currency)
  | called (today : String) (op : LedgerOp)
  deriving DecidableEq

/-- A call with its result rewritten. -/
def SqlCall.map {α β : Type} (f : α → β) : SqlCall α → SqlCall β
  | .rejects e => .rejects e
  | .txn b body => .txn b (body >>= fun a => .ret (f a))

namespace SqliteSleeveLedger

/-- The operations of the protocol as calls, on the day `today_func` gives. -/
def call (self : SqliteSleeveLedger) (today : String) : LedgerOp → SqlCall Reply
  | .reserve c amount cur => SqlCall.map .verdict (self.reserve today c amount cur)
  | .release c => SqlCall.map (fun _ => .done) (self.release c)
  | .recordOrder c o sym side cur q =>
    SqlCall.map (fun _ => .done) (self.recordOrder c o sym side cur q)
  | .reserveSell c o sym cur q => SqlCall.map .verdict (self.reserveSell c o sym cur q)
  | .applyFill f => SqlCall.map (fun _ => .done) (self.applyFill f)
  | .recordCashflow amount cur memo =>
    SqlCall.map (fun _ => .done) (self.recordCashflow amount cur memo)
  | .markOrderTerminal c st => SqlCall.map (fun _ => .done) (self.markOrderTerminal c st)

/-- How a call ended, as its caller sees it. -/
def replyOf : Except LedgerError Reply → Reply
  | .ok r => r
  | .error e => .raised e

def eventCall (self : SqliteSleeveLedger) : LedgerEvent → SqlCall Reply
  | .opened cap base => SqlCall.map (fun _ => .done) (init self.sleeveId cap base)
  | .called today op => self.call today op

def handle (self : SqliteSleeveLedger) (db : SleeveDb) (ev : LedgerEvent) : SleeveDb × Reply :=
  let (db', result) := (self.eventCall ev).exec db
  (db', replyOf result)

/-- A run of one sleeve's events, with the replies. -/
def handleAll (self : SqliteSleeveLedger) : SleeveDb → List LedgerEvent → SleeveDb × List Reply
  | db, [] => (db, [])
  | db, ev :: evs =>
    let (db', reply) := self.handle db ev
    let (db'', replies) := self.handleAll db' evs
    (db'', reply :: replies)

end SqliteSleeveLedger

/-! ## 6. What can be observed -/

/-- The reads of the protocol, as functions of their arguments. -/
structure Observed where
  virtualCash : Currency → Except LedgerError Decimal
  available : String → Currency → Except LedgerError Decimal
  positions : Except LedgerError (List BrokerPosition)
  positionQuantity : String → Except LedgerError Decimal
  availableToSell : String → Except LedgerError Decimal
  orderStatus : String → Except LedgerError (Option OrderStatus)
  clientOrderIdFor : String → Except LedgerError (Option String)

def SqliteSleeveLedger.observed (self : SqliteSleeveLedger) (choice : RowChoice) (db : SleeveDb) :
    Observed where
  virtualCash c := ((self.virtualCash c).run db).2
  available today c := ((self.available today c).run db).2
  positions := (self.positions.run db).2
  positionQuantity ticker := ((self.positionQuantity ticker).run db).2
  availableToSell ticker := ((self.availableToSell ticker).run db).2
  orderStatus coid := ((self.orderStatus coid).run db).2
  clientOrderIdFor orderId := ((self.clientOrderIdFor choice orderId).run db).2

end TossSleeve
