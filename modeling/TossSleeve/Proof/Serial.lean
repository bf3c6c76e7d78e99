import TossSleeve.Ledger.Sqlite

/-!
# `Proof/Serial.lean` — concurrent processes and failing calls

Any number of processes hold ledgers on one database file, each over its own connection. Which
statements of which calls follow each other is up to the scheduler, and any statement may raise.

§2 says what it would be good for if they ran one at a time: a snapshot polled twice settles once,
and what a reservation was admitted against is no longer available.

§3 is the good news. As long as no call leaves its transaction open behind it, the committed
tables and everything the calls returned are those of the committed calls, run one at a time in
the order of their commits (`calls_serialise`). It is `Txn.serialisable` at the ledger's calls.

A call does leave its transaction open when its COMMIT raises: `_immediate` commits *after* the
block whose exceptions it rolls back, and `release` does not roll back at all. §4 is what happens
then: the call has raised, and the next call of that connection commits its writes.
-/

set_option autoImplicit false

namespace TossSleeve

open Lib

namespace Proof

/-! ## 1. The processes -/

/-- A call of one of the processes: whose ledger, on which day, which operation. -/
structure LedgerCall where
  ledger : SqliteSleeveLedger
  today : String
  op : LedgerOp

def LedgerCall.program (c : LedgerCall) : SqlCall Reply := c.ledger.call c.today c.op

/-- The system of the processes. `leak`: may a COMMIT or a ROLLBACK raise, or `release`, when the
    transaction has writes in it? -/
abbrev Concurrent (db₀ : SleeveDb) (leak : Prop) :
    Txn.State SleeveDb NoAnswer LedgerError Reply LedgerCall → Prop :=
  Reachable (Txn.Start db₀) (Txn.Step LedgerCall.program leak)

/-! ## 2. What a serial run is good for -/

section Once

variable {self : SqliteSleeveLedger}

/-- The stored snapshot of `f`'s order has `f`'s cash fields. -/
def HasPolled (self : SqliteSleeveLedger) (f : Fill) (db : SleeveDb) : Prop :=
  ∃ r, db.fills.find? (self.sleeveId, f.orderId) = some r ∧
    f.filledQuantity = r.filledQuantity ∧ f.commission = r.commission ∧ f.tax = r.tax ∧
      f.avgPrice = r.avgPrice

theorem HasPolled.noop {f : Fill} {db : SleeveDb} (h : HasPolled self f db) :
    fillProgress ((db.fills.find? (self.sleeveId, f.orderId)).map (·.toFill)) f = .noop := by
  obtain ⟨r, hfind, hsame⟩ := h
  rw [hfind, Option.map_some, fillProgress, if_neg (by rw [hsame.1]; exact lt_irrefl _),
    if_pos hsame]

theorem hasPolled_writeFill (f : Fill) :
    (self.writeFill f).Ends (fun _ => True) (.ok ()) (HasPolled self f) := by
  refine .modify fun db _ => ?_
  unfold HasPolled
  rw [Table.find?_upsert]
  simp only [if_true]
  cases db.fills.find? (self.sleeveId, f.orderId) with
  | none => exact ⟨_, rfl, rfl, rfl, rfl, rfl⟩
  | some old => exact ⟨_, rfl, rfl, rfl, rfl, rfl⟩

/-- The status of the order is not in the fills' table. -/
theorem hasPolled_progressOrder (f : Fill) :
    (self.progressOrder f).Ends (HasPolled self f) (.ok ()) (HasPolled self f) := by
  unfold SqliteSleeveLedger.progressOrder
  split
  · exact .get_bind (fun _ => True) (fun _ _ => trivial) fun _ _ => .modify fun _ h => h
  · exact .ret _

theorem returns_consumeReservation (f : Fill) (delta : Decimal) :
    (self.consumeReservation f delta).Ends (fun _ => True) (.ok ()) (fun _ => True) := by
  unfold SqliteSleeveLedger.consumeReservation
  split
  · refine .get_bind (fun _ => True) (fun _ _ => trivial) fun row _ => ?_
    cases row with
    | none => exact .ret _
    | some r =>
      refine .get_bind (fun _ => True) (fun _ _ => trivial) fun q _ => ?_
      cases reservationAfterFill q f.filledQuantity r.amount delta <;>
        exact .modify fun _ _ => trivial
  · exact .ret _

theorem hasPolled_settle (prev : Option Fill) (f : Fill) :
    (self.settle prev f).Ends (fun _ => True) (.ok ()) (HasPolled self f) :=
  .bind (Q := fun _ => True) (.modify fun _ _ => trivial)
    (.get_bind (fun _ => True) (fun _ _ => trivial) fun _ _ =>
      .bind (Q := fun _ => True) (.modify fun _ _ => trivial)
        (.bind (returns_consumeReservation f _)
          (.bind (hasPolled_writeFill f) (hasPolled_progressOrder f))))

/-- What the snapshot statement of `apply_fill` returns. -/
def storedFill (self : SqliteSleeveLedger) (f : Fill) (db : SleeveDb) : Option Fill :=
  (db.fills.find? (self.sleeveId, f.orderId)).map (·.toFill)

theorem ends_snapshot (f : Fill) (db : SleeveDb) :
    (self.snapshot f.orderId).Ends (fun db' => db' = db) (.ok (storedFill self f db))
      (fun db' => db' = db) := by
  refine .get ?_
  rintro _ rfl
  rfl

theorem exec_applyFill_of_ok {f : Fill} {db : SleeveDb} {Q : SleeveDb → Prop}
    (h : (self.progress (storedFill self f db) f).Ends (fun db' => db' = db) (.ok ()) Q)
    (today : String) : Q ((self.call today (.applyFill f)).exec db).1 := by
  have hbody : ((self.snapshot f.orderId >>= fun prev => self.progress prev f) >>=
      fun _ => .ret Reply.done).Ends (fun db' => db' = db) (.ok Reply.done) Q :=
    .bind (.bind (ends_snapshot f db) h) (.ret _)
  exact (Call.exec_of_ok hbody .immediate rfl).1

theorem exec_applyFill_of_error {f : Fill} {db : SleeveDb} {e : LedgerError}
    (h : (self.progress (storedFill self f db) f).Ends (fun db' => db' = db) (.error e)
      (fun _ => True)) (today : String) : ((self.call today (.applyFill f)).exec db).1 = db := by
  have hbody : ((self.snapshot f.orderId >>= fun prev => self.progress prev f) >>=
      fun _ => .ret Reply.done).Ends (fun db' => db' = db) (.error e) (fun _ => True) :=
    .bind_error (.bind (ends_snapshot f db) h)
  exact congrArg Prod.fst (Call.exec_of_error hbody .immediate rfl)

/-- **A snapshot polled twice is settled once**: whatever the first call did, the second changes
    nothing. -/
theorem applyFill_twice (today today' : String) (f : Fill) (db : SleeveDb) :
    ((self.call today' (.applyFill f)).exec ((self.call today (.applyFill f)).exec db).1).1 =
      ((self.call today (.applyFill f)).exec db).1 := by
  have hnoop : ∀ d db, fillProgress (storedFill self f db) f = .noop →
      ((self.call d (.applyFill f)).exec db).1 = db := by
    intro d db hp
    refine exec_applyFill_of_ok (Q := fun db' => db' = db) ?_ d
    rw [SqliteSleeveLedger.progress, hp]
    exact .ret _
  cases hp : fillProgress (storedFill self f db) f with
  | noop => rw [hnoop today db hp, hnoop today' db hp]
  | regression =>
    have hraises : ∀ d, ((self.call d (.applyFill f)).exec db).1 = db := by
      refine exec_applyFill_of_error (e := .desync f.orderId
        (((storedFill self f db).map (·.filledQuantity)).getD 0) f.filledQuantity) ?_
      rw [SqliteSleeveLedger.progress, hp]
      exact fun db' _ => ⟨db', rfl, trivial⟩
    rw [hraises today, hraises today']
  | apply =>
    have hpolled : HasPolled self f ((self.call today (.applyFill f)).exec db).1 := by
      refine exec_applyFill_of_ok ?_ today
      rw [SqliteSleeveLedger.progress, hp]
      exact fun db' _ => hasPolled_settle _ f db' trivial
    exact hnoop today' _ hpolled.noop

/-- `_reserved_total`, as a sum over all rows. -/
def reservedIn (self : SqliteSleeveLedger) (c : Currency) (db : SleeveDb) : Decimal :=
  db.reservations.sum
    (fun r => if r.sleeveId = self.sleeveId ∧ r.currency = c then r.amount else 0)

/-- What the row of `coid` reserves in `c`. -/
def reservedFor (self : SqliteSleeveLedger) (coid : String) (c : Currency) (db : SleeveDb) :
    Decimal :=
  (db.reservations.find? (self.sleeveId, coid)).elim 0
    (fun r => if r.currency = c then r.amount else 0)

theorem reservedIn_eq (c : Currency) (db : SleeveDb) :
    ((db.reservations.rows.filter
      (fun r => decide (r.sleeveId = self.sleeveId ∧ r.currency = c))).map (·.amount)).sum =
      reservedIn self c db := by
  rw [sum_filter_map]
  simp only [decide_eq_true_eq]
  rfl

theorem reservedIn_writeReservation (coid : String) (c : Currency) (amount : Decimal)
    (db : SleeveDb) :
    reservedIn self c ((self.writeReservation coid c amount).run db).1 =
      reservedIn self c db - reservedFor self coid c db + amount := by
  have hsum := Table.sum_upsert db.reservations
    (fun r => if r.sleeveId = self.sleeveId ∧ r.currency = c then r.amount else 0)
    (fun old new => { old with amount := new.amount, currency := new.currency })
    ⟨self.sleeveId, coid, c, amount⟩ (fun _ h => h)
  unfold reservedIn reservedFor
  refine hsum.trans ?_
  cases hrow : db.reservations.find? (self.sleeveId, coid) with
  | none => simp
  | some r =>
    have hs : r.sleeveId = self.sleeveId := congrArg Prod.fst (Table.key_of_find? hrow)
    simp [hs]

/-- `available`, on the rows of `db`. -/
def availableIn (self : SqliteSleeveLedger) (today : String) (c : Currency) (db : SleeveDb) :
    Decimal :=
  ((db.cash.find? (self.sleeveId, c)).map (·.virtualCash)).getD 0 - reservedIn self c db -
    ((db.fills.rows.filter (fun r => decide (r.sleeveId = self.sleeveId ∧ r.currency = c ∧
      r.side = .SELL ∧ r.settlementDate > today))).map
      (fun r => r.avgPrice * r.filledQuantity - r.commission - r.tax)).sum

theorem run_available (today : String) (c : Currency) (db : SleeveDb) :
    (self.available today c).run db = (db, .ok (availableIn self today c db)) := by
  unfold availableIn
  rw [← reservedIn_eq]
  rfl

/-- The guarded write of `reserve`, and what it returns. -/
theorem ends_reserve (today coid : String) (amount : Decimal) (c : Currency) (db : SleeveDb) :
    (do
      let row ← self.reservation coid
      let prevSame := row.elim 0 (fun r => if r.currency = c then r.amount else 0)
      let available ← self.available today c
      if canReserve available prevSame amount then
        self.writeReservation coid c amount
        return true
      else
        return false : Sql Bool).Ends (fun d => d = db)
      (.ok (canReserve (availableIn self today c db) (reservedFor self coid c db) amount))
      (fun d => d = if canReserve (availableIn self today c db) (reservedFor self coid c db) amount
        then ((self.writeReservation coid c amount).run db).1 else db) := by
  refine .bind (.get (a := db.reservations.find? (self.sleeveId, coid)) (by rintro _ rfl; rfl)) ?_
  refine .bind (a := availableIn self today c db) (Q := fun d => d = db) ?_ ?_
  · rintro _ rfl
    exact ⟨_, run_available today c _, rfl⟩
  · show Proc.Ends _ (if canReserve (availableIn self today c db) (reservedFor self coid c db) amount
      then _ else _ : Sql Bool) _ _
    split
    · next hok =>
      rw [hok]
      refine .bind (.modify ?_) (.ret true)
      rintro _ rfl
      rfl
    · next hok =>
      rw [Bool.not_eq_true] at hok
      rw [hok]
      exact .ret false

/-- A guarded call that was admitted: its guard held, and its write is in the tables. -/
theorem exec_verdict {body : Sql Bool} {db db' written : SleeveDb} {verdict : Bool}
    (hbody : body.Ends (fun d => d = db) (.ok verdict)
      (fun d => d = if verdict then written else db))
    (h : (SqlCall.map Reply.verdict (.txn .immediate body)).exec db = (db', .ok (.verdict true))) :
    verdict = true ∧ db' = written := by
  have hmap : (body >>= fun b => .ret (Reply.verdict b)).Ends (fun d => d = db)
      (.ok (.verdict verdict)) (fun d => d = if verdict then written else db) :=
    .bind hbody (.ret _)
  obtain ⟨hdb, hres⟩ := Call.exec_of_ok hmap .immediate rfl
  have h' : (Call.txn .immediate (body >>= fun b => .ret (Reply.verdict b))).exec db =
      (db', .ok (.verdict true)) := h
  rw [h'] at hdb hres
  simp only [Except.ok.injEq, Reply.verdict.injEq] at hres
  rw [← hres] at hdb
  exact ⟨hres.symm, hdb⟩

/-- **What a reservation was admitted against is not available any more.** -/
theorem available_after_reserve {today coid : String} {amount : Decimal} {c : Currency}
    {db db' : SleeveDb}
    (h : (self.call today (.reserve coid amount c)).exec db = (db', .ok (.verdict true))) :
    0 ≤ availableIn self today c db' := by
  simp only [SqliteSleeveLedger.call, SqliteSleeveLedger.reserve] at h
  split at h
  · exact absurd (congrArg Prod.snd h) (by simp [SqlCall.map, Call.exec])
  · split at h
    · exact absurd (congrArg Prod.snd h) (by simp [SqlCall.map, Call.exec])
    · obtain ⟨hok, hdb⟩ := exec_verdict (ends_reserve today coid amount c db) h
      have hcap : amount ≤ availableIn self today c db + reservedFor self coid c db := by
        simpa [canReserve] using hok
      have hreserved := @reservedIn_writeReservation self coid c amount db
      rw [← hdb] at hreserved
      -- The reservations are the only table the write changed.
      have hcash : db'.cash = db.cash := by rw [hdb]; rfl
      have hfills : db'.fills = db.fills := by rw [hdb]; rfl
      have hafter : availableIn self today c db' + reservedIn self c db' =
          availableIn self today c db + reservedIn self c db := by
        unfold availableIn
        rw [hcash, hfills]
        ring
      linarith

/-- The open quantity of a ticker's SELL orders, the order of `excludeCoid` left out, as a sum over
    all rows. -/
def openIn (self : SqliteSleeveLedger) (filled : String → Decimal) (ticker : String)
    (excludeCoid : Option String) (db : SleeveDb) : Decimal :=
  db.orders.sum (fun r => if r.sleeveId = self.sleeveId then
    (if some r.clientOrderId = excludeCoid then 0 else r.orderRow.remaining filled ticker) else 0)

/-- `_sell_availability`, on the rows of `db`. -/
def sellableIn (self : SqliteSleeveLedger) (ticker : String) (excludeCoid : Option String)
    (db : SleeveDb) : Decimal :=
  positionQuantity (positionRows (((db.fills.rows.filter
      (fun r => decide (r.sleeveId = self.sleeveId))).insertionSort
        (fun r s => r.orderId ≤ s.orderId)).map (·.toFill))) ticker -
    openIn self (fun o => ((findRow (·.orderId) o (db.fills.rows.filter
      (fun r => decide (r.sleeveId = self.sleeveId)))).map (·.filledQuantity)).getD 0)
      ticker excludeCoid db

theorem run_sellAvailability (ticker : String) (excludeCoid : Option String) (db : SleeveDb) :
    (self.sellAvailability ticker excludeCoid).run db =
      (db, .ok (sellableIn self ticker excludeCoid db)) := by
  show (db, Except.ok (_ - openSellQty _ _ ticker excludeCoid)) = _
  rw [openSellQty_eq_sum, List.map_map, sum_filter_map]
  simp only [decide_eq_true_eq]
  rfl

/-- Registering an order of `q` opens `q` at most, beside the other orders. -/
theorem openIn_writeOrder (coid o sym : String) (c : Currency) {q : Decimal} (hq : 0 ≤ q)
    {filled : String → Decimal} (hfilled : ∀ o, 0 ≤ filled o) (db : SleeveDb) :
    openIn self filled sym none ((self.writeOrder coid o sym .SELL c q).run db).1 ≤
      openIn self filled sym (some coid) db + q := by
  have hnew : ∀ r : OrderRecord, r.symbol = sym → r.side = .SELL → r.status = .PENDING →
      r.quantity = q → r.orderRow.remaining filled sym ≤ q := by
    intro r hsym hside hst hrq
    have hopen : r.orderRow.IsOpenSell sym :=
      ⟨hsym, hside, (congrArg (· ∈ openStatuses) hst).mpr pending_mem_openStatuses⟩
    rw [OrderRow.remaining_of_open filled hopen]
    have hnonneg := hfilled r.orderRow.orderId
    have hrecorded : r.orderRow.recorded = q := hrq
    exact max_le (by linarith) hq
  -- Leaving the order out is leaving its row out.
  have hexcept := Table.sum_except db.orders (fun r => if r.sleeveId = self.sleeveId then
    r.orderRow.remaining filled sym else 0) (self.sleeveId, coid)
  have hopen : openIn self filled sym (some coid) db = db.orders.sum (fun r =>
      if r.key = (self.sleeveId, coid) then 0 else if r.sleeveId = self.sleeveId then
        r.orderRow.remaining filled sym else 0) := by
    refine Table.sum_congr fun r _ => ?_
    by_cases hs : r.sleeveId = self.sleeveId <;> simp [hs]
  rw [hopen, hexcept]
  unfold openIn SqliteSleeveLedger.writeOrder
  simp only [Proc.run_modify, reduceCtorEq, if_false]
  rw [Table.sum_upsert]
  cases hrow : db.orders.find? (self.sleeveId, coid) with
  | none =>
    simp only [Option.elim_none, if_true]
    exact add_le_add_right (hnew _ rfl rfl rfl rfl) _
  | some r =>
    have hs : r.sleeveId = self.sleeveId := congrArg Prod.fst (Table.key_of_find? hrow)
    simp only [Option.elim_some, hs, if_true]
    exact add_le_add_right (hnew _ rfl rfl rfl rfl) _

/-- The guarded write of `reserve_sell`, and what it returns. -/
theorem ends_reserveSell (coid o sym : String) (c : Currency) (q : Decimal) (db : SleeveDb) :
    (do
      let available ← self.sellAvailability sym (some coid)
      if q > available then
        return false
      else
        self.writeOrder coid o sym .SELL c q
        return true : Sql Bool).Ends (fun d => d = db)
      (.ok (decide (q ≤ sellableIn self sym (some coid) db)))
      (fun d => d = if decide (q ≤ sellableIn self sym (some coid) db) then
        ((self.writeOrder coid o sym .SELL c q).run db).1 else db) := by
  refine .bind (a := sellableIn self sym (some coid) db) (Q := fun d => d = db) ?_ ?_
  · rintro _ rfl
    exact ⟨_, run_sellAvailability sym (some coid) _, rfl⟩
  · by_cases hq : q ≤ sellableIn self sym (some coid) db
    · rw [if_neg (not_lt.mpr hq), decide_eq_true hq]
      refine .bind (.modify ?_) (.ret true)
      rintro _ rfl
      rfl
    · rw [if_pos (not_le.mp hq), decide_eq_false hq]
      exact .ret false

theorem filledIn_nonneg (rows : List FillRow) (o : String) :
    0 ≤ ((findRow (·.orderId) o rows).map (·.filledQuantity)).getD (0 : Decimal) := by
  cases findRow (·.orderId) o rows with
  | none => exact le_refl _
  | some r => exact le_of_lt r.filledQuantity_pos

/-- **What a SELL registration was admitted against is not for sale any more.** -/
theorem sellable_after_reserveSell {today coid o sym : String} {c : Currency} {q : Decimal}
    (hq : 0 ≤ q) {db db' : SleeveDb}
    (h : (self.call today (.reserveSell coid o sym c q)).exec db = (db', .ok (.verdict true))) :
    0 ≤ sellableIn self sym none db' := by
  simp only [SqliteSleeveLedger.call, SqliteSleeveLedger.reserveSell] at h
  split at h
  · exact absurd (congrArg Prod.snd h) (by simp [SqlCall.map, Call.exec])
  · obtain ⟨hok, hdb⟩ := exec_verdict (ends_reserveSell coid o sym c q db) h
    have hcap := of_decide_eq_true hok
    have hfills : db'.fills = db.fills := by rw [hdb]; rfl
    have hopen := @openIn_writeOrder self coid o sym c q hq _
      (filledIn_nonneg (db.fills.rows.filter (fun r => decide (r.sleeveId = self.sleeveId)))) db
    rw [← hdb] at hopen
    unfold sellableIn at hcap ⊢
    rw [hfills]
    linarith

end Once

/-! ## 3. Serialisability -/

/-- **Calls serialise, and are all or nothing.** If no transaction with writes in it is left open,
    then however the statements of the calls are interleaved and wherever calls raise: the tables
    and the returned values are those of the committed calls, one at a time in commit order.

    In such a run a snapshot polled twice is settled once, and an admitted reservation or
    registration has used up what it was admitted against. -/
theorem calls_serialise {db₀ : SleeveDb}
    {s : Txn.State SleeveDb NoAnswer LedgerError Reply LedgerCall} (h : Concurrent db₀ False s) :
    Txn.Serial LedgerCall.program db₀ s.log s.db ∧
      (∀ (self : SqliteSleeveLedger) (today today' : String) (f : Fill) (db : SleeveDb),
        ((self.call today' (.applyFill f)).exec ((self.call today (.applyFill f)).exec db).1).1 =
          ((self.call today (.applyFill f)).exec db).1) ∧
      (∀ (self : SqliteSleeveLedger) (today coid : String) (amount : Decimal) (c : Currency)
        (db db' : SleeveDb),
        (self.call today (.reserve coid amount c)).exec db = (db', .ok (.verdict true)) →
        0 ≤ availableIn self today c db') ∧
      (∀ (self : SqliteSleeveLedger) (today coid o sym : String) (c : Currency) (q : Decimal)
        (db db' : SleeveDb), 0 ≤ q →
        (self.call today (.reserveSell coid o sym c q)).exec db = (db', .ok (.verdict true)) →
        0 ≤ sellableIn self sym none db') :=
  ⟨Txn.serialisable h, fun _ _ _ _ _ => applyFill_twice _ _ _ _,
    fun _ _ _ _ _ _ _ hexec => available_after_reserve hexec,
    fun _ _ _ _ _ _ _ _ _ hq hexec => sellable_after_reserveSell hq hexec⟩

/-- Nothing has happened on `db`. -/
def initially (db : SleeveDb) : Txn.State SleeveDb NoAnswer LedgerError Reply LedgerCall :=
  ⟨db, fun _ => .idle, []⟩

theorem initially_start (db : SleeveDb) (leak : Prop) : Concurrent db leak (initially db) :=
  .start ⟨rfl, fun _ => rfl, rfl⟩

/-! Two processes poll the same execution, and both settle it. -/

def pollCall : LedgerCall :=
  ⟨⟨"a"⟩, "2026-01-02", .applyFill (.whole "o1" "c1" "AAPL" .BUY .USD 9 100 1 "")⟩

theorem calls_serialise_polledTwice :
    ∃ s, Concurrent .empty False s ∧ s.log = [(pollCall, .done), (pollCall, .done)] ∧
      Txn.Serial LedgerCall.program .empty s.log s.db := by
  have hfree : ∀ db log, (⟨db, fun _ => .idle, log⟩ :
      Txn.State SleeveDb NoAnswer LedgerError Reply LedgerCall).Free := fun _ _ _ h => h
  have hfirst : pollCall.program.exec .empty = ((pollCall.program.exec .empty).1, .ok .done) :=
    Prod.ext rfl (by decide +kernel)
  have hsecond : pollCall.program.exec (pollCall.program.exec .empty).1 =
      ((pollCall.program.exec (pollCall.program.exec .empty).1).1, .ok .done) :=
    Prod.ext rfl (by decide +kernel)
  have h₁ := Txn.undisturbed (i := 0) (initially_start .empty False) rfl
    (hfree _ _) rfl hfirst
  have h₂ := Txn.undisturbed (i := 1) h₁ rfl (hfree _ _) rfl hsecond
  exact ⟨_, h₂, rfl, (calls_serialise h₂).1⟩

/-! ## 4. A COMMIT that raises -/

/-- The ledger with a capital of 1000. -/
def openedDb : SleeveDb := ((SqliteSleeveLedger.mk "a").handle .empty (.opened 1000 .USD)).1

def reserveCall : LedgerCall := ⟨⟨"a"⟩, "2026-01-02", .reserve "c1" 900 .USD⟩

def recordCall : LedgerCall := ⟨⟨"a"⟩, "2026-01-02", .recordOrder "c2" "o2" "AAPL" .BUY .USD 1⟩

/-- `reserve` raises at its COMMIT, and what it wrote is committed by the connection's next call:
    the raising call has contributed a reservation. -/
theorem commit_fails_open : ¬ ∀ (db₀ : SleeveDb)
    (s : Txn.State SleeveDb NoAnswer LedgerError Reply LedgerCall), Concurrent db₀ True s →
      Txn.Serial LedgerCall.program db₀ s.log s.db := by
  intro h
  have hreserve : reserveCall.program.exec openedDb =
      ((reserveCall.program.exec openedDb).1, .ok (.verdict true)) :=
    Prod.ext rfl (by decide +kernel)
  have hrecord : ∀ db, recordCall.program.exec db = ((recordCall.program.exec db).1, .ok .done) :=
    fun _ => rfl
  -- BEGIN IMMEDIATE and the five statements of `reserve`; its COMMIT raises.
  have h₁ := (initially_start openedDb True).step (.begin (i := 0)
    (c := reserveCall) rfl rfl fun _ h => h)
  have h₂ := (Txn.statements h₁ (Call.run_of_exec hreserve)).step
    (.leftOpen (by decide) (Txn.conn_put_self _ _ _) (.inl trivial))
  rw [Txn.put_put] at h₂
  -- `record_order` on the same connection joins the open transaction, and commits it.
  have h₃ := h₂.step (.join (c := recordCall) (i := 0) rfl (by decide) (Txn.conn_put_self _ _ _))
  rw [Txn.put_put] at h₃
  have h₄ := (Txn.statements h₃ (Call.run_of_exec (hrecord _))).step
    (.committed (Txn.conn_put_self _ _ _))
  have hserial := h openedDb _ h₄
  have halone : Txn.Serial LedgerCall.program openedDb ([] ++ [(recordCall, .done)])
      (recordCall.program.exec openedDb).1 := .snoc .nil (hrecord openedDb)
  have hreserved := congrArg (fun db => (SleeveDb.reservations db).find? ("a", "c1") |>.isSome)
    (hserial.unique halone)
  exact absurd hreserved (by decide +kernel)

end Proof

end TossSleeve
