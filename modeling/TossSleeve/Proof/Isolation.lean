import TossSleeve.Ledger.Sqlite

/-!
# `Proof/Isolation.lean` — sleeves of one database do not interfere

Nothing in the schema keeps two sleeves apart but the first component of every primary key, and
the `WHERE sleeve_id = ?` of every statement. So isolation is proved statement by statement, and a
statement has two things to prove (`Confined`). On the rows of its own sleeve it does, and
answers, the same whether or not other sleeves have rows beside them. And the rows of any other
sleeve it leaves as they are.

Both are closed under sequencing, so they hold of every method, and of every call up to its
commit or rollback; and a run of any interleaving, cut down to the rows of one sleeve, is the run
of that sleeve's own calls (`after_only`). Deleting another sleeve's calls deletes nothing of it.
-/

set_option autoImplicit false

namespace TossSleeve

open Lib

namespace Proof

open SqliteSleeveLedger

/-! ## 1. Confinement -/

/-- A program of sleeve `sid` that has nothing to do with other sleeves. -/
structure Confined (sid : String) {α : Type} (p : Sql α) : Prop where
  own : p.Commutes (SleeveDb.only sid)
  others : ∀ b, b ≠ sid → p.Leaves (SleeveDb.only b)

namespace Confined

variable {sid : String} {α β : Type}

theorem ret (a : α) : Confined sid (.ret a) := ⟨trivial, fun _ _ => trivial⟩

theorem raise (e : LedgerError) : Confined sid (.raise e : Sql α) := ⟨trivial, fun _ _ => trivial⟩

theorem bind {p : Sql α} {f : α → Sql β} (hp : Confined sid p) (hf : ∀ a, Confined sid (f a)) :
    Confined sid (p >>= f) :=
  ⟨Proc.Commutes.bind (fun a => (hf a).own) hp.own,
   fun b hb => Proc.Leaves.bind (fun a => (hf a).others b hb) (hp.others b hb)⟩

theorem get {q : SleeveDb → α} (h : ∀ db : SleeveDb, q (db.only sid) = q db) :
    Confined sid (.get q) :=
  ⟨Proc.commutes_get h, fun _ _ => Proc.leaves_get q⟩

theorem modify {upd : SleeveDb → SleeveDb} (h : ∀ db : SleeveDb, upd (db.only sid) =
    (upd db).only sid) (hb : ∀ b, b ≠ sid → ∀ db : SleeveDb, (upd db).only b = db.only b) :
    Confined sid (.modify upd) :=
  ⟨Proc.commutes_modify h, fun b hne => Proc.leaves_modify (hb b hne)⟩

theorem cash {f : Table CashRow (String × Currency) CashRow.key → Table CashRow _ CashRow.key}
    (h : Table.WithinPart sid f) : Confined sid (.modify fun db => { db with cash := f db.cash }) :=
  .modify (fun db => by simp only [SleeveDb.only, h.own])
    (fun b hb db => by simp only [SleeveDb.only, h.others b hb])

theorem reservations {f : Table ReservationRow (String × String) ReservationRow.key →
    Table ReservationRow _ ReservationRow.key} (h : Table.WithinPart sid f) :
    Confined sid (.modify fun db => { db with reservations := f db.reservations }) :=
  .modify (fun db => by simp only [SleeveDb.only, h.own])
    (fun b hb db => by simp only [SleeveDb.only, h.others b hb])

theorem orders {f : Table OrderRecord (String × String) OrderRecord.key →
    Table OrderRecord _ OrderRecord.key} (h : Table.WithinPart sid f) :
    Confined sid (.modify fun db => { db with orders := f db.orders }) :=
  .modify (fun db => by simp only [SleeveDb.only, h.own])
    (fun b hb db => by simp only [SleeveDb.only, h.others b hb])

theorem fills {f : Table FillRow (String × String) FillRow.key → Table FillRow _ FillRow.key}
    (h : Table.WithinPart sid f) :
    Confined sid (.modify fun db => { db with fills := f db.fills }) :=
  .modify (fun db => by simp only [SleeveDb.only, h.own])
    (fun b hb db => by simp only [SleeveDb.only, h.others b hb])

end Confined

/-! ## 2. Every statement is confined -/

section Statements

variable (self : SqliteSleeveLedger)

theorem confined_ensureCurrency (c : Currency) :
    Confined self.sleeveId (self.ensureCurrency c) :=
  .cash (Table.withinPart_upsert _ (by rfl))

theorem confined_vc (c : Currency) : Confined self.sleeveId (self.vc c) :=
  .get fun db => by simp only [SleeveDb.only, Table.find?_part]

theorem confined_setVc (c : Currency) (value : Decimal) :
    Confined self.sleeveId (self.setVc c value) :=
  .cash (Table.withinPart_update _ _ _)

theorem confined_reservedTotal (c : Currency) :
    Confined self.sleeveId (self.reservedTotal c) := by
  refine .get fun db => ?_
  simp only [SleeveDb.only]
  rw [Table.filter_part _ fun r hr => (of_decide_eq_true hr).1]

theorem confined_settlementPending (today : String) (c : Currency) :
    Confined self.sleeveId (self.settlementPending today c) := by
  refine .get fun db => ?_
  simp only [SleeveDb.only]
  rw [Table.filter_part _ fun r hr => (of_decide_eq_true hr).1]

theorem confined_reservation (coid : String) :
    Confined self.sleeveId (self.reservation coid) :=
  .get fun db => by simp only [SleeveDb.only, Table.find?_part]

theorem confined_writeReservation (coid : String) (c : Currency) (amount : Decimal) :
    Confined self.sleeveId (self.writeReservation coid c amount) :=
  .reservations (Table.withinPart_upsert _ (by rfl))

theorem confined_setReservation (coid : String) (amount : Decimal) :
    Confined self.sleeveId (self.setReservation coid amount) :=
  .reservations (Table.withinPart_update _ _ _)

theorem confined_deleteReservation (coid : String) :
    Confined self.sleeveId (self.deleteReservation coid) :=
  .reservations (Table.withinPart_delete _ _)

theorem confined_writeOrder (coid o sym : String) (side : OrderSide) (c : Currency)
    (q : Decimal) : Confined self.sleeveId (self.writeOrder coid o sym side c q) :=
  .orders (Table.withinPart_upsert _ (by rfl))

theorem confined_setStatus (coid : String) (st : OrderStatus) :
    Confined self.sleeveId (self.setStatus coid st) :=
  .orders (Table.withinPart_update _ _ _)

theorem confined_recordedQty (coid : String) :
    Confined self.sleeveId (self.recordedQty coid) :=
  .get fun db => by simp only [SleeveDb.only, Table.find?_part]

theorem confined_snapshot (orderId : String) :
    Confined self.sleeveId (self.snapshot orderId) :=
  .get fun db => by simp only [SleeveDb.only, Table.find?_part]

theorem confined_writeFill (f : Fill) : Confined self.sleeveId (self.writeFill f) :=
  .fills (Table.withinPart_upsert _ (by rfl))

theorem confined_insertCashflow (c : Currency) (amount : Decimal) (memo : String) :
    Confined self.sleeveId (self.insertCashflow c amount memo) := by
  refine .modify (fun db => ?_) (fun b hb db => ?_)
  · simp [SleeveDb.only]
  · have hne : self.sleeveId ≠ b := fun e => hb e.symm
    simp [SleeveDb.only, hne]

theorem own_fills (db : SleeveDb) (sid : String) :
    (db.fills.part sid).rows.filter (fun r => decide (r.sleeveId = sid)) =
      db.fills.rows.filter (fun r => decide (r.sleeveId = sid)) :=
  Table.filter_part db.fills fun _ hr => of_decide_eq_true hr

theorem own_orders (db : SleeveDb) (sid : String) :
    (db.orders.part sid).rows.filter (fun r => decide (r.sleeveId = sid)) =
      db.orders.rows.filter (fun r => decide (r.sleeveId = sid)) :=
  Table.filter_part db.orders fun _ hr => of_decide_eq_true hr

theorem confined_allSnapshots : Confined self.sleeveId self.allSnapshots := by
  refine .get fun db => ?_
  simp only [SleeveDb.only]
  rw [own_fills]

theorem confined_orderRows : Confined self.sleeveId self.orderRows := by
  refine .get fun db => ?_
  simp only [SleeveDb.only]
  rw [own_orders]

theorem confined_filledByOrderId : Confined self.sleeveId self.filledByOrderId := by
  refine .get fun db => ?_
  simp only [SleeveDb.only]
  rw [own_fills]

theorem confined_orderStatus (coid : String) :
    Confined self.sleeveId (self.orderStatus coid) :=
  .get fun db => by simp only [SleeveDb.only, Table.find?_part]

theorem confined_clientOrderIdFor (choice : RowChoice) (orderId : String) :
    Confined self.sleeveId (self.clientOrderIdFor choice orderId) := by
  refine .get fun db => ?_
  simp only [SleeveDb.only]
  rw [Table.filter_part _ fun r hr => (of_decide_eq_true hr).1]

/-! ## 3. Every method is confined -/

theorem confined_available (today : String) (c : Currency) :
    Confined self.sleeveId (self.available today c) :=
  .bind (confined_vc self c) fun _ =>
    .bind (confined_reservedTotal self c) fun _ =>
      .bind (confined_settlementPending self today c) fun _ => .ret _

theorem confined_positions : Confined self.sleeveId self.positions :=
  .bind (confined_allSnapshots self) fun _ => .ret _

theorem confined_positionQuantity (ticker : String) :
    Confined self.sleeveId (self.positionQuantity ticker) :=
  .bind (confined_positions self) fun _ => .ret _

theorem confined_sellAvailability (ticker : String) (excludeCoid : Option String) :
    Confined self.sleeveId (self.sellAvailability ticker excludeCoid) :=
  .bind (confined_orderRows self) fun _ =>
    .bind (confined_filledByOrderId self) fun _ =>
      .bind (confined_positionQuantity self ticker) fun _ => .ret _

theorem confined_consumeReservation (f : Fill) (delta : Decimal) :
    Confined self.sleeveId (self.consumeReservation f delta) := by
  unfold consumeReservation
  split
  · refine .bind (confined_reservation self _) fun row => ?_
    cases row with
    | none => exact .ret _
    | some r =>
      refine .bind (confined_recordedQty self _) fun q => ?_
      cases reservationAfterFill q f.filledQuantity r.amount delta with
      | none => exact confined_deleteReservation self _
      | some left => exact confined_setReservation self _ _
  · exact .ret _

theorem confined_progressOrder (f : Fill) : Confined self.sleeveId (self.progressOrder f) := by
  unfold progressOrder
  split
  · exact .bind (confined_recordedQty self _) fun _ => confined_setStatus self _ _
  · exact .ret _

theorem confined_settle (prev : Option Fill) (f : Fill) :
    Confined self.sleeveId (self.settle prev f) :=
  .bind (confined_ensureCurrency self _) fun _ =>
    .bind (confined_vc self _) fun _ =>
      .bind (confined_setVc self _ _) fun _ =>
        .bind (confined_consumeReservation self f _) fun _ =>
          .bind (confined_writeFill self f) fun _ => confined_progressOrder self f

/-! ## 4. Every call is confined -/

/-- A call of sleeve `sid` none of whose statements has anything to do with other sleeves. -/
def ConfinedCall (sid : String) {α : Type} : SqlCall α → Prop
  | .rejects _ => True
  | .txn _ body => Confined sid body

theorem ConfinedCall.map {sid : String} {α β : Type} (f : α → β) : ∀ {c : SqlCall α},
    ConfinedCall sid c → ConfinedCall sid (c.map f)
  | .rejects _, _ => trivial
  | .txn _ _, h => Confined.bind h fun _ => .ret _

theorem confined_init (cap : Decimal) (base : Currency) :
    ConfinedCall self.sleeveId (init self.sleeveId cap base) := by
  unfold init
  split
  · trivial
  · split
    · trivial
    · exact .cash (Table.withinPart_upsert _ (by rfl))

theorem confined_reserve (today coid : String) (amount : Decimal) (c : Currency) :
    ConfinedCall self.sleeveId (self.reserve today coid amount c) := by
  unfold reserve
  split
  · trivial
  · split
    · trivial
    · refine .bind (confined_reservation self coid) fun row => ?_
      refine .bind (confined_available self today c) fun available => ?_
      split
      · exact .bind (confined_writeReservation self _ _ _) fun _ => .ret _
      · exact .ret _

theorem confined_reserveSell (coid o sym : String) (c : Currency) (q : Decimal) :
    ConfinedCall self.sleeveId (self.reserveSell coid o sym c q) := by
  unfold reserveSell
  split
  · trivial
  · refine .bind (confined_sellAvailability self sym (some coid)) fun available => ?_
    split
    · exact .ret _
    · exact .bind (confined_writeOrder self _ _ _ _ _ _) fun _ => .ret _

theorem confined_applyFill (f : Fill) : ConfinedCall self.sleeveId (self.applyFill f) := by
  refine .bind (confined_snapshot self _) fun prev => ?_
  unfold progress
  cases fillProgress prev f with
  | noop => exact .ret _
  | regression => exact .raise _
  | apply => exact confined_settle self prev f

theorem confined_recordCashflow (amount : Decimal) (c : Currency) (memo : String) :
    ConfinedCall self.sleeveId (self.recordCashflow amount c memo) :=
  .bind (confined_ensureCurrency self c) fun _ =>
    .bind (confined_vc self c) fun _ =>
      .bind (confined_setVc self c _) fun _ => confined_insertCashflow self c amount memo

theorem confined_markOrderTerminal (coid : String) (st : OrderStatus) :
    ConfinedCall self.sleeveId (self.markOrderTerminal coid st) :=
  .bind (confined_setStatus self coid st) fun _ => confined_deleteReservation self coid

theorem confined_eventCall (ev : LedgerEvent) : ConfinedCall self.sleeveId (self.eventCall ev) := by
  rcases ev with ⟨cap, base⟩ | ⟨today, op⟩
  · exact (confined_init self cap base).map _
  · cases op with
    | reserve c amount cur => exact (confined_reserve self today c amount cur).map _
    | release c =>
      exact ConfinedCall.map (c := self.release c) _ (confined_deleteReservation self c)
    | recordOrder c o sym side cur q =>
      exact ConfinedCall.map (c := self.recordOrder c o sym side cur q) _
        (confined_writeOrder self c o sym side cur q)
    | reserveSell c o sym cur q => exact (confined_reserveSell self c o sym cur q).map _
    | applyFill f => exact (confined_applyFill self f).map _
    | recordCashflow amount cur memo => exact (confined_recordCashflow self amount cur memo).map _
    | markOrderTerminal c st => exact (confined_markOrderTerminal self c st).map _

end Statements

/-- Up to its end a confined call does, on its own sleeve's rows, what it does on all rows. -/
theorem ConfinedCall.exec_own {sid : String} {α : Type} : ∀ {c : SqlCall α},
    ConfinedCall sid c → ∀ db : SleeveDb,
      c.exec (db.only sid) = ((c.exec db).1.only sid, (c.exec db).2)
  | .rejects _, _, _ => rfl
  | .txn b body, h, db => by
    have hrun := Proc.Commutes.run (Confined.own h) db
    simp only [Call.exec, hrun]
    rcases body.run db with ⟨db', r⟩
    cases r <;> rfl

/-- And the rows of every other sleeve are the same after it as before it. -/
theorem ConfinedCall.exec_others {sid b : String} (hb : b ≠ sid) {α : Type} : ∀ {c : SqlCall α},
    ConfinedCall sid c → ∀ db : SleeveDb, (c.exec db).1.only b = db.only b
  | .rejects _, _, _ => rfl
  | .txn br body, h, db => by
    have hrun := Proc.Leaves.run (Confined.others h b hb) db
    simp only [Call.exec]
    revert hrun
    rcases body.run db with ⟨db', r⟩
    intro hrun
    cases r with
    | ok a => exact hrun
    | error e => rfl

/-! ## 5. Runs of several sleeves -/

/-- The events of any number of sleeves, in the order they happen, and what was answered to
    whom. -/
def handleAll : SleeveDb → List (String × LedgerEvent) → SleeveDb × List (String × Reply)
  | db, [] => (db, [])
  | db, (sid, ev) :: evs =>
    let (db', reply) := (SqliteSleeveLedger.mk sid).handle db ev
    let (db'', replies) := handleAll db' evs
    (db'', (sid, reply) :: replies)

/-- What was answered to `b`. -/
def repliesTo (b : String) (replies : List (String × Reply)) : List Reply :=
  (replies.filter (fun r => decide (r.1 = b))).map Prod.snd

/-- The events that are left when `a`'s are deleted. -/
def without (a : String) (evs : List (String × LedgerEvent)) : List (String × LedgerEvent) :=
  evs.filter (fun e => decide (e.1 ≠ a))

theorem without_cons_self (a : String) (ev : LedgerEvent) (evs : List (String × LedgerEvent)) :
    without a ((a, ev) :: evs) = without a evs := by
  simp [without]

theorem without_cons_other {a sid : String} (h : sid ≠ a) (ev : LedgerEvent)
    (evs : List (String × LedgerEvent)) :
    without a ((sid, ev) :: evs) = (sid, ev) :: without a evs := by
  simp [without, h]

theorem handle_own {b : String} {db db' : SleeveDb} (h : db.only b = db'.only b) (ev : LedgerEvent) :
    ((SqliteSleeveLedger.mk b).handle db ev).1.only b =
        ((SqliteSleeveLedger.mk b).handle db' ev).1.only b ∧
      ((SqliteSleeveLedger.mk b).handle db ev).2 = ((SqliteSleeveLedger.mk b).handle db' ev).2 := by
  have hcall := confined_eventCall ⟨b⟩ ev
  have h₁ := hcall.exec_own db
  have h₂ := hcall.exec_own db'
  rw [h] at h₁
  obtain ⟨hdb, hresult⟩ := Prod.ext_iff.mp (h₁.symm.trans h₂)
  exact ⟨hdb, congrArg replyOf hresult⟩

theorem handle_others {a b : String} (hab : b ≠ a) (db : SleeveDb) (ev : LedgerEvent) :
    ((SqliteSleeveLedger.mk a).handle db ev).1.only b = db.only b :=
  (confined_eventCall ⟨a⟩ ev).exec_others hab db

/-- The run lemma. Two databases that agree on the rows of `b`, one given all events and one given
    those left when `a`'s are deleted, agree on the rows of `b` after the run too, and have given
    `b` the same answers. -/
theorem handleAll_only {a b : String} (hab : b ≠ a) (evs : List (String × LedgerEvent)) :
    ∀ {db db' : SleeveDb}, db.only b = db'.only b →
      (handleAll db evs).1.only b = (handleAll db' (without a evs)).1.only b ∧
        repliesTo b (handleAll db evs).2 = repliesTo b (handleAll db' (without a evs)).2 := by
  induction evs with
  | nil =>
    intro db db' h
    exact ⟨h, rfl⟩
  | cons e evs ih =>
    intro db db' h
    obtain ⟨sid, ev⟩ := e
    by_cases ha : sid = a
    · -- A deleted event: `b`'s rows are untouched, and it was not `b` that was answered.
      subst ha
      have hne : ¬ sid = b := fun e => hab e.symm
      rw [without_cons_self]
      obtain ⟨hdb, hrep⟩ := ih ((handle_others hab db ev).trans h)
      refine ⟨hdb, ?_⟩
      simpa [handleAll, repliesTo, hne] using hrep
    · rw [without_cons_other ha]
      by_cases hb : sid = b
      · -- An event of `b` does and answers the same on both.
        subst hb
        obtain ⟨hstep, hreply⟩ := handle_own h ev
        obtain ⟨hdb, hrep⟩ := ih hstep
        refine ⟨hdb, ?_⟩
        simpa [handleAll, repliesTo, hreply] using hrep
      · -- One of a third sleeve does nothing to `b`'s rows on both.
        have hstep := (handle_others (Ne.symm hb) db ev).trans
          (h.trans (handle_others (Ne.symm hb) db' ev).symm)
        obtain ⟨hdb, hrep⟩ := ih hstep
        refine ⟨hdb, ?_⟩
        simpa [handleAll, repliesTo, hb] using hrep

/-- Nothing a ledger shows depends on the rows of other sleeves. -/
theorem observed_only (choice : RowChoice) (b : String) (db : SleeveDb) :
    (SqliteSleeveLedger.mk b).observed choice (db.only b) =
      (SqliteSleeveLedger.mk b).observed choice db := by
  have hread : ∀ {α : Type} {p : Sql α}, Confined b p →
      (p.run (db.only b)).2 = (p.run db).2 := by
    intro α p h
    rw [h.own.run db]
  unfold SqliteSleeveLedger.observed
  congr 1
  · exact funext fun c => hread (confined_vc ⟨b⟩ c)
  · exact funext fun today => funext fun c => hread (confined_available ⟨b⟩ today c)
  · exact hread (confined_positions ⟨b⟩)
  · exact funext fun ticker => hread (confined_positionQuantity ⟨b⟩ ticker)
  · exact funext fun ticker => hread (confined_sellAvailability ⟨b⟩ ticker none)
  · exact funext fun coid => hread (confined_orderStatus ⟨b⟩ coid)
  · exact funext fun orderId => hread (confined_clientOrderIdFor ⟨b⟩ choice orderId)

/-- **Isolation.** On a database shared by any sleeves, and for any interleaving of their events,
    with whatever ids in common: what `b` is answered, and what `b` can observe in the end, is
    the same when all events of `a` are deleted. -/
theorem sleeves_isolated {a b : String} (hab : a ≠ b) (choice : RowChoice) (db : SleeveDb)
    (evs : List (String × LedgerEvent)) :
    repliesTo b (handleAll db evs).2 = repliesTo b (handleAll db (without a evs)).2 ∧
      (SqliteSleeveLedger.mk b).observed choice (handleAll db evs).1 =
        (SqliteSleeveLedger.mk b).observed choice (handleAll db (without a evs)).1 := by
  have hsame : db.only b = db.only b := rfl
  obtain ⟨hdb, hrep⟩ := handleAll_only (Ne.symm hab) evs hsame
  refine ⟨hrep, ?_⟩
  rw [← observed_only choice b (handleAll db evs).1, hdb, observed_only]

/-- Two sleeves that use the same ids: `a` reserves, is filled, and opens its ledger again; what
    `b` reserves under the same client order id is its own. -/
def sameIdsRun : List (String × LedgerEvent) :=
  [("a", .opened 1000 .USD), ("b", .opened 50 .USD),
   ("a", .called "2026-01-02" (.reserve "c1" 900 .USD)),
   ("b", .called "2026-01-02" (.reserve "c1" 60 .USD)),
   ("a", .called "2026-01-02" (.applyFill (.whole "o1" "c1" "AAPL" .BUY .USD 9 100 1 ""))),
   ("b", .called "2026-01-02" (.reserve "c1" 40 .USD)), ("a", .opened 1000 .USD)]

theorem sleeves_isolated_sameIds :
    repliesTo "b" (handleAll .empty sameIdsRun).2 =
        [.done, .verdict false, .verdict true] ∧
      (SqliteSleeveLedger.mk "b").observed .first (handleAll .empty sameIdsRun).1 =
        (SqliteSleeveLedger.mk "b").observed .first
          (handleAll .empty (without "a" sameIdsRun)).1 := by
  have hisolated := sleeves_isolated (a := "a") (b := "b") (by decide) .first .empty sameIdsRun
  refine ⟨hisolated.1.trans ?_, hisolated.2⟩
  decide +kernel

end Proof

end TossSleeve
