import TossSleeve.Proof.Processes
import TossSleeve.Proof.Interchange
import TossSleeve.Proof.Cash

/-!
# `Proof/Books.lean` — the books of a database balance

The database keeps more than a ledger needs to answer: the capital each bucket was opened with, and
every deposit and withdrawal, row by row. Nothing in the ledger reads them back; they are there for
whoever wants to know, later, whether the cash is right.

It is, at every commit, however many processes of however many sleeves there are: the cash of a row
is its capital, what was paid in or out, and the signed cash of the executions that are stored. The
capital is that of the one call that made the row. A constructor that comes second adds nothing,
whatever capital it was given; and one that names another currency opens another bucket.

§1 says in five cases what a committed call does to the three tables (`Booked`); §2 is the
invariant.
-/

set_option autoImplicit false

namespace TossSleeve

open Lib

/-! ## 1. Posting -/

/-- What the call would open a bucket with, if there were none. -/
def Issued.endows (sid : String) (c : Currency) (i : Issued) : Option Decimal :=
  if i.ledger.sleeveId = sid then
    match i.event with
    | .opened cap base => if base = c then some cap else none
    | .called _ (.applyFill f) => if f.currency = c then some 0 else none
    | .called _ (.recordCashflow _ cur _) => if cur = c then some 0 else none
    | .called _ _ => none
  else none

/-- The row of a deposit or a withdrawal. -/
def Issued.flow (i : Issued) : Option CashflowRow :=
  match i.event with
  | .called _ (.recordCashflow amount cur memo) => some ⟨i.ledger.sleeveId, cur, amount, memo⟩
  | _ => none

namespace CommitLog

/-- The capital of the first call that opens the bucket. -/
def endowment (sid : String) (c : Currency) (log : CommitLog) : Option Decimal :=
  log.findSome? fun e => e.1.endows sid c

def flows (log : CommitLog) : List CashflowRow := log.filterMap fun e => e.1.flow

/-- Every execution that is polled is one of its order's, in its sleeve. -/
def OnTerms (terms : String → OrderTerms) (log : CommitLog) : Prop :=
  ∀ e ∈ log, ∀ today f, e.1.event = .called today (.applyFill f) → f.On (terms e.1.ledger.sleeveId)

end CommitLog

/-- What was paid in and out of a bucket. -/
def SleeveDb.flowsIn (db : SleeveDb) (sid : String) (c : Currency) : Decimal :=
  (db.cashflows.map fun r => if r.sleeveId = sid ∧ r.currency = c then r.amount else 0).sum

/-- The tables a balance is drawn from, alone. -/
def SleeveDb.books (db : SleeveDb) : SleeveDb :=
  { SleeveDb.empty with cash := db.cash, fills := db.fills, cashflows := db.cashflows }

abbrev CashTable : Type := Table CashRow (String × Currency) CashRow.key

namespace CashTable

/-- `INSERT OR IGNORE INTO sleeve_cash`. -/
def endow (t : CashTable) (sid : String) (c : Currency) (cap : Decimal) : CashTable :=
  t.upsert (fun old _ => old) ⟨sid, c, cap, cap⟩ fun _ h => h

/-- The cash of a bucket, which is there or is made, moves by an amount. -/
def credit (t : CashTable) (sid : String) (c : Currency) (amount : Decimal) : CashTable :=
  let cash := (((t.endow sid c 0).find? (sid, c)).map (·.virtualCash)).getD 0
  (t.endow sid c 0).update (fun r => decide (r.key = (sid, c)))
    (fun r => { r with virtualCash := cash + amount }) fun _ => rfl

theorem find?_endow (t : CashTable) (sid : String) (c : Currency) (cap : Decimal)
    (k : String × Currency) : (t.endow sid c cap).find? k =
      if k = (sid, c) then some ((t.find? (sid, c)).getD ⟨sid, c, cap, cap⟩) else t.find? k := by
  unfold endow
  rw [Table.find?_upsert]
  cases t.find? (sid, c) <;> rfl

theorem find?_credit (t : CashTable) (sid : String) (c : Currency) (amount : Decimal)
    (k : String × Currency) : (t.credit sid c amount).find? k =
      if k = (sid, c) then some { (t.find? (sid, c)).getD ⟨sid, c, 0, 0⟩ with
        virtualCash := ((t.find? (sid, c)).getD ⟨sid, c, 0, 0⟩).virtualCash + amount }
      else t.find? k := by
  unfold credit
  simp only [Table.find?_update_key, find?_endow, if_true]
  by_cases hk : k = (sid, c) <;> simp [hk]

/-- What a bucket was opened with. -/
def capital (t : CashTable) (sid : String) (c : Currency) : Option Decimal :=
  (t.find? (sid, c)).map (·.allocatedCapital)

/-- What has come to it since. -/
def earned (t : CashTable) (sid : String) (c : Currency) : Decimal :=
  ((t.find? (sid, c)).map fun r => r.virtualCash - r.allocatedCapital).getD 0

theorem capital_endow (t : CashTable) (sid sid' : String) (c c' : Currency) (cap : Decimal) :
    (t.endow sid c cap).capital sid' c' =
      (t.capital sid' c').or (if sid = sid' ∧ c = c' then some cap else none) := by
  unfold capital
  rw [find?_endow]
  by_cases hk : (sid', c') = (sid, c)
  · obtain ⟨rfl, rfl⟩ := Prod.mk.inj hk
    cases t.find? (sid', c') <;> simp
  · have hne : ¬ (sid = sid' ∧ c = c') := fun h => hk (by rw [h.1, h.2])
    simp [hk, hne]

theorem earned_endow (t : CashTable) (sid sid' : String) (c c' : Currency) (cap : Decimal) :
    (t.endow sid c cap).earned sid' c' = t.earned sid' c' := by
  unfold earned
  rw [find?_endow]
  by_cases hk : (sid', c') = (sid, c)
  · obtain ⟨rfl, rfl⟩ := Prod.mk.inj hk
    cases t.find? (sid', c') <;> simp
  · simp [hk]

theorem capital_credit (t : CashTable) (sid sid' : String) (c c' : Currency) (amount : Decimal) :
    (t.credit sid c amount).capital sid' c' =
      (t.capital sid' c').or (if sid = sid' ∧ c = c' then some 0 else none) := by
  unfold capital
  rw [find?_credit]
  by_cases hk : (sid', c') = (sid, c)
  · obtain ⟨rfl, rfl⟩ := Prod.mk.inj hk
    cases t.find? (sid', c') <;> simp
  · have hne : ¬ (sid = sid' ∧ c = c') := fun h => hk (by rw [h.1, h.2])
    simp [hk, hne]

theorem earned_credit (t : CashTable) (sid sid' : String) (c c' : Currency) (amount : Decimal) :
    (t.credit sid c amount).earned sid' c' =
      t.earned sid' c' + if sid = sid' ∧ c = c' then amount else 0 := by
  unfold earned
  rw [find?_credit]
  by_cases hk : (sid', c') = (sid, c)
  · obtain ⟨rfl, rfl⟩ := Prod.mk.inj hk
    cases t.find? (sid', c') with
    | none => simp
    | some row => simp; ring
  · have hne : ¬ (sid = sid' ∧ c = c') := fun h => hk (by rw [h.1, h.2])
    simp [hk, hne]

end CashTable

/-- The snapshot of an order, settled. -/
def storeFill (t : Table FillRow (String × String) FillRow.key) (sid : String) (f : Fill) :
    Table FillRow (String × String) FillRow.key :=
  t.upsert SqliteSleeveLedger.mergeFill { f with sleeveId := sid }
    SqliteSleeveLedger.key_mergeFill

/-- **What a committed call does to the books.** -/
inductive Booked (sid : String) (db db' : SleeveDb) : LedgerEvent → Prop
  | opened {cap : Decimal} {base : Currency}
      (h : db'.books = { db.books with cash := CashTable.endow db.cash sid base cap }) :
      Booked sid db db' (.opened cap base)
  /-- A snapshot that changes nothing: its order has one. -/
  | known {today : String} {f : Fill} {p : FillRow}
      (hp : db.fills.find? (sid, f.orderId) = some p) (h : db'.books = db.books) :
      Booked sid db db' (.called today (.applyFill f))
  | settled {today : String} {f : Fill}
      (h : db'.books = { db.books with
        cash := CashTable.credit db.cash sid f.currency (signedCash f -
          ((db.fills.find? (sid, f.orderId)).map (·.toFill)).elim 0 signedCash)
        fills := storeFill db.fills sid f }) :
      Booked sid db db' (.called today (.applyFill f))
  | flowed {today : String} {amount : Decimal} {cur : Currency} {memo : String}
      (h : db'.books = { db.books with
        cash := CashTable.credit db.cash sid cur amount
        cashflows := db.cashflows ++ [⟨sid, cur, amount, memo⟩] }) :
      Booked sid db db' (.called today (.recordCashflow amount cur memo))
  | quiet {today : String} {op : LedgerOp} (hfill : ∀ f, op ≠ .applyFill f)
      (hflow : ∀ amount cur memo, op ≠ .recordCashflow amount cur memo)
      (h : db'.books = db.books) : Booked sid db db' (.called today op)

namespace Proof.Books

section Calls

variable {self : SqliteSleeveLedger} {db db' : SleeveDb}

/-- Neither the reservations nor the orders are in the books. -/
theorem leaves_consumeReservation (f : Fill) (delta : Decimal) :
    (self.consumeReservation f delta).Leaves SleeveDb.books := by
  unfold SqliteSleeveLedger.consumeReservation
  split
  · refine Proc.Leaves.bind (fun row => ?_) (Proc.leaves_get _)
    cases row with
    | none => exact trivial
    | some r =>
      refine Proc.Leaves.bind (fun q => ?_) (Proc.leaves_get _)
      cases reservationAfterFill q f.filledQuantity r.amount delta with
      | none => exact Proc.leaves_modify fun _ => rfl
      | some left => exact Proc.leaves_modify fun _ => rfl
  · exact trivial

theorem leaves_progressOrder (f : Fill) :
    (self.progressOrder f).Leaves SleeveDb.books := by
  unfold SqliteSleeveLedger.progressOrder
  split
  · refine Proc.Leaves.bind (fun q => ?_) (Proc.leaves_get _)
    exact Proc.leaves_modify fun _ => rfl
  · exact trivial

theorem leaves_available (today : String) (c : Currency) :
    (self.available today c).Leaves SleeveDb.books :=
  .bind (fun _ => .bind (fun _ => .bind (fun _ => Proc.leaves_ret _) (Proc.leaves_get _))
    (Proc.leaves_get _)) (Proc.leaves_get _)

theorem leaves_sellAvailability (ticker : String) (excludeCoid : Option String) :
    (self.sellAvailability ticker excludeCoid).Leaves SleeveDb.books := by
  have hpositions : self.positions.Leaves SleeveDb.books :=
    .bind (fun _ => Proc.leaves_ret _) (Proc.leaves_get _)
  have hheld : (self.positionQuantity ticker).Leaves SleeveDb.books :=
    .bind (fun _ => Proc.leaves_ret _) hpositions
  exact .bind (fun _ => .bind (fun _ => .bind (fun _ => Proc.leaves_ret _) hheld)
    (Proc.leaves_get _)) (Proc.leaves_get _)

/-- A call whose statements leave the books alone. -/
theorem books_exec {α : Type} {f : α → Reply} {call : SqlCall α}
    (h : ∀ b body, call = .txn b body → body.Leaves SleeveDb.books) :
    ((SqlCall.map f call).exec db).1.books = db.books := by
  cases call with
  | rejects e => rfl
  | txn b body =>
    have hleaves : (body >>= fun a => .ret (f a) : Sql Reply).Leaves SleeveDb.books :=
      Proc.Leaves.bind (f := fun a => .ret (f a)) (fun _ => trivial) (h b body rfl)
    exact Call.leaves_exec hleaves b db

theorem returns_progressOrder (f : Fill) :
    (self.progressOrder f).Ends (fun _ => True) (.ok ()) (fun _ => True) := by
  unfold SqliteSleeveLedger.progressOrder
  split
  · exact .get_bind (fun _ => True) (fun _ _ => trivial) fun _ _ => .modify fun _ _ => trivial
  · exact .ret _

theorem of_books {books : SleeveDb} (h : db'.books = books) :
    db'.cash = books.cash ∧ db'.fills = books.fills ∧ db'.cashflows = books.cashflows :=
  ⟨congrArg (·.cash) h, congrArg (·.fills) h, congrArg (·.cashflows) h⟩

variable (self db) in
/-- A bucket is made if there is none, its cash is read, and a sum is added to it. -/
theorem ends_credit {β : Type} {k : Unit → Sql β} {r : Except LedgerError β} (c : Currency)
    (amount : Decimal) {Q : SleeveDb → Prop}
    (hk : (k ()).Ends (fun db' => db'.books =
      { db.books with cash := CashTable.credit db.cash self.sleeveId c amount }) r Q) :
    (do self.ensureCurrency c
        let cash ← self.vc c
        self.setVc c (cash + amount)
        k () : Sql β).Ends (fun db' => db' = db) r Q := by
  let endowed := CashTable.endow db.cash self.sleeveId c 0
  let cash := ((endowed.find? (self.sleeveId, c)).map (·.virtualCash)).getD 0
  have hensure : (self.ensureCurrency c).Ends (fun db' => db' = db) (.ok ())
      fun db' => db'.books = { db.books with cash := endowed } := by
    refine .modify fun db' hdb => ?_
    subst hdb
    rfl
  have hread : (self.vc c).Ends (fun db' => db'.books = { db.books with cash := endowed })
      (.ok cash) fun db' => db'.books = { db.books with cash := endowed } := by
    refine .get fun db' hdb => ?_
    rw [(of_books hdb).1]
  have hwrite : (self.setVc c (cash + amount)).Ends
      (fun db' => db'.books = { db.books with cash := endowed }) (.ok ()) fun db' => db'.books =
        { db.books with cash := CashTable.credit db.cash self.sleeveId c amount } := by
    refine .modify fun db' hdb => ?_
    obtain ⟨hcash, hfills, hflows⟩ := of_books hdb
    simp only [SleeveDb.books, hcash, hfills, hflows]
    rfl
  exact .bind hensure (.bind hread (.bind hwrite hk))

/-- The books after a snapshot was settled. -/
theorem ends_settle (f : Fill) :
    (self.settle (storedFill self f db) f).Ends (fun db' => db' = db) (.ok ()) fun db' =>
      db'.books = { db.books with
        cash := CashTable.credit db.cash self.sleeveId f.currency
          (signedCash f - (storedFill self f db).elim 0 signedCash)
        fills := storeFill db.fills self.sleeveId f } := by
  refine ends_credit self db f.currency _ (k := fun _ => do
    self.consumeReservation f (f.costBasis - (storedFill self f db).elim 0 Fill.costBasis)
    self.writeFill f
    self.progressOrder f) ?_
  refine .bind (.of_leaves (returns_consumeReservation f _) (leaves_consumeReservation f _) _)
    (.bind (.modify fun db' hdb => ?_)
      (.of_leaves (returns_progressOrder f) (leaves_progressOrder f) _))
  obtain ⟨hcash, hfills, hflows⟩ := of_books hdb
  simp only [SleeveDb.books, hcash, hfills, hflows]
  rfl

/-- What a call left, and whatever else is known of it. -/
theorem exec_left {call : SqlCall Reply} {a : Reply} {Q : SleeveDb → Prop}
    (h : call.exec db = (db', .ok a)) (hQ : Q (call.exec db).1) : Q db' := by
  rw [h] at hQ
  exact hQ

/-- **A committed call is booked.** -/
theorem booked_of_exec {ev : LedgerEvent} {a : Reply}
    (h : (self.eventCall ev).exec db = (db', .ok a)) : Booked self.sleeveId db db' ev := by
  cases ev with
  | opened cap base =>
    refine .opened ?_
    simp only [SqliteSleeveLedger.eventCall, SqliteSleeveLedger.init] at h
    split at h
    · exact absurd (congrArg Prod.snd h) (by simp [SqlCall.map, Call.exec])
    · split at h
      · exact absurd (congrArg Prod.snd h) (by simp [SqlCall.map, Call.exec])
      · exact exec_left (Q := fun db' => db'.books = _) h rfl
  | called today op =>
    cases op with
    | applyFill f =>
      cases hp : fillProgress (storedFill self f db) f with
      | noop =>
        obtain ⟨p, hstored, -⟩ := fillProgress_noop hp
        obtain ⟨row, hrow, -⟩ := Option.map_eq_some_iff.mp hstored
        refine .known hrow (exec_left (Q := fun db' => db'.books = db.books) h ?_)
        refine exec_applyFill_of_ok (Q := fun db' => db'.books = db.books) ?_ today
        rw [SqliteSleeveLedger.progress, hp]
        exact fun db' hdb => ⟨db', rfl, congrArg SleeveDb.books hdb⟩
      | regression =>
        obtain ⟨p, hstored, -⟩ := fillProgress_regression hp
        obtain ⟨row, hrow, -⟩ := Option.map_eq_some_iff.mp hstored
        refine .known hrow (exec_left (Q := fun db' => db'.books = db.books) h ?_)
        refine congrArg SleeveDb.books (exec_applyFill_of_error (e := .desync f.orderId
          (((storedFill self f db).map (·.filledQuantity)).getD 0) f.filledQuantity) ?_ today)
        rw [SqliteSleeveLedger.progress, hp]
        exact fun db' _ => ⟨db', rfl, trivial⟩
      | apply =>
        refine .settled (exec_left (Q := fun db' => db'.books = _) h ?_)
        refine exec_applyFill_of_ok (Q := fun db' => db'.books = _) ?_ today
        rw [SqliteSleeveLedger.progress, hp]
        exact ends_settle f
    | recordCashflow amount cur memo =>
      refine .flowed (exec_left (Q := fun db' => db'.books = _) h ?_)
      have hbody := ends_credit self db cur amount
        (k := fun _ => self.insertCashflow cur amount memo) (Q := fun db' => db'.books =
          { db.books with
            cash := CashTable.credit db.cash self.sleeveId cur amount
            cashflows := db.cashflows ++ [⟨self.sleeveId, cur, amount, memo⟩] })
        (.modify fun db' hdb => by
          obtain ⟨hcash, hfills, hflows⟩ := of_books hdb
          simp only [SleeveDb.books, hcash, hfills, hflows])
      have hreturns := hbody.bind (f := fun _ => .ret Reply.done) (.ret Reply.done)
      exact (Call.exec_of_ok hreturns .immediate rfl).1
    | reserve c amount cur =>
      refine .quiet (by simp) (by simp) (exec_left (Q := fun db' => db'.books = _) h ?_)
      refine books_exec fun b body hbody => ?_
      unfold SqliteSleeveLedger.reserve at hbody
      split at hbody
      · exact absurd hbody (by simp)
      · split at hbody
        · exact absurd hbody (by simp)
        · obtain ⟨-, rfl⟩ := Call.txn.inj hbody
          refine .bind (fun row => ?_) (Proc.leaves_get _)
          refine .bind (fun available => ?_) (leaves_available today cur)
          split
          · exact .bind (fun _ => Proc.leaves_ret _) (Proc.leaves_modify fun _ => rfl)
          · exact trivial
    | release c =>
      have hleaves : ∀ b body, self.release c = .txn b body →
          body.Leaves SleeveDb.books := by
        intro b body hbody
        obtain ⟨-, rfl⟩ := Call.txn.inj hbody
        exact Proc.leaves_modify fun _ => rfl
      exact .quiet (by simp) (by simp) (exec_left (Q := fun db' => db'.books = _) h
        (books_exec hleaves))
    | recordOrder c o sym side cur q =>
      have hleaves : ∀ b body, self.recordOrder c o sym side cur q = .txn b body →
          body.Leaves SleeveDb.books := by
        intro b body hbody
        obtain ⟨-, rfl⟩ := Call.txn.inj hbody
        exact Proc.leaves_modify fun _ => rfl
      exact .quiet (by simp) (by simp) (exec_left (Q := fun db' => db'.books = _) h
        (books_exec hleaves))
    | reserveSell c o sym cur q =>
      refine .quiet (by simp) (by simp) (exec_left (Q := fun db' => db'.books = _) h ?_)
      refine books_exec fun b body hbody => ?_
      unfold SqliteSleeveLedger.reserveSell at hbody
      split at hbody
      · exact absurd hbody (by simp)
      · obtain ⟨-, rfl⟩ := Call.txn.inj hbody
        refine .bind (fun sellable => ?_) (leaves_sellAvailability sym (some c))
        split
        · exact trivial
        · exact .bind (fun _ => Proc.leaves_ret _) (Proc.leaves_modify fun _ => rfl)
    | markOrderTerminal c st =>
      have hleaves : ∀ b body, self.markOrderTerminal c st = .txn b body →
          body.Leaves SleeveDb.books := by
        intro b body hbody
        obtain ⟨-, rfl⟩ := Call.txn.inj hbody
        refine .bind (fun _ => ?_) (Proc.leaves_modify fun _ => rfl)
        exact Proc.leaves_modify fun _ => rfl
      exact .quiet (by simp) (by simp) (exec_left (Q := fun db' => db'.books = _) h
        (books_exec hleaves))

end Calls

/-! ## 2. The balance -/

/-- The books, after the calls of the log. -/
structure Balanced (terms : String → OrderTerms) (log : CommitLog) (db : SleeveDb) : Prop where
  capital : ∀ sid c, CashTable.capital db.cash sid c = log.endowment sid c
  flows : db.cashflows = log.flows
  balance : ∀ sid c, CashTable.earned db.cash sid c =
    db.flowsIn sid c + sumFills sid db (cashEffect c)
  /-- No execution without a bucket. -/
  bucket : ∀ r ∈ db.fills.rows, (CashTable.capital db.cash r.sleeveId r.currency).isSome
  onTerms : ∀ r ∈ db.fills.rows, r.toFill.On (terms r.sleeveId)

variable {terms : String → OrderTerms} {log : CommitLog} {db db' : SleeveDb}

theorem endowment_concat (sid : String) (c : Currency) (log : CommitLog) (e : Issued × Reply) :
    CommitLog.endowment sid c (log ++ [e]) =
      (log.endowment sid c).or (e.1.endows sid c) := by
  simp only [CommitLog.endowment, List.findSome?_append, List.findSome?_cons, List.findSome?_nil]
  cases e.1.endows sid c <;> rfl

theorem flows_concat (log : CommitLog) (e : Issued × Reply) :
    CommitLog.flows (log ++ [e]) = log.flows ++ e.1.flow.toList := by
  simp only [CommitLog.flows, List.filterMap_append, List.filterMap_cons, List.filterMap_nil]
  cases e.1.flow <;> rfl

/-- A snapshot that is stored takes the place of the one there was. -/
theorem sumFills_storeFill {sid : String} {f : Fill} (hfills : db'.fills = storeFill db.fills sid f)
    (hsame : ∀ p, db.fills.find? (sid, f.orderId) = some p → p.toFill.SameOrder f) (sid' : String)
    (c : Currency) : sumFills sid' db' (cashEffect c) = sumFills sid' db (cashEffect c) +
      if sid = sid' ∧ f.currency = c then signedCash f -
        ((db.fills.find? (sid, f.orderId)).map (·.toFill)).elim 0 signedCash else 0 := by
  unfold sumFills
  rw [hfills]
  unfold storeFill
  rw [Table.sum_upsert]
  cases hp : db.fills.find? (sid, f.orderId) with
  | none =>
    simp only [Option.elim_none, Option.map_none, sub_zero, cashEffect]
    by_cases hs : sid = sid' <;> by_cases hc : f.currency = c <;> simp [hs, hc]
  | some p =>
    obtain ⟨-, hside, hcur⟩ := hsame p hp
    have hsid : p.sleeveId = sid := congrArg Prod.fst (Table.key_of_find? hp)
    have hmerged : signedCash (SqliteSleeveLedger.mergeFill p { f with sleeveId := sid }).toFill =
        signedCash f := by
      simp only [signedCash, Fill.costBasis, SqliteSleeveLedger.mergeFill, hside]
    simp only [Option.elim_some, Option.map_some, cashEffect, hmerged, hsid, hcur,
      show (SqliteSleeveLedger.mergeFill p { f with sleeveId := sid }).currency = f.currency from hcur,
      show (SqliteSleeveLedger.mergeFill p { f with sleeveId := sid }).sleeveId = sid from hsid]
    by_cases hs : sid = sid' <;> by_cases hc : f.currency = c
    · simp only [hs, hc, if_true, and_self]
      ring
    · simp [hs, hc]
    · simp [hs]
    · simp [hs]

/-- The rows of the executions after a snapshot was stored. -/
theorem mem_storeFill {t : Table FillRow (String × String) FillRow.key} {sid : String} {f : Fill}
    {r : FillRow} (h : r ∈ (storeFill t sid f).rows) : r ∈ t.rows ∨
      r = (t.find? (sid, f.orderId)).elim { f with sleeveId := sid }
        (SqliteSleeveLedger.mergeFill · { f with sleeveId := sid }) := by
  have hfind := Table.mem_rows_iff.mp h
  unfold storeFill at hfind
  rw [Table.find?_upsert] at hfind
  split at hfind
  · exact .inr (Option.some.inj hfind).symm
  · exact .inl (Table.find?_some hfind).1

section Step

variable {sid : String} {f : Fill}

/-- What is stored of an order is of the same order. -/
theorem Balanced.sameOrder (h : Balanced terms log db) (hf : f.On (terms sid)) {p : FillRow}
    (hp : db.fills.find? (sid, f.orderId) = some p) : p.sleeveId = sid ∧ p.toFill.SameOrder f := by
  obtain ⟨hmem, hkey⟩ := Table.find?_some hp
  obtain ⟨hsid, hid⟩ := Prod.mk.inj hkey
  have hterms := h.onTerms p hmem
  rw [Fill.On, hsid, hid, show terms sid f.orderId = _ from hf] at hterms
  simp only [Prod.mk.injEq] at hterms
  exact ⟨hsid, hterms.1.symm, hterms.2.1.symm, hterms.2.2.symm⟩

/-- What every committed call has in common. -/
theorem Balanced.advance (h : Balanced terms log db) {e : Issued × Reply}
    (hcapital : ∀ sid c, CashTable.capital db'.cash sid c =
      (CashTable.capital db.cash sid c).or (e.1.endows sid c))
    (hflows : db'.cashflows = db.cashflows ++ e.1.flow.toList)
    (hbalance : ∀ sid c, CashTable.earned db'.cash sid c =
      db'.flowsIn sid c + sumFills sid db' (cashEffect c))
    (hrows : ∀ r ∈ db'.fills.rows, r ∈ db.fills.rows ∨ r.toFill.On (terms r.sleeveId) ∧
      (CashTable.capital db'.cash r.sleeveId r.currency).isSome) :
    Balanced terms (log ++ [e]) db' := by
  constructor
  · intro sid c
    rw [endowment_concat, hcapital, h.capital]
  · rw [flows_concat, hflows, h.flows]
  · exact hbalance
  · intro r hr
    rcases hrows r hr with hold | ⟨-, hnew⟩
    · rw [hcapital]
      simp [h.bucket r hold]
    · exact hnew
  · intro r hr
    rcases hrows r hr with hold | ⟨hnew, -⟩
    · exact h.onTerms r hold
    · exact hnew

/-- The books are as they were, and the call opens no bucket that there is not. -/
theorem Balanced.congr (h : Balanced terms log db) (hbooks : db'.books = db.books)
    {e : Issued × Reply} (hendows : ∀ sid c, (e.1.endows sid c).isSome →
      (CashTable.capital db.cash sid c).isSome) (hflow : e.1.flow = none) :
    Balanced terms (log ++ [e]) db' := by
  obtain ⟨hcash, hfills, hflows⟩ := of_books hbooks
  refine h.advance (fun sid c => ?_) ?_ (fun sid c => ?_) fun r hr => ?_
  · rw [hcash]
    change CashTable.capital db.cash sid c = _
    cases hnew : e.1.endows sid c with
    | none => simp
    | some cap =>
      obtain ⟨old, hold⟩ := Option.isSome_iff_exists.mp (hendows sid c (by simp [hnew]))
      simp [hold]
  · rw [hflow, hflows]
    exact (List.append_nil _).symm
  · have hbalance := h.balance sid c
    simp only [SleeveDb.flowsIn, sumFills, hcash, hfills, hflows] at hbalance ⊢
    exact hbalance
  · rw [hfills] at hr
    exact .inl hr

variable {i : Issued} {a : Reply}

theorem Balanced.opened {cap : Decimal} {base : Currency} (h : Balanced terms log db)
    (hbooks : db'.books = { db.books with cash := CashTable.endow db.cash sid base cap }) :
    Balanced terms (log ++ [(⟨⟨sid⟩, .opened cap base⟩, a)]) db' := by
  obtain ⟨hcash, hfills, hflows⟩ := of_books hbooks
  refine h.advance (fun sid' c => ?_) ?_ (fun sid' c => ?_) fun r hr => ?_
  · rw [hcash, CashTable.capital_endow]
    congr 1
    by_cases hs : sid = sid' <;> by_cases hc : base = c <;> simp [Issued.endows, hs, hc]
  · rw [hflows]
    exact (List.append_nil _).symm
  · have hbalance := h.balance sid' c
    rw [hcash, CashTable.earned_endow]
    simp only [SleeveDb.flowsIn, sumFills, hfills, hflows] at hbalance ⊢
    exact hbalance
  · rw [hfills] at hr
    exact .inl hr

theorem Balanced.flowed {today memo : String} {amount : Decimal} {cur : Currency}
    (h : Balanced terms log db) (hbooks : db'.books = { db.books with
      cash := CashTable.credit db.cash sid cur amount
      cashflows := db.cashflows ++ [⟨sid, cur, amount, memo⟩] }) :
    Balanced terms (log ++ [(⟨⟨sid⟩, .called today (.recordCashflow amount cur memo)⟩, a)])
      db' := by
  obtain ⟨hcash, hfills, hflows⟩ := of_books hbooks
  refine h.advance (fun sid' c => ?_) hflows (fun sid' c => ?_) fun r hr => ?_
  · rw [hcash, CashTable.capital_credit]
    congr 1
    by_cases hs : sid = sid' <;> by_cases hc : cur = c <;> simp [Issued.endows, hs, hc]
  · have hbalance := h.balance sid' c
    rw [hcash, CashTable.earned_credit, hbalance]
    simp only [SleeveDb.flowsIn, sumFills, hfills, hflows, List.map_append, List.map_cons,
      List.map_nil, List.sum_append, List.sum_cons, List.sum_nil, add_zero]
    exact add_right_comm _ _ _
  · rw [hfills] at hr
    exact .inl hr

theorem Balanced.known {today : String} {p : FillRow} (h : Balanced terms log db)
    (hf : f.On (terms sid)) (hp : db.fills.find? (sid, f.orderId) = some p)
    (hbooks : db'.books = db.books) :
    Balanced terms (log ++ [(⟨⟨sid⟩, .called today (.applyFill f)⟩, a)]) db' := by
  obtain ⟨hsid, -, -, hcur⟩ := h.sameOrder hf hp
  have hbucket := h.bucket p (Table.find?_some hp).1
  rw [hsid, hcur] at hbucket
  refine h.congr hbooks (fun sid' c hnew => ?_) rfl
  by_cases hs : sid = sid' <;> by_cases hc : f.currency = c <;>
    simp [Issued.endows, hs, hc] at hnew
  subst hs hc
  exact hbucket

/-- The row that is written is the new one, or the old one with the new figures. -/
theorem Balanced.stored (h : Balanced terms log db) (hf : f.On (terms sid)) {r : FillRow}
    (hr : r ∈ (storeFill db.fills sid f).rows) : r ∈ db.fills.rows ∨
      r.sleeveId = sid ∧ r.currency = f.currency ∧ r.toFill.On (terms sid) := by
  rcases mem_storeFill hr with hold | hnew
  · exact .inl hold
  · right
    cases hp : db.fills.find? (sid, f.orderId) with
    | none =>
      rw [hp] at hnew
      subst hnew
      exact ⟨rfl, rfl, hf⟩
    | some p =>
      obtain ⟨hsid, -, -, hcur⟩ := h.sameOrder hf hp
      have hon := h.onTerms p (Table.find?_some hp).1
      rw [hp] at hnew
      subst hnew
      rw [hsid] at hon
      exact ⟨hsid, hcur, hon⟩

theorem Balanced.settled {today : String} (h : Balanced terms log db) (hf : f.On (terms sid))
    (hbooks : db'.books = { db.books with
      cash := CashTable.credit db.cash sid f.currency (signedCash f -
        ((db.fills.find? (sid, f.orderId)).map (·.toFill)).elim 0 signedCash)
      fills := storeFill db.fills sid f }) :
    Balanced terms (log ++ [(⟨⟨sid⟩, .called today (.applyFill f)⟩, a)]) db' := by
  obtain ⟨hcash, hfills, hflows⟩ := of_books hbooks
  refine h.advance (fun sid' c => ?_) ?_ (fun sid' c => ?_) fun r hr => ?_
  · rw [hcash, CashTable.capital_credit]
    congr 1
    by_cases hs : sid = sid' <;> by_cases hc : f.currency = c <;> simp [Issued.endows, hs, hc]
  · rw [hflows]
    exact (List.append_nil _).symm
  · have hsum := sumFills_storeFill hfills (fun p hp => (h.sameOrder hf hp).2) sid' c
    rw [hcash, CashTable.earned_credit, h.balance sid' c, hsum]
    simp only [SleeveDb.flowsIn, hflows]
    exact add_assoc _ _ _
  · rw [hfills] at hr
    rcases h.stored hf hr with hold | ⟨hsid, hcur, hon⟩
    · exact .inl hold
    · right
      rw [hsid, hcur, hcash, CashTable.capital_credit]
      exact ⟨hon, by simp⟩

/-- **A committed call keeps the books.** -/
theorem Balanced.step (h : Balanced terms log db)
    (hbooked : Booked i.ledger.sleeveId db db' i.event)
    (hterms : ∀ today f, i.event = .called today (.applyFill f) → f.On (terms i.ledger.sleeveId)) :
    Balanced terms (log ++ [(i, a)]) db' := by
  obtain ⟨⟨sid⟩, event⟩ := i
  cases hbooked with
  | opened hbooks => exact h.opened hbooks
  | known hp hbooks => exact h.known (hterms _ _ rfl) hp hbooks
  | settled hbooks => exact h.settled (hterms _ _ rfl) hbooks
  | flowed hbooks => exact h.flowed hbooks
  | @quiet today op hfill hflow hbooks =>
    refine h.congr hbooks (fun sid' c hnew => ?_) ?_
    · have hnone : Issued.endows sid' c ⟨⟨sid⟩, .called today op⟩ = none := by
        cases op <;> simp_all [Issued.endows]
      rw [hnone] at hnew
      exact absurd hnew (by simp)
    · cases op <;> simp_all [Issued.flow]

end Step

theorem balanced_empty : Balanced terms [] .empty where
  capital _ _ := rfl
  flows := rfl
  balance sid c := by simp [SleeveDb.empty, CashTable.earned, SleeveDb.flowsIn, sumFills]
  bucket := by simp [SleeveDb.empty]
  onTerms := by simp [SleeveDb.empty]

/-- The books of a serial run balance. -/
theorem balanced_of_serial (h : Txn.Serial Issued.program .empty log db)
    (hterms : log.OnTerms terms) : Balanced terms log db := by
  induction h with
  | nil => exact balanced_empty
  | @snoc log db db' i a h hc ih =>
    have hbefore : Balanced terms log db := ih fun e he => hterms e (by simp [he])
    exact hbefore.step (booked_of_exec hc) fun today f hev => hterms (i, a) (by simp) today f hev

/-- **The books balance**, at every commit: whoever posted, whatever the interleaving, and wherever
    calls raised. -/
theorem books_balance {s : ProcessState} (h : Sharing .empty s)
    (hterms : CommitLog.OnTerms terms s.log) (sid : String) (c : Currency) :
    (s.db.cash.find? (sid, c)).map (·.allocatedCapital) = CommitLog.endowment sid c s.log ∧
      s.db.cashflows = CommitLog.flows s.log ∧
      ((s.db.cash.find? (sid, c)).map (·.virtualCash)).getD 0 =
        (CommitLog.endowment sid c s.log).getD 0 + s.db.flowsIn sid c +
          sumFills sid s.db (cashEffect c) := by
  have hbalanced := balanced_of_serial (Txn.serialisable h) hterms
  have hcapital := hbalanced.capital sid c
  have hbalance := hbalanced.balance sid c
  refine ⟨hcapital, hbalanced.flows, ?_⟩
  unfold CashTable.capital at hcapital
  unfold CashTable.earned at hbalance
  rw [← hcapital, add_assoc, ← hbalance]
  cases s.db.cash.find? (sid, c) <;> simp

/-! A second process opens the ledger with five times the capital, in vain; what it pays in counts. -/

def openAgain : Issued := sleeveA (.opened 5000 .KRW)

def payIn : Issued := sleeveA (.called "2024-01-02" (.recordCashflow 50 .KRW "deposit"))

def openedTwice : ProcessState :=
  settledAt (tablesAfter [openA, openAgain, payIn, pollA])
    [(openA, .done), (openAgain, .done), (payIn, .done), (pollA, .done)]

theorem sharing_openedTwice : Sharing .empty openedTwice := by
  have hstart : Sharing .empty (settledAt .empty []) := .start ⟨rfl, fun _ => rfl, rfl⟩
  have h₁ := sharing_next hstart 0 (c := openA) (a := .done) rfl (by decide +kernel)
  have h₂ := sharing_next h₁ 1 (c := openAgain) (a := .done) rfl (by decide +kernel)
  have h₃ := sharing_next h₂ 1 (c := payIn) (a := .done) rfl (by decide +kernel)
  exact sharing_next h₃ 0 (c := pollA) (a := .done) rfl (by decide +kernel)

theorem books_balance_openedTwice :
    ((openedTwice.db.cash.find? ("a", .KRW)).map (·.virtualCash)).getD 0 =
      1000 + 50 + sumFills "a" openedTwice.db (cashEffect .KRW) := by
  have hterms : CommitLog.OnTerms (fun _ _ => (boughtTen.symbol, boughtTen.side, boughtTen.currency))
      openedTwice.log := by
    intro e he today f hf
    simp only [openedTwice, settledAt, List.mem_cons, List.not_mem_nil, or_false] at he
    rcases he with rfl | rfl | rfl | rfl <;>
      simp [openA, openAgain, payIn, pollA, sleeveA] at hf
    rw [← hf.2]
    rfl
  refine ((books_balance sharing_openedTwice hterms "a" .KRW).2.2).trans ?_
  decide +kernel

end Proof.Books

end TossSleeve
