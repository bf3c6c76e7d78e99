import TossSleeve.Ledger.Sqlite
import TossSleeve.Ledger.Steps
import TossSleeve.Lib.Register

/-!
# `Ledger/Either.lean` — the orders of either ledger

The protocol `SleeveLedger` has two implementations, and a caller does not know which it has. What
it can know of an order is the same in both: the row that was recorded under its client order id,
its reservation, and how much of it the ledger takes to be on sale. `LedgerKind` is the choice, and
the definitions under it are the two implementations side by side.

The row says which order id of Toss it belongs to. Rows are rewritten by every registration, and
most registrations do not know the order id; §3 says that all that any operation does to these ids
is a `Register.write`. §4 is what `mark_order_terminal` does, and §5 what `client_order_id_for`
finds.
-/

set_option autoImplicit false

namespace TossSleeve

open Lib

/-! ## 1. Two ledgers -/

/-- Which ledger: with dictionaries, or a sleeve of a database. -/
inductive LedgerKind where
  | inMemory
  | sqlite (self : SqliteSleeveLedger) (choice : RowChoice)

namespace LedgerKind

@[reducible] def State : LedgerKind → Type
  | .inMemory => InMemorySleeveLedger
  | .sqlite _ _ => SleeveDb

/-- One operation, on the day `today_func` gives. -/
def step : (kind : LedgerKind) → kind.State → String → LedgerOp → kind.State × Reply
  | .inMemory, l, today, op => l.step today op
  | .sqlite self _, db, today, op => self.handle db (.called today op)

def clientOrderIdFor : (kind : LedgerKind) → kind.State → String →
    Except LedgerError (Option String)
  | .inMemory, l, orderId => .ok (l.clientOrderIdFor orderId)
  | .sqlite self choice, db, orderId => ((self.clientOrderIdFor choice orderId).run db).2

def orderStatus : (kind : LedgerKind) → kind.State → String →
    Except LedgerError (Option OrderStatus)
  | .inMemory, l, c => .ok (l.orderStatus c)
  | .sqlite self _, db, c => ((self.orderStatus c).run db).2

/-- The order recorded under a client order id. -/
def order : (kind : LedgerKind) → kind.State → String → Option Order
  | .inMemory, l, c => l.orders.get? c
  | .sqlite self _, db, c => (db.orders.find? (self.sleeveId, c)).map (·.toOrder)

/-- What is reserved under a client order id. -/
def reservation : (kind : LedgerKind) → kind.State → String → Option (Currency × Decimal)
  | .inMemory, l, c => l.reserved.get? c
  | .sqlite self _, db, c =>
    (db.reservations.find? (self.sleeveId, c)).map fun r => (r.currency, r.amount)

/-- The orders, as `_sell_availability` reads them. -/
def orderRows : (kind : LedgerKind) → kind.State → List OrderRow
  | .inMemory, l => l.orders.rows.map InMemorySleeveLedger.orderRow
  | .sqlite self _, db =>
    (db.orders.rows.filter fun r => decide (r.sleeveId = self.sleeveId)).map OrderRecord.orderRow

/-- What is executed of an order id. -/
def filled : (kind : LedgerKind) → kind.State → String → Decimal
  | .inMemory, l => l.filledByOrderId
  | .sqlite self _, db => fun orderId => ((findRow (·.orderId) orderId
      (db.fills.rows.filter fun r => decide (r.sleeveId = self.sleeveId))).map
        (·.filledQuantity)).getD 0

variable {kind : LedgerKind}

/-- What an order contributes to the open SELL quantity of a ticker: what `_open_sell_qty` leaves
    out with it. -/
def openQty (kind : LedgerKind) (l : kind.State) (ticker c : String) : Decimal :=
  openSellQty (kind.orderRows l) (kind.filled l) ticker -
    openSellQty (kind.orderRows l) (kind.filled l) ticker (some c)

/-- The order ids of the rows. -/
def names (kind : LedgerKind) (l : kind.State) : Register String String :=
  fun c => (kind.order l c).map (·.orderId)

theorem names_some {l : kind.State} {c orderId : String} (h : kind.names l c = some orderId) :
    ∃ o, kind.order l c = some o ∧ o.orderId = orderId := Option.map_eq_some_iff.mp h

theorem orderStatus_eq (kind : LedgerKind) (l : kind.State) (c : String) :
    kind.orderStatus l c = .ok ((kind.order l c).map (·.status)) := by
  cases kind with
  | inMemory => rfl
  | sqlite self choice =>
    show Except.ok ((l.orders.find? (self.sleeveId, c)).map _) = _
    rw [order, Option.map_map]
    rfl

/-! ## 2. The open quantity, order by order -/

/-- What a recorded order contributes. -/
def share (filled : String → Decimal) (ticker c : String) (o : Order) : Decimal :=
  (InMemorySleeveLedger.orderRow (c, o)).remaining filled ticker

theorem share_of_status {filled : String → Decimal} {ticker c : String} {o : Order}
    (h : o.status ∉ openStatuses) : share filled ticker c o = 0 :=
  OrderRow.remaining_of_not_open filled fun hopen => h hopen.2.2

/-- **An order contributes what is left of its own row.** -/
theorem openQty_eq (kind : LedgerKind) (l : kind.State) (ticker c : String) :
    kind.openQty l ticker c = (kind.order l c).elim 0 (share (kind.filled l) ticker c) := by
  unfold openQty
  rw [openSellQty_eq_sum, openSellQty_eq_sum]
  cases kind with
  | inMemory =>
    have hexcept := Table.sum_except l.orders
      (fun e => (InMemorySleeveLedger.orderRow e).remaining (filled .inMemory l) ticker) c
    rw [Dict.find?_eq] at hexcept
    simp only [Table.sum] at hexcept
    simp only [orderRows, List.map_map, Function.comp_def, Option.some.injEq, reduceCtorEq,
      if_false]
    show _ - (l.orders.rows.map fun e => if e.1 = c then 0 else
      (InMemorySleeveLedger.orderRow e).remaining (filled .inMemory l) ticker).sum = _
    rw [hexcept, sub_sub_cancel, order]
    cases l.orders.get? c <;> rfl
  | sqlite self choice =>
    have hexcept := Table.sum_except l.orders (fun r => if r.sleeveId = self.sleeveId then
      r.orderRow.remaining (filled (.sqlite self choice) l) ticker else 0) (self.sleeveId, c)
    simp only [Table.sum] at hexcept
    simp only [orderRows, List.map_map, sum_filter_map, decide_eq_true_eq, Function.comp_def,
      reduceCtorEq, if_false]
    have hown : (l.orders.rows.map fun r => if r.sleeveId = self.sleeveId then
        (if some r.orderRow.clientOrderId = some c then 0 else
          r.orderRow.remaining (filled (.sqlite self choice) l) ticker) else 0) =
        l.orders.rows.map fun r => if r.key = (self.sleeveId, c) then 0 else
          if r.sleeveId = self.sleeveId then
            r.orderRow.remaining (filled (.sqlite self choice) l) ticker else 0 := by
      refine List.map_congr_left fun r _ => ?_
      by_cases hs : r.sleeveId = self.sleeveId
      · simp [hs, OrderRecord.orderRow]
      · simp [hs]
    rw [hown, hexcept, sub_sub_cancel, order]
    cases hrow : l.orders.find? (self.sleeveId, c) with
    | none => rfl
    | some r =>
      have hs : r.sleeveId = self.sleeveId := congrArg Prod.fst (Table.key_of_find? hrow)
      simp only [Option.elim_some, Option.map_some, hs, if_true]
      rfl

end LedgerKind

/-! ## 3. What an operation does to the names -/

/-- The row an operation registers, and the order id it has for it. -/
def LedgerOp.registers : LedgerOp → Option (String × String)
  | .recordOrder c orderId _ _ _ _ => some (c, orderId)
  | .reserveSell c orderId _ _ _ => some (c, orderId)
  | _ => none

section Sqlite

variable {self : SqliteSleeveLedger} {choice : RowChoice} {n : Register String String}

/-- The names of the sleeve's rows are these. -/
abbrev Named (self : SqliteSleeveLedger) (n : Register String String) (db : SleeveDb) : Prop :=
  (fun c => ((db.orders.find? (self.sleeveId, c)).map (·.toOrder)).map (·.orderId)) = n

theorem maintains_setStatus (c : String) (st : OrderStatus) :
    (self.setStatus c st).Maintains (Named self n) := by
  apply Proc.maintains_modify
  intro db h
  rw [← h]
  funext k
  simp only [Table.find?_update_key]
  by_cases hk : (self.sleeveId, k) = (self.sleeveId, c)
  · rw [if_pos hk]
    cases db.orders.find? (self.sleeveId, k) <;> rfl
  · rw [if_neg hk]

theorem maintains_consumeReservation (f : Fill) (delta : Decimal) :
    (self.consumeReservation f delta).Maintains (Named self n) := by
  unfold SqliteSleeveLedger.consumeReservation
  split
  · apply Proc.Maintains.bind ?_ (Proc.maintains_get _)
    intro row
    cases row with
    | none => exact trivial
    | some r =>
      apply Proc.Maintains.bind ?_ (Proc.maintains_get _)
      intro recorded
      split
      · exact Proc.maintains_modify fun _ h => h
      · exact Proc.maintains_modify fun _ h => h
  · exact trivial

theorem maintains_progressOrder (f : Fill) :
    (self.progressOrder f).Maintains (Named self n) := by
  unfold SqliteSleeveLedger.progressOrder
  split
  · apply Proc.Maintains.bind ?_ (Proc.maintains_get _)
    intro recorded
    exact maintains_setStatus f.clientOrderId _
  · exact trivial

theorem maintains_settle (prev : Option Fill) (f : Fill) :
    (self.settle prev f).Maintains (Named self n) := by
  unfold SqliteSleeveLedger.settle
  apply Proc.Maintains.bind ?_ (Proc.maintains_modify fun _ h => h)
  intro _
  apply Proc.Maintains.bind ?_ (Proc.maintains_get _)
  intro cash
  apply Proc.Maintains.bind ?_ (Proc.maintains_modify fun _ h => h)
  intro _
  apply Proc.Maintains.bind ?_ (maintains_consumeReservation f _)
  intro _
  apply Proc.Maintains.bind ?_ (Proc.maintains_modify fun _ h => h)
  intro _
  exact maintains_progressOrder f

theorem maintains_progress (prev : Option Fill) (f : Fill) :
    (self.progress prev f).Maintains (Named self n) := by
  unfold SqliteSleeveLedger.progress
  split
  · exact trivial
  · exact trivial
  · exact maintains_settle prev f

theorem maintains_sellAvailability (I : SleeveDb → Prop) (ticker : String)
    (excludeCoid : Option String) : (self.sellAvailability ticker excludeCoid).Maintains I := by
  apply Proc.Maintains.bind ?_ (Proc.maintains_get _)
  intro orders
  apply Proc.Maintains.bind ?_ (Proc.maintains_get _)
  intro filled
  have hpositions : self.positions.Maintains I := by
    apply Proc.Maintains.bind ?_ (Proc.maintains_get _)
    exact fun _ => trivial
  have hheld : (self.positionQuantity ticker).Maintains I := by
    apply Proc.Maintains.bind ?_ hpositions
    exact fun _ => trivial
  apply Proc.Maintains.bind ?_ hheld
  exact fun _ => trivial

theorem maintains_available (I : SleeveDb → Prop) (today : String) (c : Currency) :
    (self.available today c).Maintains I := by
  apply Proc.Maintains.bind ?_ (Proc.maintains_get _)
  intro cash
  apply Proc.Maintains.bind ?_ (Proc.maintains_get _)
  intro reserved
  apply Proc.Maintains.bind ?_ (Proc.maintains_get _)
  exact fun _ => trivial

/-- The upsert of an order. -/
theorem named_writeOrder (c orderId sym : String) (side : OrderSide) (cur : Currency) (q : Decimal)
    {db : SleeveDb} (h : Named self n db) :
    Named self (n.write "" c orderId) ((self.writeOrder c orderId sym side cur q).run db).1 := by
  rw [← h]
  funext k
  simp only [SqliteSleeveLedger.writeOrder, Proc.run_modify, Table.find?_upsert, Register.write]
  by_cases hk : k = c
  · subst hk
    rw [if_pos rfl, Function.update_self]
    cases hrow : db.orders.find? (self.sleeveId, k) with
    | none => by_cases ho : orderId = "" <;> simp [ho]
    | some r => by_cases ho : orderId = "" <;> simp [ho]
  · rw [if_neg (by simpa using hk), Function.update_of_ne hk]

/-- The names are these, and perhaps the row of `c` was written since. -/
abbrev Registered (self : SqliteSleeveLedger) (n : Register String String) (c orderId : String)
    (db : SleeveDb) : Prop := Named self n db ∨ Named self (n.write "" c orderId) db

theorem maintains_writeOrder (c orderId sym : String) (side : OrderSide) (cur : Currency)
    (q : Decimal) :
    (self.writeOrder c orderId sym side cur q).Maintains (Registered self n c orderId) := by
  apply Proc.maintains_modify
  intro db h
  rcases h with h | h
  · exact .inr (named_writeOrder c orderId sym side cur q h)
  · have hagain := named_writeOrder c orderId sym side cur q h
    rw [Register.write_write] at hagain
    exact .inr hagain

/-- A call breaks what its statements may break, and no more. -/
theorem maintains_call {α : Type} {I : SleeveDb → Prop} {b : Bracket} {body : Sql α}
    (h : body.Maintains I) (f : α → Reply) {db : SleeveDb} (hdb : I db) :
    I ((SqlCall.map f (.txn b body)).exec db).1 :=
  Call.maintains_exec (Proc.Maintains.bind (f := fun a => .ret (f a)) (fun _ => trivial) h) b hdb

/-- An operation that registers an order writes its name, if it writes at all. -/
theorem registered_handle (today : String) {op : LedgerOp} {c orderId : String}
    (hop : op.registers = some (c, orderId)) {db : SleeveDb} (h : Named self n db) :
    Registered self n c orderId (self.handle db (.called today op)).1 := by
  cases op with
  | recordOrder c' orderId' sym side cur q =>
    obtain ⟨rfl, rfl⟩ := Prod.ext_iff.mp (Option.some.inj hop)
    exact .inr (named_writeOrder c' orderId' sym side cur q h)
  | reserveSell c' orderId' sym cur q =>
    obtain ⟨rfl, rfl⟩ := Prod.ext_iff.mp (Option.some.inj hop)
    show Registered self n c' orderId'
      (Call.exec (SqlCall.map Reply.verdict (self.reserveSell c' orderId' sym cur q)) db).1
    unfold SqliteSleeveLedger.reserveSell
    split
    · exact .inl h
    · refine maintains_call ?_ _ (.inl h)
      apply Proc.Maintains.bind ?_ (maintains_sellAvailability _ sym (some c'))
      intro available
      split
      · exact trivial
      · apply Proc.Maintains.bind ?_ (maintains_writeOrder c' orderId' sym .SELL cur q)
        exact fun _ => trivial
  | _ => exact absurd hop (by simp [LedgerOp.registers])

/-- Any other operation leaves the names alone. -/
theorem named_handle (today : String) {op : LedgerOp} (hop : op.registers = none) {db : SleeveDb}
    (h : Named self n db) : Named self n (self.handle db (.called today op)).1 := by
  cases op with
  | recordOrder => exact absurd hop (by simp [LedgerOp.registers])
  | reserveSell => exact absurd hop (by simp [LedgerOp.registers])
  | reserve c amount cur =>
    show Named self n (Call.exec (SqlCall.map Reply.verdict (self.reserve today c amount cur)) db).1
    unfold SqliteSleeveLedger.reserve
    split
    · exact h
    · split
      · exact h
      · refine maintains_call ?_ _ h
        apply Proc.Maintains.bind ?_ (Proc.maintains_get _)
        intro row
        apply Proc.Maintains.bind ?_ (maintains_available _ today cur)
        intro available
        split
        · apply Proc.Maintains.bind ?_ (Proc.maintains_modify fun _ h => h)
          exact fun _ => trivial
        · exact trivial
  | release c => exact h
  | applyFill f =>
    show Named self n (Call.exec (SqlCall.map (fun _ => Reply.done) (self.applyFill f)) db).1
    refine maintains_call ?_ _ h
    apply Proc.Maintains.bind ?_ (Proc.maintains_get _)
    intro prev
    exact maintains_progress prev f
  | recordCashflow amount cur memo =>
    show Named self n
      (Call.exec (SqlCall.map (fun _ => Reply.done) (self.recordCashflow amount cur memo)) db).1
    refine maintains_call ?_ _ h
    apply Proc.Maintains.bind ?_ (Proc.maintains_modify fun _ h => h)
    intro _
    apply Proc.Maintains.bind ?_ (Proc.maintains_get _)
    intro cash
    apply Proc.Maintains.bind ?_ (Proc.maintains_modify fun _ h => h)
    intro _
    exact Proc.maintains_modify fun _ h => h
  | markOrderTerminal c st =>
    show Named self n
      (Call.exec (SqlCall.map (fun _ => Reply.done) (self.markOrderTerminal c st)) db).1
    refine maintains_call ?_ _ h
    apply Proc.Maintains.bind ?_ (maintains_setStatus c st)
    intro _
    exact Proc.maintains_modify fun _ h => h

end Sqlite

namespace LedgerKind

theorem names_recordOrder_inMemory (l : InMemorySleeveLedger) (c orderId sym : String)
    (side : OrderSide) (cur : Currency) (q : Decimal) :
    names .inMemory (l.recordOrder c orderId sym side cur q) =
      (names .inMemory l).write "" c orderId := by
  funext k
  show ((l.recordOrder c orderId sym side cur q).orders.get? k).map (·.orderId) = _
  rw [InMemorySleeveLedger.get?_recordOrder, Register.write]
  by_cases hk : k = c
  · subst hk
    rw [if_pos rfl, Function.update_self]
    rfl
  · rw [if_neg hk, Function.update_of_ne hk]
    rfl

/-- **Recording an order writes its name.** -/
theorem names_recordOrder (kind : LedgerKind) (l : kind.State) (today c orderId sym : String)
    (side : OrderSide) (cur : Currency) (q : Decimal) :
    kind.names (kind.step l today (.recordOrder c orderId sym side cur q)).1 =
      (kind.names l).write "" c orderId := by
  cases kind with
  | inMemory => exact names_recordOrder_inMemory l c orderId sym side cur q
  | sqlite self choice => exact named_writeOrder c orderId sym side cur q rfl

/-- **All that an operation does to the names** is to write the one it registers. -/
theorem names_step (kind : LedgerKind) (l : kind.State) (today : String) (op : LedgerOp) :
    kind.names (kind.step l today op).1 = kind.names l ∨ ∃ c orderId,
      op.registers = some (c, orderId) ∧
        kind.names (kind.step l today op).1 = (kind.names l).write "" c orderId := by
  cases kind with
  | sqlite self choice =>
    cases hop : op.registers with
    | none => exact .inl (named_handle today hop rfl)
    | some e =>
      exact (registered_handle today hop rfl).imp id fun h => ⟨e.1, e.2, rfl, h⟩
  | inMemory =>
    have heffect := InMemorySleeveLedger.step_effect l today op
    show names .inMemory (InMemorySleeveLedger.step l today op).1 = _ ∨ ∃ c orderId, _ ∧
      names .inMemory (InMemorySleeveLedger.step l today op).1 = _
    generalize (InMemorySleeveLedger.step l today op).1 = l' at heffect ⊢
    generalize (InMemorySleeveLedger.step l today op).2 = reply at heffect
    cases heffect with
    | @recorded c o sym side cur q =>
      exact .inr ⟨c, o, rfl, names_recordOrder_inMemory l c o sym side cur q⟩
    | @sellReserved c o sym cur q =>
      exact .inr ⟨c, o, rfl, names_recordOrder_inMemory l c o sym .SELL cur q⟩
    | @settled f _ =>
      left
      funext k
      show ((l.settle _ f).orders.get? k).map _ = (l.orders.get? k).map _
      rw [InMemorySleeveLedger.orders_settle]
      by_cases hk : k = f.clientOrderId
      · rw [if_pos hk, Option.map_map]
        rfl
      · rw [if_neg hk]
    | @terminal c st =>
      left
      funext k
      show ((l.markOrderTerminal c st).orders.get? k).map _ = (l.orders.get? k).map _
      rw [InMemorySleeveLedger.orders_markOrderTerminal]
      by_cases hk : k = c
      · rw [if_pos hk, Option.map_map, hk]
        rfl
      · rw [if_neg hk]
    | reserveRaised => exact .inl rfl
    | reserveRefused => exact .inl rfl
    | reserved => exact .inl rfl
    | released => exact .inl rfl
    | sellRaised => exact .inl rfl
    | sellRefused => exact .inl rfl
    | regressed => exact .inl rfl
    | repeated => exact .inl rfl
    | cashflow => exact .inl rfl

/-! ## 4. What `mark_order_terminal` does -/

section Terminal

variable (kind : LedgerKind) (l : kind.State) (today c : String) (st : OrderStatus)

theorem reply_markOrderTerminal : (kind.step l today (.markOrderTerminal c st)).2 = .done := by
  cases kind <;> rfl

theorem order_markOrderTerminal (k : String) :
    kind.order (kind.step l today (.markOrderTerminal c st)).1 k =
      if k = c then (kind.order l k).map (fun o => { o with status := st })
      else kind.order l k := by
  cases kind with
  | inMemory =>
    show (InMemorySleeveLedger.markOrderTerminal l c st).orders.get? k = _
    rw [InMemorySleeveLedger.orders_markOrderTerminal]
    by_cases hk : k = c
    · rw [if_pos hk, if_pos hk, hk]
      rfl
    · rw [if_neg hk, if_neg hk]
      rfl
  | sqlite self choice =>
    show ((l.orders.update (fun r => decide (r.key = (self.sleeveId, c)))
      (fun r => { r with status := st }) (fun _ => rfl)).find? (self.sleeveId, k)).map _ = _
    rw [Table.find?_update_key]
    by_cases hk : k = c
    · rw [if_pos (by rw [hk]), if_pos hk, order, Option.map_map, Option.map_map]
      rfl
    · rw [if_neg (by simpa using hk), if_neg hk]
      rfl

theorem reservation_markOrderTerminal (k : String) :
    kind.reservation (kind.step l today (.markOrderTerminal c st)).1 k =
      if k = c then none else kind.reservation l k := by
  cases kind with
  | inMemory =>
    show (InMemorySleeveLedger.markOrderTerminal l c st).reserved.get? k = _
    rw [InMemorySleeveLedger.reserved_markOrderTerminal, Dict.get?_erase]
    rfl
  | sqlite self choice =>
    show ((l.reservations.delete fun r => decide (r.key = (self.sleeveId, c))).find?
      (self.sleeveId, k)).map _ = _
    rw [Table.find?_delete_key]
    by_cases hk : k = c
    · rw [if_pos (by rw [hk]), if_pos hk]
      rfl
    · rw [if_neg (by simpa using hk), if_neg hk]
      rfl

theorem filled_markOrderTerminal :
    kind.filled (kind.step l today (.markOrderTerminal c st)).1 = kind.filled l := by
  cases kind with
  | inMemory =>
    funext orderId
    show (InMemorySleeveLedger.markOrderTerminal l c st).filledByOrderId orderId = _
    unfold InMemorySleeveLedger.filledByOrderId
    rw [InMemorySleeveLedger.snapshots_markOrderTerminal]
    rfl
  | sqlite self choice => rfl

end Terminal

/-! ## 5. What `client_order_id_for` finds -/

/-- **A name that is of one row only is found.** -/
theorem clientOrderIdFor_eq {kind : LedgerKind} {l : kind.State} {c orderId : String}
    (h : kind.names l c = some orderId)
    (hunique : ∀ k, kind.names l k = some orderId → k = c) :
    kind.clientOrderIdFor l orderId = .ok (some c) := by
  obtain ⟨o, ho, hname⟩ := names_some h
  cases kind with
  | inMemory =>
    show Except.ok ((l.orders.rows.find? fun e => e.2.orderId = orderId).map Prod.fst) = _
    have hmem : (c, o) ∈ l.orders.rows := Dict.mem_rows_iff.mpr ho
    cases hfind : l.orders.rows.find? fun e => e.2.orderId = orderId with
    | none =>
      have hnone := List.find?_eq_none.mp hfind _ hmem
      exact absurd hname (by simpa using hnone)
    | some e =>
      have he : e.2.orderId = orderId := by simpa using List.find?_some hfind
      have hget : l.orders.get? e.1 = some e.2 :=
        Dict.mem_rows_iff.mp (List.mem_of_find?_eq_some hfind)
      have hkey : e.1 = c := by
        apply hunique
        show (l.orders.get? e.1).map _ = _
        rw [hget, ← he]
        rfl
      rw [Option.map_some, hkey]
  | sqlite self choice =>
    show Except.ok ((choice.pick (l.orders.rows.filter
      fun r => decide (r.sleeveId = self.sleeveId ∧ r.orderId = orderId))).map _) = _
    obtain ⟨r, hr, rfl⟩ := Option.map_eq_some_iff.mp ho
    obtain ⟨hmem, hkey⟩ := Table.find?_some hr
    have hsleeve : r.sleeveId = self.sleeveId := congrArg Prod.fst hkey
    have hin : r ∈ l.orders.rows.filter
        fun r => decide (r.sleeveId = self.sleeveId ∧ r.orderId = orderId) :=
      List.mem_filter.mpr ⟨hmem, by simp [hsleeve, hname]⟩
    cases hpick : choice.pick (l.orders.rows.filter
        fun r => decide (r.sleeveId = self.sleeveId ∧ r.orderId = orderId)) with
    | none =>
      rw [choice.pick_none _ hpick] at hin
      exact absurd hin (by simp)
    | some r' =>
      obtain ⟨hmem', hmatch⟩ := List.mem_filter.mp (choice.pick_mem _ r' hpick)
      obtain ⟨hs', ho'⟩ := of_decide_eq_true hmatch
      have hfind : l.orders.find? (self.sleeveId, r'.clientOrderId) = some r' :=
        Table.find?_eq_some_iff.mpr ⟨hmem', by rw [← hs']⟩
      have hkey' : r'.clientOrderId = c := by
        apply hunique
        show ((l.orders.find? (self.sleeveId, r'.clientOrderId)).map _).map _ = _
        rw [hfind, ← ho']
        rfl
      rw [Option.map_some, hkey']

end LedgerKind

end TossSleeve
