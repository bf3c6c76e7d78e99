import TossSleeve.Ledger.Steps
import TossSleeve.Ledger.Sqlite

/-!
# `Proof/Equivalence.lean` — the two ledgers are one

`SqliteSleeveLedger` refines `InMemorySleeveLedger`. The relation is `Represents`: the rows of the
sleeve, looked up by key, are the entries of the four dictionaries. It says nothing about the
order of rows, because nothing a ledger reports depends on it, and it leaves one column out. The
`client_order_id` of a stored snapshot is overwritten by the dictionary and kept by the upsert, so
two ledgers that were given different ones for one order do differ there — and no operation reads
it back.

Four more facts are part of the relation, and they are what the two sides' different guards rest on.
A currency that has cash has a row, so opening the ledger again adds none. A snapshot is stored
under its own order id. And nothing is ever recorded or reserved under the empty client order id,
which is why asking for membership (the dictionaries) and asking for a non-empty id first (the
statements) is the same.

Every statement is then a triple (`Proc.Ends`): on a database that represents `l` it returns what
`l` returns, and leaves one that represents what `l` became. The methods follow by sequencing.
-/

set_option autoImplicit false

namespace TossSleeve

open Lib

namespace Proof

/-! ## 1. The relation -/

/-- The rows of sleeve `sid` hold the ledger `l`. -/
structure Represents (sid : String) (l : InMemorySleeveLedger) (db : SleeveDb) : Prop where
  cash : ∀ c, ((db.cash.find? (sid, c)).map (·.virtualCash)).getD 0 = l.vc c
  reserved : ∀ k, (db.reservations.find? (sid, k)).map (fun r => (r.currency, r.amount)) =
    l.reserved.get? k
  orders : ∀ k, (db.orders.find? (sid, k)).map (·.toOrder) = l.orders.get? k
  fills : ∀ o, (db.fills.find? (sid, o)).map (fun r => r.toFill.forgetCoid) =
    (l.snapshots.get? o).map Fill.forgetCoid
  hasRow : ∀ c, (l.cash.get? c).isSome → (db.cash.find? (sid, c)).isSome
  keyed : ∀ o f, l.snapshots.get? o = some f → f.orderId = o
  noReservation : l.reserved.get? "" = none
  noOrder : l.orders.get? "" = none

/-- What a sleeve's dictionaries are is said by its own rows. -/
theorem Represents.congr {sid : String} {l : InMemorySleeveLedger} {db db' : SleeveDb}
    (h : Represents sid l db) (hdb : db.only sid = db'.only sid) : Represents sid l db' := by
  have hcash := Table.find?_of_part (congrArg SleeveDb.cash hdb)
  have hreservations := Table.find?_of_part (congrArg SleeveDb.reservations hdb)
  have horders := Table.find?_of_part (congrArg SleeveDb.orders hdb)
  have hfills := Table.find?_of_part (congrArg SleeveDb.fills hdb)
  exact {
    cash := fun c => hcash c ▸ h.cash c
    reserved := fun k => hreservations k ▸ h.reserved k
    orders := fun k => horders k ▸ h.orders k
    fills := fun o => hfills o ▸ h.fills o
    hasRow := fun c hc => hcash c ▸ h.hasRow c hc
    keyed := h.keyed
    noReservation := h.noReservation
    noOrder := h.noOrder }

section Reads

variable {self : SqliteSleeveLedger} {l : InMemorySleeveLedger} {db : SleeveDb}

/-! ## 2. Reads -/

theorem Represents.reservedTotal (h : Represents self.sleeveId l db) (c : Currency) :
    ((db.reservations.rows.filter
      (fun r => decide (r.sleeveId = self.sleeveId ∧ r.currency = c))).map (·.amount)).sum =
      l.reservedTotal c := by
  have hslice : (db.reservations.slice (fun r => (r.currency, r.amount)) self.sleeveId).sum
      (fun e => if e.2.1 = c then e.2.2 else 0) = l.reservedTotal c := by
    rw [l.reservedTotal_eq]
    refine Dict.sum_congr_weightAt fun k => ?_
    rw [Dict.weightAt, Dict.weightAt, Table.get?_slice, h.reserved]
  rw [← hslice, Table.sum_slice, sum_filter_map]
  refine congrArg List.sum (List.map_congr_left fun r _ => ?_)
  by_cases hs : r.sleeveId = self.sleeveId <;> simp [hs]

theorem Represents.settlementPending (h : Represents self.sleeveId l db) (today : String)
    (c : Currency) :
    ((db.fills.rows.filter (fun r => decide (r.sleeveId = self.sleeveId ∧ r.currency = c ∧
      r.side = .SELL ∧ r.settlementDate > today))).map
      (fun r => r.avgPrice * r.filledQuantity - r.commission - r.tax)).sum =
      l.settlementPending today c := by
  have hslice : (db.fills.slice (fun r => r.toFill) self.sleeveId).sum
      (fun e => InMemorySleeveLedger.pendingOf today c e.2) = l.settlementPending today c := by
    rw [l.settlementPending_eq]
    refine Dict.sum_congr_weightAt fun o => ?_
    rw [Dict.weightAt, Dict.weightAt, Table.get?_slice]
    have hpending : ∀ f, InMemorySleeveLedger.pendingOf today c (Fill.forgetCoid f) =
        InMemorySleeveLedger.pendingOf today c f := fun _ => rfl
    rw [← elim_forgetCoid hpending, ← elim_forgetCoid hpending (l.snapshots.get? o),
      Option.map_map]
    exact congrArg (Option.elim · 0 (InMemorySleeveLedger.pendingOf today c)) (h.fills o)
  rw [← hslice, Table.sum_slice, sum_filter_map]
  refine congrArg List.sum (List.map_congr_left fun r _ => ?_)
  have hdate : r.settlementDate > today → r.settlementDate ≠ "" := by
    intro hlater hempty
    rw [hempty] at hlater
    exact InMemorySleeveLedger.not_later_empty today hlater
  have hunsettled : InMemorySleeveLedger.unsettled today c r.toFill =
      decide (r.currency = c ∧ r.side = .SELL ∧ r.settlementDate > today) := by
    unfold InMemorySleeveLedger.unsettled
    refine decide_eq_decide.mpr ⟨?_, ?_⟩
    · intro hw
      obtain ⟨hside, hcur, -, hlater⟩ := hw
      exact ⟨hcur, hside, hlater⟩
    · intro hw
      obtain ⟨hcur, hside, hlater⟩ := hw
      exact ⟨hside, hcur, hdate hlater, hlater⟩
  by_cases hs : r.sleeveId = self.sleeveId
  · simp only [hs, if_true, InMemorySleeveLedger.pendingOf, hunsettled,
      InMemorySleeveLedger.netProceeds, Fill.costBasis, true_and]
  · simp [hs]

/-- Both stores hold the same snapshots, up to order and the client order ids. -/
theorem Represents.snapshots_perm (h : Represents self.sleeveId l db) :
    ((l.snapshots.rows.map Prod.snd).map Fill.forgetCoid).Perm
      (((db.fills.rows.filter (fun r => decide (r.sleeveId = self.sleeveId))).map
        (·.toFill)).map Fill.forgetCoid) := by
  have hperm : (l.snapshots.mapVal Fill.forgetCoid).rows.Perm
      (db.fills.slice (fun r => r.toFill.forgetCoid) self.sleeveId).rows := by
    refine Dict.perm_of_get?_eq fun o => ?_
    rw [Dict.get?_mapVal, Table.get?_slice, h.fills]
  have hrows := hperm.map Prod.snd
  simp only [Dict.mapVal, Table.slice, List.map_map] at hrows
  rw [List.map_map, List.map_map]
  exact hrows

theorem Represents.positionRows (h : Represents self.sleeveId l db) :
    TossSleeve.positionRows (((db.fills.rows.filter
      (fun r => decide (r.sleeveId = self.sleeveId))).insertionSort
        (fun r s => r.orderId ≤ s.orderId)).map (·.toFill)) = l.positions := by
  have hids : ((l.snapshots.rows.map Prod.snd).map (·.orderId)).Nodup := by
    have hkeys : (l.snapshots.rows.map Prod.snd).map (·.orderId) =
        l.snapshots.rows.map Prod.fst := by
      rw [List.map_map]
      refine List.map_congr_left fun e he => ?_
      exact h.keyed e.1 e.2 (Dict.mem_rows_iff.mp he)
    rw [hkeys]
    exact l.snapshots.keys_nodup
  refine (positionRows_eq_of_perm hids ?_).symm
  refine h.snapshots_perm.trans (List.Perm.map _ (List.Perm.map _ ?_))
  exact (List.perm_insertionSort _ _).symm

theorem Represents.filledByOrderId (h : Represents self.sleeveId l db) (o : String) :
    ((findRow (·.orderId) o (db.fills.rows.filter
      (fun r => decide (r.sleeveId = self.sleeveId)))).map (·.filledQuantity)).getD 0 =
      l.filledByOrderId o := by
  -- Among the sleeve's own rows the order id is the whole key.
  have hfind : findRow (·.orderId) o (db.fills.rows.filter
      (fun r => decide (r.sleeveId = self.sleeveId))) = db.fills.find? (self.sleeveId, o) := by
    have hown : findRow (·.orderId) o ((db.fills.rows.filter
        (fun r => decide (r.sleeveId = self.sleeveId))).map id) =
        (findRow FillRow.key (self.sleeveId, o) (db.fills.rows.filter
          (fun r => decide (r.sleeveId = self.sleeveId)))).map id := by
      refine findRow_map fun r hr => ?_
      have hs := of_decide_eq_true (List.mem_filter.mp hr).2
      simp [hs]
    rw [List.map_id, Option.map_id] at hown
    exact hown.trans (findRow_filter fun r _ hk => decide_eq_true (congrArg Prod.fst hk))
  have hfill := congrArg (fun x => (x.map (·.filledQuantity)).getD (0 : Decimal)) (h.fills o)
  simp only [Option.map_map] at hfill
  rw [hfind]
  exact hfill

theorem Represents.openSellQty (h : Represents self.sleeveId l db) (filled : String → Decimal)
    (ticker : String) (excludeCoid : Option String) :
    TossSleeve.openSellQty ((db.orders.rows.filter
      (fun r => decide (r.sleeveId = self.sleeveId))).map OrderRecord.orderRow) filled ticker
        excludeCoid =
      TossSleeve.openSellQty (l.orders.rows.map InMemorySleeveLedger.orderRow) filled ticker
        excludeCoid := by
  have hsum : (db.orders.slice (fun r => r.toOrder) self.sleeveId).sum
      (fun e => if some e.1 = excludeCoid then 0
        else (InMemorySleeveLedger.orderRow e).remaining filled ticker) =
      l.orders.sum (fun e => if some e.1 = excludeCoid then 0
        else (InMemorySleeveLedger.orderRow e).remaining filled ticker) := by
    refine Dict.sum_congr_weightAt fun k => ?_
    rw [Dict.weightAt, Dict.weightAt, Table.get?_slice, h.orders]
  rw [openSellQty_eq_sum, openSellQty_eq_sum, List.map_map, List.map_map]
  simp only [Table.sum, Table.slice, List.map_map] at hsum
  exact hsum

end Reads

section Statements

variable {self : SqliteSleeveLedger} {l : InMemorySleeveLedger}

theorem ends_vc (c : Currency) :
    (self.vc c).Ends (Represents self.sleeveId l) (.ok (l.vc c)) (Represents self.sleeveId l) :=
  .get fun _ h => h.cash c

theorem ends_available (today : String) (c : Currency) :
    (self.available today c).Ends (Represents self.sleeveId l) (.ok (l.available today c))
      (Represents self.sleeveId l) :=
  .bind (ends_vc c) (.bind (.get fun _ h => h.reservedTotal c)
    (.bind (.get fun _ h => h.settlementPending today c) (.ret _)))

theorem ends_reservation (coid : String) :
    (self.reservation coid).Ends (Represents self.sleeveId l)
      (.ok ((l.reserved.get? coid).map fun e => ⟨self.sleeveId, coid, e.1, e.2⟩))
      (Represents self.sleeveId l) := by
  refine .get fun db h => ?_
  rw [← h.reserved, Option.map_map]
  cases hrow : db.reservations.find? (self.sleeveId, coid) with
  | none => rfl
  | some r =>
    have hkey := Table.key_of_find? hrow
    simp only [ReservationRow.key, Prod.mk.injEq] at hkey
    simp [← hkey.1, ← hkey.2]

theorem ends_recordedQty (coid : String) :
    (self.recordedQty coid).Ends (Represents self.sleeveId l) (.ok (l.recordedQty coid))
      (Represents self.sleeveId l) := by
  refine .get fun db h => ?_
  have horder := congrArg (fun x => (x.map (·.quantity)).getD (0 : Decimal)) (h.orders coid)
  simp only [Option.map_map] at horder
  exact horder

theorem ends_positions :
    self.positions.Ends (Represents self.sleeveId l) (.ok l.positions)
      (Represents self.sleeveId l) := by
  intro db h
  refine ⟨db, ?_, h⟩
  show (db, Except.ok (positionRows _)) = _
  rw [h.positionRows]

theorem ends_positionQuantity (ticker : String) :
    (self.positionQuantity ticker).Ends (Represents self.sleeveId l)
      (.ok (l.positionQuantity ticker)) (Represents self.sleeveId l) :=
  .bind ends_positions (.ret _)

theorem ends_filledByOrderId :
    self.filledByOrderId.Ends (Represents self.sleeveId l) (.ok l.filledByOrderId)
      (Represents self.sleeveId l) :=
  .get fun _ h => funext fun o => h.filledByOrderId o

theorem ends_sellAvailability (ticker : String) (excludeCoid : Option String) :
    (self.sellAvailability ticker excludeCoid).Ends (Represents self.sleeveId l)
      (.ok (l.sellAvailability ticker excludeCoid)) (Represents self.sleeveId l) := by
  -- The order of the rows is the store's own; their open quantity is not.
  refine .get_bind (fun rows => ∀ filled, openSellQty rows filled ticker excludeCoid =
    openSellQty (l.orders.rows.map InMemorySleeveLedger.orderRow) filled ticker excludeCoid)
    (fun db h filled => h.openSellQty filled ticker excludeCoid) ?_
  intro rows hrows
  refine .bind ends_filledByOrderId (.bind (ends_positionQuantity ticker) ?_)
  rw [hrows]
  exact .ret _

/-! ## 3. Writes -/

/-- `INSERT OR IGNORE INTO sleeve_cash` adds a row, and no cash: it is ignored, or it inserts 0. -/
theorem Represents.insertCash {db : SleeveDb} (h : Represents self.sleeveId l db)
    {c : Currency} {cap : Decimal} (hcap : cap = 0 ∨ (l.cash.get? c).isSome) :
    Represents self.sleeveId l { db with
      cash := db.cash.upsert (fun old _ => old) ⟨self.sleeveId, c, cap, cap⟩ (fun _ h => h) } := by
  refine { h with cash := fun c' => ?_, hasRow := fun c' hc' => ?_ }
  · rw [Table.find?_upsert, ← h.cash c']
    simp only [Prod.mk.injEq, true_and]
    by_cases hc : c' = c
    · subst hc
      cases hrow : db.cash.find? (self.sleeveId, c') with
      | some row => simp
      | none =>
        rcases hcap with rfl | hsome
        · simp
        · exact absurd (h.hasRow c' hsome) (by simp [hrow])
    · rw [if_neg hc]
  · rw [Table.find?_upsert]
    simp only [Prod.mk.injEq, true_and]
    split
    · rfl
    · exact h.hasRow c' hc'

theorem ends_ensureCurrency (c : Currency) :
    (self.ensureCurrency c).Ends (Represents self.sleeveId l) (.ok ())
      (fun db => Represents self.sleeveId l db ∧ (db.cash.find? (self.sleeveId, c)).isSome) := by
  refine .modify fun db h => ⟨h.insertCash (.inl rfl), ?_⟩
  simp [Table.find?_upsert]

theorem ends_setVc (c : Currency) (value : Decimal) :
    (self.setVc c value).Ends
      (fun db => Represents self.sleeveId l db ∧ (db.cash.find? (self.sleeveId, c)).isSome)
      (.ok ()) (Represents self.sleeveId { l with cash := l.cash.set c value }) := by
  refine .modify fun db h => { h.1 with cash := fun c' => ?_, hasRow := fun c' hc' => ?_ }
  · obtain ⟨row, hrow⟩ := Option.isSome_iff_exists.mp h.2
    show _ = ((l.cash.set c value).get? c').getD 0
    rw [Table.find?_update_key, Dict.get?_set]
    simp only [Prod.mk.injEq, true_and]
    by_cases hc : c' = c
    · subst hc
      simp [hrow]
    · rw [if_neg hc, if_neg hc]
      exact h.1.cash c'
  · rw [Table.find?_update_key]
    simp only [Prod.mk.injEq, true_and]
    by_cases hc : c' = c
    · subst hc
      simpa using h.2
    · rw [Dict.get?_set, if_neg hc] at hc'
      rw [if_neg hc]
      exact h.1.hasRow c' hc'

theorem ends_writeReservation {coid : String} (hcoid : coid ≠ "") (c : Currency)
    (amount : Decimal) :
    (self.writeReservation coid c amount).Ends (Represents self.sleeveId l) (.ok ())
      (Represents self.sleeveId { l with reserved := l.reserved.set coid (c, amount) }) := by
  refine .modify fun db h => { h with reserved := fun k => ?_, noReservation := ?_ }
  · rw [Table.find?_upsert, Dict.get?_set]
    simp only [Prod.mk.injEq, true_and]
    by_cases hk : k = coid
    · subst hk
      cases hrow : db.reservations.find? (self.sleeveId, k) <;> simp
    · rw [if_neg hk, if_neg hk, h.reserved]
  · rw [Dict.get?_set, if_neg hcoid.symm, h.noReservation]

/-- `UPDATE sleeve_reservations`, on a reservation there is. -/
theorem ends_setReservation {coid : String} {c : Currency} {amount : Decimal}
    (hres : l.reserved.get? coid = some (c, amount)) (left : Decimal) :
    (self.setReservation coid left).Ends (Represents self.sleeveId l) (.ok ())
      (Represents self.sleeveId { l with reserved := l.reserved.set coid (c, left) }) := by
  refine .modify fun db h => { h with reserved := fun k => ?_, noReservation := ?_ }
  · rw [Table.find?_update_key, Dict.get?_set]
    simp only [Prod.mk.injEq, true_and]
    by_cases hk : k = coid
    · subst hk
      have hold := h.reserved k
      rw [hres] at hold
      obtain ⟨r, hrow, hr⟩ := Option.map_eq_some_iff.mp hold
      simp only [Prod.mk.injEq] at hr
      simp [hrow, hr.1]
    · rw [if_neg hk, if_neg hk, h.reserved]
  · have hcoid : coid ≠ "" := by
      rintro rfl
      exact absurd (h.noReservation.symm.trans hres) (by simp)
    rw [Dict.get?_set, if_neg hcoid.symm, h.noReservation]

theorem ends_deleteReservation (coid : String) :
    (self.deleteReservation coid).Ends (Represents self.sleeveId l) (.ok ())
      (Represents self.sleeveId (l.release coid)) := by
  refine .modify fun db h => { h with reserved := fun k => ?_, noReservation := ?_ }
  · unfold InMemorySleeveLedger.release
    rw [Table.find?_delete_key, Dict.get?_erase, ← h.reserved]
    by_cases hk : k = coid <;> simp [hk]
  · unfold InMemorySleeveLedger.release
    rw [Dict.get?_erase, h.noReservation, ite_self]

theorem ends_writeOrder {coid : String} (hcoid : coid ≠ "") (o sym : String) (side : OrderSide)
    (c : Currency) (q : Decimal) :
    (self.writeOrder coid o sym side c q).Ends (Represents self.sleeveId l) (.ok ())
      (Represents self.sleeveId (l.recordOrder coid o sym side c q)) := by
  refine .modify fun db h => { h with orders := fun k => ?_, noOrder := ?_ }
  · rw [Table.find?_upsert, l.get?_recordOrder]
    simp only [Prod.mk.injEq, true_and]
    by_cases hk : k = coid
    · subst hk
      have hold := h.orders k
      rw [if_pos rfl, if_pos rfl]
      unfold InMemorySleeveLedger.keptOrderId
      rw [← hold]
      cases hrow : db.orders.find? (self.sleeveId, k) with
      | none => by_cases ho : o = "" <;> simp [ho]
      | some r => by_cases ho : o = "" <;> simp [ho]
    · rw [if_neg hk, if_neg hk, h.orders]
  · rw [l.get?_recordOrder, if_neg hcoid.symm, h.noOrder]

theorem ends_setStatus {coid : String} (st : OrderStatus) (orders : Dict String Order)
    (horders : ∀ k, orders.get? k = if k = coid then
      (l.orders.get? k).map (fun o => { o with status := st }) else l.orders.get? k) :
    (self.setStatus coid st).Ends (Represents self.sleeveId l) (.ok ())
      (Represents self.sleeveId { l with orders }) := by
  refine .modify fun db h => { h with orders := fun k => ?_, noOrder := ?_ }
  · rw [Table.find?_update_key, horders, ← h.orders]
    simp only [Prod.mk.injEq, true_and]
    by_cases hk : k = coid
    · rw [if_pos hk, if_pos hk, Option.map_map, Option.map_map]
      rfl
    · rw [if_neg hk, if_neg hk]
  · rw [horders, h.noOrder, Option.map_none, ite_self]

/-- The upsert keeps the old row's symbol, side and currency; they are the new snapshot's too. -/
theorem ends_writeFill {f : Fill}
    (hsame : ∀ p, l.snapshots.get? f.orderId = some p → p.SameOrder f) :
    (self.writeFill f).Ends (Represents self.sleeveId l) (.ok ())
      (Represents self.sleeveId { l with snapshots := l.snapshots.set f.orderId f }) := by
  refine .modify fun db h => { h with fills := fun o => ?_, keyed := fun o g hg => ?_ }
  · rw [Table.find?_upsert, Dict.get?_set]
    simp only [Prod.mk.injEq, true_and]
    by_cases ho : o = f.orderId
    · rw [if_pos ho, if_pos ho, Option.map_some, Option.map_some, Option.some.injEq]
      have hold := h.fills f.orderId
      cases hrow : db.fills.find? (self.sleeveId, f.orderId) with
      | none => rfl
      | some old =>
        rw [hrow, Option.map_some, eq_comm, Option.map_eq_some_iff] at hold
        obtain ⟨p, hp, heq⟩ := hold
        obtain ⟨hsym, hside, hcur⟩ := hsame p hp
        obtain ⟨hsym', hside', hcur'⟩ := Fill.sameOrder_of_forgetCoid heq
        have hid : old.orderId = f.orderId := congrArg Prod.snd (Table.key_of_find? hrow)
        simp only [Option.elim_some, SqliteSleeveLedger.mergeFill, Fill.forgetCoid, hid,
          ← hsym', ← hside', ← hcur', hsym, hside, hcur]
    · rw [if_neg ho, if_neg ho, h.fills]
  · rw [Dict.get?_set] at hg
    split at hg
    · next ho =>
      cases hg
      exact ho.symm
    · exact h.keyed o g hg

/-! ## 4. Methods -/

theorem ends_consumeReservation (f : Fill) (delta : Decimal) :
    (self.consumeReservation f delta).Ends (Represents self.sleeveId l) (.ok ())
      (Represents self.sleeveId { l with reserved := l.reservedAfterFill f delta }) := by
  intro db h
  have hempty := h.noReservation
  suffices hends : (self.consumeReservation f delta).Ends (Represents self.sleeveId l) (.ok ())
      (Represents self.sleeveId { l with reserved := l.reservedAfterFill f delta }) from hends db h
  unfold SqliteSleeveLedger.consumeReservation InMemorySleeveLedger.reservedAfterFill
  by_cases hside : f.side = .BUY
  · by_cases hcoid : f.clientOrderId = ""
    · -- Nothing is reserved under the empty id, so asking for it finds nothing either.
      rw [if_neg (fun hb => hb.2 hcoid), if_pos hside, hcoid, hempty]
      exact .ret _
    · rw [if_pos ⟨hside, hcoid⟩, if_pos hside]
      refine .bind (ends_reservation f.clientOrderId) ?_
      cases hres : l.reserved.get? f.clientOrderId with
      | none => exact .ret _
      | some e =>
        refine .bind (ends_recordedQty f.clientOrderId) ?_
        simp only
        cases reservationAfterFill (l.recordedQty f.clientOrderId) f.filledQuantity e.2 delta with
        | none => exact ends_deleteReservation f.clientOrderId
        | some left => exact ends_setReservation hres left
  · rw [if_neg (fun hb => hside hb.1), if_neg hside]
    exact .ret _

theorem ends_progressOrder (f : Fill) :
    (self.progressOrder f).Ends (Represents self.sleeveId l) (.ok ())
      (Represents self.sleeveId { l with orders := l.ordersAfterFill f }) := by
  intro db h
  have hempty := h.noOrder
  suffices hends : (self.progressOrder f).Ends (Represents self.sleeveId l) (.ok ())
      (Represents self.sleeveId { l with orders := l.ordersAfterFill f }) from hends db h
  unfold SqliteSleeveLedger.progressOrder
  by_cases hcoid : f.clientOrderId = ""
  · rw [if_neg (fun hne => hne hcoid)]
    unfold InMemorySleeveLedger.ordersAfterFill
    rw [hcoid, hempty]
    exact .ret _
  · rw [if_pos hcoid]
    refine .bind (ends_recordedQty f.clientOrderId) (ends_setStatus _ _ fun k => ?_)
    unfold InMemorySleeveLedger.ordersAfterFill
    cases ho : l.orders.get? f.clientOrderId with
    | none => by_cases hk : k = f.clientOrderId <;> simp [hk, ho]
    | some o => by_cases hk : k = f.clientOrderId <;> simp [hk, ho]

theorem ends_settle {prev : Option Fill} {f : Fill}
    (hprev : prev.map Fill.forgetCoid = (l.snapshots.get? f.orderId).map Fill.forgetCoid)
    (hsame : ∀ p, l.snapshots.get? f.orderId = some p → p.SameOrder f) :
    (self.settle prev f).Ends (Represents self.sleeveId l) (.ok ())
      (Represents self.sleeveId (l.settle (l.snapshots.get? f.orderId) f)) := by
  have hcash : prev.elim 0 signedCash = (l.snapshots.get? f.orderId).elim 0 signedCash := by
    rw [← elim_forgetCoid (fun _ => rfl), hprev, elim_forgetCoid (fun _ => rfl)]
  have hcost : prev.elim 0 Fill.costBasis =
      (l.snapshots.get? f.orderId).elim 0 Fill.costBasis := by
    rw [← elim_forgetCoid (fun _ => rfl), hprev, elim_forgetCoid (fun _ => rfl)]
  unfold SqliteSleeveLedger.settle
  rw [hcash, hcost]
  exact .bind (ends_ensureCurrency f.currency) (.bind (.get fun db h => h.1.cash f.currency)
    (.bind (ends_setVc f.currency _) (.bind (ends_consumeReservation f _)
      (.bind (ends_writeFill hsame) (ends_progressOrder f)))))

/-! ## 5. One call -/

/-- What the source asks of its caller, here: a recorded order has a key, and one order's
    snapshots have one symbol, one side and one currency. -/
def WellKeyed (l : InMemorySleeveLedger) : LedgerOp → Prop
  | .recordOrder c .. => c ≠ ""
  | .applyFill f => ∀ p, l.snapshots.get? f.orderId = some p → p.SameOrder f
  | _ => True

/-- A call whose body returns, as the step of a dictionary method that returns. -/
theorem exec_of_ok {α : Type} {b : Bracket} {body : Sql α} {a : α} {l' : InMemorySleeveLedger}
    {P : SleeveDb → Prop} {db : SleeveDb} (reply : α → Reply)
    (hbody : body.Ends P (.ok a) (Represents self.sleeveId l')) (h : P db) :
    Represents self.sleeveId l' ((SqlCall.map reply (.txn b body)).exec db).1 ∧
      SqliteSleeveLedger.replyOf ((SqlCall.map reply (.txn b body)).exec db).2 = reply a := by
  have hmap : (body >>= fun a => .ret (reply a)).Ends P (.ok (reply a))
      (Represents self.sleeveId l') := .bind hbody (.ret _)
  obtain ⟨hrep, hres⟩ := Call.exec_of_ok hmap b h
  refine ⟨hrep, ?_⟩
  show SqliteSleeveLedger.replyOf ((Call.txn b (body >>= fun a => .ret (reply a))).exec db).2 = _
  rw [hres]
  rfl

theorem exec_reserve {db : SleeveDb} (h : Represents self.sleeveId l db) (today coid : String)
    (amount : Decimal) (c : Currency) :
    Represents self.sleeveId (l.step today (.reserve coid amount c)).1
        ((self.call today (.reserve coid amount c)).exec db).1 ∧
      SqliteSleeveLedger.replyOf ((self.call today (.reserve coid amount c)).exec db).2 =
        (l.step today (.reserve coid amount c)).2 := by
  simp only [SqliteSleeveLedger.call, SqliteSleeveLedger.reserve, InMemorySleeveLedger.step,
    InMemorySleeveLedger.reserve]
  split
  · exact ⟨h, rfl⟩
  · next hcoid =>
    split
    · exact ⟨h, rfl⟩
    · rw [l.prevSame_eq]
      -- The row's amount if the currency is the same, on either side.
      have hprev : ((l.reserved.get? coid).map fun e =>
          (⟨self.sleeveId, coid, e.1, e.2⟩ : ReservationRow)).elim 0
            (fun r => if r.currency = c then r.amount else 0) = l.heldFor coid c := by
        unfold InMemorySleeveLedger.heldFor
        cases l.reserved.get? coid <;> rfl
      by_cases hok : canReserve (l.available today c) (l.heldFor coid c) amount = true
      · rw [if_pos hok]
        refine exec_of_ok _ (.bind (ends_reservation coid) (.bind (ends_available today c) ?_)) h
        rw [hprev, if_pos hok]
        exact .bind (ends_writeReservation hcoid c amount) (.ret _)
      · rw [if_neg hok]
        refine exec_of_ok _ (.bind (ends_reservation coid) (.bind (ends_available today c) ?_)) h
        rw [hprev, if_neg hok]
        exact .ret _

theorem exec_reserveSell {db : SleeveDb} (h : Represents self.sleeveId l db)
    (today coid o sym : String) (c : Currency) (q : Decimal) :
    Represents self.sleeveId (l.step today (.reserveSell coid o sym c q)).1
        ((self.call today (.reserveSell coid o sym c q)).exec db).1 ∧
      SqliteSleeveLedger.replyOf ((self.call today (.reserveSell coid o sym c q)).exec db).2 =
        (l.step today (.reserveSell coid o sym c q)).2 := by
  simp only [SqliteSleeveLedger.call, SqliteSleeveLedger.reserveSell, InMemorySleeveLedger.step,
    InMemorySleeveLedger.reserveSell]
  split
  · exact ⟨h, rfl⟩
  · next hcoid =>
    by_cases hq : q > l.sellAvailability sym (some coid)
    · rw [if_pos hq]
      refine exec_of_ok _ (.bind (ends_sellAvailability sym (some coid)) ?_) h
      rw [if_pos hq]
      exact .ret _
    · rw [if_neg hq]
      refine exec_of_ok _ (.bind (ends_sellAvailability sym (some coid)) ?_) h
      rw [if_neg hq]
      exact .bind (ends_writeOrder hcoid o sym .SELL c q) (.ret _)

theorem exec_applyFill {db : SleeveDb} (h : Represents self.sleeveId l db) (today : String)
    {f : Fill} (hsame : ∀ p, l.snapshots.get? f.orderId = some p → p.SameOrder f) :
    Represents self.sleeveId (l.step today (.applyFill f)).1
        ((self.call today (.applyFill f)).exec db).1 ∧
      SqliteSleeveLedger.replyOf ((self.call today (.applyFill f)).exec db).2 =
        (l.step today (.applyFill f)).2 := by
  obtain ⟨prev, hprev⟩ : ∃ prev, prev = (db.fills.find? (self.sleeveId, f.orderId)).map (·.toFill) :=
    ⟨_, rfl⟩
  have hstored : prev.map Fill.forgetCoid = (l.snapshots.get? f.orderId).map Fill.forgetCoid := by
    rw [hprev, Option.map_map]
    exact h.fills f.orderId
  -- Neither the judgement nor the message sees the column in which the stores may differ.
  have hprogress : fillProgress prev f = fillProgress (l.snapshots.get? f.orderId) f := by
    have hforget : ∀ x : Option Fill, fillProgress (x.map Fill.forgetCoid) f = fillProgress x f := by
      intro x
      cases x <;> rfl
    rw [← hforget, hstored, hforget]
  have hqty : prev.map (·.filledQuantity) =
      (l.snapshots.get? f.orderId).map (·.filledQuantity) := by
    have hmap := congrArg (Option.map (·.filledQuantity)) hstored
    rwa [Option.map_map, Option.map_map] at hmap
  have hsnapshot : (self.snapshot f.orderId).Ends (fun db' => db' = db) (.ok prev)
      (Represents self.sleeveId l) := by
    rintro _ rfl
    exact ⟨_, by rw [hprev]; rfl, h⟩
  simp only [SqliteSleeveLedger.call, SqliteSleeveLedger.applyFill, InMemorySleeveLedger.step,
    InMemorySleeveLedger.applyFill, ← hprogress]
  cases hp : fillProgress prev f with
  | noop =>
    refine exec_of_ok (a := ()) _ (.bind hsnapshot ?_) rfl
    rw [SqliteSleeveLedger.progress, hp]
    exact .ret _
  | regression =>
    have hbody : (SqlCall.map (fun _ => Reply.done) (self.applyFill f)).exec db =
        (db, .error (.desync f.orderId (((l.snapshots.get? f.orderId).map
          (·.filledQuantity)).getD 0) f.filledQuantity)) := by
      refine Call.exec_of_error (Q := Represents self.sleeveId l)
        (.bind_error (.bind hsnapshot ?_)) .immediate rfl
      rw [SqliteSleeveLedger.progress, hp, ← hqty]
      exact .raise _
    exact ⟨(congrArg (Represents self.sleeveId l) (congrArg Prod.fst hbody)).mpr h,
      congrArg SqliteSleeveLedger.replyOf (congrArg Prod.snd hbody)⟩
  | apply =>
    refine exec_of_ok (a := ()) _ (.bind hsnapshot ?_) rfl
    rw [SqliteSleeveLedger.progress, hp]
    exact ends_settle hstored hsame

/-- **One step.** On a database that represents `l`, a call answers what `l` answers and leaves a
    database that represents what `l` became. -/
theorem exec_call {db : SleeveDb} (h : Represents self.sleeveId l db) (today : String)
    {op : LedgerOp} (hop : WellKeyed l op) :
    Represents self.sleeveId (l.step today op).1 ((self.call today op).exec db).1 ∧
      SqliteSleeveLedger.replyOf ((self.call today op).exec db).2 = (l.step today op).2 := by
  cases op with
  | reserve c amount cur => exact exec_reserve h today c amount cur
  | release c => exact exec_of_ok _ (ends_deleteReservation c) h
  | recordOrder c o sym side cur q => exact exec_of_ok _ (ends_writeOrder hop o sym side cur q) h
  | reserveSell c o sym cur q => exact exec_reserveSell h today c o sym cur q
  | applyFill f => exact exec_applyFill h today hop
  | recordCashflow amount cur memo =>
    refine exec_of_ok _ (.bind (ends_ensureCurrency cur) (.bind (.get fun db h => h.1.cash cur)
      (.bind (ends_setVc cur _) (.modify fun db h => ?_)))) h
    exact { h with }
  | markOrderTerminal c st =>
    have horders : l.markOrderTerminal c st =
        ({ l with orders := (l.markOrderTerminal c st).orders } :
          InMemorySleeveLedger).release c := by
      unfold InMemorySleeveLedger.markOrderTerminal
      cases l.orders.get? c <;> rfl
    refine exec_of_ok _ (.bind (ends_setStatus st
      (l.markOrderTerminal c st).orders fun k => ?_) (ends_deleteReservation c))
      h |>.imp_left fun hrep => ?_
    · rw [l.orders_markOrderTerminal]
      by_cases hk : k = c <;> simp [hk]
    · rwa [← horders] at hrep

/-- Opening the ledger again finds its row. -/
theorem exec_opened {db : SleeveDb} (h : Represents self.sleeveId l db)
    (hsid : self.sleeveId ≠ "") {cap : Decimal} (hcap : 0 ≤ cap) {base : Currency}
    (hbase : (l.cash.get? base).isSome) :
    Represents self.sleeveId l ((self.eventCall (.opened cap base)).exec db).1 ∧
      SqliteSleeveLedger.replyOf ((self.eventCall (.opened cap base)).exec db).2 = .done := by
  simp only [SqliteSleeveLedger.eventCall, SqliteSleeveLedger.init, if_neg hsid,
    if_neg (not_lt.mpr hcap)]
  exact exec_of_ok (a := ()) _ (.modify fun db h => h.insertCash (.inr hbase)) h

end Statements

/-! ## 6. Runs -/

/-- An event, for the dictionary ledger. It cannot be closed: reopening is the SQL ledger's. -/
def memHandle (l : InMemorySleeveLedger) : LedgerEvent → InMemorySleeveLedger × Reply
  | .opened _ _ => (l, .done)
  | .called today op => l.step today op

def memHandleAll : InMemorySleeveLedger → List LedgerEvent → InMemorySleeveLedger × List Reply
  | l, [] => (l, [])
  | l, ev :: evs =>
    let (l', reply) := memHandle l ev
    let (l'', replies) := memHandleAll l' evs
    (l'', reply :: replies)

/-- The SQL ledger is only ever reopened with the arguments it was first opened with. -/
def ReopenedAlike (cap : Decimal) (base : Currency) (evs : List LedgerEvent) : Prop :=
  ∀ cap' base', LedgerEvent.opened cap' base' ∈ evs → cap' = cap ∧ base' = base

/-- No order is recorded without a key. -/
def RecordedUnderKey (evs : List LedgerEvent) : Prop :=
  ∀ today c o sym side cur q, LedgerEvent.called today (.recordOrder c o sym side cur q) ∈ evs → c ≠ ""

/-- All snapshots of one order agree on symbol, side and currency. -/
def FillsConsistent (evs : List LedgerEvent) : Prop :=
  ∀ d d' f g, LedgerEvent.called d (.applyFill f) ∈ evs → LedgerEvent.called d' (.applyFill g) ∈ evs →
    f.orderId = g.orderId → f.SameOrder g

/-- What a run keeps between the two ledgers, `evs` being what is still to come. -/
structure Alike (sid : String) (base : Currency) (evs : List LedgerEvent) (l : InMemorySleeveLedger)
    (db : SleeveDb) : Prop where
  represents : Represents sid l db
  /-- The base currency has cash, and has it from the start. -/
  base : (l.cash.get? base).isSome
  /-- A stored snapshot agrees with those of its order that are still to come. -/
  stored : ∀ o p, l.snapshots.get? o = some p → ∀ d f, LedgerEvent.called d (.applyFill f) ∈ evs →
    f.orderId = o → p.SameOrder f

/-- Cash entries are written over, never removed. -/
theorem isSome_cash_step (l : InMemorySleeveLedger) (today : String) (op : LedgerOp) {c : Currency}
    (h : (l.cash.get? c).isSome) : ((l.step today op).1.cash.get? c).isSome := by
  have hset : ∀ (cur : Currency) (v : Decimal), ((l.cash.set cur v).get? c).isSome := by
    intro cur v
    rw [Dict.get?_set]
    split
    · rfl
    · exact h
  have heff := l.step_effect today op
  revert heff
  generalize (l.step today op).1 = l', (l.step today op).2 = r
  intro heff
  cases heff with
  | settled => exact hset _ _
  | cashflow => exact hset _ _
  | @terminal coid st =>
    have hcash : (l.markOrderTerminal coid st).cash = l.cash := by
      unfold InMemorySleeveLedger.markOrderTerminal InMemorySleeveLedger.release
      cases l.orders.get? coid <;> rfl
    rw [hcash]
    exact h
  | _ => exact h

/-- A stored snapshot was stored before, or is the one just applied. -/
theorem snapshots_step {l : InMemorySleeveLedger} {today : String} {op : LedgerOp} {o : String}
    {p : Fill} (h : (l.step today op).1.snapshots.get? o = some p) :
    l.snapshots.get? o = some p ∨ (op = .applyFill p ∧ p.orderId = o) := by
  have heff := l.step_effect today op
  revert heff h
  generalize (l.step today op).1 = l', (l.step today op).2 = r
  intro h heff
  cases heff with
  | @settled f happ =>
    rw [InMemorySleeveLedger.get?_snapshots_settle] at h
    split at h
    · next ho =>
      cases h
      exact .inr ⟨rfl, ho.symm⟩
    · exact .inl h
  | terminal =>
    rw [InMemorySleeveLedger.snapshots_markOrderTerminal] at h
    exact .inl h
  | _ => exact .inl h

section Runs

variable {self : SqliteSleeveLedger} {cap : Decimal} {base : Currency}

/-- The step lemma. -/
theorem Alike.step {l : InMemorySleeveLedger} {db : SleeveDb} {ev : LedgerEvent}
    {evs : List LedgerEvent}
    (h : Alike self.sleeveId base (ev :: evs) l db) (hsid : self.sleeveId ≠ "") (hcap : 0 ≤ cap)
    (hopen : ReopenedAlike cap base (ev :: evs)) (hkey : RecordedUnderKey (ev :: evs))
    (hcons : FillsConsistent (ev :: evs)) :
    Alike self.sleeveId base evs (memHandle l ev).1 (self.handle db ev).1 ∧
      (self.handle db ev).2 = (memHandle l ev).2 := by
  cases ev with
  | opened cap' base' =>
    obtain ⟨rfl, rfl⟩ := hopen cap' base' List.mem_cons_self
    obtain ⟨hrep, hreply⟩ := exec_opened h.represents hsid hcap h.base
    refine ⟨⟨hrep, h.base, fun o p hp d f hf => ?_⟩, hreply⟩
    exact h.stored o p hp d f (List.mem_cons_of_mem _ hf)
  | called today op =>
    have hop : WellKeyed l op := by
      cases op with
      | recordOrder c o sym side cur q => exact hkey today c o sym side cur q List.mem_cons_self
      | applyFill f => exact fun p hp => h.stored f.orderId p hp today f List.mem_cons_self rfl
      | _ => trivial
    obtain ⟨hrep, hreply⟩ := exec_call h.represents today hop
    refine ⟨⟨hrep, isSome_cash_step l today op h.base, fun o p hp d f hf ho => ?_⟩, hreply⟩
    rcases snapshots_step hp with hold | ⟨rfl, hpo⟩
    · exact h.stored o p hold d f (List.mem_cons_of_mem _ hf) ho
    · exact hcons today d p f List.mem_cons_self (List.mem_cons_of_mem _ hf) (hpo.trans ho.symm)

/-- The run lemma. -/
theorem Alike.run (hsid : self.sleeveId ≠ "") (hcap : 0 ≤ cap) (evs : List LedgerEvent) :
    ∀ {l : InMemorySleeveLedger} {db : SleeveDb}, Alike self.sleeveId base evs l db →
      ReopenedAlike cap base evs → RecordedUnderKey evs → FillsConsistent evs →
      Represents self.sleeveId (memHandleAll l evs).1 (self.handleAll db evs).1 ∧
        (self.handleAll db evs).2 = (memHandleAll l evs).2 := by
  induction evs with
  | nil =>
    intro l db h _ _ _
    exact ⟨h.represents, rfl⟩
  | cons ev evs ih =>
    intro l db h hopen hkey hcons
    obtain ⟨hstep, hreply⟩ := h.step hsid hcap hopen hkey hcons
    obtain ⟨hrep, hreplies⟩ := ih hstep
      (fun cap' base' hev => hopen cap' base' (List.mem_cons_of_mem _ hev))
      (fun d c o sym side cur q hev => hkey d c o sym side cur q (List.mem_cons_of_mem _ hev))
      (fun d d' f g hf hg => hcons d d' f g (List.mem_cons_of_mem _ hf) (List.mem_cons_of_mem _ hg))
    refine ⟨hrep, ?_⟩
    show (self.handle db ev).2 :: (self.handleAll (self.handle db ev).1 evs).2 =
      (memHandle l ev).2 :: (memHandleAll (memHandle l ev).1 evs).2
    rw [hreply, hreplies]

end Runs

/-! ## 7. What can be observed -/

def memObserved (l : InMemorySleeveLedger) : Observed where
  virtualCash c := .ok (l.virtualCash c)
  available today c := .ok (l.available today c)
  positions := .ok l.positions
  positionQuantity ticker := .ok (l.positionQuantity ticker)
  availableToSell ticker := .ok (l.availableToSell ticker)
  orderStatus coid := .ok (l.orderStatus coid)
  clientOrderIdFor orderId := .ok (l.clientOrderIdFor orderId)

/-- At most one order is recorded with `orderId`. -/
def RecordedOnce (l : InMemorySleeveLedger) (orderId : String) : Prop :=
  ∀ c c' o o', l.orders.get? c = some o → l.orders.get? c' = some o' →
    o.orderId = orderId → o'.orderId = orderId → c = c'

/-- `sql` shows what the ledger `l` shows. Where several orders were recorded with one order id,
    each store names one of them. -/
structure ShowsAlike (l : InMemorySleeveLedger) (sql : Observed) : Prop where
  virtualCash : sql.virtualCash = (memObserved l).virtualCash
  available : sql.available = (memObserved l).available
  positions : sql.positions = (memObserved l).positions
  positionQuantity : sql.positionQuantity = (memObserved l).positionQuantity
  availableToSell : sql.availableToSell = (memObserved l).availableToSell
  orderStatus : sql.orderStatus = (memObserved l).orderStatus
  clientOrderIdFor : ∀ orderId, RecordedOnce l orderId →
    sql.clientOrderIdFor orderId = (memObserved l).clientOrderIdFor orderId

section Observations

variable {self : SqliteSleeveLedger} {l : InMemorySleeveLedger} {db : SleeveDb}

theorem Represents.clientOrderIdFor (h : Represents self.sleeveId l db) (choice : RowChoice)
    {orderId : String} (honce : RecordedOnce l orderId) :
    (choice.pick (db.orders.rows.filter
      (fun r => decide (r.sleeveId = self.sleeveId ∧ r.orderId = orderId)))).map
        (·.clientOrderId) = l.clientOrderIdFor orderId := by
  -- The rows the statement matches are the orders recorded with `orderId`.
  have hrow : ∀ r ∈ db.orders.rows.filter
      (fun r => decide (r.sleeveId = self.sleeveId ∧ r.orderId = orderId)),
      l.orders.get? r.clientOrderId = some r.toOrder ∧ r.orderId = orderId := by
    intro r hr
    obtain ⟨hmem, hmatch⟩ := List.mem_filter.mp hr
    obtain ⟨hs, ho⟩ := of_decide_eq_true hmatch
    have hfind : db.orders.find? (self.sleeveId, r.clientOrderId) = some r :=
      Table.find?_eq_some_iff.mpr ⟨hmem, by rw [← hs]⟩
    rw [← h.orders, hfind]
    exact ⟨rfl, ho⟩
  unfold InMemorySleeveLedger.clientOrderIdFor
  cases hmem : l.orders.rows.find? (fun e => e.2.orderId = orderId) with
  | none =>
    cases hpick : choice.pick (db.orders.rows.filter
        (fun r => decide (r.sleeveId = self.sleeveId ∧ r.orderId = orderId))) with
    | none => rfl
    | some r =>
      obtain ⟨hget, ho⟩ := hrow r (choice.pick_mem _ r hpick)
      have hnone := List.find?_eq_none.mp hmem _ (Dict.mem_rows_iff.mpr hget)
      exact absurd ho (by simpa using hnone)
  | some e =>
    have ho : e.2.orderId = orderId := by simpa using List.find?_some hmem
    have hget : l.orders.get? e.1 = some e.2 := Dict.mem_rows_iff.mp (List.mem_of_find?_eq_some hmem)
    cases hpick : choice.pick (db.orders.rows.filter
        (fun r => decide (r.sleeveId = self.sleeveId ∧ r.orderId = orderId))) with
    | none =>
      have hold := h.orders e.1
      rw [hget, Option.map_eq_some_iff] at hold
      obtain ⟨r, hfind, hr⟩ := hold
      have hkey := Table.find?_some hfind
      have hs : r.sleeveId = self.sleeveId := congrArg Prod.fst hkey.2
      have hin : r ∈ db.orders.rows.filter
          (fun r => decide (r.sleeveId = self.sleeveId ∧ r.orderId = orderId)) :=
        List.mem_filter.mpr ⟨hkey.1, by simp [hs, hr, ho]⟩
      rw [choice.pick_none _ hpick] at hin
      exact absurd hin (by simp)
    | some r =>
      obtain ⟨hget', ho'⟩ := hrow r (choice.pick_mem _ r hpick)
      rw [Option.map_some, Option.map_some, honce _ _ _ _ hget' hget ho' ho]

/-- A read that ends the same on every database representing `l` shows the same. -/
theorem Represents.shows {α : Type} {p : Sql α} {a : α} (h : Represents self.sleeveId l db)
    (hp : p.Ends (Represents self.sleeveId l) (.ok a) (Represents self.sleeveId l)) :
    (p.run db).2 = .ok a := by
  obtain ⟨db', hrun, -⟩ := hp db h
  rw [hrun]

theorem Represents.showsAlike (h : Represents self.sleeveId l db) (choice : RowChoice) :
    ShowsAlike l (self.observed choice db) where
  virtualCash := funext fun c => h.shows (ends_vc c)
  available := funext fun today => funext fun c => h.shows (ends_available today c)
  positions := h.shows ends_positions
  positionQuantity := funext fun ticker => h.shows (ends_positionQuantity ticker)
  availableToSell := funext fun ticker => h.shows (ends_sellAvailability ticker none)
  orderStatus := funext fun coid => by
    have hstatus := congrArg (Option.map (·.status)) (h.orders coid)
    rw [Option.map_map] at hstatus
    exact congrArg Except.ok hstatus
  clientOrderIdFor := fun _ honce => congrArg Except.ok (h.clientOrderIdFor choice honce)

/-- A database without rows of the sleeve represents the new ledger, once it is opened. -/
theorem represents_fresh (hfresh : db.only self.sleeveId = .empty) (hsid : self.sleeveId ≠ "")
    {cap : Decimal} (hcap : 0 ≤ cap) (base : Currency) :
    Represents self.sleeveId (.fresh self.sleeveId cap base)
        (self.handle db (.opened cap base)).1 ∧
      (self.handle db (.opened cap base)).2 = .done := by
  have hcash : ∀ c, db.cash.find? (self.sleeveId, c) = none := fun c => by
    rw [← Table.find?_part, show db.cash.part self.sleeveId = ∅ from congrArg SleeveDb.cash hfresh]
    rfl
  have hreservations : ∀ k, db.reservations.find? (self.sleeveId, k) = none := fun k => by
    rw [← Table.find?_part, show db.reservations.part self.sleeveId = ∅ from
      congrArg SleeveDb.reservations hfresh]
    rfl
  have horders : ∀ k, db.orders.find? (self.sleeveId, k) = none := fun k => by
    rw [← Table.find?_part, show db.orders.part self.sleeveId = ∅ from
      congrArg SleeveDb.orders hfresh]
    rfl
  have hfills : ∀ o, db.fills.find? (self.sleeveId, o) = none := fun o => by
    rw [← Table.find?_part, show db.fills.part self.sleeveId = ∅ from
      congrArg SleeveDb.fills hfresh]
    rfl
  simp only [SqliteSleeveLedger.handle, SqliteSleeveLedger.eventCall, SqliteSleeveLedger.init,
    if_neg hsid, if_neg (not_lt.mpr hcap)]
  refine exec_of_ok (a := ()) (P := fun db' => db' = db) _ (.modify ?_) rfl
  rintro _ rfl
  refine ⟨fun c => ?_, fun k => ?_, fun k => ?_, fun o => ?_, fun c hc => ?_, fun o f hf => ?_, rfl,
    rfl⟩
  · show _ = ((Dict.set ∅ base cap).get? c).getD 0
    rw [Table.find?_upsert, Dict.get?_set]
    simp only [Prod.mk.injEq, true_and]
    by_cases hb : c = base
    · subst hb
      simp [hcash]
    · simp [hb, hcash]
  · rw [hreservations]
    rfl
  · rw [horders]
    rfl
  · rw [hfills]
    rfl
  · have hb : c = base := by
      by_contra hne
      exact absurd hc (by simp [InMemorySleeveLedger.fresh, hne])
    rw [Table.find?_upsert, hb]
    simp
  · exact absurd hf (by simp [InMemorySleeveLedger.fresh])

/-- **The two ledgers are observationally equivalent.** Constructed with the same arguments, they
    both raise the same, or none does; and then, whatever is called on both of them, and however
    often the SQL ledger is closed and opened again in between, every call answers the same and
    what they show afterwards is the same. -/
theorem ledgers_equivalent {cap : Decimal} {base : Currency} (choice : RowChoice)
    (hfresh : db.only self.sleeveId = .empty) {evs : List LedgerEvent}
    (hopen : ReopenedAlike cap base evs) (hkey : RecordedUnderKey evs)
    (hcons : FillsConsistent evs) :
    match InMemorySleeveLedger.init self.sleeveId cap base with
    | .error e => self.handle db (.opened cap base) = (db, .raised e)
    | .ok l₀ =>
      (self.handle db (.opened cap base)).2 = .done ∧
      (self.handleAll (self.handle db (.opened cap base)).1 evs).2 = (memHandleAll l₀ evs).2 ∧
      ShowsAlike (memHandleAll l₀ evs).1
        (self.observed choice (self.handleAll (self.handle db (.opened cap base)).1 evs).1) := by
  cases hinit : InMemorySleeveLedger.init self.sleeveId cap base with
  | error e =>
    unfold InMemorySleeveLedger.init at hinit
    simp only [SqliteSleeveLedger.handle, SqliteSleeveLedger.eventCall, SqliteSleeveLedger.init]
    split at hinit
    · next hsid =>
      cases hinit
      rw [if_pos hsid]
      rfl
    · next hsid =>
      split at hinit
      · next hcap =>
        cases hinit
        rw [if_neg hsid, if_pos hcap]
        rfl
      · exact absurd hinit (by simp)
  | ok l₀ =>
    obtain ⟨hsid, hcap, rfl⟩ := InMemorySleeveLedger.init_inv hinit
    obtain ⟨hrep, hdone⟩ := represents_fresh hfresh hsid hcap base
    have halike : Alike self.sleeveId base evs (.fresh self.sleeveId cap base)
        (self.handle db (.opened cap base)).1 := by
      refine ⟨hrep, by simp [InMemorySleeveLedger.fresh], fun o p hp => ?_⟩
      exact absurd hp (by simp [InMemorySleeveLedger.fresh])
    obtain ⟨hfinal, hreplies⟩ := halike.run hsid hcap evs hopen hkey hcons
    exact ⟨hdone, hreplies, hfinal.showsAlike choice⟩

end Observations

/-- A BUY reserved, re-reserved in another currency, and filled under differing client order ids
    around a restart of the SQL ledger. -/
def restartedRun : List LedgerEvent :=
  [.called "2026-01-02" (.reserve "c1" 40 .KRW), .called "2026-01-02" (.reserve "c1" 900 .USD),
   .called "2026-01-02" (.recordOrder "c1" "o1" "AAPL" .BUY .USD 9),
   .called "2026-01-03" (.applyFill (.whole "o1" "c1" "AAPL" .BUY .USD 4 100 1 "")),
   .opened 1000 .USD,
   .called "2026-01-03" (.applyFill (.whole "o1" "" "AAPL" .BUY .USD 9 100 2 "")),
   .called "2026-01-03" (.applyFill (.whole "o1" "c1" "AAPL" .BUY .USD 8 100 2 ""))]

theorem ledgers_equivalent_restartedRun :
    let self : SqliteSleeveLedger := ⟨"a"⟩
    let db := (self.handle .empty (.opened 1000 .USD)).1
    ((self.handleAll db restartedRun).2 = [.verdict false, .verdict true, .done, .done, .done, .done,
        .raised (.desync "o1" 9 8)]) ∧
      ShowsAlike (memHandleAll (.fresh "a" 1000 .USD) restartedRun).1
        (self.observed .first (self.handleAll db restartedRun).1) := by
  have hopen : ReopenedAlike 1000 .USD restartedRun := by
    intro cap base hev
    simpa [restartedRun] using hev
  have hkey : RecordedUnderKey restartedRun := by
    intro today c o sym side cur q hev
    simp only [restartedRun, List.mem_cons, LedgerEvent.called.injEq, reduceCtorEq, and_false,
      LedgerOp.recordOrder.injEq, false_or, or_false, List.not_mem_nil] at hev
    rw [hev.2.1]
    decide
  have hcons : FillsConsistent restartedRun := by
    intro d d' f g hf hg _
    simp only [restartedRun, List.mem_cons, LedgerEvent.called.injEq, reduceCtorEq, and_false,
      LedgerOp.applyFill.injEq, false_or, or_false, List.not_mem_nil] at hf hg
    rcases hf with ⟨-, rfl⟩ | ⟨-, rfl⟩ | ⟨-, rfl⟩ <;> rcases hg with ⟨-, rfl⟩ | ⟨-, rfl⟩ | ⟨-, rfl⟩ <;>
      exact ⟨rfl, rfl, rfl⟩
  have hequiv := @ledgers_equivalent ⟨"a"⟩ .empty 1000 .USD .first rfl _ hopen hkey hcons
  rw [InMemorySleeveLedger.init_ok "a" 1000 .USD (by decide) (by decide +kernel)] at hequiv
  refine ⟨hequiv.2.1.trans ?_, hequiv.2.2⟩
  decide +kernel

end Proof

end TossSleeve
