import TossSleeve.Proof.Processes
import TossSleeve.Lib.Shards

/-!
# `Proof/Histories.lean` — the history of an order is all that counts

Executions are polled order by order, by whoever comes first, and Toss promises nothing about when
it reports which. Two databases may so see the same orders through the same steps in quite another
interleaving. They show the same: what the sleeve's ledger holds is said by what happened to each
order by itself, and by the deposits (`histories_count`).

Only the guards look beyond their own order: what they answer depends on all the others. But they
write what they answered, and no more; so a history has the answers in it (`absorb`), and with them
the ledger falls apart into the orders — reservation, row and snapshots — and the cash, to which
everybody adds (`sharded`).

A snapshot may come before its order is known; it then carries no client order id. It is in the lane
of its order all the same.
-/

set_option autoImplicit false

namespace TossSleeve

open Lib

/-! ## 1. Lanes -/

/-- What an operation is about. -/
inductive Lane where
  | order (clientOrderId : String)
  | cashflow (amount : Decimal) (currency : Currency) (memo : String)
  deriving DecidableEq

/-- `owner` says whose order an order id is. -/
def LedgerOp.lane (owner : String → String) : LedgerOp → Lane
  | .reserve c _ _ => .order c
  | .release c => .order c
  | .recordOrder c _ _ _ _ _ => .order c
  | .reserveSell c _ _ _ _ => .order c
  | .applyFill f => .order (owner f.orderId)
  | .recordCashflow amount cur memo => .cashflow amount cur memo
  | .markOrderTerminal c _ => .order c

/-- The executions of an order carry its client order id, or none yet. -/
def Attributed (owner : String → String) (evs : List LedgerEvent) : Prop :=
  ∀ today f, LedgerEvent.called today (.applyFill f) ∈ evs →
    f.clientOrderId = owner f.orderId ∨ f.clientOrderId = ""

/-- The operations among events, with what was returned. -/
def withReplies : List LedgerEvent → List Reply → List (LedgerOp × Reply)
  | .opened _ _ :: evs, _ :: replies => withReplies evs replies
  | .called _ op :: evs, reply :: replies => (op, reply) :: withReplies evs replies
  | _, _ => []

/-- What a sleeve has committed. -/
def CommitLog.history (sid : String) (log : CommitLog) : List (LedgerOp × Reply) :=
  withReplies (log.events sid) (log.replies sid)

namespace InMemorySleeveLedger

/-- An operation of which the answer is known. -/
def absorb (l : InMemorySleeveLedger) : LedgerOp × Reply → InMemorySleeveLedger
  | (.reserve c amount cur, reply) =>
    if reply = .verdict true then { l with reserved := l.reserved.set c (cur, amount) } else l
  | (.reserveSell c o sym cur q, reply) =>
    if reply = .verdict true then l.recordOrder c o sym .SELL cur q else l
  | (op, _) => (l.step "" op).1

end InMemorySleeveLedger

/-- What the ledger knows of one order. -/
structure OrderShard where
  reservation : Option (Currency × Decimal)
  row : Option Order
  snapshots : String → Option Fill

namespace Proof

open InMemorySleeveLedger

section Shards

variable {owner : String → String} {l l' : InMemorySleeveLedger} {f : Fill} {op : LedgerOp}
  {reply : Reply}

def orderShard (owner : String → String) (l : InMemorySleeveLedger) (c : String) : OrderShard where
  reservation := l.reserved.get? c
  row := l.orders.get? c
  snapshots o := if owner o = c then l.snapshots.get? o else none

def laneShard (owner : String → String) (l : InMemorySleeveLedger) : Lane → OrderShard
  | .order c => orderShard owner l c
  | .cashflow _ _ _ => ⟨none, none, fun _ => none⟩

/-- What an operation adds to the cash. -/
def pays (shard : OrderShard) : LedgerOp × Reply → Currency → Decimal
  | (.applyFill f, _), c =>
    if fillProgress (shard.snapshots f.orderId) f = .apply ∧ c = f.currency then
      signedCash f - (shard.snapshots f.orderId).elim 0 signedCash else 0
  | (.recordCashflow amount cur _, _), c => if c = cur then amount else 0
  | _, _ => 0

/-- Nothing is under the empty client order id. -/
def BlankFree (l : InMemorySleeveLedger) : Prop :=
  l.reserved.get? "" = none ∧ l.orders.get? "" = none

/-- Rows are written under a client order id; executions carry that of their order, or none. -/
def Keyed (owner : String → String) : LedgerOp × Reply → Prop
  | (.reserve c _ _, reply) => reply = .verdict true → c ≠ ""
  | (.reserveSell c _ _ _ _, reply) => reply = .verdict true → c ≠ ""
  | (.recordOrder c _ _ _ _ _, _) => c ≠ ""
  | (.applyFill f, _) => f.clientOrderId = owner f.orderId ∨ f.clientOrderId = ""
  | _ => True

/-! ## 2. One operation -/

theorem absorb_applyFill (l : InMemorySleeveLedger) (f : Fill) (reply : Reply) :
    l.absorb (.applyFill f, reply) =
      if fillProgress (l.snapshots.get? f.orderId) f = .apply then
        l.settle (l.snapshots.get? f.orderId) f else l := by
  simp only [absorb, step, applyFill]
  cases fillProgress (l.snapshots.get? f.orderId) f <;> rfl

/-- **With its answer, an operation is what the step does.** -/
theorem step_eq_absorb (l : InMemorySleeveLedger) (today : String) (op : LedgerOp) :
    (l.step today op).1 = l.absorb (op, (l.step today op).2) := by
  cases op with
  | reserve c amount cur =>
    have heffect := l.step_effect today (.reserve c amount cur)
    generalize (l.step today (.reserve c amount cur)).1 = l' at heffect ⊢
    generalize (l.step today (.reserve c amount cur)).2 = reply at heffect ⊢
    cases heffect <;> simp [absorb]
  | reserveSell c o sym cur q =>
    have heffect := l.step_effect today (.reserveSell c o sym cur q)
    generalize (l.step today (.reserveSell c o sym cur q)).1 = l' at heffect ⊢
    generalize (l.step today (.reserveSell c o sym cur q)).2 = reply at heffect ⊢
    cases heffect <;> simp [absorb]
  | _ => rfl

/-- A reservation after an execution is said by the reservation and the row before it. -/
theorem get?_reserved_settle (hres : l.reserved.get? f.clientOrderId =
    l'.reserved.get? f.clientOrderId) (hrow : l.orders.get? f.clientOrderId =
    l'.orders.get? f.clientOrderId) {c : String} (hc : l.reserved.get? c = l'.reserved.get? c)
    (prev : Option Fill) :
    (l.settle prev f).reserved.get? c = (l'.settle prev f).reserved.get? c := by
  show (l.reservedAfterFill f _).get? c = (l'.reservedAfterFill f _).get? c
  have hqty : l.recordedQty f.clientOrderId = l'.recordedQty f.clientOrderId := by
    simp only [recordedQty, hrow]
  unfold reservedAfterFill
  split
  · rw [hres, hqty]
    cases l'.reserved.get? f.clientOrderId with
    | none => exact hc
    | some e =>
      simp only
      split <;> simp [hc]
  · exact hc

theorem get?_orders_settle {c : String} (hc : l.orders.get? c = l'.orders.get? c)
    (prev : Option Fill) : (l.settle prev f).orders.get? c = (l'.settle prev f).orders.get? c := by
  rw [orders_settle, orders_settle, hc]

/-- An execution is nothing to an order it does not name, nor to one that is not there. -/
theorem settle_other {c : String} (prev : Option Fill)
    (h : c ≠ f.clientOrderId ∨ l.reserved.get? c = none ∧ l.orders.get? c = none) :
    (l.settle prev f).reserved.get? c = l.reserved.get? c ∧
      (l.settle prev f).orders.get? c = l.orders.get? c := by
  have hconsumed := reserved_settle l f prev
  rw [orders_settle]
  rcases h with hc | ⟨hres, hrow⟩
  · exact ⟨hconsumed.get?_of_ne hc, if_neg hc⟩
  · refine ⟨(hconsumed.get?_none hres).trans hres.symm, ?_⟩
    rw [hrow, Option.map_none, ite_self]

theorem blankFree_absorb (l : InMemorySleeveLedger) (a : LedgerOp × Reply) (h : BlankFree l)
    (ha : Keyed owner a) : BlankFree (l.absorb a) := by
  obtain ⟨op, reply⟩ := a
  obtain ⟨hres, hrow⟩ := h
  cases op with
  | reserve c amount cur =>
    simp only [absorb]
    split
    · next hyes => exact ⟨by simp [(ha hyes).symm, hres], hrow⟩
    · exact ⟨hres, hrow⟩
  | release c => exact ⟨by simp [absorb, step, release, hres], hrow⟩
  | recordOrder c o sym side cur q =>
    exact ⟨hres, (get?_recordOrder l c o sym side cur q "").trans (by
      rw [if_neg (Ne.symm ha), hrow])⟩
  | reserveSell c o sym cur q =>
    simp only [absorb]
    split
    · next hyes => exact ⟨hres, by rw [get?_recordOrder, if_neg (ha hyes).symm, hrow]⟩
    · exact ⟨hres, hrow⟩
  | applyFill f =>
    rw [absorb_applyFill]
    split
    · obtain ⟨hres', hrow'⟩ := settle_other (f := f) (l.snapshots.get? f.orderId)
        (.inr ⟨hres, hrow⟩)
      exact ⟨hres'.trans hres, hrow'.trans hrow⟩
    · exact ⟨hres, hrow⟩
  | recordCashflow amount cur memo => exact ⟨hres, hrow⟩
  | markOrderTerminal c st =>
    refine ⟨?_, (orders_markOrderTerminal l c st "").trans ?_⟩
    · exact (congrArg (Dict.get? · "") (reserved_markOrderTerminal l c st)).trans (by simp [hres])
    · split
      · next hc => rw [← hc, hrow, Option.map_none]
      · exact hrow

/-- Two ledgers know the same of an order. -/
theorem orderShard_eq_iff {c : String} : orderShard owner l c = orderShard owner l' c ↔
    l.reserved.get? c = l'.reserved.get? c ∧ l.orders.get? c = l'.orders.get? c ∧
      ∀ o, owner o = c → l.snapshots.get? o = l'.snapshots.get? o := by
  simp only [orderShard, OrderShard.mk.injEq, funext_iff]
  refine and_congr_right fun _ => and_congr_right fun _ => forall_congr' fun o => ?_
  by_cases ho : owner o = c <;> simp [ho]

theorem laneShard_absorb_of_ne (l : InMemorySleeveLedger) (a : LedgerOp × Reply) (k : Lane)
    (h : BlankFree l) (ha : Keyed owner a) (hk : k ≠ a.1.lane owner) :
    laneShard owner (l.absorb a) k = laneShard owner l k := by
  cases k with
  | cashflow => rfl
  | order c =>
    refine orderShard_eq_iff.mpr ?_
    obtain ⟨op, reply⟩ := a
    cases op with
    | reserve c' amount cur =>
      have hne : c ≠ c' := fun hc => hk (congrArg Lane.order hc)
      simp only [absorb]
      split
      · exact ⟨by simp [hne], rfl, fun _ _ => rfl⟩
      · exact ⟨rfl, rfl, fun _ _ => rfl⟩
    | release c' =>
      have hne : c ≠ c' := fun hc => hk (congrArg Lane.order hc)
      exact ⟨by simp [absorb, step, release, hne], rfl, fun _ _ => rfl⟩
    | recordOrder c' o sym side cur q =>
      have hne : c ≠ c' := fun hc => hk (congrArg Lane.order hc)
      exact ⟨rfl, (get?_recordOrder l c' o sym side cur q c).trans (if_neg hne), fun _ _ => rfl⟩
    | reserveSell c' o sym cur q =>
      have hne : c ≠ c' := fun hc => hk (congrArg Lane.order hc)
      simp only [absorb]
      split
      · exact ⟨rfl, (get?_recordOrder l c' o sym .SELL cur q c).trans (if_neg hne),
          fun _ _ => rfl⟩
      · exact ⟨rfl, rfl, fun _ _ => rfl⟩
    | applyFill f =>
      have hne : c ≠ owner f.orderId := fun hc => hk (congrArg Lane.order hc)
      rw [absorb_applyFill]
      split
      · -- Under its own id, or under none: and there is nothing under none.
        have hother : c ≠ f.clientOrderId ∨ l.reserved.get? c = none ∧ l.orders.get? c = none := by
          rcases ha with hf | hf
          · exact .inl (hf ▸ hne)
          · by_cases hc : c = ""
            · exact .inr (hc ▸ h)
            · exact .inl (hf ▸ hc)
        obtain ⟨hres, hrow⟩ := settle_other (l.snapshots.get? f.orderId) hother
        refine ⟨hres, hrow, fun o ho => ?_⟩
        rw [get?_snapshots_settle, if_neg (fun he : o = f.orderId => hne (he ▸ ho.symm))]
      · exact ⟨rfl, rfl, fun _ _ => rfl⟩
    | recordCashflow amount cur memo => exact ⟨rfl, rfl, fun _ _ => rfl⟩
    | markOrderTerminal c' st =>
      have hne : c ≠ c' := fun hc => hk (congrArg Lane.order hc)
      refine ⟨?_, (orders_markOrderTerminal l c' st c).trans (if_neg hne), fun o _ => ?_⟩
      · exact (congrArg (Dict.get? · c) (reserved_markOrderTerminal l c' st)).trans (by simp [hne])
      · exact congrArg (Dict.get? · o) (snapshots_markOrderTerminal l c' st)

theorem get?_recordOrder_congr {c : String} (hrow : l.orders.get? c = l'.orders.get? c)
    (o sym : String) (side : OrderSide) (cur : Currency) (q : Decimal) :
    (l.recordOrder c o sym side cur q).orders.get? c =
      (l'.recordOrder c o sym side cur q).orders.get? c := by
  rw [get?_recordOrder, get?_recordOrder, if_pos rfl, if_pos rfl, keptOrderId, keptOrderId, hrow]

theorem laneShard_absorb_congr (l l' : InMemorySleeveLedger) (a : LedgerOp × Reply)
    (h : BlankFree l) (h' : BlankFree l') (ha : Keyed owner a)
    (hshard : laneShard owner l (a.1.lane owner) = laneShard owner l' (a.1.lane owner)) :
    laneShard owner (l.absorb a) (a.1.lane owner) =
      laneShard owner (l'.absorb a) (a.1.lane owner) := by
  obtain ⟨op, reply⟩ := a
  cases op with
  | reserve c amount cur =>
    obtain ⟨hres, hrow, hsnap⟩ := orderShard_eq_iff.mp hshard
    refine orderShard_eq_iff.mpr ?_
    simp only [absorb]
    split
    · exact ⟨by simp, hrow, hsnap⟩
    · exact ⟨hres, hrow, hsnap⟩
  | release c =>
    obtain ⟨hres, hrow, hsnap⟩ := orderShard_eq_iff.mp hshard
    exact orderShard_eq_iff.mpr ⟨by simp [absorb, step, release], hrow, hsnap⟩
  | recordOrder c o sym side cur q =>
    obtain ⟨hres, hrow, hsnap⟩ := orderShard_eq_iff.mp hshard
    exact orderShard_eq_iff.mpr ⟨hres, get?_recordOrder_congr hrow o sym side cur q, hsnap⟩
  | reserveSell c o sym cur q =>
    obtain ⟨hres, hrow, hsnap⟩ := orderShard_eq_iff.mp hshard
    refine orderShard_eq_iff.mpr ?_
    simp only [absorb]
    split
    · exact ⟨hres, get?_recordOrder_congr hrow o sym .SELL cur q, hsnap⟩
    · exact ⟨hres, hrow, hsnap⟩
  | applyFill f =>
    obtain ⟨hres, hrow, hsnap⟩ := orderShard_eq_iff.mp hshard
    refine orderShard_eq_iff.mpr ?_
    rw [absorb_applyFill, absorb_applyFill, ← hsnap f.orderId rfl]
    split
    · have hnamed : l.reserved.get? f.clientOrderId = l'.reserved.get? f.clientOrderId ∧
          l.orders.get? f.clientOrderId = l'.orders.get? f.clientOrderId := by
        rcases ha with hf | hf
        · exact hf ▸ ⟨hres, hrow⟩
        · exact hf ▸ ⟨h.1.trans h'.1.symm, h.2.trans h'.2.symm⟩
      refine ⟨get?_reserved_settle hnamed.1 hnamed.2 hres _, get?_orders_settle hrow _,
        fun o ho => ?_⟩
      rw [get?_snapshots_settle, get?_snapshots_settle, hsnap o ho]
    · exact ⟨hres, hrow, hsnap⟩
  | recordCashflow amount cur memo => rfl
  | markOrderTerminal c st =>
    obtain ⟨hres, hrow, hsnap⟩ := orderShard_eq_iff.mp hshard
    refine orderShard_eq_iff.mpr ?_
    simp only [absorb, step]
    rw [reserved_markOrderTerminal, reserved_markOrderTerminal, orders_markOrderTerminal,
      orders_markOrderTerminal, snapshots_markOrderTerminal, snapshots_markOrderTerminal, hrow]
    exact ⟨by simp, rfl, hsnap⟩

theorem vc_absorb (l : InMemorySleeveLedger) (a : LedgerOp × Reply) :
    (l.absorb a).vc = l.vc + pays (laneShard owner l (a.1.lane owner)) a := by
  funext c
  obtain ⟨op, reply⟩ := a
  simp only [Pi.add_apply]
  cases op with
  | reserve c' amount cur =>
    simp only [absorb, pays, add_zero]
    split <;> rfl
  | reserveSell c' o sym cur q =>
    simp only [absorb, pays, add_zero]
    split <;> rfl
  | applyFill f =>
    have hsnap : (laneShard owner l (.order (owner f.orderId))).snapshots f.orderId =
        l.snapshots.get? f.orderId := if_pos rfl
    simp only [pays, LedgerOp.lane, hsnap]
    rw [absorb_applyFill]
    split
    · next happly =>
      rw [vc_settle]
      simp [happly]
    · next hquiet => simp [hquiet]
  | recordCashflow amount cur memo => exact vc_recordCashflow l amount cur c
  | markOrderTerminal c' st => exact (vc_markOrderTerminal l c' st c).trans (add_zero _).symm
  | _ => exact (add_zero _).symm

/-- **The ledger is its orders, and cash.** -/
theorem sharded (owner : String → String) : Sharded absorb BlankFree (Keyed owner)
    (fun a => a.1.lane owner) (laneShard owner) vc pays where
  keeps := blankFree_absorb
  others := laneShard_absorb_of_ne
  own := laneShard_absorb_congr
  total l a _ _ := vc_absorb l a

/-! ## 3. Histories -/

theorem memHandleAll_eq_foldl (evs : List LedgerEvent) :
    ∀ l : InMemorySleeveLedger, (memHandleAll l evs).1 =
      (withReplies evs (memHandleAll l evs).2).foldl absorb l := by
  induction evs with
  | nil => exact fun _ => rfl
  | cons ev evs ih =>
    intro l
    cases ev with
    | opened cap base => exact ih l
    | called today op =>
      show (memHandleAll (l.step today op).1 evs).1 =
        (withReplies evs (memHandleAll (l.step today op).1 evs).2).foldl absorb
          (l.absorb (op, (l.step today op).2))
      rw [← step_eq_absorb, ← ih]

/-- A guard that said yes was asked under a client order id. -/
theorem keyed_step (l : InMemorySleeveLedger) (today : String)
    (hrecord : ∀ c o sym side cur q, op = .recordOrder c o sym side cur q → c ≠ "")
    (hfill : ∀ f, op = .applyFill f → f.clientOrderId = owner f.orderId ∨ f.clientOrderId = "") :
    Keyed owner (op, (l.step today op).2) := by
  have heffect := l.step_effect today op
  generalize (l.step today op).1 = l' at heffect
  generalize (l.step today op).2 = reply at heffect ⊢
  cases heffect with
  | reserveRaised e => exact fun hyes => absurd hyes (by simp)
  | reserveRefused => exact fun hyes => absurd hyes (by simp)
  | reserved hc => exact fun _ => hc
  | sellRaised e => exact fun hyes => absurd hyes (by simp)
  | sellRefused => exact fun hyes => absurd hyes (by simp)
  | sellReserved hc => exact fun _ => hc
  | recorded => exact hrecord _ _ _ _ _ _ rfl
  | regressed => exact hfill _ rfl
  | repeated => exact hfill _ rfl
  | settled => exact hfill _ rfl
  | _ => trivial

theorem keyed_withReplies (evs : List LedgerEvent) : ∀ l : InMemorySleeveLedger,
    RecordedUnderKey evs → Attributed owner evs →
      ∀ a ∈ withReplies evs (memHandleAll l evs).2, Keyed owner a := by
  induction evs with
  | nil => exact fun _ _ _ a ha => absurd ha (by simp [withReplies])
  | cons ev evs ih =>
    intro l hrecorded hattributed a ha
    have hrecorded' : RecordedUnderKey evs := fun d c o sym side cur q hev =>
      hrecorded d c o sym side cur q (List.mem_cons_of_mem _ hev)
    have hattributed' : Attributed owner evs := fun d f hev =>
      hattributed d f (List.mem_cons_of_mem _ hev)
    cases ev with
    | opened cap base => exact ih l hrecorded' hattributed' a ha
    | called today op =>
      rcases List.mem_cons.mp ha with rfl | ha
      · refine keyed_step l today (fun c o sym side cur q hop => ?_) fun f hop => ?_
        · exact hrecorded today c o sym side cur q (hop ▸ List.mem_cons_self)
        · exact hattributed today f (hop ▸ List.mem_cons_self)
      · exact ih (l.step today op).1 hrecorded' hattributed' a ha

end Shards

section Committed

variable {self : SqliteSleeveLedger} {owner : String → String} {l l' : InMemorySleeveLedger}
  {db db₀ db₀' : SleeveDb}
  {cap : Decimal} {base : Currency} {evs evs' : List LedgerEvent} {s s' : ProcessState}

/-- What a sleeve has committed is a history of the dictionary ledger. -/
theorem history_committed (hfresh : db₀.only self.sleeveId = .empty) (h : Sharing db₀ s)
    (hlog : Orderly self.sleeveId cap base s.log evs) :
    CommitLog.history self.sleeveId s.log =
      withReplies evs (memHandleAll (.fresh self.sleeveId cap base) evs).2 := by
  rw [CommitLog.history, hlog.events, (represents_committed hfresh h hlog).2]
  rfl

/-- Rows that represent a ledger represent what another knows of the orders, if it knows the same. -/
theorem Represents.of_shards (h : Represents self.sleeveId l db)
    (hshards : ∀ c, orderShard owner l' c = orderShard owner l c) :
    Represents self.sleeveId { l' with cash := l.cash } db := by
  have hreserved : ∀ c, l'.reserved.get? c = l.reserved.get? c := fun c =>
    (orderShard_eq_iff.mp (hshards c)).1
  have horders : ∀ c, l'.orders.get? c = l.orders.get? c := fun c =>
    (orderShard_eq_iff.mp (hshards c)).2.1
  have hsnapshots : ∀ o, l'.snapshots.get? o = l.snapshots.get? o := fun o =>
    (orderShard_eq_iff.mp (hshards (owner o))).2.2 o rfl
  exact {
    cash := h.cash
    reserved := fun c => (h.reserved c).trans (hreserved c).symm
    orders := fun c => (h.orders c).trans (horders c).symm
    fills := fun o => (h.fills o).trans (congrArg _ (hsnapshots o).symm)
    hasRow := h.hasRow
    keyed := fun o f hf => h.keyed o f ((hsnapshots o).symm.trans hf)
    noReservation := (hreserved "").trans h.noReservation
    noOrder := (horders "").trans h.noOrder }

variable (self owner) in
/-- **The history of each order is all that counts.** Of two databases, each with any number of
    processes of the sleeve: if the sleeve has committed the same calls with the same answers for
    every order, and the same deposits and withdrawals, both show the same — what one dictionary
    ledger shows after the calls of either. -/
theorem histories_count (choice choice' : RowChoice) (hfresh : db₀.only self.sleeveId = .empty)
    (hfresh' : db₀'.only self.sleeveId = .empty) (h : Sharing db₀ s) (h' : Sharing db₀' s')
    (hlog : Orderly self.sleeveId cap base s.log evs)
    (hlog' : Orderly self.sleeveId cap base s'.log evs') (howner : Attributed owner evs)
    (hlanes : SameLanes (fun a => a.1.lane owner) (CommitLog.history self.sleeveId s.log)
      (CommitLog.history self.sleeveId s'.log)) :
    ShowsAlike (after self.sleeveId cap base evs) (self.observed choice s.db) ∧
      ShowsAlike (after self.sleeveId cap base evs) (self.observed choice' s'.db) := by
  have hrep := (represents_committed hfresh h hlog).1
  have hrep' := (represents_committed hfresh' h' hlog').1
  rw [history_committed hfresh h hlog, history_committed hfresh' h' hlog'] at hlanes
  have hblank : BlankFree (.fresh self.sleeveId cap base) := ⟨rfl, rfl⟩
  have hkeyed := keyed_withReplies evs (.fresh self.sleeveId cap base) hlog.keyed howner
  have hshards : ∀ c, orderShard owner (after self.sleeveId cap base evs) c =
      orderShard owner (after self.sleeveId cap base evs') c := by
    intro c
    rw [after, after, memHandleAll_eq_foldl, memHandleAll_eq_foldl]
    exact (sharded owner).shard_foldl_eq hblank hkeyed hlanes (.order c)
  have hvc : (after self.sleeveId cap base evs).vc = (after self.sleeveId cap base evs').vc := by
    rw [after, after, memHandleAll_eq_foldl, memHandleAll_eq_foldl]
    exact (sharded owner).total_foldl_eq hblank hkeyed hlanes
  refine ⟨hrep.showsAlike choice, ?_⟩
  -- The cash is kept in other rows, but it is as much.
  have hshows := (hrep'.of_shards hshards).showsAlike choice'
  have hcash : ∀ c, InMemorySleeveLedger.vc { after self.sleeveId cap base evs with
      cash := (after self.sleeveId cap base evs').cash } c =
      (after self.sleeveId cap base evs).vc c := fun c => (congrFun hvc c).symm
  refine { hshows with virtualCash := ?_, available := ?_ }
  · rw [hshows.virtualCash]
    exact funext fun c => congrArg Except.ok (hcash c)
  · rw [hshows.available]
    refine funext fun today => funext fun c => congrArg Except.ok ?_
    unfold InMemorySleeveLedger.available
    rw [hcash]
    rfl

end Committed

/-- An execution of an order nobody has recorded. -/
def earlyA : Issued :=
  sleeveA (.called "2024-01-02" (.applyFill (.whole "o2" "" "BBB" .BUY .KRW 1 10 0 "")))

def depositA : Issued := sleeveA (.called "2024-01-02" (.recordCashflow 50 .KRW "top up"))

def polledLate : ProcessState :=
  settledAt (tablesAfter [openA, reserveA, pollA, earlyA, depositA])
    [(openA, .done), (reserveA, .verdict true), (pollA, .done), (earlyA, .done), (depositA, .done)]

/-- The same to each order, and a restart. -/
def polledEarly : ProcessState :=
  settledAt (tablesAfter [openA, earlyA, depositA, openA, reserveA, pollA])
    [(openA, .done), (earlyA, .done), (depositA, .done), (openA, .done), (reserveA, .verdict true),
      (pollA, .done)]

theorem sharing_polledLate : Sharing .empty polledLate := by
  have hstart : Sharing .empty (settledAt .empty []) := .start ⟨rfl, fun _ => rfl, rfl⟩
  have h₁ := sharing_next hstart 0 (c := openA) (a := .done) rfl (by decide +kernel)
  have h₂ := sharing_next h₁ 0 (c := reserveA) (a := .verdict true) rfl (by decide +kernel)
  have h₃ := sharing_next h₂ 1 (c := pollA) (a := .done) rfl (by decide +kernel)
  have h₄ := sharing_next h₃ 2 (c := earlyA) (a := .done) rfl (by decide +kernel)
  exact sharing_next h₄ 0 (c := depositA) (a := .done) rfl (by decide +kernel)

theorem sharing_polledEarly : Sharing .empty polledEarly := by
  have hstart : Sharing .empty (settledAt .empty []) := .start ⟨rfl, fun _ => rfl, rfl⟩
  have h₁ := sharing_next hstart 0 (c := openA) (a := .done) rfl (by decide +kernel)
  have h₂ := sharing_next h₁ 1 (c := earlyA) (a := .done) rfl (by decide +kernel)
  have h₃ := sharing_next h₂ 0 (c := depositA) (a := .done) rfl (by decide +kernel)
  have h₄ := sharing_next h₃ 2 (c := openA) (a := .done) rfl (by decide +kernel)
  have h₅ := sharing_next h₄ 2 (c := reserveA) (a := .verdict true) rfl (by decide +kernel)
  exact sharing_next h₅ 0 (c := pollA) (a := .done) rfl (by decide +kernel)

/-- The events of either. -/
theorem orderly_polled {evs : List LedgerEvent} {log : CommitLog}
    (hevents : log.events "a" = openA.event :: evs)
    (h : ∀ ev ∈ evs, ev ∈ [openA.event, reserveA.event, pollA.event, earlyA.event,
      depositA.event]) : Orderly "a" 1000 .KRW log evs where
  events := hevents
  reopened := by
    intro cap base hev
    have hmem := h _ hev
    simp only [openA, reserveA, pollA, earlyA, depositA, sleeveA, List.mem_cons,
      LedgerEvent.opened.injEq, reduceCtorEq, or_false, List.not_mem_nil] at hmem
    exact hmem
  keyed := by
    intro today c o sym side cur q hev
    have hmem := h _ hev
    simp [openA, reserveA, pollA, earlyA, depositA, sleeveA] at hmem
  consistent := by
    intro d d' f g hf hg ho
    have hf := h _ hf
    have hg := h _ hg
    simp only [openA, reserveA, pollA, earlyA, depositA, sleeveA, List.mem_cons,
      LedgerEvent.called.injEq, reduceCtorEq, and_false, LedgerOp.applyFill.injEq, false_or,
      or_false, List.not_mem_nil] at hf hg
    rcases hf with ⟨-, rfl⟩ | ⟨-, rfl⟩ <;> rcases hg with ⟨-, rfl⟩ | ⟨-, rfl⟩
    · exact ⟨rfl, rfl, rfl⟩
    · exact absurd ho (by decide)
    · exact absurd ho (by decide)
    · exact ⟨rfl, rfl, rfl⟩

/-- Two orders. -/
def ownerA (orderId : String) : String := if orderId = "o1" then "b1" else "b2"

def firstOrder : List (LedgerOp × Reply) :=
  [(.reserve "b1" 1000 .KRW, .verdict true), (.applyFill boughtTen, .done)]

def elsewhere : List (LedgerOp × Reply) :=
  [(.applyFill (.whole "o2" "" "BBB" .BUY .KRW 1 10 0 ""), .done),
    (.recordCashflow 50 .KRW "top up", .done)]

theorem histories_count_polled :
    let shown := after "a" 1000 .KRW [reserveA.event, pollA.event, earlyA.event, depositA.event]
    ShowsAlike shown ((SqliteSleeveLedger.mk "a").observed .first polledLate.db) ∧
      ShowsAlike shown ((SqliteSleeveLedger.mk "a").observed .first polledEarly.db) := by
  have hlate : Orderly "a" 1000 .KRW polledLate.log
      [reserveA.event, pollA.event, earlyA.event, depositA.event] := orderly_polled rfl (by simp)
  have hearly : Orderly "a" 1000 .KRW polledEarly.log
      [earlyA.event, depositA.event, openA.event, reserveA.event, pollA.event] :=
    orderly_polled rfl (by simp)
  refine histories_count ⟨"a"⟩ ownerA .first .first rfl rfl sharing_polledLate sharing_polledEarly
    hlate hearly ?_ ?_
  · intro today f hf
    simp only [reserveA, pollA, earlyA, depositA, sleeveA, List.mem_cons, LedgerEvent.called.injEq,
      reduceCtorEq, and_false, LedgerOp.applyFill.injEq, false_or, or_false,
      List.not_mem_nil] at hf
    rcases hf with ⟨-, rfl⟩ | ⟨-, rfl⟩
    · exact .inl rfl
    · exact .inr rfl
  · have hdisjoint : ∀ a ∈ firstOrder, ∀ b ∈ elsewhere, a.1.lane ownerA ≠ b.1.lane ownerA := by
      decide
    exact sameLanes_append_comm hdisjoint

end Proof

end TossSleeve
