import TossSleeve.Ledger.InMemory

/-!
# `Ledger/Steps.lean` — what one step of the ledger does

Two layers of facts, so that no invariant has to look at the code of an operation.

`Effect` (§1) is the inversion: everything an operation can do to the state and answer to the
caller, with the guards it passed. `step_effect` says the step function does nothing else, and a
proof about runs splits on `Effect` instead of on the code.

The rest is arithmetic: the derived figures (`vc`, `reservedTotal`, `settlementPending`,
`sellAvailability`) written as sums over the four dictionaries (§2), and what each becomes after
each write (§3).
-/

set_option autoImplicit false

namespace TossSleeve

open Lib

namespace InMemorySleeveLedger

/-! ## 1. Everything a step can do -/

/-- The amount held under a client order id in a currency. -/
def heldFor (l : InMemorySleeveLedger) (coid : String) (c : Currency) : Decimal :=
  (l.reserved.get? coid).elim 0 (fun p => if p.1 = c then p.2 else 0)

/-- `Effect l today op l' r`: operation `op`, on day `today`, may take `l` to `l'` and answer
    `r`. -/
inductive Effect (l : InMemorySleeveLedger) (today : String) :
    LedgerOp → InMemorySleeveLedger → Reply → Prop
  | reserveRaised {c : String} {amount : Decimal} {cur : Currency} (e : LedgerError) :
      Effect l today (.reserve c amount cur) l (.raised e)
  | reserveRefused {c : String} {amount : Decimal} {cur : Currency} :
      Effect l today (.reserve c amount cur) l (.verdict false)
  | reserved {c : String} {amount : Decimal} {cur : Currency} (hc : c ≠ "") (ha : 0 ≤ amount)
      (hcap : amount ≤ l.available today cur + l.heldFor c cur) :
      Effect l today (.reserve c amount cur)
        { l with reserved := l.reserved.set c (cur, amount) } (.verdict true)
  | released {c : String} : Effect l today (.release c) (l.release c) .done
  | recorded {c o sym : String} {side : OrderSide} {cur : Currency} {q : Decimal} :
      Effect l today (.recordOrder c o sym side cur q) (l.recordOrder c o sym side cur q) .done
  | sellRaised {c o sym : String} {cur : Currency} {q : Decimal} (e : LedgerError) :
      Effect l today (.reserveSell c o sym cur q) l (.raised e)
  | sellRefused {c o sym : String} {cur : Currency} {q : Decimal} :
      Effect l today (.reserveSell c o sym cur q) l (.verdict false)
  | sellReserved {c o sym : String} {cur : Currency} {q : Decimal} (hc : c ≠ "")
      (hcap : q ≤ l.sellAvailability sym (some c)) :
      Effect l today (.reserveSell c o sym cur q) (l.recordOrder c o sym .SELL cur q)
        (.verdict true)
  | regressed {f p : Fill} (hp : l.snapshots.get? f.orderId = some p)
      (hlt : f.filledQuantity < p.filledQuantity) (e : LedgerError) :
      Effect l today (.applyFill f) l (.raised e)
  | repeated {f p : Fill} (hp : l.snapshots.get? f.orderId = some p)
      (hq : f.filledQuantity = p.filledQuantity) (hc : f.commission = p.commission)
      (ht : f.tax = p.tax) (ha : f.avgPrice = p.avgPrice) :
      Effect l today (.applyFill f) l .done
  | settled {f : Fill} (h : fillProgress (l.snapshots.get? f.orderId) f = .apply) :
      Effect l today (.applyFill f) (l.settle (l.snapshots.get? f.orderId) f) .done
  | cashflow {amount : Decimal} {cur : Currency} {memo : String} :
      Effect l today (.recordCashflow amount cur memo) (l.recordCashflow amount cur) .done
  | terminal {c : String} {st : OrderStatus} :
      Effect l today (.markOrderTerminal c st) (l.markOrderTerminal c st) .done

theorem prevSame_eq (l : InMemorySleeveLedger) (c : String) (cur : Currency) :
    (if ((l.reserved.get? c).getD (cur, 0)).1 = cur then ((l.reserved.get? c).getD (cur, 0)).2
      else 0) = l.heldFor c cur := by
  unfold heldFor
  cases l.reserved.get? c <;> simp

/-- **The inversion.** -/
theorem step_effect (l : InMemorySleeveLedger) (today : String) (op : LedgerOp) :
    Effect l today op (l.step today op).1 (l.step today op).2 := by
  cases op with
  | reserve c amount cur =>
    simp only [step, reserve]
    by_cases hc : c = ""
    · rw [if_pos hc]; exact .reserveRaised _
    · rw [if_neg hc]
      by_cases ha : amount < 0
      · rw [if_pos ha]; exact .reserveRaised _
      · rw [if_neg ha, prevSame_eq]
        by_cases hr : canReserve (l.available today cur) (l.heldFor c cur) amount = true
        · rw [if_pos hr]
          exact .reserved hc (not_lt.mp ha) (by simpa [canReserve] using hr)
        · rw [if_neg hr]; exact .reserveRefused
  | release c => exact .released
  | recordOrder c o sym side cur q => exact .recorded
  | reserveSell c o sym cur q =>
    simp only [step, reserveSell]
    by_cases hc : c = ""
    · rw [if_pos hc]; exact .sellRaised _
    · rw [if_neg hc]
      by_cases hq : q > l.sellAvailability sym (some c)
      · rw [if_pos hq]; exact .sellRefused
      · rw [if_neg hq]; exact .sellReserved hc (not_lt.mp hq)
  | applyFill f =>
    simp only [step, applyFill]
    cases hp : fillProgress (l.snapshots.get? f.orderId) f with
    | noop =>
      obtain ⟨p, hs, hq, hc, ht, ha⟩ := fillProgress_noop hp
      exact .repeated hs hq hc ht ha
    | regression =>
      obtain ⟨p, hs, hlt⟩ := fillProgress_regression hp
      exact .regressed hs hlt _
    | apply => exact .settled hp
  | recordCashflow amount cur memo => exact .cashflow
  | markOrderTerminal c st => exact .terminal

/-! ## 2. The derived figures are sums over the dictionaries -/

theorem reservedTotal_eq (l : InMemorySleeveLedger) (c : Currency) :
    l.reservedTotal c = l.reserved.sum (fun e => if e.2.1 = c then e.2.2 else 0) := by
  unfold reservedTotal Table.sum
  rw [sum_filter_map]
  simp only [decide_eq_true_eq]

/-- The proceeds of a snapshot, less fees. -/
def netProceeds (f : Fill) : Decimal := f.costBasis - f.commission - f.tax

/-- What a snapshot keeps out of `available`. -/
def pendingOf (today : String) (c : Currency) (f : Fill) : Decimal :=
  if unsettled today c f then netProceeds f else 0

/-- No date is no later than any day. -/
theorem not_later_empty (today : String) : ¬ "" > today := by
  rw [gt_iff_lt, String.lt_iff_toList_lt]
  simp

theorem settlementPending_eq (l : InMemorySleeveLedger) (today : String) (c : Currency) :
    l.settlementPending today c = l.snapshots.sum (fun e => pendingOf today c e.2) := by
  unfold settlementPending Table.sum
  rw [sum_filter_map]
  rfl

/-- A ticker's net quantity over the stored snapshots. -/
def net (l : InMemorySleeveLedger) (ticker : String) : Decimal :=
  l.snapshots.sum (fun e => e.2.signedQty ticker)

theorem net_eq (l : InMemorySleeveLedger) (ticker : String) :
    netQty (l.snapshots.rows.map Prod.snd) ticker = l.net ticker := by
  unfold netQty net Table.sum
  rw [List.map_map]
  rfl

theorem positionQuantity_eq_net (l : InMemorySleeveLedger) (ticker : String) :
    l.positionQuantity ticker = max (l.net ticker) 0 := by
  unfold positionQuantity positions
  rw [TossSleeve.positionQuantity_eq, net_eq]

/-- The open SELL quantity of a ticker, `excludeCoid`'s order left out. -/
def openSell (l : InMemorySleeveLedger) (ticker : String) (excludeCoid : Option String := none) :
    Decimal :=
  l.orders.sum (fun e => if some e.1 = excludeCoid then 0
    else (orderRow e).remaining l.filledByOrderId ticker)

theorem sellAvailability_eq (l : InMemorySleeveLedger) (ticker : String)
    (excludeCoid : Option String) :
    l.sellAvailability ticker excludeCoid =
      max (l.net ticker) 0 - l.openSell ticker excludeCoid := by
  unfold sellAvailability openSell Table.sum
  rw [positionQuantity_eq_net, openSellQty_eq_sum, List.map_map]
  rfl

theorem availableToSell_eq (l : InMemorySleeveLedger) (ticker : String) :
    l.availableToSell ticker = max (l.net ticker) 0 - l.openSell ticker :=
  l.sellAvailability_eq ticker none

/-- What the order of `coid` contributes to the open SELL quantity of a ticker. -/
def openPart (l : InMemorySleeveLedger) (ticker coid : String) : Decimal :=
  l.orders.weightAt (fun e => (orderRow e).remaining l.filledByOrderId ticker) coid

theorem openPart_some {l : InMemorySleeveLedger} {coid : String} {o : Order}
    (h : l.orders.get? coid = some o) (ticker : String) :
    l.openPart ticker coid = (orderRow (coid, o)).remaining l.filledByOrderId ticker := by
  simp [openPart, Dict.weightAt, h]

/-- The same, by the columns of the recorded order. -/
theorem openPart_row {l : InMemorySleeveLedger} {coid : String} {o : Order}
    (h : l.orders.get? coid = some o) (ticker : String) :
    l.openPart ticker coid =
      if o.symbol = ticker ∧ o.side = .SELL ∧ o.status ∈ openStatuses then
        max (o.quantity - l.filledByOrderId o.orderId) 0 else 0 :=
  openPart_some h ticker

theorem openPart_none {l : InMemorySleeveLedger} {coid : String}
    (h : l.orders.get? coid = none) (ticker : String) : l.openPart ticker coid = 0 := by
  simp [openPart, Dict.weightAt, h]

theorem openPart_nonneg (l : InMemorySleeveLedger) (ticker coid : String) :
    0 ≤ l.openPart ticker coid := by
  cases h : l.orders.get? coid with
  | none => exact (openPart_none h ticker).ge
  | some o => exact openPart_some h ticker ▸ OrderRow.remaining_nonneg _ _ _

theorem openSell_eq_sum (l : InMemorySleeveLedger) (ticker : String) :
    l.openSell ticker =
      l.orders.sum (fun e => (orderRow e).remaining l.filledByOrderId ticker) := by
  simp [openSell]

theorem openSell_nonneg (l : InMemorySleeveLedger) (ticker : String) : 0 ≤ l.openSell ticker := by
  rw [openSell_eq_sum]
  exact List.sum_nonneg fun x hx => by
    obtain ⟨e, -, rfl⟩ := List.mem_map.mp hx
    exact OrderRow.remaining_nonneg _ _ _

/-- Between two ledgers that differ in one order's contribution, the open quantity differs by
    that contribution. -/
theorem openSell_change {l l' : InMemorySleeveLedger} (ticker coid : String)
    (h : ∀ k ≠ coid, l.openPart ticker k = l'.openPart ticker k) :
    l'.openSell ticker = l.openSell ticker - l.openPart ticker coid + l'.openPart ticker coid := by
  rw [openSell_eq_sum, openSell_eq_sum]
  exact Dict.sum_change coid h

/-- Leaving an order out takes its own remainder off the total. -/
theorem openSell_except (l : InMemorySleeveLedger) (ticker coid : String) :
    l.openSell ticker (some coid) = l.openSell ticker - l.openPart ticker coid := by
  have hsum := Table.sum_except l.orders
    (fun e => (orderRow e).remaining l.filledByOrderId ticker) coid
  rw [Dict.find?_eq] at hsum
  unfold openSell openPart Dict.weightAt
  simp only [Option.some.injEq, reduceCtorEq, if_false]
  rw [hsum]
  cases l.orders.get? coid <;> rfl

/-! ## 3. The figures after each write

`prev` is the stored snapshot the settlement is measured against; where a lemma says
`prev.elim 0 _`, an order's first snapshot is measured against nothing. -/

section AfterWrite

variable (l : InMemorySleeveLedger)

theorem vc_settle (f : Fill) (prev : Option Fill) (c : Currency) :
    (l.settle prev f).vc c =
      l.vc c + if c = f.currency then signedCash f - prev.elim 0 signedCash else 0 := by
  unfold vc settle
  rw [Dict.get?_set]
  by_cases h : c = f.currency
  · subst h; simp [vc]
  · simp [h]

theorem vc_recordCashflow (amount : Decimal) (cur c : Currency) :
    (l.recordCashflow amount cur).vc c = l.vc c + if c = cur then amount else 0 := by
  unfold vc recordCashflow
  rw [Dict.get?_set]
  by_cases h : c = cur
  · subst h; simp [vc]
  · simp [h]

theorem vc_markOrderTerminal (coid : String) (st : OrderStatus) (c : Currency) :
    (l.markOrderTerminal coid st).vc c = l.vc c := by
  unfold markOrderTerminal release
  cases l.orders.get? coid <;> rfl

theorem reserved_markOrderTerminal (coid : String) (st : OrderStatus) :
    (l.markOrderTerminal coid st).reserved = l.reserved.erase coid := by
  unfold markOrderTerminal release
  cases l.orders.get? coid <;> rfl

theorem snapshots_markOrderTerminal (coid : String) (st : OrderStatus) :
    (l.markOrderTerminal coid st).snapshots = l.snapshots := by
  unfold markOrderTerminal release
  cases l.orders.get? coid <;> rfl

theorem orders_markOrderTerminal (coid : String) (st : OrderStatus) (k : String) :
    (l.markOrderTerminal coid st).orders.get? k =
      if k = coid then (l.orders.get? coid).map (fun o => { o with status := st })
      else l.orders.get? k := by
  unfold markOrderTerminal release
  by_cases hk : k = coid
  · subst hk
    cases h : l.orders.get? k <;> simp [h]
  · cases h : l.orders.get? coid <;> simp [hk]

/-- The order id a (re-)recording keeps. -/
def keptOrderId (coid orderId : String) : String :=
  if orderId = "" then ((l.orders.get? coid).map (·.orderId)).getD "" else orderId

theorem orders_recordOrder (coid o sym : String) (side : OrderSide) (cur : Currency) (q : Decimal) :
    (l.recordOrder coid o sym side cur q).orders = l.orders.set coid
      { orderId := l.keptOrderId coid o, symbol := sym, side, currency := cur, quantity := q,
        status := .PENDING } := by
  unfold recordOrder keptOrderId
  cases h : l.orders.get? coid with
  | none => by_cases ho : o = "" <;> simp [ho]
  | some x => rfl

theorem get?_recordOrder (c o sym : String) (side : OrderSide)
    (cur : Currency) (q : Decimal) (k : String) :
    (l.recordOrder c o sym side cur q).orders.get? k = if k = c then
      some { orderId := l.keptOrderId c o, symbol := sym, side, currency := cur, quantity := q,
             status := .PENDING } else l.orders.get? k := by
  rw [orders_recordOrder, Dict.get?_set]

theorem orders_settle (f : Fill) (prev : Option Fill) (k : String) :
    (l.settle prev f).orders.get? k =
      if k = f.clientOrderId then (l.orders.get? k).map (fun o =>
        { o with status := terminalOrderStatus o.quantity f.filledQuantity })
      else l.orders.get? k := by
  show (l.ordersAfterFill f).get? k = _
  unfold ordersAfterFill recordedQty
  by_cases hk : k = f.clientOrderId
  · subst hk
    cases h : l.orders.get? f.clientOrderId <;> simp [h]
  · cases h : l.orders.get? f.clientOrderId <;> simp [hk]

theorem get?_snapshots_settle (f : Fill) (prev : Option Fill) (i : String) :
    (l.settle prev f).snapshots.get? i =
      if i = f.orderId then some f else l.snapshots.get? i :=
  Dict.get?_set l.snapshots f.orderId f i

/-- Overwriting a reservation makes what it held available, less what it holds now. -/
theorem available_set {l' : InMemorySleeveLedger} {coid : String} {cur : Currency}
    {amount : Decimal} (hvc : ∀ c, l'.vc c = l.vc c) (hs : l'.snapshots = l.snapshots)
    (hres : l'.reserved = l.reserved.set coid (cur, amount)) (today : String) (c : Currency) :
    l'.available today c =
      l.available today c + l.heldFor coid c - if cur = c then amount else 0 := by
  have htotal : l'.reservedTotal c =
      l.reservedTotal c - l.heldFor coid c + if cur = c then amount else 0 := by
    rw [reservedTotal_eq, reservedTotal_eq, hres, Dict.sum_set]
    rfl
  have hpend : l'.settlementPending today c = l.settlementPending today c := by
    rw [settlementPending_eq, settlementPending_eq, hs]
  unfold available
  rw [hvc, htotal, hpend]
  ring

/-- Erasing a reservation makes what it held available. -/
theorem available_erase {l' : InMemorySleeveLedger} {coid : String}
    (hvc : ∀ c, l'.vc c = l.vc c) (hs : l'.snapshots = l.snapshots)
    (hres : l'.reserved = l.reserved.erase coid) (today : String) (c : Currency) :
    l'.available today c = l.available today c + l.heldFor coid c := by
  have htotal : l'.reservedTotal c = l.reservedTotal c - l.heldFor coid c := by
    rw [reservedTotal_eq, reservedTotal_eq, hres, Dict.sum_erase]
    rfl
  have hpend : l'.settlementPending today c = l.settlementPending today c := by
    rw [settlementPending_eq, settlementPending_eq, hs]
  unfold available
  rw [hvc, htotal, hpend]
  ring

/-- The reservations after a fill: untouched, freed, or reduced by the executed notional. -/
inductive Consumed (f : Fill) (delta : Decimal) : Dict String (Currency × Decimal) → Prop
  | untouched (h : f.side = .SELL ∨ l.reserved.get? f.clientOrderId = none) :
      Consumed f delta l.reserved
  | freed {cur : Currency} {amt : Decimal} (hside : f.side = .BUY)
      (h : l.reserved.get? f.clientOrderId = some (cur, amt)) :
      Consumed f delta (l.reserved.erase f.clientOrderId)
  | reduced {cur : Currency} {amt : Decimal} (hside : f.side = .BUY)
      (h : l.reserved.get? f.clientOrderId = some (cur, amt)) (hpos : 0 < amt - delta) :
      Consumed f delta (l.reserved.set f.clientOrderId (cur, amt - delta))

theorem reserved_settle (f : Fill) (prev : Option Fill) :
    Consumed l f (f.costBasis - prev.elim 0 Fill.costBasis) (l.settle prev f).reserved := by
  show Consumed l f _ (l.reservedAfterFill f _)
  unfold reservedAfterFill
  cases hside : f.side with
  | SELL => exact .untouched (.inl hside)
  | BUY =>
    rw [if_pos rfl]
    cases hres : l.reserved.get? f.clientOrderId with
    | none => exact .untouched (.inr hres)
    | some e =>
      obtain ⟨cur, amt⟩ := e
      simp only [reservationAfterFill]
      by_cases hdone : l.recordedQty f.clientOrderId > 0 ∧
          f.filledQuantity ≥ l.recordedQty f.clientOrderId
      · simp only [if_pos hdone]
        exact .freed hside hres
      · simp only [if_neg hdone]
        by_cases hleft : amt - (f.costBasis - prev.elim 0 Fill.costBasis) > 0
        · simp only [if_pos hleft]
          exact .reduced hside hres hleft
        · simp only [if_neg hleft]
          exact .freed hside hres

variable {l} in
/-- What is reserved after an execution was so before it, or is what the execution left. -/
theorem Consumed.get?_cases {f : Fill} {delta : Decimal}
    {reserved' : Dict String (Currency × Decimal)} (h : Consumed l f delta reserved')
    {k : String} {cur : Currency} {amt : Decimal} (hk : reserved'.get? k = some (cur, amt)) :
    l.reserved.get? k = some (cur, amt) ∨ (k = f.clientOrderId ∧ 0 < amt ∧
      l.reserved.get? f.clientOrderId = some (cur, amt + delta)) := by
  cases h with
  | untouched => exact .inl hk
  | freed =>
    rw [Dict.get?_erase] at hk
    split at hk
    · exact absurd hk (by simp)
    · exact .inl hk
  | reduced _ hres hpos =>
    rw [Dict.get?_set] at hk
    split at hk
    · next hkc =>
      cases hk
      rw [sub_add_cancel]
      exact .inr ⟨hkc, hpos, hres⟩
    · exact .inl hk

variable {l} in
/-- No other reservation is touched. -/
theorem Consumed.get?_of_ne {f : Fill} {delta : Decimal}
    {reserved' : Dict String (Currency × Decimal)} (h : Consumed l f delta reserved')
    {k : String} (hk : k ≠ f.clientOrderId) : reserved'.get? k = l.reserved.get? k := by
  cases h with
  | untouched => rfl
  | freed => rw [Dict.get?_erase, if_neg hk]
  | reduced => rw [Dict.get?_set, if_neg hk]

variable {l} in
/-- No reservation is made. -/
theorem Consumed.get?_none {f : Fill} {delta : Decimal}
    {reserved' : Dict String (Currency × Decimal)} (h : Consumed l f delta reserved')
    {k : String} (hk : l.reserved.get? k = none) : reserved'.get? k = none := by
  cases hk' : reserved'.get? k with
  | none => rfl
  | some e =>
    rcases h.get?_cases hk' with hold | ⟨rfl, -, hold⟩
    · exact absurd (hk.symm.trans hold) (by simp)
    · exact absurd (hk.symm.trans hold) (by simp)

/-- A SELL touches none. -/
theorem reserved_settle_sell {f : Fill} (hside : f.side = .SELL) (prev : Option Fill) :
    (l.settle prev f).reserved = l.reserved :=
  if_neg (by simp [hside])

theorem settlementPending_settle (f : Fill) (today : String) (c : Currency) :
    (l.settle (l.snapshots.get? f.orderId) f).settlementPending today c =
      l.settlementPending today c - (l.snapshots.get? f.orderId).elim 0 (pendingOf today c)
        + pendingOf today c f := by
  rw [settlementPending_eq, settlementPending_eq]
  show (l.snapshots.set f.orderId f).sum _ = _
  rw [Dict.sum_set]

theorem net_settle (f : Fill) (ticker : String) :
    (l.settle (l.snapshots.get? f.orderId) f).net ticker =
      l.net ticker - (l.snapshots.get? f.orderId).elim 0 (·.signedQty ticker)
        + f.signedQty ticker := by
  unfold net
  show (l.snapshots.set f.orderId f).sum _ = _
  rw [Dict.sum_set]

theorem filledByOrderId_settle (f : Fill) (prev : Option Fill) (o : String) :
    (l.settle prev f).filledByOrderId o =
      if o = f.orderId then f.filledQuantity else l.filledByOrderId o := by
  unfold filledByOrderId
  show (((l.snapshots.set f.orderId f).get? o).map (·.filledQuantity)).getD 0 = _
  rw [Dict.get?_set]
  by_cases h : o = f.orderId <;> simp [h]

end AfterWrite

end InMemorySleeveLedger

/-! ## 4. Operations under other ids -/

/-- Does the operation write under this client order id? -/
def LedgerOp.Concerns (c : String) : LedgerOp → Prop
  | .reserve c' _ _ => c' = c
  | .release c' => c' = c
  | .recordOrder c' _ _ _ _ _ => c' = c
  | .reserveSell c' _ _ _ _ => c' = c
  | .applyFill f => f.clientOrderId = c
  | .recordCashflow _ _ _ => False
  | .markOrderTerminal c' _ => c' = c

namespace InMemorySleeveLedger

/-- Operations under other ids leave the reservation and the row of an id alone. -/
theorem step_of_not_concerns {l : InMemorySleeveLedger} {today c : String} {op : LedgerOp}
    (h : ¬ op.Concerns c) : (l.step today op).1.reserved.get? c = l.reserved.get? c ∧
      (l.step today op).1.orders.get? c = l.orders.get? c := by
  have heffect := l.step_effect today op
  generalize (l.step today op).1 = l' at heffect ⊢
  generalize (l.step today op).2 = reply at heffect
  cases heffect with
  | reserveRaised => exact ⟨rfl, rfl⟩
  | reserveRefused => exact ⟨rfl, rfl⟩
  | reserved => exact ⟨by rw [Dict.get?_set, if_neg (fun he => h he.symm)], rfl⟩
  | released => exact ⟨by rw [release, Dict.get?_erase, if_neg (fun he => h he.symm)], rfl⟩
  | recorded => exact ⟨rfl, by rw [get?_recordOrder, if_neg (fun he => h he.symm)]⟩
  | sellRaised => exact ⟨rfl, rfl⟩
  | sellRefused => exact ⟨rfl, rfl⟩
  | sellReserved => exact ⟨rfl, by rw [get?_recordOrder, if_neg (fun he => h he.symm)]⟩
  | regressed => exact ⟨rfl, rfl⟩
  | repeated => exact ⟨rfl, rfl⟩
  | @settled f _ =>
    have hne : c ≠ f.clientOrderId := fun he => h he.symm
    refine ⟨?_, by rw [orders_settle, if_neg hne]⟩
    have hconsumed := reserved_settle l f (l.snapshots.get? f.orderId)
    generalize (l.settle (l.snapshots.get? f.orderId) f).reserved = r at hconsumed ⊢
    cases hconsumed with
    | untouched => rfl
    | freed => rw [Dict.get?_erase, if_neg hne]
    | reduced => rw [Dict.get?_set, if_neg hne]
  | cashflow => exact ⟨rfl, rfl⟩
  | terminal =>
    have hne : c ≠ _ := fun he => h he.symm
    exact ⟨by rw [reserved_markOrderTerminal, Dict.get?_erase, if_neg hne],
      by rw [orders_markOrderTerminal, if_neg hne]⟩

/-- Snapshots of other orders leave the stored snapshot of an order alone. -/
theorem get?_snapshots_step {l : InMemorySleeveLedger} {today o : String} {op : LedgerOp}
    (h : ∀ f, op = .applyFill f → f.orderId ≠ o) :
    (l.step today op).1.snapshots.get? o = l.snapshots.get? o := by
  have heffect := l.step_effect today op
  generalize (l.step today op).1 = l' at heffect ⊢
  generalize (l.step today op).2 = reply at heffect
  cases heffect with
  | settled => rw [get?_snapshots_settle, if_neg fun he => h _ rfl he.symm]
  | terminal => rw [snapshots_markOrderTerminal]
  | _ => rfl

/-! ## 5. Reservations are never negative -/

def ReservedNonneg (l : InMemorySleeveLedger) : Prop :=
  ∀ c cur amt, l.reserved.get? c = some (cur, amt) → 0 ≤ amt

theorem heldFor_nonneg {l : InMemorySleeveLedger} (h : l.ReservedNonneg) (coid : String)
    (c : Currency) : 0 ≤ l.heldFor coid c := by
  unfold heldFor
  cases hres : l.reserved.get? coid with
  | none => exact le_refl _
  | some e =>
    simp only [Option.elim_some]
    split
    · exact h coid e.1 e.2 hres
    · exact le_refl _

theorem reservedNonneg_erase {l l' : InMemorySleeveLedger} {coid : String} (h : l.ReservedNonneg)
    (hl : l'.reserved = l.reserved.erase coid) : l'.ReservedNonneg := by
  intro c cur amt hc
  rw [hl, Dict.get?_erase] at hc
  split at hc
  · exact absurd hc (by simp)
  · exact h c cur amt hc

theorem reservedNonneg_set {l l' : InMemorySleeveLedger} {coid : String} {e : Currency × Decimal}
    (h : l.ReservedNonneg) (he : 0 ≤ e.2) (hl : l'.reserved = l.reserved.set coid e) :
    l'.ReservedNonneg := by
  intro c cur amt hc
  rw [hl, Dict.get?_set] at hc
  split at hc
  · obtain rfl := Option.some.inj hc
    exact he
  · exact h c cur amt hc

theorem reservedNonneg_step {l : InMemorySleeveLedger} (h : l.ReservedNonneg) (today : String)
    (op : LedgerOp) : (l.step today op).1.ReservedNonneg := by
  have heffect := l.step_effect today op
  generalize (l.step today op).1 = l' at heffect ⊢
  generalize (l.step today op).2 = reply at heffect
  cases heffect with
  | reserveRaised => exact h
  | reserveRefused => exact h
  | reserved _ ha => exact reservedNonneg_set h ha rfl
  | released => exact reservedNonneg_erase h rfl
  | recorded => exact h
  | sellRaised => exact h
  | sellRefused => exact h
  | sellReserved => exact h
  | regressed => exact h
  | repeated => exact h
  | @settled f _ =>
    have hconsumed := reserved_settle l f (l.snapshots.get? f.orderId)
    generalize hl : (l.settle (l.snapshots.get? f.orderId) f) = l' at hconsumed ⊢
    generalize hr : l'.reserved = r at hconsumed
    cases hconsumed with
    | untouched => exact fun c cur amt hc => h c cur amt (hr ▸ hc)
    | freed => exact reservedNonneg_erase h hr
    | reduced _ _ hpos => exact reservedNonneg_set h (le_of_lt hpos) hr
  | cashflow => exact h
  | terminal => exact reservedNonneg_erase h (reserved_markOrderTerminal l _ _)

theorem reservedNonneg_run {l : InMemorySleeveLedger} (h : l.ReservedNonneg) :
    ∀ ops, (l.run ops).ReservedNonneg := by
  intro ops
  induction ops generalizing l with
  | nil => exact h
  | cons op ops ih => exact ih (reservedNonneg_step h op.1 op.2)

theorem reservedNonneg_fresh (sleeveId : String) (cap : Decimal) (b : Currency) :
    (fresh sleeveId cap b).ReservedNonneg := fun _ _ _ h => absurd h (by simp [fresh])

end InMemorySleeveLedger

end TossSleeve
