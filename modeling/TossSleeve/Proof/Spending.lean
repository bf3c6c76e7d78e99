import TossSleeve.Proof.Market
import TossSleeve.Broker
import TossSleeve.Lib.Journal

/-!
# `Proof/Spending.lean` — the money of the sleeve, and what its orders may still cost

`Proof/Market.lean` counts shares; this is about money. A BUY takes from the account what its
executions cost, and as long as it is live it may take more. The hard cap of the ledger is to keep
that within what the sleeve was given and what its sales brought, but the ledger learns of an
execution only when it is polled.

The figure that relates the two is what a BUY is **due**: all that it has cost or may cost, less
what the ledger was told. For an order that Toss has not got it is the reservation. The dues fit into
the sleeve's **principal**: its virtual cash, with the fees back that were debited. Fees are in no
reservation, and this way they are in neither figure.

Whatever happens on either side moves one due and the principal together, or lowers a due, or admits
one that the guard has checked against the others (§3–§5). The fact behind the last is that no due
is more than what is reserved for the order. It needs a reservation that stands while the order may
still cost something — which is what a cancellation can spoil.
-/

set_option autoImplicit false

namespace TossSleeve

open Lib InMemorySleeveLedger

/-! ## 1. What executions cost -/

/-- An execution: some shares, and what was paid for them or what they brought. -/
structure Trade where
  shares : Decimal
  cost : Decimal
  shares_pos : 0 < shares
  cost_nonneg : 0 ≤ cost

/-- May an order with these executions have another? A LIMIT BUY is executed at its limit or better,
    a BUY by amount within its amount. -/
structure OrderRequest.Allows (req : OrderRequest) (trades : List Trade) (t : Trade) : Prop where
  limit : req.side = .BUY → req.orderType = .LIMIT → ∀ p ∈ req.price, t.cost ≤ p * t.shares
  amount : ∀ a ∈ req.orderAmount, sumUp Trade.cost (t :: trades) ≤ a

namespace Listing

/-- What it may still cost: its limit for every share that is left, or the rest of its amount. -/
def exposure (l : Listing) (trades : List Trade) : Decimal :=
  if l.live then
    l.req.orderAmount.elim (l.req.price.getD 0 * l.remainder) fun a => a - sumUp Trade.cost trades
  else 0

/-- What it has cost and may cost. -/
def outlay (l : Listing) (trades : List Trade) : Decimal :=
  sumUp Trade.cost trades + l.exposure trades

end Listing

/-- A figure of the orders of one side in one currency, added up. -/
def Book.sumIn (book : Book) (side : OrderSide) (cur : Currency)
    (figure : String → Listing → Decimal) : Decimal :=
  book.sum fun e => if e.2.req.side = side ∧ e.2.req.currency = cur then figure e.1 e.2 else 0

/-- What BUYs have cost, with what live ones may still cost, is no more than the sleeve was given
    and its sales have brought; and there is no BUY that may cost anything. -/
structure NoOverspend (given : Currency → Decimal) (book : Book) (trades : String → List Trade) :
    Prop where
  bounded : ∀ c l, book.get? c = some l → l.req.side = .BUY → (reserveAmount l.req).isSome
  within : ∀ cur, (book.sumIn .BUY cur fun c _ => sumUp Trade.cost (trades c)) +
      (book.sumIn .BUY cur fun c l => l.exposure (trades c)) ≤
    given cur + book.sumIn .SELL cur fun c _ => sumUp Trade.cost (trades c)

/-- What is reserved for a BUY is its limit for all of its shares, or its amount. -/
theorem reserveAmount_cases {req : OrderRequest} {a : Decimal} (h : reserveAmount req = some a) :
    req.orderAmount = some a ∨ ∃ p q, req.orderType = .LIMIT ∧ req.price = some p ∧
      req.quantity = some q ∧ req.orderAmount = none ∧ a = p * q := by
  unfold reserveAmount at h
  split at h
  · next p q htype hprice hquantity =>
    exact .inr ⟨p, q, htype, hprice, hquantity, (req.limit_quantity htype).2,
      (Option.some.inj h).symm⟩
  · exact .inl h

namespace Proof.Spending

/-! ## 2. How the two stores agree

`R c req` says that the order under `c` is `req`, `given` what the sleeve was given. -/

variable {R : String → OrderRequest → Prop} {given : Currency → Decimal}
  {led : InMemorySleeveLedger} {book : Book} {trades : String → List Trade}

/-- A report of the first of an order's executions. -/
structure Told (f : Fill) (l : Listing) (trades : List Trade) : Prop where
  side : f.side = l.req.side
  currency : f.currency = l.req.currency
  seen : ∃ older, older <:+ trades ∧ f.filledQuantity = sumUp Trade.shares older ∧
    f.costBasis = sumUp Trade.cost older

/-- The executions are those of the listing, and as its request allows. -/
structure Priced (R : String → OrderRequest → Prop) (c : String) (l : Listing)
    (trades : List Trade) : Prop where
  listing : ListingAgrees R c l
  executed : l.executed = sumUp Trade.shares trades
  /-- Only a BUY that the broker could reserve for is listed. -/
  bounded : l.req.side = .BUY → (reserveAmount l.req).isSome
  limit : l.req.side = .BUY → l.req.orderType = .LIMIT → ∀ p ∈ l.req.price,
    sumUp Trade.cost trades ≤ p * sumUp Trade.shares trades
  amount : ∀ a ∈ l.req.orderAmount, sumUp Trade.cost trades ≤ a

/-- The principal that the ledger was told of. -/
def told (led : InMemorySleeveLedger) (l : Listing) : Decimal :=
  (led.snapshots.get? l.orderId).elim 0 Fill.costBasis

/-- The fees that the ledger has debited in a currency. -/
def fees (led : InMemorySleeveLedger) (cur : Currency) : Decimal :=
  led.snapshots.sum fun e => if e.2.currency = cur then e.2.commission + e.2.tax else 0

/-- The virtual cash, without the fees. -/
def principal (led : InMemorySleeveLedger) (cur : Currency) : Decimal := led.vc cur + fees led cur

/-- What the snapshot of a listing adds to the principal. -/
def banked (led : InMemorySleeveLedger) (cur : Currency) (l : Listing) : Decimal :=
  if l.req.currency = cur then (if l.req.side = .BUY then -told led l else told led l) else 0

/-- What the BUY under an id may still take out of the principal, as the ledger sees it. -/
def due (led : InMemorySleeveLedger) (book : Book) (trades : String → List Trade) (cur : Currency)
    (c : String) : Decimal :=
  match book.get? c with
  | some l =>
    if l.req.side = .BUY ∧ l.req.currency = cur then l.outlay (trades c) - told led l else 0
  | none => led.heldFor c cur

/-- **The ledger and the account agree.** -/
structure Solvent (R : String → OrderRequest → Prop) (given : Currency → Decimal)
    (led : InMemorySleeveLedger) (book : Book) (trades : String → List Trade) : Prop where
  rows : ∀ c o, led.orders.get? c = some o →
    ∃ req, R c req ∧ o.quantity = req.quantity.getD 0
  priced : ∀ c l, book.get? c = some l → Priced R c l (trades c)
  untraded : ∀ c, book.get? c = none → trades c = []
  unique : ∀ c c' l l', book.get? c = some l → book.get? c' = some l' → l.orderId = l'.orderId →
    c = c'
  snapshots : ∀ i f, led.snapshots.get? i = some f →
    ∃ c l, book.get? c = some l ∧ l.orderId = i ∧ Told f l (trades c)
  reserved : led.ReservedNonneg
  held : ∀ c l, book.get? c = some l → l.req.side = .BUY →
    l.outlay (trades c) - told led l ≤ led.heldFor c l.req.currency
  funded : ∀ cur, principal led cur = given cur + book.sum fun e => banked led cur e.2
  fits : ∀ cur, Fits (due led book trades cur) (principal led cur)

theorem due_listed {c : String} {l : Listing} (h : book.get? c = some l) (cur : Currency) :
    due led book trades cur c = if l.req.side = .BUY ∧ l.req.currency = cur then
      l.outlay (trades c) - told led l else 0 := by
  unfold due
  rw [h]

theorem due_unlisted {c : String} (h : book.get? c = none) (cur : Currency) :
    due led book trades cur c = led.heldFor c cur := by
  unfold due
  rw [h]

/-- What a BUY may still cost is not negative, and what it costs in all is what was reserved for it
    at most. -/
theorem Priced.outlay_le {c : String} {l : Listing} {ts : List Trade} (h : Priced R c l ts)
    (hside : l.req.side = .BUY) : 0 ≤ l.exposure ts ∧
      ∀ a, reserveAmount l.req = some a → l.outlay ts ≤ a := by
  obtain ⟨a, ha⟩ := Option.isSome_iff_exists.mp (h.bounded hside)
  suffices 0 ≤ l.exposure ts ∧ l.outlay ts ≤ a from
    ⟨this.1, fun a' ha' => Option.some.inj (ha.symm.trans ha') ▸ this.2⟩
  have hrem := remainder_nonneg h.listing
  have hexecuted := h.executed
  unfold Listing.outlay Listing.exposure
  rcases reserveAmount_cases ha with hamount | ⟨p, q, htype, hprice, hquantity, hnone, rfl⟩
  · have hspent := h.amount a hamount
    rw [hamount, Option.elim_some]
    split
    · exact ⟨by linarith, by linarith⟩
    · exact ⟨le_refl _, by linarith⟩
  · have hspent := h.limit hside htype p hprice
    have hp := l.req.price_pos p hprice
    have hle := h.listing.executed_le q hquantity
    rw [hnone, Option.elim_none, hprice, Option.getD_some]
    rw [← hexecuted] at hspent
    split
    · next hlive =>
      refine ⟨mul_nonneg (le_of_lt hp) hrem, ?_⟩
      unfold Listing.remainder
      rw [if_pos hlive, hquantity, Option.elim_some, mul_sub]
      linarith
    · refine ⟨le_refl _, ?_⟩
      have hall : p * l.executed ≤ p * q := mul_le_mul_of_nonneg_left hle (le_of_lt hp)
      linarith

/-- What is reported is part of what was executed. -/
theorem Told.costBasis_le {f : Fill} {l : Listing} {ts : List Trade} (h : Told f l ts) :
    f.costBasis ≤ sumUp Trade.cost ts := by
  obtain ⟨older, hsuffix, -, hcost⟩ := h.seen
  rw [hcost]
  exact sumUp_le_of_suffix Trade.cost_nonneg hsuffix

/-- Of two reports the one with no more shares has no more cost. -/
theorem Told.costBasis_mono {f g : Fill} {l : Listing} {ts : List Trade} (hf : Told f l ts)
    (hg : Told g l ts) (hle : f.filledQuantity ≤ g.filledQuantity) : f.costBasis ≤ g.costBasis := by
  obtain ⟨older, holder, hshares, hcost⟩ := hf.seen
  obtain ⟨newer, hnewer, hshares', hcost'⟩ := hg.seen
  rw [hcost, hcost']
  rw [hshares, hshares'] at hle
  exact sumUp_le_of_sumUp_le Trade.shares_pos Trade.cost_nonneg holder hnewer hle

/-- A report stays one as more is executed. -/
theorem Told.mono {f : Fill} {l l' : Listing} {ts ts' : List Trade} (h : Told f l ts)
    (hreq : l'.req = l.req) (hts : ts <:+ ts') : Told f l' ts' := by
  obtain ⟨older, hsuffix, hseen⟩ := h.seen
  exact ⟨hreq ▸ h.side, hreq ▸ h.currency, older, hsuffix.trans hts, hseen⟩

namespace Solvent

/-- The snapshot under a listing's order id is the listing's. -/
theorem snapshot (h : Solvent R given led book trades) {c : String} {l : Listing}
    (hc : book.get? c = some l) {f : Fill} (hf : led.snapshots.get? l.orderId = some f) :
    Told f l (trades c) := by
  obtain ⟨c', l', hc', hid, htold⟩ := h.snapshots _ f hf
  obtain rfl := h.unique c' c l' l hc' hc hid
  obtain rfl := Option.some.inj (hc.symm.trans hc')
  exact htold

theorem told_le (h : Solvent R given led book trades) {c : String} {l : Listing}
    (hc : book.get? c = some l) : told led l ≤ sumUp Trade.cost (trades c) := by
  unfold told
  cases hf : led.snapshots.get? l.orderId with
  | none => exact sumUp_nonneg Trade.cost_nonneg _
  | some f => exact (h.snapshot hc hf).costBasis_le

theorem told_nonneg (led : InMemorySleeveLedger) (l : Listing) : 0 ≤ told led l := by
  unfold told
  cases led.snapshots.get? l.orderId with
  | none => exact le_refl _
  | some f => exact le_of_lt f.costBasis_pos

/-- **No BUY is due more than is reserved for it.** -/
theorem due_le_heldFor (h : Solvent R given led book trades) (cur : Currency) (c : String) :
    due led book trades cur c ≤ led.heldFor c cur := by
  cases hc : book.get? c with
  | none => exact (due_unlisted hc cur).le
  | some l =>
    rw [due_listed hc]
    split
    · next hbuy =>
      obtain ⟨hside, rfl⟩ := hbuy
      exact h.held c l hc hside
    · exact heldFor_nonneg h.reserved c cur

/-- What is reserved is the sum of what is reserved for each. -/
theorem heldFor_fits (h : led.ReservedNonneg) (cur : Currency) :
    Fits (fun k => led.heldFor k cur) (led.reservedTotal cur) := by
  rw [reservedTotal_eq]
  show Fits (led.reserved.weightAt fun e => if e.2.1 = cur then e.2.2 else 0) _
  refine Dict.fits fun e he => ?_
  split
  · exact h e.1 e.2.1 e.2.2 (Dict.mem_rows_iff.mp he)
  · exact le_refl _

/-- What is due to other BUYs, next to what is reserved for one. -/
theorem sum_due_le (h : Solvent R given led book trades) (cur : Currency) {c : String}
    {s : Finset String} (hs : c ∉ s) :
    ∑ k ∈ s, due led book trades cur k ≤ led.reservedTotal cur - led.heldFor c cur := by
  have hwith := heldFor_fits h.reserved cur (insert c s)
  rw [Finset.sum_insert hs] at hwith
  have hle : ∑ k ∈ s, due led book trades cur k ≤ ∑ k ∈ s, led.heldFor k cur :=
    Finset.sum_le_sum fun k _ => h.due_le_heldFor cur k
  linarith

/-- What is available is in the principal, next to what is reserved. -/
theorem available_le (led : InMemorySleeveLedger) (today : String) (cur : Currency) :
    led.available today cur + led.reservedTotal cur ≤ principal led cur := by
  have hpending : 0 ≤ led.settlementPending today cur + fees led cur := by
    rw [settlementPending_eq]
    unfold fees
    rw [← Table.sum_add]
    refine List.sum_nonneg fun x hx => ?_
    obtain ⟨e, -, rfl⟩ := List.mem_map.mp hx
    have hfees := add_nonneg e.2.commission_nonneg e.2.tax_nonneg
    show 0 ≤ pendingOf today cur e.2 + _
    unfold pendingOf
    split
    · next hunsettled =>
      -- Proceeds on their way, with their fees back, are the whole of the sale.
      unfold unsettled at hunsettled
      rw [if_pos (of_decide_eq_true hunsettled).2.1]
      have hbasis := e.2.costBasis_pos
      unfold netProceeds
      linarith
    · split
      · linarith
      · linarith
  unfold principal InMemorySleeveLedger.available
  linarith

/-! ## 3. No overspending -/

/-- **Where the two agree, nothing is overspent.** -/
theorem noOverspend (h : Solvent R given led book trades) : NoOverspend given book trades := by
  refine ⟨fun c l hc hside => (h.priced c l hc).bounded hside, fun cur => ?_⟩
  have hdues : (book.sum fun e => due led book trades cur e.1) ≤
      given cur + book.sum fun e => banked led cur e.2 := by
    rw [← h.funded]
    refine le_of_eq_of_le ?_ ((h.fits cur).sum_le book.keys_nodup)
    rw [List.map_map]
    rfl
  have hentries : (book.sum fun e =>
        (if e.2.req.side = .BUY ∧ e.2.req.currency = cur then sumUp Trade.cost (trades e.1)
          else 0) +
          (if e.2.req.side = .BUY ∧ e.2.req.currency = cur then e.2.exposure (trades e.1) else 0) +
          banked led cur e.2) ≤
      book.sum fun e => due led book trades cur e.1 +
        if e.2.req.side = .SELL ∧ e.2.req.currency = cur then sumUp Trade.cost (trades e.1)
          else 0 := by
    refine List.sum_le_sum fun e he => ?_
    have hc : book.get? e.1 = some e.2 := Dict.mem_rows_iff.mp he
    have htold := h.told_le hc
    rw [due_listed hc]
    unfold banked Listing.outlay
    have hsides : e.2.req.side = .BUY ∨ e.2.req.side = .SELL := by cases e.2.req.side <;> simp
    by_cases hcur : e.2.req.currency = cur
    · rcases hsides with hside | hside
      · simp [hside, hcur, sub_eq_add_neg]
      · simpa [hside, hcur] using htold
    · simp [hcur]
  rw [Table.sum_add, Table.sum_add, Table.sum_add] at hentries
  show (book.sum _ + book.sum _ : Decimal) ≤ given cur + book.sum _
  linarith

/-! ## 4. What the ledger does -/

variable {led' : InMemorySleeveLedger}

theorem told_congr (hs : led'.snapshots = led.snapshots) (l : Listing) :
    told led' l = told led l := by
  unfold told
  rw [hs]

theorem heldFor_set {c : String} {cur : Currency} {a : Decimal}
    (hres : led'.reserved = led.reserved.set c (cur, a)) (k : String)
    (cur' : Currency) : led'.heldFor k cur' =
      if k = c then (if cur = cur' then a else 0) else led.heldFor k cur' := by
  unfold heldFor
  rw [hres, Dict.get?_set]
  split
  · rfl
  · rfl

theorem heldFor_erase {c : String} (hres : led'.reserved = led.reserved.erase c) (k : String)
    (cur : Currency) :
    led'.heldFor k cur = if k = c then 0 else led.heldFor k cur := by
  unfold heldFor
  rw [hres, Dict.get?_erase]
  split
  · rfl
  · rfl

/-- A BUY that is listed is due what it was, whatever becomes of its reservation; any other, no more
    if no more is reserved for it. -/
theorem due_le_of_heldFor_le (hs : led'.snapshots = led.snapshots) {k : String} {cur : Currency}
    (hk : book.get? k = none → led'.heldFor k cur ≤ led.heldFor k cur) :
    due led' book trades cur k ≤ due led book trades cur k := by
  cases hbook : book.get? k with
  | some l => rw [due_listed hbook, due_listed hbook, told_congr hs]
  | none =>
    rw [due_unlisted hbook, due_unlisted hbook]
    exact hk hbook

/-- **A write to rows and reservations** keeps the agreement, if the rows are right, what listed
    BUYs are due stays reserved, and the dues still fit. -/
theorem rewrite (h : Solvent R given led book trades) (hs : led'.snapshots = led.snapshots)
    (hvc : ∀ cur, led'.vc cur = led.vc cur)
    (hrows : ∀ c o, led'.orders.get? c = some o → ∃ req, R c req ∧ o.quantity = req.quantity.getD 0)
    (hreserved : led'.ReservedNonneg)
    (hheld : ∀ c l, book.get? c = some l → l.req.side = .BUY →
      l.outlay (trades c) - told led l ≤ led'.heldFor c l.req.currency)
    (hfits : ∀ cur, Fits (due led' book trades cur) (principal led cur)) :
    Solvent R given led' book trades where
  rows := hrows
  priced := h.priced
  untraded := h.untraded
  unique := h.unique
  snapshots i f hf := h.snapshots i f (hs ▸ hf)
  reserved := hreserved
  held c l hc hside := by
    rw [told_congr hs]
    exact hheld c l hc hside
  funded cur := by
    have hprincipal := h.funded cur
    unfold principal fees banked at hprincipal ⊢
    rw [hvc, hs, hprincipal]
    simp only [told_congr hs]
  fits cur := by
    have hsame : principal led' cur = principal led cur := by
      unfold principal fees
      rw [hvc, hs]
    rw [hsame]
    exact hfits cur

/-- A row is written. -/
theorem rerow (h : Solvent R given led book trades) {c o sym : String} {side : OrderSide}
    {cur : Currency} {q : Decimal} {req : OrderRequest} (hreq : R c req)
    (hq : q = req.quantity.getD 0) :
    Solvent R given (led.recordOrder c o sym side cur q) book trades := by
  refine h.rewrite rfl (fun _ => rfl) (fun k row hrow => ?_) h.reserved h.held h.fits
  rw [get?_recordOrder] at hrow
  split at hrow
  · next hk =>
    obtain rfl := Option.some.inj hrow
    exact ⟨req, hk ▸ hreq, hq⟩
  · exact h.rows k row hrow

/-- **The guard**: what is reserved fits next to what is due to the others. -/
theorem reserve (h : Solvent R given led book trades)
    (hR : ∀ c req req', R c req → R c req' → req = req') {c : String} {req : OrderRequest}
    (hreq : R c req) {a : Decimal} (ha : reserveAmount req = some a) (hpos : 0 ≤ a)
    {today : String}
    (hcap : a ≤ led.available today req.currency + led.heldFor c req.currency)
    (hled : led' = { led with reserved := led.reserved.set c (req.currency, a) }) :
    Solvent R given led' book trades := by
  have hs : led'.snapshots = led.snapshots := by rw [hled]
  have hres : led'.reserved = led.reserved.set c (req.currency, a) := by rw [hled]
  have hheld := heldFor_set hres
  refine h.rewrite hs (fun _ => by rw [hled]; rfl) (by rw [hled]; exact h.rows)
    (reservedNonneg_set h.reserved hpos hres) (fun k l hl hside => ?_) fun cur => ?_
  · rw [hheld]
    split
    · next hk =>
      -- The order is asked for again: its amount covers all that it may come to.
      obtain rfl := hR k _ _ (hk ▸ hreq) (h.priced k l hl).listing.request
      have houtlay := ((h.priced k l hl).outlay_le hside).2 a ha
      have htold := told_nonneg led l
      rw [if_pos rfl]
      linarith
    · exact h.held k l hl hside
  · have hother : ∀ k, k ≠ c → due led' book trades cur k ≤ due led book trades cur k :=
      fun k hk => due_le_of_heldFor_le hs fun _ => by rw [hheld, if_neg hk]
    by_cases hnew : book.get? c = none ∧ req.currency = cur
    · obtain ⟨hnone, rfl⟩ := hnew
      refine Fits.allot (fun s (hc : c ∉ s) => ?_) ?_
      · have hsum := h.sum_due_le req.currency hc
        have hothers := Finset.sum_le_sum fun k hk => hother k fun he => hc (he ▸ hk)
        have havailable := available_le led today req.currency
        rw [due_unlisted hnone, hheld, if_pos rfl, if_pos rfl]
        linarith
      · rw [due_unlisted hnone, hheld, if_pos rfl, if_pos rfl]
        exact hpos
    · refine (h.fits cur).mono (fun k => ?_) (le_refl _)
      by_cases hk : k = c
      · subst hk
        refine due_le_of_heldFor_le hs fun hnone => ?_
        rw [hheld, if_pos rfl, if_neg fun he => hnew ⟨hnone, he⟩]
        exact heldFor_nonneg h.reserved k cur
      · exact hother k hk

/-- A reservation is erased: Toss has not got the order, or the ledger knows all that it has cost
    and may cost. -/
theorem erase (h : Solvent R given led book trades) {c : String}
    (hs : led'.snapshots = led.snapshots) (hvc : ∀ cur, led'.vc cur = led.vc cur)
    (hrows : ∀ k o, led'.orders.get? k = some o → ∃ o', led.orders.get? k = some o' ∧
      o.quantity = o'.quantity)
    (hres : led'.reserved = led.reserved.erase c)
    (hknown : ∀ l, book.get? c = some l → l.req.side = .BUY →
      l.outlay (trades c) ≤ told led l) : Solvent R given led' book trades := by
  have hheld := heldFor_erase hres
  refine h.rewrite hs hvc (fun k o ho => ?_) (reservedNonneg_erase h.reserved hres)
    (fun k l hl hside => ?_) fun cur => ?_
  · obtain ⟨o', ho', hq⟩ := hrows k o ho
    obtain ⟨req, hreq, hquantity⟩ := h.rows k o' ho'
    exact ⟨req, hreq, hq.trans hquantity⟩
  · rw [hheld]
    split
    · next hk =>
      subst hk
      exact sub_nonpos.mpr (hknown l hl hside)
    · exact h.held k l hl hside
  · refine (h.fits cur).mono (fun k => due_le_of_heldFor_le hs fun _ => ?_) (le_refl _)
    rw [hheld]
    split
    · exact heldFor_nonneg h.reserved k cur
    · exact le_refl _

theorem release (h : Solvent R given led book trades) {c : String}
    (hknown : ∀ l, book.get? c = some l → l.req.side = .BUY →
      l.outlay (trades c) ≤ told led l) : Solvent R given (led.release c) book trades :=
  h.erase rfl (fun _ => rfl) (fun _ o ho => ⟨o, ho, rfl⟩) rfl hknown

theorem markOrderTerminal (h : Solvent R given led book trades) {c : String} {st : OrderStatus}
    (hknown : ∀ l, book.get? c = some l → l.req.side = .BUY →
      l.outlay (trades c) ≤ told led l) :
    Solvent R given (led.markOrderTerminal c st) book trades := by
  refine h.erase (snapshots_markOrderTerminal led c st) (vc_markOrderTerminal led c st)
    (fun k o ho => ?_) (reserved_markOrderTerminal led c st) hknown
  rw [orders_markOrderTerminal] at ho
  split at ho
  · next hk =>
    obtain ⟨o', ho', rfl⟩ := Option.map_eq_some_iff.mp ho
    exact ⟨o', hk ▸ ho', rfl⟩
  · exact ⟨o, ho, rfl⟩

/-- Money is paid in, or no more taken out than is available. -/
theorem cashflow (h : Solvent R given led book trades) {amount : Decimal} {cur : Currency}
    {today : String} (hcareful : 0 ≤ amount ∨ -amount ≤ led.available today cur) :
    Solvent R (fun k => given k + if k = cur then amount else 0) (led.recordCashflow amount cur)
      book trades := by
  have hprincipal : ∀ k, principal (led.recordCashflow amount cur) k =
      principal led k + if k = cur then amount else 0 := by
    intro k
    unfold principal
    rw [vc_recordCashflow]
    show _ + fees led k = _
    ring
  refine ⟨h.rows, h.priced, h.untraded, h.unique, h.snapshots, h.reserved, h.held, fun k => ?_,
    fun k s => ?_⟩
  · rw [hprincipal, h.funded]
    show _ = _ + book.sum fun e => banked led k e.2
    ring
  · rw [hprincipal]
    show ∑ c ∈ s, due led book trades k c ≤ _
    have hfits := h.fits k s
    split
    · next hk =>
      subst hk
      rcases hcareful with hpos | htaken
      · linarith
      · -- What is taken out is not reserved, and all that is due is.
        have hsum := (heldFor_fits h.reserved k).mono (h.due_le_heldFor k) (le_refl _) s
        have havailable := available_le led today k
        linarith
    · linarith

/-! ### A report is applied -/

section Settle

variable {f : Fill} {c : String} {l : Listing}

theorem told_settle (led : InMemorySleeveLedger) (prev : Option Fill) (f : Fill) (l : Listing) :
    told (led.settle prev f) l = if l.orderId = f.orderId then f.costBasis else told led l := by
  unfold told
  rw [get?_snapshots_settle]
  split
  · rfl
  · rfl

theorem told_settle_self (hf : Reports book f c l) (prev : Option Fill) :
    told (led.settle prev f) l = f.costBasis := by
  rw [told_settle, if_pos hf.orderId.symm]

theorem told_settle_other (h : Solvent R given led book trades) (hf : Reports book f c l)
    {k : String} (hk : k ≠ c) {l' : Listing} (hl' : book.get? k = some l') (prev : Option Fill) :
    told (led.settle prev f) l' = told led l' := by
  rw [told_settle, if_neg]
  exact fun he => hk (h.unique k c l' l hl' hf.listed (he.trans hf.orderId))

/-- What is applied costs no less than what was known. -/
theorem told_le_settle (h : Solvent R given led book trades) (hf : Reports book f c l)
    (htold : Told f l (trades c))
    (happly : fillProgress (led.snapshots.get? f.orderId) f = .apply) :
    told led l ≤ f.costBasis := by
  unfold told
  rw [hf.orderId] at happly
  cases hp : led.snapshots.get? l.orderId with
  | none => exact le_of_lt f.costBasis_pos
  | some p =>
    have hle : p.filledQuantity ≤ f.filledQuantity := fillProgress_apply_le (hp ▸ happly)
    exact (h.snapshot hf.listed hp).costBasis_mono htold hle

theorem prev_costBasis (hf : Reports book f c l) :
    (led.snapshots.get? f.orderId).elim 0 Fill.costBasis = told led l := by
  rw [hf.orderId]
  rfl

/-- The principal changes by what the report says of its listing, whatever the fees. -/
theorem principal_settle (h : Solvent R given led book trades) (hf : Reports book f c l)
    (htold : Told f l (trades c)) (cur : Currency) :
    principal (led.settle (led.snapshots.get? f.orderId) f) cur =
      principal led cur - banked led cur l +
        banked (led.settle (led.snapshots.get? f.orderId) f) cur l := by
  have hfees : fees (led.settle (led.snapshots.get? f.orderId) f) cur = fees led cur -
      (led.snapshots.get? f.orderId).elim 0
        (fun p => if p.currency = cur then p.commission + p.tax else 0) +
      if f.currency = cur then f.commission + f.tax else 0 := by
    unfold fees
    show (led.snapshots.set f.orderId f).sum _ = _
    rw [Dict.sum_set]
  have hcash : ∀ g : Fill, Told g l (trades c) → signedCash g =
      (if l.req.side = .BUY then -g.costBasis else g.costBasis) - (g.commission + g.tax) := by
    intro g hg
    unfold signedCash
    rw [hg.side]
    split
    · ring
    · ring
  unfold principal banked
  rw [vc_settle, hfees, told_settle_self hf, hcash f htold, htold.currency]
  unfold told
  rw [hf.orderId]
  by_cases hcur : l.req.currency = cur
  · subst hcur
    rw [if_pos rfl, if_pos rfl, if_pos rfl, if_pos rfl]
    cases hp : led.snapshots.get? l.orderId with
    | none =>
      simp only [Option.elim_none, neg_zero, ite_self]
      ring
    | some p =>
      have hptold := h.snapshot hf.listed hp
      simp only [Option.elim_some]
      rw [hcash p hptold, if_pos hptold.currency]
      ring
  · rw [if_neg hcur, if_neg hcur, if_neg hcur, if_neg fun he => hcur he.symm]
    cases hp : led.snapshots.get? l.orderId with
    | none => simp
    | some p =>
      have hptold := h.snapshot hf.listed hp
      simp [hptold.currency, hcur]

theorem heldFor_settle_of_ne (led : InMemorySleeveLedger) (prev : Option Fill) {k : String}
    (hk : k ≠ f.clientOrderId) (cur : Currency) :
    (led.settle prev f).heldFor k cur = led.heldFor k cur := by
  unfold heldFor
  rw [(reserved_settle led f prev).get?_of_ne hk]

/-- An execution takes from the reservations, it does not add to them. -/
theorem heldFor_settle_le (h : led.ReservedNonneg) {prev : Option Fill}
    (hdelta : prev.elim 0 Fill.costBasis ≤ f.costBasis) (k : String) (cur : Currency) :
    (led.settle prev f).heldFor k cur ≤ led.heldFor k cur := by
  have hnonneg := heldFor_nonneg h k cur
  unfold heldFor at hnonneg ⊢
  cases hk : (led.settle prev f).reserved.get? k with
  | none => exact hnonneg
  | some e =>
    rcases (reserved_settle led f prev).get?_cases hk with hold | ⟨rfl, -, hold⟩
    · rw [hold]
    · rw [hold, Option.elim_some, Option.elim_some]
      split
      · linarith
      · exact le_refl _

theorem reservedNonneg_settle (h : led.ReservedNonneg) (prev : Option Fill) (f : Fill) :
    (led.settle prev f).ReservedNonneg := by
  intro k cur amt hk
  rcases (reserved_settle led f prev).get?_cases hk with hold | ⟨-, hpos, -⟩
  · exact h k cur amt hold
  · exact le_of_lt hpos

/-- It takes no more than its notional, unless the row of the order is full. -/
theorem le_heldFor_settle (h : led.ReservedNonneg) {prev : Option Fill}
    (hdelta : prev.elim 0 Fill.costBasis ≤ f.costBasis)
    (hopen : ¬ (led.recordedQty f.clientOrderId > 0 ∧
      f.filledQuantity ≥ led.recordedQty f.clientOrderId)) (cur : Currency) :
    led.heldFor f.clientOrderId cur - (f.costBasis - prev.elim 0 Fill.costBasis) ≤
      (led.settle prev f).heldFor f.clientOrderId cur := by
  have hheld := heldFor_nonneg h f.clientOrderId cur
  have hres : (led.settle prev f).reserved =
      led.reservedAfterFill f (f.costBasis - prev.elim 0 Fill.costBasis) := rfl
  unfold reservedAfterFill at hres
  split at hres
  · cases hget : led.reserved.get? f.clientOrderId with
    | none =>
      rw [hget] at hres
      unfold heldFor
      rw [hres, hget]
      simp only [Option.elim_none]
      linarith
    | some e =>
      rw [hget] at hres
      have hold : led.heldFor f.clientOrderId cur = if e.1 = cur then e.2 else 0 := by
        unfold heldFor
        rw [hget, Option.elim_some]
      unfold reservationAfterFill at hres
      simp only [if_neg hopen] at hres
      split at hres
      · next hnone =>
        split at hnone
        · exact absurd hnone (by simp)
        · next hleft =>
          -- What is left would not be positive: the reservation is freed.
          rw [heldFor_erase hres, if_pos rfl, hold]
          rw [not_lt] at hleft
          split
          · exact hleft
          · linarith
      · next left hsome =>
        split at hsome
        · obtain rfl := Option.some.inj hsome
          rw [heldFor_set hres, if_pos rfl, hold]
          split
          · exact le_refl _
          · linarith
        · exact absurd hsome (by simp)
  · unfold heldFor
    rw [hres]
    unfold heldFor at hheld
    linarith

/-- **A report that fills the row says all that the order cost**, and nothing is left of it. -/
theorem outlay_of_full (h : Solvent R given led book trades)
    (hR : ∀ c req req', R c req → R c req' → req = req') (hf : Reports book f c l)
    (htold : Told f l (trades c))
    (hfull : led.recordedQty c > 0 ∧ f.filledQuantity ≥ led.recordedQty c) :
    l.outlay (trades c) ≤ f.costBasis := by
  obtain ⟨older, hsuffix, hshares, hcost⟩ := htold.seen
  have hpriced := h.priced c l hf.listed
  unfold recordedQty at hfull
  cases ho : led.orders.get? c with
  | none => exact absurd hfull.1 (by simp [ho])
  | some o =>
    obtain ⟨req, hreq, hquantity⟩ := h.rows c o ho
    obtain rfl := hR c _ _ hreq hpriced.listing.request
    rw [ho, Option.map_some, Option.getD_some, hquantity] at hfull
    cases hq : l.req.quantity with
    | none => exact absurd hfull.1 (by simp [hq])
    | some q =>
      rw [hq, Option.getD_some] at hfull
      have hle := hpriced.listing.executed_le q hq
      -- No more was executed than was reported, so all of it was reported.
      have hall : older = trades c := by
        refine eq_of_sumUp_le Trade.shares_pos hsuffix ?_
        rw [← hshares, ← hpriced.executed]
        exact le_trans hle hfull.2
      have hexecuted : q ≤ l.executed := by
        rw [hpriced.executed, ← hall, ← hshares]
        exact hfull.2
      have hnone : l.req.orderAmount = none := by
        have hxor := l.req.quantity_xor_amount
        rw [hq] at hxor
        cases ha : l.req.orderAmount with
        | none => rfl
        | some a => exact absurd hxor (by simp [ha])
      have hrest : l.remainder = 0 := by
        unfold Listing.remainder
        split
        · rw [hq, Option.elim_some, le_antisymm hle hexecuted, sub_self]
        · rfl
      unfold Listing.outlay Listing.exposure
      rw [hnone, Option.elim_none, hrest, mul_zero, ite_self, add_zero, hcost, hall]

/-- What a listed BUY is due stays reserved. -/
theorem held_settle (h : Solvent R given led book trades)
    (hR : ∀ c req req', R c req → R c req' → req = req') (hf : Reports book f c l)
    (htold : Told f l (trades c))
    (happly : fillProgress (led.snapshots.get? f.orderId) f = .apply) (hside : l.req.side = .BUY) :
    l.outlay (trades c) - f.costBasis ≤
      (led.settle (led.snapshots.get? f.orderId) f).heldFor c l.req.currency := by
  have hle := h.told_le_settle hf htold happly
  have hheld := h.held c l hf.listed hside
  have hprev : (led.snapshots.get? f.orderId).elim 0 Fill.costBasis = told led l :=
    prev_costBasis hf
  by_cases hcoid : c = f.clientOrderId
  · subst hcoid
    by_cases hfull : led.recordedQty f.clientOrderId > 0 ∧
        f.filledQuantity ≥ led.recordedQty f.clientOrderId
    · have houtlay := h.outlay_of_full hR hf htold hfull
      have hnonneg := heldFor_nonneg (reservedNonneg_settle h.reserved
        (led.snapshots.get? f.orderId) f) f.clientOrderId l.req.currency
      linarith
    · have htaken := le_heldFor_settle h.reserved (hprev.trans_le hle) hfull l.req.currency
      rw [hprev] at htaken
      linarith
  · rw [heldFor_settle_of_ne led _ hcoid]
    linarith

/-- No other order is due more than it was. -/
theorem due_settle_other (h : Solvent R given led book trades) (hf : Reports book f c l)
    {prev : Option Fill} (hdelta : prev.elim 0 Fill.costBasis ≤ f.costBasis) {k : String}
    (hk : k ≠ c) (cur : Currency) :
    due (led.settle prev f) book trades cur k ≤ due led book trades cur k := by
  cases hl' : book.get? k with
  | some l' => rw [due_listed hl', due_listed hl', h.told_settle_other hf hk hl']
  | none =>
    rw [due_unlisted hl', due_unlisted hl']
    exact heldFor_settle_le h.reserved hdelta k cur

/-- What a listing is due moves as the principal does, and a sale only adds to that. -/
theorem due_settle_le (hf : Reports book f c l) (prev : Option Fill)
    (hle : told led l ≤ f.costBasis) (cur : Currency) :
    due (led.settle prev f) book trades cur c - due led book trades cur c ≤
      banked (led.settle prev f) cur l - banked led cur l := by
  rw [due_listed hf.listed, due_listed hf.listed]
  unfold banked
  rw [told_settle_self hf]
  by_cases hcur : l.req.currency = cur
  · by_cases hside : l.req.side = .BUY
    · simp only [hside, hcur, and_self, if_true]
      linarith
    · simp only [hside, hcur, false_and, if_false, if_true]
      linarith
  · simp [hcur]

theorem sum_banked_settle (h : Solvent R given led book trades) (hf : Reports book f c l)
    (prev : Option Fill) (cur : Currency) :
    (book.sum fun e => banked (led.settle prev f) cur e.2) =
      (book.sum fun e => banked led cur e.2) - banked led cur l +
        banked (led.settle prev f) cur l := by
  have hchange : (book.sum fun e => banked (led.settle prev f) cur e.2) =
      (book.sum fun e => banked led cur e.2) -
        book.weightAt (fun e => banked led cur e.2) c +
        book.weightAt (fun e => banked (led.settle prev f) cur e.2) c := by
    refine Dict.sum_change c fun k hk => ?_
    unfold Dict.weightAt
    cases hl' : book.get? k with
    | none => rfl
    | some l' =>
      show banked led cur l' = banked (led.settle prev f) cur l'
      unfold banked
      rw [h.told_settle_other hf hk hl']
  rw [hchange]
  unfold Dict.weightAt
  rw [hf.listed, Option.elim_some, Option.elim_some]

/-- **A report that is applied** takes from what its order is due, and from the principal with
    it. -/
theorem settle (h : Solvent R given led book trades)
    (hR : ∀ c req req', R c req → R c req' → req = req') (hf : Reports book f c l)
    (htold : Told f l (trades c))
    (happly : fillProgress (led.snapshots.get? f.orderId) f = .apply) :
    Solvent R given (led.settle (led.snapshots.get? f.orderId) f) book trades := by
  have hle := h.told_le_settle hf htold happly
  have hdelta : (led.snapshots.get? f.orderId).elim 0 Fill.costBasis ≤ f.costBasis :=
    (prev_costBasis hf).trans_le hle
  refine ⟨fun k o ho => ?_, h.priced, h.untraded, h.unique, fun i g hg => ?_,
    reservedNonneg_settle h.reserved _ f, fun k l' hl' hside => ?_, fun cur => ?_, fun cur => ?_⟩
  · rw [orders_settle] at ho
    split at ho
    · obtain ⟨o', ho', rfl⟩ := Option.map_eq_some_iff.mp ho
      exact h.rows k o' ho'
    · exact h.rows k o ho
  · rw [get?_snapshots_settle] at hg
    split at hg
    · next hi =>
      obtain rfl := Option.some.inj hg
      exact ⟨c, l, hf.listed, (hi.trans hf.orderId).symm, htold⟩
    · exact h.snapshots i g hg
  · by_cases hk : k = c
    · subst hk
      obtain rfl := Option.some.inj (hf.listed.symm.trans hl')
      rw [told_settle_self hf]
      exact h.held_settle hR hf htold happly hside
    · -- A report names its own order, or none.
      have hne : k ≠ f.clientOrderId := by
        intro he
        rcases hf.clientOrderId with hcoid | hcoid
        · exact hk (he.trans hcoid)
        · exact (h.priced k l' hl').listing.keyed (he.trans hcoid)
      rw [h.told_settle_other hf hk hl', heldFor_settle_of_ne led _ hne]
      exact h.held k l' hl' hside
  · rw [h.principal_settle hf htold, h.funded, h.sum_banked_settle hf]
    ring
  · refine Fits.move (h.fits cur) (fun k (hk : k ≠ c) => h.due_settle_other hf hdelta hk cur) ?_ ?_
    · rw [due_listed hf.listed, told_settle_self hf]
      split
      · next hbuy =>
        have hexposure := ((h.priced c l hf.listed).outlay_le hbuy.1).1
        have hcost := htold.costBasis_le
        unfold Listing.outlay
        linarith
      · exact le_refl _
    · have hmoves : due (led.settle (led.snapshots.get? f.orderId) f) book trades cur c -
          due led book trades cur c ≤
            banked (led.settle (led.snapshots.get? f.orderId) f) cur l - banked led cur l :=
        due_settle_le hf _ hle cur
      rw [h.principal_settle hf htold]
      linarith

/-- A report is applied, repeated, or comes too late. -/
theorem applyFill (h : Solvent R given led book trades)
    (hR : ∀ c req req', R c req → R c req' → req = req') (hf : Reports book f c l)
    (htold : Told f l (trades c)) (today : String) :
    Solvent R given (led.step today (.applyFill f)).1 book trades := by
  have heffect := led.step_effect today (.applyFill f)
  generalize (led.step today (.applyFill f)).1 = led' at heffect ⊢
  generalize (led.step today (.applyFill f)).2 = reply at heffect
  cases heffect with
  | regressed => exact h
  | repeated => exact h
  | settled happly => exact h.settle hR hf htold happly

end Settle

end Solvent

/-! ## 5. What the exchange does -/

/-- A listing moves: it may have more executions, and a BUY comes to no more than before. -/
structure Evolves (R : String → OrderRequest → Prop) (c : String) (l : Listing) (ts : List Trade)
    (l' : Listing) (ts' : List Trade) : Prop where
  orderId : l'.orderId = l.orderId
  req : l'.req = l.req
  priced : Priced R c l' ts'
  seen : ts <:+ ts'
  outlay_le : l.req.side = .BUY → l'.outlay ts' ≤ l.outlay ts

variable {book' : Book} {trades' : String → List Trade}

theorem Evolves.refl {c : String} {l : Listing} {ts : List Trade} (h : Priced R c l ts) :
    Evolves R c l ts l ts :=
  ⟨rfl, rfl, h, List.suffix_refl ts, fun _ => le_refl _⟩

/-- Nothing more is executed of a listing. -/
theorem Evolves.stop {c : String} {l : Listing} {ts : List Trade} (h : Priced R c l ts) :
    Evolves R c l ts { l with live := false } ts := by
  refine ⟨rfl, rfl, ⟨⟨h.listing.keyed, h.listing.request, h.listing.named,
    h.listing.executed_nonneg, h.listing.executed_le⟩, h.executed, h.bounded, h.limit, h.amount⟩,
    List.suffix_refl ts, fun hside => ?_⟩
  have hexposure := (h.outlay_le hside).1
  show sumUp Trade.cost ts + 0 ≤ sumUp Trade.cost ts + l.exposure ts
  linarith

/-- A listing is executed, within its limit or its amount. -/
theorem Evolves.execute {c : String} {l : Listing} {ts : List Trade} (h : Priced R c l ts)
    (hlive : l.live = true) {t : Trade} (hle : ∀ q ∈ l.req.quantity, l.executed + t.shares ≤ q)
    (hallows : l.req.Allows ts t) :
    Evolves R c l ts { l with executed := l.executed + t.shares } (t :: ts) := by
  have hexecuted := h.executed
  have hshares := t.shares_pos
  refine ⟨rfl, rfl, ⟨⟨h.listing.keyed, h.listing.request, h.listing.named, ?_, hle⟩, ?_, h.bounded,
    fun hside htype p hp => ?_, hallows.amount⟩, List.suffix_cons t ts, fun hside => ?_⟩
  · have hnonneg := h.listing.executed_nonneg
    show 0 ≤ l.executed + t.shares
    linarith
  · rw [sumUp_cons, hexecuted, add_comm]
  · have hbefore := h.limit hside htype p hp
    have hnow := hallows.limit hside htype p hp
    rw [sumUp_cons, sumUp_cons, mul_add]
    linarith
  · -- By amount, what it costs is taken off what it may; at a limit, at least as much.
    obtain ⟨a, ha⟩ := Option.isSome_iff_exists.mp (h.bounded hside)
    unfold Listing.outlay Listing.exposure Listing.remainder
    rw [if_pos hlive, if_pos hlive, if_pos hlive, if_pos hlive]
    rcases reserveAmount_cases ha with hamount | ⟨p, q, htype, hprice, hquantity, hnone, -⟩
    · rw [hamount, Option.elim_some, Option.elim_some]
      linarith
    · have hcost := hallows.limit hside htype p hprice
      rw [hnone, Option.elim_none, Option.elim_none, hprice, Option.getD_some, hquantity,
        Option.elim_some, Option.elim_some, sumUp_cons]
      have hsplit : p * (q - (l.executed + t.shares)) = p * (q - l.executed) - p * t.shares := by
        ring
      show t.cost + sumUp Trade.cost ts + p * (q - (l.executed + t.shares)) ≤ _
      linarith

namespace Solvent

/-- Nothing was reported under an order id that Toss has not used. -/
theorem told_unused (h : Solvent R given led book trades) {l : Listing}
    (hunused : ∀ k l', book.get? k = some l' → l'.orderId ≠ l.orderId) : told led l = 0 := by
  unfold told
  cases hf : led.snapshots.get? l.orderId with
  | none => rfl
  | some f =>
    obtain ⟨k, l', hl', hid, -⟩ := h.snapshots _ f hf
    exact absurd hid (hunused k l' hl')

/-- **A new order** takes over its reservation, if it still stands. -/
theorem accept (h : Solvent R given led book trades) {c : String} (hc : c ≠ "")
    (hnew : book.get? c = none) {l : Listing} (hreq : R c l.req) (hnamed : l.orderId ≠ "")
    (hunused : ∀ k l', book.get? k = some l' → l'.orderId ≠ l.orderId) (hstart : l.executed = 0)
    (hbounded : l.req.side = .BUY → (reserveAmount l.req).isSome)
    (hstands : l.req.side = .BUY → ∀ a ∈ reserveAmount l.req,
      led.reserved.get? c = some (l.req.currency, a)) :
    Solvent R given led (book.set c l) trades := by
  have htold := h.told_unused hunused
  have huntraded := h.untraded c hnew
  have hpriced : Priced R c l (trades c) := by
    rw [huntraded]
    refine ⟨⟨hc, hreq, hnamed, hstart.ge,
      fun q hq => hstart ▸ le_of_lt (l.req.quantity_pos q hq)⟩, hstart, hbounded,
      fun _ _ p _ => ?_, fun a ha => ?_⟩
    · simp
    · exact le_of_lt (l.req.amount_pos a ha)
  have hheld : l.req.side = .BUY →
      l.outlay (trades c) - told led l ≤ led.heldFor c l.req.currency := by
    intro hside
    obtain ⟨a, ha⟩ := Option.isSome_iff_exists.mp (hbounded hside)
    have hres := hstands hside a ha
    have houtlay := (hpriced.outlay_le hside).2 a ha
    unfold heldFor
    rw [hres, Option.elim_some, if_pos rfl, htold, sub_zero]
    exact houtlay
  refine ⟨h.rows, fun k l' hl' => ?_, fun k hk => ?_, fun k k' l₁ l₂ h₁ h₂ hid => ?_,
    fun i f hf => ?_, h.reserved, fun k l' hl' hside => ?_, fun cur => ?_, fun cur => ?_⟩
  · rw [Dict.get?_set] at hl'
    split at hl'
    · next hk =>
      obtain rfl := Option.some.inj hl'
      exact hk ▸ hpriced
    · exact h.priced k l' hl'
  · rw [Dict.get?_set] at hk
    split at hk
    · exact absurd hk (by simp)
    · exact h.untraded k hk
  · rw [Dict.get?_set] at h₁ h₂
    split at h₁
    · next hk =>
      split at h₂
      · next hk' => exact hk.trans hk'.symm
      · obtain rfl := Option.some.inj h₁
        exact absurd hid.symm (hunused k' l₂ h₂)
    · split at h₂
      · obtain rfl := Option.some.inj h₂
        exact absurd hid (hunused k l₁ h₁)
      · exact h.unique k k' l₁ l₂ h₁ h₂ hid
  · obtain ⟨k, l', hl', hrest⟩ := h.snapshots i f hf
    exact ⟨k, l', Agree.get?_accept hnew l hl', hrest⟩
  · rw [Dict.get?_set] at hl'
    split at hl'
    · next hk =>
      obtain rfl := Option.some.inj hl'
      exact hk ▸ hheld hside
    · exact h.held k l' hl' hside
  · have hnothing : banked led cur l = 0 := by
      unfold banked
      rw [htold]
      simp
    rw [h.funded, Dict.sum_set, hnew, hnothing]
    simp
  · refine (h.fits cur).mono (fun k => ?_) (le_refl _)
    by_cases hk : k = c
    · subst hk
      rw [due_listed (by rw [Dict.get?_set, if_pos rfl]), due_unlisted hnew]
      split
      · next hbuy => exact hbuy.2 ▸ hheld hbuy.1
      · exact heldFor_nonneg h.reserved k cur
    · unfold due
      rw [Agree.accept_other hk]

/-- **Listings move**, and no BUY is due more than before. -/
theorem move (h : Solvent R given led book trades)
    (hforth : ∀ c l, book.get? c = some l → ∃ l', book'.get? c = some l' ∧
      Evolves R c l (trades c) l' (trades' c))
    (hnone : ∀ c, book.get? c = none → book'.get? c = none ∧ trades' c = trades c) :
    Solvent R given led book' trades' := by
  have hback : ∀ c l', book'.get? c = some l' → ∃ l, book.get? c = some l ∧
      Evolves R c l (trades c) l' (trades' c) := by
    intro c l' hl'
    cases hl : book.get? c with
    | none => exact absurd ((hnone c hl).1.symm.trans hl') (by simp)
    | some l =>
      obtain ⟨l₁, hl₁, hevolves⟩ := hforth c l hl
      obtain rfl := Option.some.inj (hl₁.symm.trans hl')
      exact ⟨l, rfl, hevolves⟩
  have htold : ∀ {c l l'}, Evolves R c l (trades c) l' (trades' c) → told led l' = told led l := by
    intro c l l' hevolves
    unfold told
    rw [hevolves.orderId]
  refine ⟨h.rows, fun c l' hl' => ?_, fun c hc => ?_, fun c c' l₁ l₂ h₁ h₂ hid => ?_,
    fun i f hf => ?_, h.reserved, fun c l' hl' hside => ?_, fun cur => ?_, fun cur => ?_⟩
  · obtain ⟨l, -, hevolves⟩ := hback c l' hl'
    exact hevolves.priced
  · cases hl : book.get? c with
    | none =>
      rw [(hnone c hl).2]
      exact h.untraded c hl
    | some l =>
      obtain ⟨l', hl', -⟩ := hforth c l hl
      exact absurd (hc.symm.trans hl') (by simp)
  · obtain ⟨l₁', h₁', he₁⟩ := hback c l₁ h₁
    obtain ⟨l₂', h₂', he₂⟩ := hback c' l₂ h₂
    exact h.unique c c' l₁' l₂' h₁' h₂' (by rw [← he₁.orderId, ← he₂.orderId, hid])
  · obtain ⟨c, l, hl, hid, hseen⟩ := h.snapshots i f hf
    obtain ⟨l', hl', hevolves⟩ := hforth c l hl
    exact ⟨c, l', hl', hevolves.orderId.trans hid, hseen.mono hevolves.req hevolves.seen⟩
  · obtain ⟨l, hl, hevolves⟩ := hback c l' hl'
    rw [hevolves.req] at hside
    have hheld := h.held c l hl hside
    have hle := hevolves.outlay_le hside
    rw [htold hevolves, hevolves.req]
    linarith
  · rw [h.funded]
    congr 1
    refine Dict.sum_congr_weightAt fun c => ?_
    unfold Dict.weightAt
    cases hl : book.get? c with
    | none => rw [(hnone c hl).1]
    | some l =>
      obtain ⟨l', hl', hevolves⟩ := hforth c l hl
      rw [hl']
      show banked led cur l = banked led cur l'
      unfold banked
      rw [htold hevolves, hevolves.req]
  · refine (h.fits cur).mono (fun c => ?_) (le_refl _)
    cases hl : book.get? c with
    | none => rw [due_unlisted hl, due_unlisted (hnone c hl).1]
    | some l =>
      obtain ⟨l', hl', hevolves⟩ := hforth c l hl
      rw [due_listed hl, due_listed hl', htold hevolves, hevolves.req]
      split
      · next hbuy =>
        have hle := hevolves.outlay_le hbuy.1
        linarith
      · exact le_refl _

/-- One listing moves. -/
theorem move_set (h : Solvent R given led book trades) {c : String} {l l' : Listing}
    {ts : List Trade} (hl : book.get? c = some l) (hevolves : Evolves R c l (trades c) l' ts) :
    Solvent R given led (book.set c l') (Function.update trades c ts) := by
  refine h.move (fun k l₁ h₁ => ?_) fun k hk => ?_
  · by_cases hk : k = c
    · subst hk
      obtain rfl := Option.some.inj (hl.symm.trans h₁)
      exact ⟨l', by rw [Dict.get?_set, if_pos rfl], by rw [Function.update_self]; exact hevolves⟩
    · refine ⟨l₁, by rw [Dict.get?_set, if_neg hk]; exact h₁, ?_⟩
      rw [Function.update_of_ne hk]
      exact .refl (h.priced k l₁ h₁)
  · have hne : k ≠ c := by
      intro he
      rw [he, hl] at hk
      exact absurd hk (by simp)
    exact ⟨by rw [Dict.get?_set, if_neg hne]; exact hk, Function.update_of_ne hne ts trades⟩

end Solvent

/-- A sleeve that has done nothing yet. -/
theorem solvent_fresh (R : String → OrderRequest → Prop) (sleeveId : String) {cap : Decimal}
    (hcap : 0 ≤ cap) (base : Currency) :
    Solvent R (fun cur => if cur = base then cap else 0) (fresh sleeveId cap base) ∅
      fun _ => [] := by
  have hprincipal : ∀ cur, principal (fresh sleeveId cap base) cur =
      if cur = base then cap else 0 := by
    intro cur
    have hvc : (fresh sleeveId cap base).vc cur = if cur = base then cap else 0 := by
      unfold vc fresh
      rw [Dict.get?_set]
      split
      · rfl
      · rfl
    show _ + 0 = _
    rw [hvc, add_zero]
  refine ⟨fun _ _ h => absurd h (by simp [fresh]), fun _ _ h => absurd h (by simp),
    fun _ _ => rfl, fun _ _ _ _ h => absurd h (by simp), fun _ _ h => absurd h (by simp [fresh]),
    reservedNonneg_fresh sleeveId cap base, fun _ _ h => absurd h (by simp), fun cur => ?_,
    fun cur s => ?_⟩
  · rw [hprincipal]
    exact (add_zero _).symm
  · have hdues : ∑ c ∈ s, due (fresh sleeveId cap base) ∅ (fun _ => []) cur c = 0 :=
      Finset.sum_eq_zero fun c _ => due_unlisted (Dict.get?_empty c) cur
    rw [hdues, hprincipal]
    split
    · exact hcap
    · exact le_refl _

end Proof.Spending
end TossSleeve
