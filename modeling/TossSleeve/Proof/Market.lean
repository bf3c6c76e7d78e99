import TossSleeve.Proof.Oversell
import TossSleeve.Lib.Budget

/-!
# `Proof/Market.lean` — the ledger, and the exchange it cannot see

What the sleeve owns is decided at Toss: an order executes there when it likes, and the ledger
learns of it when it is polled. So whether the sleeve oversells is a question about two stores, the
ledger and the exchange's book of orders (§1), and about what relates them (§2).

The figure that does is what a SELL is **owed**: all that Toss has executed of it or may still
execute, less what the ledger has been told. For an order that Toss has not got it is what the guard
set aside. Those claims fit into the net holdings of the ledger, and that is all there is to it:
whatever happens on either side moves one claim and the holdings together, or lowers a claim, or
admits one that the guard has checked against the others (§3–§5). The fact behind the last is that a
claim is never more than what the row of the order holds open. It needs a row that is open while
Toss can still surprise the ledger — which is what a cancellation can spoil.
-/

set_option autoImplicit false

namespace TossSleeve

open Lib InMemorySleeveLedger

/-! ## 1. The exchange -/

/-- An order that Toss has accepted. -/
structure Listing where
  orderId : String
  req : OrderRequest
  executed : Decimal := 0
  live : Bool := true
  deriving DecidableEq

/-- The orders that Toss has accepted, by client order id: no id is accepted twice. -/
abbrev Book := Dict String Listing

namespace Listing

/-- What of it may still be executed. An order by amount does not say. -/
def remainder (l : Listing) : Decimal :=
  if l.live then l.req.quantity.elim 0 fun q => q - l.executed else 0

/-- What has been executed of it, or may be. -/
def committed (l : Listing) : Decimal := l.executed + l.remainder

/-- An order of this side, for this ticker. -/
def Trades (l : Listing) (side : OrderSide) (ticker : String) : Prop :=
  l.req.side = side ∧ l.req.ticker = ticker

instance (l : Listing) (side : OrderSide) (ticker : String) : Decidable (l.Trades side ticker) :=
  inferInstanceAs (Decidable (_ ∧ _))

end Listing

/-- A figure of the orders of one side for one ticker, added up. -/
def Book.total (book : Book) (side : OrderSide) (ticker : String) (figure : Listing → Decimal) :
    Decimal :=
  book.sum fun e => if e.2.Trades side ticker then figure e.2 else 0

/-- What was sold, with what live orders may still sell, is no more than what was bought. -/
def NoOversell (book : Book) : Prop :=
  ∀ ticker, book.total .SELL ticker Listing.executed + book.total .SELL ticker Listing.remainder ≤
    book.total .BUY ticker Listing.executed

/-- What may become of a listing: more is executed of it, or less may be. -/
structure Listing.Moves (l l' : Listing) : Prop where
  orderId : l'.orderId = l.orderId
  req : l'.req = l.req
  executed_le : l.executed ≤ l'.executed
  within : ∀ q ∈ l.req.quantity, l'.executed ≤ q
  committed_le : l.req.side = .SELL → l'.committed ≤ l.committed

/-- Each listing stays, and moves. -/
structure Book.Moves (book book' : Book) : Prop where
  forth : ∀ c l, book.get? c = some l → ∃ l', book'.get? c = some l' ∧ l.Moves l'
  back : ∀ c l', book'.get? c = some l' → ∃ l, book.get? c = some l ∧ l.Moves l'

/-- A SELL states its quantity: the amount form is for BUYs. -/
theorem OrderRequest.sell_quantity {req : OrderRequest} (h : req.side = .SELL) :
    ∃ q, req.quantity = some q := by
  refine Option.isSome_iff_exists.mp ?_
  have hamount : req.orderAmount.isSome = false := by
    cases ha : req.orderAmount.isSome with
    | false => rfl
    | true => exact absurd (h.symm.trans (req.amount_marketBuy ha).1) (by decide)
  have hxor := req.quantity_xor_amount
  rw [hamount] at hxor
  exact Bool.eq_true_of_not_eq_false hxor

namespace Proof

/-! ## 2. How the two stores agree

`R c req` says that the order under `c` is `req`. -/

variable {R : String → OrderRequest → Prop} {led : InMemorySleeveLedger} {book : Book}

/-- A recorded order is the request under its id, and linked to the listing or to nothing. -/
structure RowAgrees (R : String → OrderRequest → Prop) (book : Book) (c : String) (o : Order) :
    Prop where
  keyed : c ≠ ""
  request : ∃ req, R c req ∧ o.symbol = req.ticker ∧ o.side = req.side ∧
    (req.side = .SELL → req.quantity = some o.quantity)
  link : o.orderId = "" ∨ ∃ l, book.get? c = some l ∧ o.orderId = l.orderId

/-- A listing is of the request under its id, and within its quantity. -/
structure ListingAgrees (R : String → OrderRequest → Prop) (c : String) (l : Listing) : Prop where
  keyed : c ≠ ""
  request : R c l.req
  named : l.orderId ≠ ""
  executed_nonneg : 0 ≤ l.executed
  executed_le : ∀ q ∈ l.req.quantity, l.executed ≤ q

/-- A snapshot reports of a listing no more than what was executed. -/
def SnapshotAgrees (book : Book) (orderId : String) (f : Fill) : Prop :=
  ∃ c l, book.get? c = some l ∧ l.orderId = orderId ∧ f.symbol = l.req.ticker ∧
    f.side = l.req.side ∧ f.filledQuantity ≤ l.executed

/-- What the ledger has been told of a listing. -/
def polled (led : InMemorySleeveLedger) (l : Listing) : Decimal := led.filledByOrderId l.orderId

/-- The ledger holds the SELL open, or has been told all there is to tell. -/
def Secured (led : InMemorySleeveLedger) (c : String) (l : Listing) : Prop :=
  (∃ o, led.orders.get? c = some o ∧ o.status ∈ openStatuses) ∨ l.committed ≤ polled led l

/-- What the SELL under an id may still take out of the holdings, as the ledger sees them. -/
def owed (led : InMemorySleeveLedger) (book : Book) (ticker c : String) : Decimal :=
  match book.get? c with
  | some l => if l.Trades .SELL ticker then l.committed - polled led l else 0
  | none => led.openPart ticker c

/-- What the snapshot of a listing adds to the net holdings. -/
def holds (led : InMemorySleeveLedger) (ticker : String) (l : Listing) : Decimal :=
  if l.req.ticker = ticker then (if l.req.side = .BUY then polled led l else -polled led l) else 0

/-- A report about a listing: no more than was executed of it, under its id or under none. -/
structure Reports (book : Book) (f : Fill) (c : String) (l : Listing) : Prop where
  listed : book.get? c = some l
  orderId : f.orderId = l.orderId
  symbol : f.symbol = l.req.ticker
  side : f.side = l.req.side
  executed : f.filledQuantity ≤ l.executed
  clientOrderId : f.clientOrderId = c ∨ f.clientOrderId = ""

/-- **The ledger and the exchange agree.** -/
structure Agree (R : String → OrderRequest → Prop) (led : InMemorySleeveLedger) (book : Book) :
    Prop where
  rows : ∀ c o, led.orders.get? c = some o → RowAgrees R book c o
  listings : ∀ c l, book.get? c = some l → ListingAgrees R c l
  unique : ∀ c c' l l', book.get? c = some l → book.get? c' = some l' → l.orderId = l'.orderId →
    c = c'
  snapshots : ∀ i f, led.snapshots.get? i = some f → SnapshotAgrees book i f
  secured : ∀ c l, book.get? c = some l → l.req.side = .SELL → Secured led c l
  net : ∀ ticker, led.net ticker = book.sum fun e => holds led ticker e.2
  fits : ∀ ticker, Fits (owed led book ticker) (led.net ticker)

/-- A link outlives what becomes of the book, as long as the listing keeps its order id. -/
theorem RowAgrees.mono {book' : Book} {c : String} {o : Order} (h : RowAgrees R book c o)
    (hbook : ∀ l, book.get? c = some l → ∃ l', book'.get? c = some l' ∧ l'.orderId = l.orderId) :
    RowAgrees R book' c o := by
  refine ⟨h.keyed, h.request, h.link.imp id ?_⟩
  intro hw
  obtain ⟨l, hl, hid⟩ := hw
  obtain ⟨l', hl', hid'⟩ := hbook l hl
  exact ⟨l', hl', hid.trans hid'.symm⟩

theorem remainder_nonneg {c : String} {l : Listing} (h : ListingAgrees R c l) :
    0 ≤ l.remainder := by
  unfold Listing.remainder
  split
  · cases hq : l.req.quantity with
    | none => exact le_refl _
    | some q => exact sub_nonneg.mpr (h.executed_le q hq)
  · exact le_refl _

/-- A SELL commits to its quantity at most. -/
theorem committed_le {c : String} {l : Listing} (h : ListingAgrees R c l) {q : Decimal}
    (hq : l.req.quantity = some q) : l.committed ≤ q := by
  unfold Listing.committed Listing.remainder
  split
  · rw [hq, Option.elim_some]
    linarith
  · rw [add_zero]
    exact h.executed_le q hq

theorem owed_listed {c : String} {l : Listing} (h : book.get? c = some l) (ticker : String) :
    owed led book ticker c = if l.Trades .SELL ticker then l.committed - polled led l else 0 := by
  unfold owed
  rw [h]

theorem owed_unlisted {c : String} (h : book.get? c = none) (ticker : String) :
    owed led book ticker c = led.openPart ticker c := by
  unfold owed
  rw [h]

namespace Agree

/-- Nothing is filled under the empty order id. -/
theorem filled_empty (h : Agree R led book) : led.filledByOrderId "" = 0 := by
  refine filledByOrderId_none ?_
  cases hf : led.snapshots.get? "" with
  | none => rfl
  | some f =>
    obtain ⟨c, l, hc, hid, -⟩ := h.snapshots "" f hf
    exact absurd hid (h.listings c l hc).named

/-- The snapshot under a listing's order id is the listing's. -/
theorem snapshot (h : Agree R led book) {c : String} {l : Listing} (hc : book.get? c = some l)
    {f : Fill} (hf : led.snapshots.get? l.orderId = some f) :
    f.symbol = l.req.ticker ∧ f.side = l.req.side ∧ f.filledQuantity ≤ l.executed := by
  obtain ⟨c', l', hc', hid, hrest⟩ := h.snapshots _ f hf
  obtain rfl := h.unique c' c l' l hc' hc hid
  obtain rfl := Option.some.inj (hc.symm.trans hc')
  exact hrest

theorem polled_le (h : Agree R led book) {c : String} {l : Listing} (hc : book.get? c = some l) :
    polled led l ≤ l.executed := by
  unfold polled filledByOrderId
  cases hf : led.snapshots.get? l.orderId with
  | none => exact (h.listings c l hc).executed_nonneg
  | some f => exact (h.snapshot hc hf).2.2

theorem polled_le_committed (h : Agree R led book) {c : String} {l : Listing}
    (hc : book.get? c = some l) : polled led l ≤ l.committed := by
  have hle := h.polled_le hc
  have hrem := remainder_nonneg (h.listings c l hc)
  unfold Listing.committed
  linarith

/-- The row of an order that Toss has not got is not linked. -/
theorem orderId_unlisted (h : Agree R led book) {c : String} (hc : book.get? c = none) {o : Order}
    (ho : led.orders.get? c = some o) : o.orderId = "" := by
  rcases (h.rows c o ho).link with hid | ⟨l, hl, -⟩
  · exact hid
  · exact absurd (hc.symm.trans hl) (by simp)

/-- By the row of a listing no more is filled than the ledger was told of the listing. -/
theorem filled_row_le (h : Agree R led book) {c : String} {l : Listing} (hc : book.get? c = some l)
    {o : Order} (ho : led.orders.get? c = some o) :
    led.filledByOrderId o.orderId ≤ polled led l := by
  rcases (h.rows c o ho).link with hid | ⟨l', hl', hid⟩
  · rw [hid, h.filled_empty]
    exact filledByOrderId_nonneg led l.orderId
  · obtain rfl := Option.some.inj (hc.symm.trans hl')
    rw [hid]
    exact le_refl _

/-- What is owed is never negative. -/
theorem owed_nonneg (h : Agree R led book) (ticker c : String) : 0 ≤ owed led book ticker c := by
  cases hc : book.get? c with
  | none =>
    rw [owed_unlisted hc]
    exact led.openPart_nonneg ticker c
  | some l =>
    rw [owed_listed hc]
    split
    · exact sub_nonneg.mpr (h.polled_le_committed hc)
    · exact le_refl _

/-- **No order is owed more than its row holds open.** -/
theorem owed_le_openPart (h : Agree R led book)
    (hR : ∀ c req req', R c req → R c req' → req = req') (ticker c : String) :
    owed led book ticker c ≤ led.openPart ticker c := by
  cases hc : book.get? c with
  | none => exact (owed_unlisted hc ticker).le
  | some l =>
    rw [owed_listed hc]
    split
    · next htrades =>
      rcases h.secured c l hc htrades.1 with ⟨o, ho, hopen⟩ | hdone
      · obtain ⟨req, hreq, hsym, hside, hq⟩ := (h.rows c o ho).request
        obtain rfl := hR c _ _ hreq (h.listings c l hc).request
        rw [openPart_row ho, if_pos ⟨hsym.trans htrades.2, hside.trans htrades.1, hopen⟩]
        have hcommitted := committed_le (h.listings c l hc) (hq htrades.1)
        have hfilled := h.filled_row_le hc ho
        refine le_trans ?_ (le_max_left _ _)
        linarith
      · exact le_trans (sub_nonpos.mpr hdone) (led.openPart_nonneg ticker c)
    · exact led.openPart_nonneg ticker c

theorem net_nonneg (h : Agree R led book) (ticker : String) : 0 ≤ led.net ticker :=
  (h.fits ticker).nonneg

/-! ## 3. No oversell -/

/-- What a listing sold or may sell, and what it bought, against what it is owed and what the
    ledger holds of it. -/
theorem entry_le (h : Agree R led book) {c : String} {l : Listing} (hc : book.get? c = some l)
    (ticker : String) :
    (if l.Trades .SELL ticker then l.executed else 0) +
        (if l.Trades .SELL ticker then l.remainder else 0) + holds led ticker l ≤
      (if l.Trades .SELL ticker then l.committed - polled led l else 0) +
        if l.Trades .BUY ticker then l.executed else 0 := by
  have hpolled := h.polled_le hc
  have hsides : l.req.side = .BUY ∨ l.req.side = .SELL := by cases l.req.side <;> simp
  unfold holds Listing.Trades Listing.committed
  by_cases hticker : l.req.ticker = ticker
  · rcases hsides with hside | hside
    · simpa [hside, hticker] using hpolled
    · simp [hside, hticker, sub_eq_add_neg]
  · simp [hticker]

/-- **Where the two agree, nothing is oversold.** -/
theorem noOversell (h : Agree R led book) : NoOversell book := by
  intro ticker
  have hclaims : (book.sum fun e => if e.2.Trades .SELL ticker then e.2.committed - polled led e.2
      else 0) ≤ book.sum fun e => holds led ticker e.2 := by
    rw [← h.net]
    refine le_of_eq_of_le ?_ ((h.fits ticker).sum_le book.keys_nodup)
    rw [List.map_map]
    refine congrArg List.sum (List.map_congr_left fun e he => ?_)
    exact (owed_listed (Dict.mem_rows_iff.mp he) ticker).symm
  have hentries : (book.sum fun e => (if e.2.Trades .SELL ticker then e.2.executed else 0) +
        (if e.2.Trades .SELL ticker then e.2.remainder else 0) + holds led ticker e.2) ≤
      book.sum fun e => (if e.2.Trades .SELL ticker then e.2.committed - polled led e.2 else 0) +
        if e.2.Trades .BUY ticker then e.2.executed else 0 :=
    List.sum_le_sum fun e he => h.entry_le (Dict.mem_rows_iff.mp he) ticker
  rw [Table.sum_add, Table.sum_add, Table.sum_add] at hentries
  show (book.sum _ + book.sum _ : Decimal) ≤ book.sum _
  linarith

/-! ## 4. What the ledger does -/

variable {led' : InMemorySleeveLedger}

theorem filled_congr (hs : led'.snapshots = led.snapshots) (i : String) :
    led'.filledByOrderId i = led.filledByOrderId i := by
  unfold filledByOrderId
  rw [hs]

theorem net_congr (hs : led'.snapshots = led.snapshots) (ticker : String) :
    led'.net ticker = led.net ticker := by
  unfold InMemorySleeveLedger.net
  rw [hs]

/-- A listing is owed what it was, whatever becomes of its row; any other order, if its row is as
    it was. -/
theorem owed_congr (hs : led'.snapshots = led.snapshots) {c : String}
    (hc : book.get? c = none → led'.orders.get? c = led.orders.get? c) (ticker : String) :
    owed led' book ticker c = owed led book ticker c := by
  cases hbook : book.get? c with
  | some l =>
    rw [owed_listed hbook, owed_listed hbook]
    unfold polled
    rw [filled_congr hs]
  | none =>
    rw [owed_unlisted hbook, owed_unlisted hbook]
    unfold openPart Dict.weightAt
    rw [hc hbook, show led'.filledByOrderId = led.filledByOrderId from funext (filled_congr hs)]

theorem secured_congr (hs : led'.snapshots = led.snapshots) {c : String}
    (hc : led'.orders.get? c = led.orders.get? c) {l : Listing} (h : Secured led c l) :
    Secured led' c l := by
  unfold Secured polled at h ⊢
  rw [hc, filled_congr hs]
  exact h

/-- **A write to the row of one order** keeps the agreement, if the row is right, a listing stays
    secured, and an order without a listing still fits. -/
theorem rerow (h : Agree R led book) (hs : led'.snapshots = led.snapshots) {c : String}
    (hother : ∀ k, k ≠ c → led'.orders.get? k = led.orders.get? k)
    (hrow : ∀ o, led'.orders.get? c = some o → RowAgrees R book c o)
    (hsecured : ∀ l, book.get? c = some l → l.req.side = .SELL → Secured led' c l)
    (hfits : book.get? c = none → ∀ ticker, Fits (owed led' book ticker) (led.net ticker)) :
    Agree R led' book where
  rows k o ho := by
    by_cases hk : k = c
    · subst hk
      exact hrow o ho
    · exact h.rows k o (hother k hk ▸ ho)
  listings := h.listings
  unique := h.unique
  snapshots i f hf := h.snapshots i f (hs ▸ hf)
  secured k l hl hside := by
    by_cases hk : k = c
    · subst hk
      exact hsecured l hl hside
    · exact secured_congr hs (hother k hk) (h.secured k l hl hside)
  net ticker := by
    rw [net_congr hs, h.net]
    unfold holds polled
    simp only [filled_congr hs]
  fits ticker := by
    rw [net_congr hs]
    cases hc : book.get? c with
    | none => exact hfits hc ticker
    | some l =>
      refine (h.fits ticker).mono (fun k => (owed_congr hs (fun hk => ?_) ticker).le) (le_refl _)
      refine hother k fun he => ?_
      rw [he, hc] at hk
      exact absurd hk (by simp)

/-- A write that touches neither rows nor snapshots. -/
theorem congr (h : Agree R led book) (hs : led'.snapshots = led.snapshots)
    (ho : led'.orders = led.orders) : Agree R led' book :=
  h.rerow hs (c := "") (fun _ _ => by rw [ho]) (fun o hrow => h.rows "" o (ho ▸ hrow))
    (fun l hl hside => secured_congr hs (by rw [ho]) (h.secured "" l hl hside))
    fun _ ticker => (h.fits ticker).mono
      (fun k => (owed_congr hs (fun _ => by rw [ho]) ticker).le) (le_refl _)

/-- An order that is marked terminal: Toss has not got it, or the ledger knows all of it. -/
theorem close (h : Agree R led book) {c : String} {st : OrderStatus} (hst : st ∉ openStatuses)
    (hknown : ∀ l, book.get? c = some l → l.req.side = .SELL → l.committed ≤ polled led l) :
    Agree R (led.markOrderTerminal c st) book := by
  have hs := snapshots_markOrderTerminal led c st
  refine h.rerow hs (c := c) (fun k hk => ?_) (fun o ho => ?_) (fun l hl hside => ?_)
    fun hc ticker => ?_
  · rw [orders_markOrderTerminal, if_neg hk]
  · rw [orders_markOrderTerminal, if_pos rfl] at ho
    obtain ⟨o', ho', rfl⟩ := Option.map_eq_some_iff.mp ho
    exact ⟨(h.rows c o' ho').keyed, (h.rows c o' ho').request, (h.rows c o' ho').link⟩
  · refine .inr ?_
    unfold polled
    rw [filled_congr hs]
    exact hknown l hl hside
  · refine (h.fits ticker).mono (fun k => ?_) (le_refl _)
    by_cases hk : k = c
    · subst hk
      rw [owed_unlisted hc]
      refine le_trans (le_of_eq ?_) (h.owed_nonneg ticker k)
      cases ho : led.orders.get? k with
      | none => exact openPart_none (by rw [orders_markOrderTerminal, if_pos rfl, ho]; rfl) ticker
      | some o =>
        rw [openPart_row (by rw [orders_markOrderTerminal, if_pos rfl, ho]; rfl),
          if_neg fun hopen => hst hopen.2.2]
    · refine (owed_congr hs (fun _ => ?_) ticker).le
      rw [orders_markOrderTerminal, if_neg hk]

/-- The row of a request, written anew. -/
theorem rowAgrees_record (h : Agree R led book) {c o : String} {req : OrderRequest}
    (hc : c ≠ "") (hreq : R c req) {cur : Currency} {q : Decimal}
    (hq : req.side = .SELL → req.quantity = some q)
    (ho : o = "" ∨ ∃ l, book.get? c = some l ∧ o = l.orderId) {row : Order}
    (hrow : (led.recordOrder c o req.ticker req.side cur q).orders.get? c = some row) :
    RowAgrees R book c row := by
  rw [get?_recordOrder, if_pos rfl] at hrow
  obtain rfl := Option.some.inj hrow
  refine ⟨hc, ⟨req, hreq, rfl, rfl, hq⟩, ?_⟩
  show led.keptOrderId c o = "" ∨ _
  unfold keptOrderId
  split
  · cases hold : led.orders.get? c with
    | none => exact .inl rfl
    | some old => exact (h.rows c old hold).link
  · next hne => exact ho.imp (fun he => absurd he hne) id

/-- A listing is recorded with its order id. -/
theorem record (h : Agree R led book) {c : String} {l : Listing} (hl : book.get? c = some l)
    {req : OrderRequest} (hreq : R c req) (cur : Currency) {q : Decimal}
    (hq : req.side = .SELL → req.quantity = some q) :
    Agree R (led.recordOrder c l.orderId req.ticker req.side cur q) book := by
  refine h.rerow rfl (c := c) (fun k hk => ?_) (fun row hrow => ?_) (fun l' hl' _ => ?_)
    fun hnone => absurd (hnone.symm.trans hl) (by simp)
  · rw [get?_recordOrder, if_neg hk]
  · exact h.rowAgrees_record (h.listings c l hl).keyed hreq hq (.inr ⟨l, hl, rfl⟩) hrow
  · exact .inl ⟨_, by rw [get?_recordOrder, if_pos rfl], pending_mem_openStatuses⟩

/-- What the rows of other orders hold open, next to one that is left out. -/
theorem sum_openPart_le (led : InMemorySleeveLedger) (ticker c : String) {s : Finset String}
    (hs : c ∉ s) : ∑ k ∈ s, led.openPart ticker k ≤ led.openSell ticker (some c) := by
  have hall : Fits (led.openPart ticker) (led.openSell ticker) := by
    rw [openSell_eq_sum]
    exact Dict.fits fun e _ => OrderRow.remaining_nonneg _ _ _
  have hwith := hall (insert c s)
  rw [Finset.sum_insert hs] at hwith
  rw [openSell_except]
  linarith

/-- **The guard of a SELL**: what it sets aside fits, next to what the others are owed. -/
theorem setAside (h : Agree R led book) (hR : ∀ c req req', R c req → R c req' → req = req')
    {c : String} (hc : c ≠ "") {req : OrderRequest} (hreq : R c req) (hside : req.side = .SELL)
    {q : Decimal} (hq : req.quantity = some q)
    (hcap : q ≤ led.sellAvailability req.ticker (some c)) (cur : Currency) :
    Agree R (led.recordOrder c "" req.ticker .SELL cur q) book := by
  have hget := get?_recordOrder led c "" req.ticker .SELL cur q
  have hs : (led.recordOrder c "" req.ticker .SELL cur q).snapshots = led.snapshots := rfl
  refine h.rerow hs (c := c) (fun k hk => ?_) (fun row hrow => ?_) (fun l hl _ => ?_)
    fun hnone ticker => ?_
  · rw [hget, if_neg hk]
  · rw [← hside] at hrow
    exact h.rowAgrees_record hc hreq (fun _ => hq) (.inl rfl) hrow
  · exact .inl ⟨_, by rw [hget, if_pos rfl], pending_mem_openStatuses⟩
  · have hothers : ∀ k, k ≠ c →
        owed (led.recordOrder c "" req.ticker .SELL cur q) book ticker k = owed led book ticker k :=
      fun k hk => owed_congr hs (fun _ => by rw [hget, if_neg hk]) ticker
    -- Nothing is filled under a row that is not linked, so the whole of it is open.
    have hopen : owed (led.recordOrder c "" req.ticker .SELL cur q) book ticker c =
        if req.ticker = ticker then max q 0 else 0 := by
      rw [owed_unlisted hnone, openPart_row (by rw [hget, if_pos rfl])]
      have hkept : led.keptOrderId c "" = "" := by
        unfold keptOrderId
        rw [if_pos rfl]
        cases hold : led.orders.get? c with
        | none => rfl
        | some old => exact h.orderId_unlisted hnone hold
      have hfilled : (led.recordOrder c "" req.ticker .SELL cur q).filledByOrderId "" = 0 :=
        h.filled_empty
      simp only [hkept, hfilled, sub_zero, pending_mem_openStatuses, and_true]
    by_cases hticker : req.ticker = ticker
    · rw [if_pos hticker] at hopen
      rw [sellAvailability_eq, hticker, max_eq_left (h.net_nonneg ticker)] at hcap
      have hpos : 0 ≤ q := le_of_lt (req.quantity_pos q hq)
      refine Fits.allot (fun s (hs : c ∉ s) => ?_) (by rw [hopen]; exact le_max_right _ _)
      have hle : ∑ k ∈ s, owed (led.recordOrder c "" req.ticker .SELL cur q) book ticker k ≤
          ∑ k ∈ s, led.openPart ticker k := by
        refine Finset.sum_le_sum fun k hk => ?_
        rw [hothers k fun he => hs (he ▸ hk)]
        exact h.owed_le_openPart hR ticker k
      have hsum := sum_openPart_le led ticker c hs
      rw [hopen, max_eq_left hpos]
      linarith
    · rw [if_neg hticker] at hopen
      refine (h.fits ticker).mono (fun k => ?_) (le_refl _)
      by_cases hk : k = c
      · subst hk
        rw [hopen]
        exact h.owed_nonneg ticker k
      · exact (hothers k hk).le

/-! ### A report is applied -/

section Settle

variable {f : Fill} {c : String} {l : Listing}

theorem polled_settle (led : InMemorySleeveLedger) (prev : Option Fill) (f : Fill) (l : Listing) :
    polled (led.settle prev f) l =
      if l.orderId = f.orderId then f.filledQuantity else polled led l :=
  filledByOrderId_settle led f prev l.orderId

theorem polled_settle_self (hf : Reports book f c l) (prev : Option Fill) :
    polled (led.settle prev f) l = f.filledQuantity := by
  rw [polled_settle, if_pos hf.orderId.symm]

theorem polled_settle_other (h : Agree R led book) (hf : Reports book f c l) {k : String}
    (hk : k ≠ c) {l' : Listing} (hl' : book.get? k = some l') (prev : Option Fill) :
    polled (led.settle prev f) l' = polled led l' := by
  rw [polled_settle, if_neg]
  exact fun he => hk (h.unique k c l' l hl' hf.listed (he.trans hf.orderId))

/-- What is stored under the order id of a report is of its order. -/
theorem elim_stored (h : Agree R led book) (hf : Reports book f c l) (ticker : String) :
    (led.snapshots.get? f.orderId).elim 0 (·.signedQty ticker) = holds led ticker l := by
  unfold holds polled filledByOrderId
  rw [hf.orderId]
  cases hp : led.snapshots.get? l.orderId with
  | none => simp
  | some p =>
    obtain ⟨hsym, hside, -⟩ := h.snapshot hf.listed hp
    rw [Option.elim_some, Fill.signedQty, hsym, hside]
    rfl

theorem signedQty_eq (hf : Reports book f c l) (prev : Option Fill) (ticker : String) :
    f.signedQty ticker = holds (led.settle prev f) ticker l := by
  unfold holds Fill.signedQty
  rw [polled_settle_self hf, hf.symbol, hf.side]

theorem polled_le_settle (hf : Reports book f c l)
    (happly : fillProgress (led.snapshots.get? f.orderId) f = .apply) :
    polled led l ≤ f.filledQuantity := by
  unfold polled filledByOrderId
  rw [hf.orderId] at happly
  cases hp : led.snapshots.get? l.orderId with
  | none => exact le_of_lt f.filledQuantity_pos
  | some p => exact fillProgress_apply_le (hp ▸ happly)

/-- Only the order of a report gets another row, and only another status. -/
theorem orders_settle_other (h : Agree R led book) (hf : Reports book f c l) (prev : Option Fill)
    {k : String} (hk : k ≠ c) : (led.settle prev f).orders.get? k = led.orders.get? k := by
  rw [orders_settle]
  split
  · next he =>
    -- There is no row without an id.
    have hempty : k = "" := (hf.clientOrderId.resolve_left (he ▸ hk)) ▸ he
    cases hrow : led.orders.get? k with
    | none => rfl
    | some o => exact absurd hempty (h.rows k o hrow).keyed
  · rfl

theorem openPart_settle_other (h : Agree R led book) (hf : Reports book f c l) {k : String}
    (hk : k ≠ c) (hnone : book.get? k = none) (prev : Option Fill) (ticker : String) :
    (led.settle prev f).openPart ticker k = led.openPart ticker k := by
  have hget := h.orders_settle_other hf prev hk
  cases ho : led.orders.get? k with
  | none => rw [openPart_none ho, openPart_none (hget.trans ho)]
  | some o =>
    have hne : ("" : String) ≠ f.orderId :=
      fun he => (h.listings c l hf.listed).named (hf.orderId.symm.trans he.symm)
    rw [openPart_row ho, openPart_row (hget.trans ho), h.orderId_unlisted hnone ho,
      filledByOrderId_settle, if_neg hne]

theorem secured_settle (h : Agree R led book)
    (hR : ∀ c req req', R c req → R c req' → req = req') (hf : Reports book f c l)
    (happly : fillProgress (led.snapshots.get? f.orderId) f = .apply) (hside : l.req.side = .SELL)
    (prev : Option Fill) : Secured (led.settle prev f) c l := by
  unfold Secured
  rw [polled_settle_self hf]
  rcases h.secured c l hf.listed hside with ⟨o, ho, hopen⟩ | hdone
  · by_cases hcoid : c = f.clientOrderId
    · have hrow := orders_settle led f prev c
      rw [if_pos hcoid, ho, Option.map_some] at hrow
      by_cases hfilled : terminalOrderStatus o.quantity f.filledQuantity ∈ openStatuses
      · exact .inl ⟨_, hrow, hfilled⟩
      · -- Filled, by what the row recorded: and that is all the order was for.
        obtain ⟨req, hreq, -, -, hq⟩ := (h.rows c o ho).request
        obtain rfl := hR c _ _ hreq (h.listings c l hf.listed).request
        have hcommitted := committed_le (h.listings c l hf.listed) (hq hside)
        rw [terminalOrderStatus_mem_openStatuses, not_not] at hfilled
        exact .inr (le_trans hcommitted hfilled.2)
    · have hrow := orders_settle led f prev c
      rw [if_neg hcoid, ho] at hrow
      exact .inl ⟨o, hrow, hopen⟩
  · exact .inr (le_trans hdone (polled_le_settle hf happly))

/-- The holdings change by what the report says of its listing. -/
theorem net_report (h : Agree R led book) (hf : Reports book f c l) (ticker : String) :
    (led.settle (led.snapshots.get? f.orderId) f).net ticker =
      led.net ticker - holds led ticker l +
        holds (led.settle (led.snapshots.get? f.orderId) f) ticker l := by
  rw [net_settle, h.elim_stored hf, signedQty_eq hf]

theorem sum_holds_settle (h : Agree R led book) (hf : Reports book f c l) (prev : Option Fill)
    (ticker : String) : (book.sum fun e => holds (led.settle prev f) ticker e.2) =
      (book.sum fun e => holds led ticker e.2) - holds led ticker l +
        holds (led.settle prev f) ticker l := by
  have hchange : (book.sum fun e => holds (led.settle prev f) ticker e.2) =
      (book.sum fun e => holds led ticker e.2) -
        book.weightAt (fun e => holds led ticker e.2) c +
        book.weightAt (fun e => holds (led.settle prev f) ticker e.2) c := by
    refine Dict.sum_change c fun k hk => ?_
    unfold Dict.weightAt
    cases hl' : book.get? k with
    | none => rfl
    | some l' =>
      show holds led ticker l' = holds (led.settle prev f) ticker l'
      unfold holds
      rw [h.polled_settle_other hf hk hl']
  rw [hchange]
  unfold Dict.weightAt
  rw [hf.listed, Option.elim_some, Option.elim_some]

theorem owed_settle_other (h : Agree R led book) (hf : Reports book f c l) (prev : Option Fill)
    {k : String} (hk : k ≠ c) (ticker : String) :
    owed (led.settle prev f) book ticker k = owed led book ticker k := by
  cases hl' : book.get? k with
  | some l' => rw [owed_listed hl', owed_listed hl', h.polled_settle_other hf hk hl']
  | none =>
    rw [owed_unlisted hl', owed_unlisted hl']
    exact h.openPart_settle_other hf hk hl' prev ticker

/-- The claim of a listing moves as the holdings do, and a purchase only adds to them. -/
theorem owed_settle_le (hf : Reports book f c l) (prev : Option Fill)
    (hle : polled led l ≤ f.filledQuantity) (ticker : String) :
    owed (led.settle prev f) book ticker c - owed led book ticker c ≤
      holds (led.settle prev f) ticker l - holds led ticker l := by
  rw [owed_listed hf.listed, owed_listed hf.listed]
  unfold holds Listing.Trades
  rw [polled_settle_self hf]
  have hsides : l.req.side = .BUY ∨ l.req.side = .SELL := by cases l.req.side <;> simp
  by_cases hticker : l.req.ticker = ticker
  · rcases hsides with hside | hside
    · simp only [hside, hticker, reduceCtorEq, false_and, if_false, if_true]
      linarith
    · simp only [hside, hticker, and_self, if_true, reduceCtorEq, if_false]
      linarith
  · simp [hticker]

/-- **A report that is applied** lowers what the order is owed, and the holdings with it. -/
theorem settle (h : Agree R led book) (hR : ∀ c req req', R c req → R c req' → req = req')
    (hf : Reports book f c l) (happly : fillProgress (led.snapshots.get? f.orderId) f = .apply) :
    Agree R (led.settle (led.snapshots.get? f.orderId) f) book := by
  have hnet := h.net_report hf
  generalize hprev : led.snapshots.get? f.orderId = prev at hnet ⊢
  have happly' : fillProgress (led.snapshots.get? f.orderId) f = .apply := happly
  refine ⟨fun k o ho => ?_, h.listings, h.unique, fun i g hg => ?_, fun k l' hl' hside => ?_,
    fun ticker => ?_, fun ticker => ?_⟩
  · by_cases hk : k = c
    · subst hk
      rw [orders_settle] at ho
      split at ho
      · obtain ⟨o', ho', rfl⟩ := Option.map_eq_some_iff.mp ho
        exact ⟨(h.rows k o' ho').keyed, (h.rows k o' ho').request, (h.rows k o' ho').link⟩
      · exact h.rows k o ho
    · exact h.rows k o (h.orders_settle_other hf prev hk ▸ ho)
  · rw [get?_snapshots_settle] at hg
    split at hg
    · next hi =>
      obtain rfl := Option.some.inj hg
      exact ⟨c, l, hf.listed, (hi.trans hf.orderId).symm, hf.symbol, hf.side, hf.executed⟩
    · exact h.snapshots i g hg
  · by_cases hk : k = c
    · subst hk
      obtain rfl := Option.some.inj (hf.listed.symm.trans hl')
      exact h.secured_settle hR hf happly' hside prev
    · unfold Secured
      rw [h.orders_settle_other hf prev hk, h.polled_settle_other hf hk hl']
      exact h.secured k l' hl' hside
  · rw [hnet, h.net, h.sum_holds_settle hf]
  · refine Fits.move (h.fits ticker) (fun k (hk : k ≠ c) => ?_) ?_ ?_
    · exact (h.owed_settle_other hf prev hk ticker).le
    · rw [owed_listed hf.listed, polled_settle_self hf]
      have hcommitted : f.filledQuantity ≤ l.committed :=
        le_trans hf.executed (le_add_of_nonneg_right
          (remainder_nonneg (h.listings c l hf.listed)))
      split
      · exact sub_nonneg.mpr hcommitted
      · exact le_refl _
    · have hle := owed_settle_le hf prev (polled_le_settle hf happly') ticker
      rw [hnet]
      linarith

/-- A report is applied, repeated, or comes too late. -/
theorem applyFill (h : Agree R led book) (hR : ∀ c req req', R c req → R c req' → req = req')
    (hf : Reports book f c l) (today : String) :
    Agree R (led.step today (.applyFill f)).1 book := by
  have heffect := led.step_effect today (.applyFill f)
  generalize (led.step today (.applyFill f)).1 = led' at heffect ⊢
  generalize (led.step today (.applyFill f)).2 = reply at heffect
  cases heffect with
  | regressed => exact h
  | repeated => exact h
  | settled happly => exact h.settle hR hf happly

end Settle

/-! ## 5. What the exchange does -/

variable {book' : Book}

theorem accept_other {c : String} {l : Listing} {k : String} (hk : k ≠ c) :
    Dict.get? (book.set c l) k = book.get? k := by
  rw [Dict.get?_set, if_neg hk]

/-- Nothing was reported under an order id that Toss has not used. -/
theorem polled_unused (h : Agree R led book) {l : Listing}
    (hunused : ∀ k l', book.get? k = some l' → l'.orderId ≠ l.orderId) : polled led l = 0 := by
  refine filledByOrderId_none ?_
  cases hf : led.snapshots.get? l.orderId with
  | none => rfl
  | some f =>
    obtain ⟨k, l', hl', hid, -⟩ := h.snapshots _ f hf
    exact absurd hid (hunused k l' hl')

theorem get?_accept {c : String} (hnew : book.get? c = none) (l : Listing) {k : String}
    {l' : Listing} (hl' : book.get? k = some l') : Dict.get? (book.set c l) k = some l' := by
  rw [accept_other fun he => ?_]
  · exact hl'
  · rw [he, hnew] at hl'
    exact absurd hl' (by simp)

/-- What the row of a new order holds open is the whole of the order. -/
theorem owed_accept_le (h : Agree R led book)
    (hR : ∀ c req req', R c req → R c req' → req = req') {c : String} (hnew : book.get? c = none)
    {l : Listing} (hlisting : ListingAgrees R c l) (hpolled : polled led l = 0)
    (hopen : l.req.side = .SELL → ∃ o, led.orders.get? c = some o ∧ o.status ∈ openStatuses)
    (ticker : String) : owed led (book.set c l) ticker c ≤ owed led book ticker c := by
  have hself : Dict.get? (book.set c l) c = some l := by rw [Dict.get?_set, if_pos rfl]
  rw [owed_listed hself, owed_unlisted hnew]
  split
  · next htrades =>
    obtain ⟨o, ho, hstatus⟩ := hopen htrades.1
    obtain ⟨req, hreq, hsym, hside, hq⟩ := (h.rows c o ho).request
    obtain rfl := hR c _ _ hreq hlisting.request
    rw [openPart_row ho, if_pos ⟨hsym.trans htrades.2, hside.trans htrades.1, hstatus⟩,
      h.orderId_unlisted hnew ho, h.filled_empty, hpolled, sub_zero, sub_zero]
    exact le_trans (committed_le hlisting (hq htrades.1)) (le_max_left _ _)
  · exact led.openPart_nonneg ticker c

/-- **A new order** takes over what the guard set aside, if it is still there. -/
theorem accept (h : Agree R led book) (hR : ∀ c req req', R c req → R c req' → req = req')
    {c : String} (hc : c ≠ "") (hnew : book.get? c = none) {l : Listing} (hreq : R c l.req)
    (hnamed : l.orderId ≠ "") (hunused : ∀ k l', book.get? k = some l' → l'.orderId ≠ l.orderId)
    (hstart : l.executed = 0) (hopen : l.req.side = .SELL →
      ∃ o, led.orders.get? c = some o ∧ o.status ∈ openStatuses) :
    Agree R led (book.set c l) := by
  have hpolled := h.polled_unused hunused
  have hlisting : ListingAgrees R c l :=
    ⟨hc, hreq, hnamed, hstart.ge, fun q hq => hstart ▸ le_of_lt (l.req.quantity_pos q hq)⟩
  refine ⟨fun k o ho => ?_, fun k l' hl' => ?_, fun k k' l₁ l₂ h₁ h₂ hid => ?_, fun i f hf => ?_,
    fun k l' hl' hside => ?_, fun ticker => ?_, fun ticker => ?_⟩
  · exact (h.rows k o ho).mono fun l' hl' => ⟨l', get?_accept hnew l hl', rfl⟩
  · rw [Dict.get?_set] at hl'
    split at hl'
    · next hk =>
      obtain rfl := Option.some.inj hl'
      exact hk ▸ hlisting
    · exact h.listings k l' hl'
  · rw [Dict.get?_set] at h₁ h₂
    split at h₁
    · next hk =>
      split at h₂
      · next hk' => exact hk.trans hk'.symm
      · obtain rfl := Option.some.inj h₁
        exact absurd hid.symm (hunused k' l₂ h₂)
    · split at h₂
      · obtain rfl := Option.some.inj h₂
        exact absurd hid (hunused k l₁ h₁)
      · exact h.unique k k' l₁ l₂ h₁ h₂ hid
  · obtain ⟨k, l', hl', hrest⟩ := h.snapshots i f hf
    exact ⟨k, l', get?_accept hnew l hl', hrest⟩
  · rw [Dict.get?_set] at hl'
    split at hl'
    · next hk =>
      obtain rfl := Option.some.inj hl'
      exact .inl (hk ▸ hopen hside)
    · exact h.secured k l' hl' hside
  · rw [h.net, Dict.sum_set, hnew]
    have hnothing : holds led ticker l = 0 := by
      unfold holds
      rw [hpolled]
      simp
    rw [hnothing]
    simp
  · refine (h.fits ticker).mono (fun k => ?_) (le_refl _)
    by_cases hk : k = c
    · subst hk
      exact h.owed_accept_le hR hnew hlisting hpolled hopen ticker
    · unfold owed
      rw [accept_other hk]

/-- One listing moves. -/
theorem moves_set (h : Agree R led book) {c : String} {l l' : Listing} (hl : book.get? c = some l)
    (hmoves : l.Moves l') : Book.Moves book (book.set c l') := by
  have hstay : ∀ k l, book.get? k = some l → l.Moves l := fun k l hk =>
    ⟨rfl, rfl, le_refl _, (h.listings k l hk).executed_le, fun _ => le_refl _⟩
  constructor
  · intro k l₁ h₁
    by_cases hk : k = c
    · subst hk
      obtain rfl := Option.some.inj (hl.symm.trans h₁)
      exact ⟨l', by rw [Dict.get?_set, if_pos rfl], hmoves⟩
    · exact ⟨l₁, by rw [Dict.get?_set, if_neg hk]; exact h₁, hstay k l₁ h₁⟩
  · intro k l₁ h₁
    rw [Dict.get?_set] at h₁
    split at h₁
    · next hk =>
      obtain rfl := Option.some.inj h₁
      exact ⟨l, hk ▸ hl, hmoves⟩
    · exact ⟨l₁, h₁, hstay k l₁ h₁⟩

/-- **Listings move**, and nothing is owed more than before. -/
theorem move (h : Agree R led book) (hb : Book.Moves book book') :
    Agree R led book' := by
  have hpolled : ∀ {l l' : Listing}, l.Moves l' → polled led l' = polled led l := by
    intro l l' hl
    unfold polled
    rw [hl.orderId]
  have hnone : ∀ k, book.get? k = none → book'.get? k = none := by
    intro k hk
    cases hk' : book'.get? k with
    | none => rfl
    | some l' =>
      obtain ⟨l, hl, -⟩ := hb.back k l' hk'
      exact absurd (hk.symm.trans hl) (by simp)
  refine ⟨fun k o ho => ?_, fun k l' hl' => ?_, fun k k' l₁ l₂ h₁ h₂ hid => ?_, fun i f hf => ?_,
    fun k l' hl' hside => ?_, fun ticker => ?_, fun ticker => ?_⟩
  · refine (h.rows k o ho).mono fun l hl => ?_
    obtain ⟨l', hl', hmoves⟩ := hb.forth k l hl
    exact ⟨l', hl', hmoves.orderId⟩
  · obtain ⟨l, hl, hmoves⟩ := hb.back k l' hl'
    have hlisting := h.listings k l hl
    exact ⟨hlisting.keyed, hmoves.req ▸ hlisting.request, hmoves.orderId ▸ hlisting.named,
      le_trans hlisting.executed_nonneg hmoves.executed_le, hmoves.req ▸ hmoves.within⟩
  · obtain ⟨l₁', h₁', hm₁⟩ := hb.back k l₁ h₁
    obtain ⟨l₂', h₂', hm₂⟩ := hb.back k' l₂ h₂
    exact h.unique k k' l₁' l₂' h₁' h₂' (by rw [← hm₁.orderId, ← hm₂.orderId, hid])
  · obtain ⟨k, l, hl, hid, hsym, hside, hle⟩ := h.snapshots i f hf
    obtain ⟨l', hl', hmoves⟩ := hb.forth k l hl
    exact ⟨k, l', hl', hmoves.orderId.trans hid, hmoves.req ▸ hsym, hmoves.req ▸ hside,
      le_trans hle hmoves.executed_le⟩
  · obtain ⟨l, hl, hmoves⟩ := hb.back k l' hl'
    rw [hmoves.req] at hside
    refine (h.secured k l hl hside).imp id fun hdone => ?_
    rw [hpolled hmoves]
    exact le_trans (hmoves.committed_le hside) hdone
  · rw [h.net]
    refine Dict.sum_congr_weightAt fun k => ?_
    unfold Dict.weightAt
    cases hl : book.get? k with
    | none => rw [hnone k hl]
    | some l =>
      obtain ⟨l', hl', hmoves⟩ := hb.forth k l hl
      rw [hl']
      show holds led ticker l = holds led ticker l'
      unfold holds
      rw [hpolled hmoves, hmoves.req]
  · refine (h.fits ticker).mono (fun k => ?_) (le_refl _)
    cases hl : book.get? k with
    | none => rw [owed_unlisted hl, owed_unlisted (hnone k hl)]
    | some l =>
      obtain ⟨l', hl', hmoves⟩ := hb.forth k l hl
      have hiff : l'.Trades .SELL ticker ↔ l.Trades .SELL ticker := by
        unfold Listing.Trades
        rw [hmoves.req]
      rw [owed_listed hl, owed_listed hl', hpolled hmoves]
      by_cases htrades : l.Trades .SELL ticker
      · rw [if_pos htrades, if_pos (hiff.mpr htrades)]
        have hle := hmoves.committed_le htrades.1
        linarith
      · rw [if_neg htrades, if_neg fun h' => htrades (hiff.mp h')]

end Agree

/-- A sleeve that has done nothing yet. -/
theorem agree_fresh (R : String → OrderRequest → Prop) (sleeveId : String) (cap : Decimal)
    (cur : Currency) : Agree R (fresh sleeveId cap cur) ∅ := by
  refine ⟨fun _ _ h => absurd h (by simp [fresh]), fun _ _ h => absurd h (by simp),
    fun _ _ _ _ h => absurd h (by simp), fun _ _ h => absurd h (by simp [fresh]),
    fun _ _ h => absurd h (by simp), fun _ => rfl, fun ticker s => ?_⟩
  refine le_of_eq (Finset.sum_eq_zero fun k _ => ?_)
  rw [owed_unlisted (Dict.get?_empty k)]
  exact openPart_none rfl ticker

end Proof
end TossSleeve
