import TossSleeve.Ledger.Steps
import TossSleeve.Lib.Reach

/-!
# `Proof/Oversell.lean` — the ledger never sells what it does not hold

Two figures move when a SELL executes. The held quantity is recomputed from the stored snapshots;
the open quantity is recomputed from the recorded orders, joined to the snapshots by order id and
filtered by status. The guard of `reserve_sell` compares the two, and it protects anything only
if one execution moves both by the same amount.

It does when the orders are driven the way the broker drives them. That discipline is §1: a SELL
enters through `reserve_sell`, gets its order id while it is open, reports its executions under
that id and not beyond its quantity, and reports none once it was marked terminal. The terms of
the SELL orders of a run — symbol, quantity, the order id the exchange is going to give — are a
parameter (`SellBook`), so that the discipline is a condition on one step and not on a history.

The invariant (§2) is one inequality, `openSell t ≤ net t`, and the row-by-row facts that make a
fill move both sides alike. The row facts are where the argument is: an unlinked order is open for
its *full* quantity because nothing is ever filled under the empty id, and an order that closed by
itself has nothing left to sell. They come first (`SellRows`), because the weight of a row is read
off them (`openPart_sell`) on both sides of every step.
-/

set_option autoImplicit false

namespace TossSleeve
namespace Proof

open Lib InMemorySleeveLedger

/-! ## 1. The discipline -/

/-- What one SELL order is: its symbol, its quantity, and the order id it is linked to. -/
structure SellTerms where
  symbol : String
  quantity : Decimal
  orderId : String

/-- The SELL orders of a run by client order id, and the symbol of every other order id. -/
structure SellBook where
  terms : String → Option SellTerms
  buySymbol : String → String
  orderId_ne : ∀ c s, terms c = some s → s.orderId ≠ ""
  orderId_inj : ∀ c c' s s', terms c = some s → terms c' = some s' → s.orderId = s'.orderId →
    c = c'

/-- A ledger, and which of its SELL orders were marked terminal (and not admitted again since). -/
structure Watched where
  ledger : InMemorySleeveLedger
  ended : String → Prop

/-- May the run go on with this operation? -/
def Disciplined (B : SellBook) (w : Watched) : LedgerOp → Prop
  | .reserveSell c o sym _ q => ∃ s, B.terms c = some s ∧ sym = s.symbol ∧ q = s.quantity ∧
      (o = "" ∨ o = s.orderId)
  | .recordOrder c o sym side _ q =>
    match B.terms c with
    | some s => side = .SELL ∧ sym = s.symbol ∧ q = s.quantity ∧ o = s.orderId ∧
        ∃ row, w.ledger.orders.get? c = some row ∧ row.status ∈ openStatuses
    | none => side = .BUY
  | .applyFill f =>
    match f.side with
    | .SELL => ∃ c s, B.terms c = some s ∧ f.orderId = s.orderId ∧ f.symbol = s.symbol ∧
        f.filledQuantity ≤ s.quantity ∧ (f.clientOrderId = c ∨ B.terms f.clientOrderId = none) ∧
        (∃ row, w.ledger.orders.get? c = some row ∧ row.orderId = s.orderId) ∧ ¬ w.ended c
    | .BUY => f.orderId ≠ "" ∧ (∀ c s, B.terms c = some s → f.orderId ≠ s.orderId) ∧
        B.terms f.clientOrderId = none ∧ f.symbol = B.buySymbol f.orderId
  | .markOrderTerminal c st => B.terms c ≠ none → st ∉ openStatuses
  | .reserve .. | .release .. | .recordCashflow .. => True

/-- Marking a recorded order ends it; a SELL that `reserve_sell` admits again starts over. -/
def endedAfter (w : Watched) (op : LedgerOp) (r : Reply) (c : String) : Prop :=
  match op with
  | .markOrderTerminal c' _ => (c = c' ∧ w.ledger.orders.get? c ≠ none) ∨ w.ended c
  | .reserveSell c' .. => w.ended c ∧ ¬ (c = c' ∧ r = .verdict true)
  | _ => w.ended c

/-- One disciplined operation, on any day. -/
def SellStep (B : SellBook) (w w' : Watched) : Prop :=
  ∃ today op, Disciplined B w op ∧ w'.ledger = (w.ledger.step today op).1 ∧
    ∀ c, w'.ended c ↔ endedAfter w op (w.ledger.step today op).2 c

/-! ## 2. The invariant -/

/-- A recorded order is what the book says of its client order id. -/
def RowOk (B : SellBook) (c : String) (o : Order) : Prop :=
  match B.terms c with
  | some s => o.side = .SELL ∧ o.symbol = s.symbol ∧ o.quantity = s.quantity ∧
      (o.orderId = "" ∨ o.orderId = s.orderId)
  | none => o.side = .BUY

/-- A stored snapshot is a BUY's, or belongs to a linked SELL and is within its quantity. -/
def FillOk (B : SellBook) (l : InMemorySleeveLedger) (i : String) (f : Fill) : Prop :=
  match f.side with
  | .BUY => i ≠ "" ∧ (∀ c s, B.terms c = some s → i ≠ s.orderId) ∧ f.symbol = B.buySymbol i
  | .SELL => ∃ c s o, B.terms c = some s ∧ i = s.orderId ∧ f.symbol = s.symbol ∧
      f.filledQuantity ≤ s.quantity ∧ l.orders.get? c = some o ∧ o.orderId = i

/-- The rows and snapshots agree with the book. -/
structure SellRows (B : SellBook) (w : Watched) : Prop where
  rows : ∀ c o, w.ledger.orders.get? c = some o → RowOk B c o
  fills : ∀ i f, w.ledger.snapshots.get? i = some f → FillOk B w.ledger i f
  /-- An order that is closed without having been marked terminal is complete. -/
  closed : ∀ c s o, B.terms c = some s → w.ledger.orders.get? c = some o →
    o.status ∉ openStatuses → ¬ w.ended c → s.quantity ≤ w.ledger.filledByOrderId s.orderId

structure SellInv (B : SellBook) (w : Watched) : Prop extends SellRows B w where
  covered : ∀ t, w.ledger.openSell t ≤ w.ledger.net t

theorem filledByOrderId_nonneg (l : InMemorySleeveLedger) (i : String) :
    0 ≤ l.filledByOrderId i := by
  unfold filledByOrderId
  cases l.snapshots.get? i with
  | none => exact le_refl _
  | some f => exact le_of_lt f.filledQuantity_pos

theorem filledByOrderId_none {l : InMemorySleeveLedger} {i : String}
    (h : l.snapshots.get? i = none) : l.filledByOrderId i = 0 := by
  simp [filledByOrderId, h]

theorem RowOk.buy {B : SellBook} {c : String} {o : Order} (h : RowOk B c o)
    (hc : B.terms c = none) : o.side = .BUY := by
  unfold RowOk at h
  rwa [hc] at h

theorem RowOk.sell {B : SellBook} {c : String} {o : Order} (h : RowOk B c o) {s : SellTerms}
    (hc : B.terms c = some s) : o.side = .SELL ∧ o.symbol = s.symbol ∧ o.quantity = s.quantity ∧
      (o.orderId = "" ∨ o.orderId = s.orderId) := by
  unfold RowOk at h
  rwa [hc] at h

/-- A snapshot stays right when every linked SELL row keeps its link. -/
theorem FillOk.mono {B : SellBook} {l l' : InMemorySleeveLedger} {i : String} {f : Fill}
    (h : FillOk B l i f)
    (hl : ∀ c s o, B.terms c = some s → l.orders.get? c = some o → o.orderId = s.orderId →
      ∃ o', l'.orders.get? c = some o' ∧ o'.orderId = s.orderId) : FillOk B l' i f := by
  unfold FillOk at h ⊢
  cases hs : f.side with
  | BUY => rwa [hs] at h
  | SELL =>
    rw [hs] at h
    obtain ⟨c, s, o, hc, hi, hsym, hle, ho, hid⟩ := h
    obtain ⟨o', ho', hid'⟩ := hl c s o hc ho (hid.trans hi)
    exact ⟨c, s, o', hc, hi, hsym, hle, ho', hid'.trans hi.symm⟩

namespace SellRows

variable {B : SellBook} {w w' : Watched}

/-- Nothing is filled under the empty order id. -/
theorem filled_empty (h : SellRows B w) : w.ledger.filledByOrderId "" = 0 := by
  refine filledByOrderId_none ?_
  cases hf : w.ledger.snapshots.get? "" with
  | none => rfl
  | some f =>
    have hok := h.fills "" f hf
    unfold FillOk at hok
    cases hs : f.side with
    | BUY => rw [hs] at hok; exact absurd rfl hok.1
    | SELL =>
      rw [hs] at hok
      obtain ⟨c, s, _, hc, hi, _⟩ := hok
      exact absurd hi.symm (B.orderId_ne c s hc)

/-- The snapshot stored under a SELL's order id is that SELL's. -/
theorem sell_fill (h : SellRows B w) {c : String} {s : SellTerms} (hc : B.terms c = some s)
    {f : Fill} (hf : w.ledger.snapshots.get? s.orderId = some f) :
    f.side = .SELL ∧ f.symbol = s.symbol ∧ f.filledQuantity ≤ s.quantity ∧
      ∃ o, w.ledger.orders.get? c = some o ∧ o.orderId = s.orderId := by
  have hok := h.fills _ f hf
  unfold FillOk at hok
  cases hs : f.side with
  | BUY => rw [hs] at hok; exact absurd rfl (hok.2.1 c s hc)
  | SELL =>
    rw [hs] at hok
    obtain ⟨c', s', o, hc', hi, hsym, hq, ho, hoi⟩ := hok
    have hcc : c = c' := B.orderId_inj c c' s s' hc hc' hi
    subst hcc
    rw [hc] at hc'
    cases hc'
    exact ⟨rfl, hsym, hq, o, ho, hoi⟩

/-- A SELL never executes more than its quantity — nor, if it has executed, than nothing. -/
theorem filled_le (h : SellRows B w) {c : String} {s : SellTerms} (hc : B.terms c = some s) :
    w.ledger.filledByOrderId s.orderId ≤ max s.quantity 0 := by
  unfold filledByOrderId
  cases hf : w.ledger.snapshots.get? s.orderId with
  | none => exact le_max_right _ _
  | some f => exact le_trans (h.sell_fill hc hf).2.2.1 (le_max_left _ _)

/-- An order that is not linked yet has executed nothing. -/
theorem filled_unlinked (h : SellRows B w) {c : String} {s : SellTerms} (hc : B.terms c = some s)
    (ho : ∀ o, w.ledger.orders.get? c = some o → o.orderId ≠ s.orderId) :
    w.ledger.filledByOrderId s.orderId = 0 := by
  refine filledByOrderId_none ?_
  cases hf : w.ledger.snapshots.get? s.orderId with
  | none => rfl
  | some f =>
    obtain ⟨-, -, -, o, hoc, hoi⟩ := h.sell_fill hc hf
    exact absurd hoi (ho o hoc)

/-- Linked or not, a SELL row's own order id has executed what the order has. -/
theorem filled_row (h : SellRows B w) {c : String} {s : SellTerms} (hc : B.terms c = some s)
    {o : Order} (ho : w.ledger.orders.get? c = some o) :
    w.ledger.filledByOrderId o.orderId = w.ledger.filledByOrderId s.orderId := by
  rcases ((h.rows c o ho).sell hc).2.2.2 with he | he
  · rw [he, h.filled_empty, h.filled_unlinked hc]
    intro o' ho'
    rw [ho] at ho'
    cases ho'
    rw [he]
    exact (B.orderId_ne c s hc).symm
  · rw [he]

/-- A BUY contributes nothing to the open SELL quantity. -/
theorem openPart_buy (h : SellRows B w) {c : String} (hc : B.terms c = none) (t : String) :
    w.ledger.openPart t c = 0 := by
  cases ho : w.ledger.orders.get? c with
  | none => exact openPart_none ho t
  | some o =>
    rw [openPart_some ho, OrderRow.remaining_of_not_open]
    intro hw
    obtain ⟨-, hs, -⟩ := hw
    rw [show (orderRow (c, o)).side = o.side from rfl, (h.rows c o ho).buy hc] at hs
    exact absurd hs (by decide)

/-- What a SELL contributes: while open, its quantity less what executed. -/
theorem openPart_sell (h : SellRows B w) {c : String} {s : SellTerms} (hc : B.terms c = some s)
    {o : Order} (ho : w.ledger.orders.get? c = some o) (t : String) :
    w.ledger.openPart t c = if s.symbol = t ∧ o.status ∈ openStatuses then
      max (s.quantity - w.ledger.filledByOrderId s.orderId) 0 else 0 := by
  obtain ⟨hside, hsym, hq, -⟩ := (h.rows c o ho).sell hc
  rw [openPart_some ho]
  by_cases hopen : s.symbol = t ∧ o.status ∈ openStatuses
  · have : (orderRow (c, o)).IsOpenSell t := ⟨hsym.trans hopen.1, hside, hopen.2⟩
    rw [if_pos hopen, OrderRow.remaining_of_open _ this]
    show max (o.quantity - w.ledger.filledByOrderId o.orderId) 0 = _
    rw [hq, h.filled_row hc ho]
  · rw [if_neg hopen, OrderRow.remaining_of_not_open]
    intro hw
    obtain ⟨h₁, -, h₂⟩ := hw
    exact hopen ⟨hsym ▸ h₁, h₂⟩

/-- Until it is marked terminal, a SELL contributes what it has left, whatever its status says. -/
theorem openPart_active (h : SellRows B w) {c : String} {s : SellTerms} (hc : B.terms c = some s)
    {o : Order} (ho : w.ledger.orders.get? c = some o) (hend : ¬ w.ended c) (hq : 0 ≤ s.quantity)
    (t : String) : w.ledger.openPart t c =
      if s.symbol = t then s.quantity - w.ledger.filledByOrderId s.orderId else 0 := by
  have hle : w.ledger.filledByOrderId s.orderId ≤ s.quantity :=
    max_eq_left hq ▸ h.filled_le hc
  rw [h.openPart_sell hc ho]
  by_cases ht : s.symbol = t
  · rw [if_pos ht]
    by_cases hopen : o.status ∈ openStatuses
    · rw [if_pos ⟨ht, hopen⟩, max_eq_left (sub_nonneg.mpr hle)]
    · have hdone := h.closed c s o hc ho hopen hend
      rw [if_neg (fun hp => hopen hp.2)]
      linarith
  · rw [if_neg ht, if_neg (fun hp => ht hp.1)]

/-- An order a step neither rewrites nor fills contributes what it did. -/
theorem openPart_eq (h : SellRows B w) (h' : SellRows B w') {c : String}
    (hget : ∀ s, B.terms c = some s → w'.ledger.orders.get? c = w.ledger.orders.get? c)
    (hfill : ∀ s, B.terms c = some s →
      w'.ledger.filledByOrderId s.orderId = w.ledger.filledByOrderId s.orderId) (t : String) :
    w.ledger.openPart t c = w'.ledger.openPart t c := by
  cases hc : B.terms c with
  | none => rw [h.openPart_buy hc, h'.openPart_buy hc]
  | some s =>
    cases ho : w.ledger.orders.get? c with
    | none => rw [openPart_none ho, openPart_none ((hget s hc).trans ho)]
    | some o =>
      rw [h.openPart_sell hc ho, h'.openPart_sell hc ((hget s hc).trans ho), hfill s hc]

end SellRows

namespace SellInv

variable {B : SellBook} {w : Watched}

theorem net_nonneg (h : SellInv B w) (t : String) : 0 ≤ w.ledger.net t :=
  le_trans (w.ledger.openSell_nonneg t) (h.covered t)

/-- A step that leaves orders and snapshots alone keeps the invariant, however many orders it
    ends. -/
theorem congr (h : SellInv B w) {w' : Watched} (ho : w'.ledger.orders = w.ledger.orders)
    (hs : w'.ledger.snapshots = w.ledger.snapshots) (he : ∀ c, w.ended c → w'.ended c) :
    SellInv B w' := by
  have hfilled : w'.ledger.filledByOrderId = w.ledger.filledByOrderId := by
    funext i
    simp only [filledByOrderId, hs]
  refine ⟨⟨fun c o hc => h.rows c o (ho ▸ hc), fun i f hf => ?_,
    fun c s o hc hco hst hend => ?_⟩, fun t => ?_⟩
  · exact (h.fills i f (hs ▸ hf)).mono fun c s o _ hco hid => ⟨o, ho ▸ hco, hid⟩
  · rw [hfilled]
    exact h.closed c s o hc (ho ▸ hco) hst (fun hc => hend (he c hc))
  · have hcov := h.covered t
    simpa only [openSell_eq_sum, net, hfilled, ho, hs] using hcov

/-! ## 3. Recording an order -/

/-- A BUY is recorded: its row weighs nothing, before and after. -/
theorem recorded_buy (h : SellInv B w) {c : String} (hc : B.terms c = none) (o sym : String)
    (cur : Currency) (q : Decimal) :
    SellInv B { w with ledger := w.ledger.recordOrder c o sym .BUY cur q } := by
  have hget := get?_recordOrder w.ledger c o sym .BUY cur q
  have hsell : ∀ k s, B.terms k = some s →
      (w.ledger.recordOrder c o sym .BUY cur q).orders.get? k = w.ledger.orders.get? k := by
    intro k s hk
    rw [hget, if_neg]
    rintro rfl
    rw [hc] at hk
    exact absurd hk (by simp)
  have hrows : SellRows B { w with ledger := w.ledger.recordOrder c o sym .BUY cur q } := by
    refine ⟨fun k o' hk => ?_, fun i f hf => ?_, fun k s o' hk hko hst hend => ?_⟩
    · rw [hget] at hk
      by_cases hkc : k = c
      · rw [if_pos hkc, Option.some.injEq] at hk
        unfold RowOk
        rw [hkc, hc, ← hk]
      · rw [if_neg hkc] at hk
        exact h.rows k o' hk
    · exact (h.fills i f hf).mono fun k s o' hk hko hid => ⟨o', (hsell k s hk).trans hko, hid⟩
    · exact h.closed k s o' hk ((hsell k s hk).symm.trans hko) hst hend
  refine ⟨hrows, fun t => ?_⟩
  have hchange := openSell_change t c fun k _ =>
    h.openPart_eq hrows (hsell k) (fun _ _ => rfl) t
  show (w.ledger.recordOrder c o sym .BUY cur q).openSell t ≤ w.ledger.net t
  rw [hchange, h.openPart_buy hc, hrows.openPart_buy hc]
  simpa using h.covered t

/-- The kept id is the empty one or the book's, and a link that stands is kept. -/
theorem keptOrderId_sell (h : SellRows B w) {c : String} {s : SellTerms} (hc : B.terms c = some s)
    {o : String} (ho : o = "" ∨ o = s.orderId) :
    (w.ledger.keptOrderId c o = "" ∨ w.ledger.keptOrderId c o = s.orderId) ∧
      ∀ o', w.ledger.orders.get? c = some o' → o'.orderId = s.orderId →
        w.ledger.keptOrderId c o = s.orderId := by
  unfold keptOrderId
  rcases ho with ho | ho
  · rw [if_pos ho]
    cases hrow : w.ledger.orders.get? c with
    | none => exact ⟨.inl rfl, fun o' ho' => absurd ho' (by simp)⟩
    | some r =>
      refine ⟨((h.rows c r hrow).sell hc).2.2.2, fun o' ho' hid => ?_⟩
      cases ho'
      exact hid
  · rw [if_neg (ho ▸ B.orderId_ne c s hc)]
    exact ⟨.inr ho, fun _ _ _ => ho⟩

/-- A SELL is recorded, by the guard or by the link: its row is open for what it has not executed.
    Whether that fits is the caller's obligation `hcov`; the rows and snapshots still match. -/
theorem recorded_sell (h : SellInv B w) {c : String} {s : SellTerms} (hc : B.terms c = some s)
    {o : String} (ho : o = "" ∨ o = s.orderId) (cur : Currency) {ended' : String → Prop}
    (hend : ∀ k ≠ c, w.ended k → ended' k)
    (hcov : ∀ t, w.ledger.openSell t - w.ledger.openPart t c +
      (if s.symbol = t then max (s.quantity - w.ledger.filledByOrderId s.orderId) 0 else 0)
        ≤ w.ledger.net t) :
    SellInv B ⟨w.ledger.recordOrder c o s.symbol .SELL cur s.quantity, ended'⟩ := by
  have hget := get?_recordOrder w.ledger c o s.symbol .SELL cur s.quantity
  have hother : ∀ k ≠ c, (w.ledger.recordOrder c o s.symbol .SELL cur s.quantity).orders.get? k =
      w.ledger.orders.get? k := fun k hk => (hget k).trans (if_neg hk)
  have hkept := keptOrderId_sell h.toSellRows hc ho
  have hrows : SellRows B ⟨w.ledger.recordOrder c o s.symbol .SELL cur s.quantity, ended'⟩ := by
    refine ⟨fun k o' hk => ?_, fun i f hf => ?_, fun k s' o' hk hko hst hnend => ?_⟩
    · rw [hget] at hk
      by_cases hkc : k = c
      · rw [if_pos hkc, Option.some.injEq] at hk
        unfold RowOk
        rw [hkc, hc, ← hk]
        exact ⟨rfl, rfl, rfl, hkept.1⟩
      · rw [if_neg hkc] at hk
        exact h.rows k o' hk
    · refine (h.fills i f hf).mono fun k s' o' hk hko hid => ?_
      by_cases hkc : k = c
      · subst hkc
        rw [hc] at hk
        cases hk
        exact ⟨_, (hget k).trans (if_pos rfl), hkept.2 o' hko hid⟩
      · exact ⟨o', (hother k hkc).trans hko, hid⟩
    · rw [hget] at hko
      by_cases hkc : k = c
      · rw [if_pos hkc, Option.some.injEq] at hko
        rw [← hko] at hst
        exact absurd pending_mem_openStatuses hst
      · rw [if_neg hkc] at hko
        exact h.closed k s' o' hk hko hst (fun he => hnend (hend k hkc he))
  refine ⟨hrows, fun t => ?_⟩
  have hchange := openSell_change t c fun k hk =>
    h.openPart_eq hrows (fun _ _ => hother k hk) (fun _ _ => rfl) t
  have hpart : (w.ledger.recordOrder c o s.symbol .SELL cur s.quantity).openPart t c =
      if s.symbol = t then max (s.quantity - w.ledger.filledByOrderId s.orderId) 0 else 0 := by
    rw [hrows.openPart_sell hc ((hget c).trans (if_pos rfl))]
    simp only [pending_mem_openStatuses, and_true]
    rfl
  show (w.ledger.recordOrder c o s.symbol .SELL cur s.quantity).openSell t ≤ w.ledger.net t
  rw [hchange, hpart]
  exact hcov t

/-- The link changes nothing: an open order stays open for the same quantity. -/
theorem linked (h : SellInv B w) {c : String} {s : SellTerms} (hc : B.terms c = some s)
    {row : Order} (hrow : w.ledger.orders.get? c = some row) (hopen : row.status ∈ openStatuses)
    (cur : Currency) :
    SellInv B { w with ledger := w.ledger.recordOrder c s.orderId s.symbol .SELL cur
                                  s.quantity } := by
  refine h.recorded_sell hc (.inr rfl) cur (fun _ _ he => he) fun t => ?_
  rw [h.openPart_sell hc hrow]
  have hcov := h.covered t
  by_cases ht : s.symbol = t
  · rw [if_pos ⟨ht, hopen⟩, if_pos ht]
    linarith
  · rw [if_neg (fun hp => ht hp.1), if_neg ht]
    linarith

/-- The guard admits a SELL only when its whole quantity fits beside the other open orders. -/
theorem admitted (h : SellInv B w) {c : String} {s : SellTerms} (hc : B.terms c = some s)
    {o : String} (ho : o = "" ∨ o = s.orderId) (cur : Currency) {ended' : String → Prop}
    (hend : ∀ k ≠ c, w.ended k → ended' k)
    (hcap : s.quantity ≤ w.ledger.sellAvailability s.symbol (some c)) :
    SellInv B ⟨w.ledger.recordOrder c o s.symbol .SELL cur s.quantity, ended'⟩ := by
  refine h.recorded_sell hc ho cur hend fun t => ?_
  have hcov := h.covered t
  have hpart := w.ledger.openPart_nonneg t c
  by_cases ht : s.symbol = t
  · rw [if_pos ht]
    rw [sellAvailability_eq, openSell_except, ht, max_eq_left (h.net_nonneg t)] at hcap
    have hexec := filledByOrderId_nonneg w.ledger s.orderId
    rcases le_total (s.quantity - w.ledger.filledByOrderId s.orderId) 0 with hle | hle
    · rw [max_eq_right hle]
      linarith
    · rw [max_eq_left hle]
      linarith
  · rw [if_neg ht]
    linarith

/-! ## 4. Executions -/

theorem RowOk.withStatus {c : String} {o : Order} (h : RowOk B c o) (st : OrderStatus) :
    RowOk B c { o with status := st } := h

theorem rows_settle (h : SellRows B w) (f : Fill) (prev : Option Fill) (c : String) (o : Order)
    (hc : (w.ledger.settle prev f).orders.get? c = some o) : RowOk B c o := by
  rw [orders_settle] at hc
  by_cases hk : c = f.clientOrderId
  · rw [if_pos hk] at hc
    obtain ⟨o', ho', rfl⟩ := Option.map_eq_some_iff.mp hc
    exact RowOk.withStatus (h.rows c o' ho') _
  · rw [if_neg hk] at hc
    exact h.rows c o hc

theorem links_settle (l : InMemorySleeveLedger) (f : Fill) (prev : Option Fill) {c : String}
    {o : Order} (ho : l.orders.get? c = some o) :
    ∃ o', (l.settle prev f).orders.get? c = some o' ∧ o'.orderId = o.orderId := by
  rw [orders_settle]
  by_cases hk : c = f.clientOrderId
  · rw [if_pos hk, ho]
    exact ⟨_, rfl, rfl⟩
  · rw [if_neg hk]
    exact ⟨o, ho, rfl⟩

/-- The snapshots of other orders stay right, because no link is lost. -/
theorem fill_settle_other (h : SellRows B w) (f : Fill) (prev : Option Fill) {i : String}
    (hi : i ≠ f.orderId) {g : Fill} (hg : (w.ledger.settle prev f).snapshots.get? i = some g) :
    FillOk B (w.ledger.settle prev f) i g := by
  rw [get?_snapshots_settle, if_neg hi] at hg
  refine (h.fills i g hg).mono fun c s o _ ho hid => ?_
  obtain ⟨o', ho', hid'⟩ := links_settle w.ledger f prev ho
  exact ⟨o', ho', hid'.trans hid⟩

/-- A BUY leaves the rows of the SELLs alone, and what they have executed. -/
theorem rows_bought (h : SellRows B w) {f : Fill} (hside : f.side = .BUY) (hne : f.orderId ≠ "")
    (hid : ∀ c s, B.terms c = some s → f.orderId ≠ s.orderId)
    (hsym : f.symbol = B.buySymbol f.orderId) {prev : Option Fill}
    (hget : ∀ c s, B.terms c = some s →
      (w.ledger.settle prev f).orders.get? c = w.ledger.orders.get? c)
    (hfill : ∀ c s, B.terms c = some s →
      (w.ledger.settle prev f).filledByOrderId s.orderId = w.ledger.filledByOrderId s.orderId) :
    SellRows B { w with ledger := w.ledger.settle prev f } := by
  refine ⟨rows_settle h f _, fun i g hg => ?_, fun c s o hc ho hst hend => ?_⟩
  · by_cases hi : i = f.orderId
    · rw [get?_snapshots_settle, if_pos hi] at hg
      cases hg
      unfold FillOk
      rw [hside, hi]
      exact ⟨hne, hid, hsym⟩
    · exact fill_settle_other h f prev hi hg
  · rw [hfill c s hc]
    exact h.closed c s o hc ((hget c s hc).symm.trans ho) hst hend

/-- The snapshot before it is of the same purchase, and of no more shares. -/
theorem signedQty_bought (h : SellRows B w) {f : Fill} (hside : f.side = .BUY)
    (hid : ∀ c s, B.terms c = some s → f.orderId ≠ s.orderId)
    (hsym : f.symbol = B.buySymbol f.orderId)
    (hprog : fillProgress (w.ledger.snapshots.get? f.orderId) f = .apply) (t : String) :
    (w.ledger.snapshots.get? f.orderId).elim 0 (·.signedQty t) ≤ f.signedQty t := by
  cases hp : w.ledger.snapshots.get? f.orderId with
  | none =>
    have hpos := f.filledQuantity_pos
    simp only [Option.elim_none, Fill.signedQty, hside]
    split <;> simp [le_of_lt hpos]
  | some p =>
    have hok := h.fills _ p hp
    have hle := fillProgress_apply_le (hp ▸ hprog)
    unfold FillOk at hok
    cases hps : p.side with
    | SELL =>
      rw [hps] at hok
      obtain ⟨c, s, -, hc, hi, -⟩ := hok
      exact absurd hi (hid c s hc)
    | BUY =>
      rw [hps] at hok
      simp only [Option.elim_some, Fill.signedQty, hside, hps, hok.2.2, hsym]
      split <;> simp [hle]

/-- A BUY executes: the held quantity grows and no SELL row is touched. -/
theorem bought (h : SellInv B w) {f : Fill} (hside : f.side = .BUY) (hne : f.orderId ≠ "")
    (hid : ∀ c s, B.terms c = some s → f.orderId ≠ s.orderId)
    (hcoid : B.terms f.clientOrderId = none) (hsym : f.symbol = B.buySymbol f.orderId)
    (hprog : fillProgress (w.ledger.snapshots.get? f.orderId) f = .apply) :
    SellInv B { w with ledger := w.ledger.settle (w.ledger.snapshots.get? f.orderId) f } := by
  have hget : ∀ c s, B.terms c = some s →
      (w.ledger.settle (w.ledger.snapshots.get? f.orderId) f).orders.get? c =
        w.ledger.orders.get? c := by
    intro c s hc
    rw [orders_settle, if_neg]
    rintro rfl
    rw [hcoid] at hc
    exact absurd hc (by simp)
  have hfill : ∀ c s, B.terms c = some s →
      (w.ledger.settle (w.ledger.snapshots.get? f.orderId) f).filledByOrderId s.orderId =
        w.ledger.filledByOrderId s.orderId := by
    intro c s hc
    rw [filledByOrderId_settle, if_neg (fun e => hid c s hc e.symm)]
  have hrows := rows_bought h.toSellRows hside hne hid hsym hget hfill
  refine ⟨hrows, fun t => ?_⟩
  have hopen : (w.ledger.settle (w.ledger.snapshots.get? f.orderId) f).openSell t =
      w.ledger.openSell t := by
    have hchange := openSell_change t f.clientOrderId fun c _ =>
      h.openPart_eq hrows (hget c) (hfill c) t
    rw [h.openPart_buy hcoid, hrows.openPart_buy hcoid] at hchange
    linarith
  have hgrow := signedQty_bought h.toSellRows hside hid hsym hprog t
  have hcov := h.covered t
  show (w.ledger.settle (w.ledger.snapshots.get? f.orderId) f).openSell t ≤
    (w.ledger.settle (w.ledger.snapshots.get? f.orderId) f).net t
  rw [hopen, net_settle]
  linarith

/-- The snapshot a SELL's replaces is, as far as quantities go, what the order had executed. -/
theorem signedQty_sold (h : SellRows B w) {f : Fill} {c : String} {s : SellTerms}
    (hc : B.terms c = some s) (hid : f.orderId = s.orderId)
    (hprog : fillProgress (w.ledger.snapshots.get? f.orderId) f = .apply) :
    w.ledger.filledByOrderId s.orderId ≤ f.filledQuantity ∧ ∀ t,
      (w.ledger.snapshots.get? f.orderId).elim 0 (·.signedQty t) =
        if s.symbol = t then -w.ledger.filledByOrderId s.orderId else 0 := by
  rw [hid] at hprog ⊢
  unfold filledByOrderId
  cases hp : w.ledger.snapshots.get? s.orderId with
  | none => exact ⟨le_of_lt f.filledQuantity_pos, fun t => by simp⟩
  | some p =>
    obtain ⟨hps, hpsym, -⟩ := h.sell_fill hc hp
    exact ⟨fillProgress_apply_le (hp ▸ hprog), fun t => by simp [Fill.signedQty, hps, hpsym]⟩

/-- If its row is closed afterwards, the order is complete: it was so before, or the snapshot's
    status says so. -/
theorem closed_sold (h : SellRows B w) {f : Fill} {c : String} {s : SellTerms}
    (hc : B.terms c = some s) (hmore : w.ledger.filledByOrderId s.orderId ≤ f.filledQuantity)
    {row : Order} (hrow : w.ledger.orders.get? c = some row) (hend : ¬ w.ended c)
    {prev : Option Fill} {o : Order} (ho : (w.ledger.settle prev f).orders.get? c = some o)
    (hst : o.status ∉ openStatuses) : s.quantity ≤ f.filledQuantity := by
  rw [orders_settle, hrow] at ho
  by_cases hcf : c = f.clientOrderId
  · rw [if_pos hcf, Option.map_some, Option.some.injEq] at ho
    rw [← ho] at hst
    have hdone := (not_congr (terminalOrderStatus_mem_openStatuses _ _)).mp hst
    rw [((h.rows c row hrow).sell hc).2.2.1] at hdone
    exact (not_not.mp hdone).2
  · rw [if_neg hcf, Option.some.injEq] at ho
    rw [← ho] at hst
    exact le_trans (h.closed c s row hc hrow hst hend) hmore

/-- A SELL executes: what is held and what is open fall by the same quantity. -/
theorem sold (h : SellInv B w) {f : Fill} {c : String} {s : SellTerms} (hc : B.terms c = some s)
    (hside : f.side = .SELL) (hid : f.orderId = s.orderId) (hsym : f.symbol = s.symbol)
    (hle : f.filledQuantity ≤ s.quantity)
    (hcoid : f.clientOrderId = c ∨ B.terms f.clientOrderId = none) {row : Order}
    (hrow : w.ledger.orders.get? c = some row) (hlink : row.orderId = s.orderId)
    (hend : ¬ w.ended c)
    (hprog : fillProgress (w.ledger.snapshots.get? f.orderId) f = .apply) :
    SellInv B { w with ledger := w.ledger.settle (w.ledger.snapshots.get? f.orderId) f } := by
  have hq : 0 < s.quantity := lt_of_lt_of_le f.filledQuantity_pos hle
  have hfilled : ∀ i, (w.ledger.settle (w.ledger.snapshots.get? f.orderId) f).filledByOrderId i =
      if i = s.orderId then f.filledQuantity else w.ledger.filledByOrderId i := by
    intro i
    rw [filledByOrderId_settle, hid]
  have hget : ∀ k ≠ c, ∀ s', B.terms k = some s' →
      (w.ledger.settle (w.ledger.snapshots.get? f.orderId) f).orders.get? k =
        w.ledger.orders.get? k := by
    intro k hk s' hks
    rw [orders_settle, if_neg]
    rintro rfl
    rcases hcoid with he | he
    · exact hk he
    · rw [he] at hks
      exact absurd hks (by simp)
  have hfill : ∀ k ≠ c, ∀ s', B.terms k = some s' →
      (w.ledger.settle (w.ledger.snapshots.get? f.orderId) f).filledByOrderId s'.orderId =
        w.ledger.filledByOrderId s'.orderId := by
    intro k hk s' hks
    rw [hfilled, if_neg (fun e => hk (B.orderId_inj k c s' s hks hc e))]
  obtain ⟨hmore, hprev⟩ := signedQty_sold h.toSellRows hc hid hprog
  obtain ⟨row', hrow', hlink'⟩ :=
    links_settle w.ledger f (w.ledger.snapshots.get? f.orderId) hrow
  have hrows : SellRows B
      { w with ledger := w.ledger.settle (w.ledger.snapshots.get? f.orderId) f } := by
    refine ⟨rows_settle h.toSellRows f _, fun i g hg => ?_, fun k s' o hks ho hst hnend => ?_⟩
    · by_cases hi : i = f.orderId
      · rw [get?_snapshots_settle, if_pos hi] at hg
        cases hg
        unfold FillOk
        rw [hside]
        exact ⟨c, s, row', hc, hi.trans hid, hsym, hle, hrow',
          (hlink'.trans hlink).trans (hi.trans hid).symm⟩
      · exact fill_settle_other h.toSellRows f _ hi hg
    · show s'.quantity ≤
        (w.ledger.settle (w.ledger.snapshots.get? f.orderId) f).filledByOrderId s'.orderId
      by_cases hk : k = c
      · subst hk
        rw [hc] at hks
        cases hks
        rw [hfilled, if_pos rfl]
        exact closed_sold h.toSellRows hc hmore hrow hend ho hst
      · rw [hfill k hk s' hks]
        exact h.closed k s' o hks ((hget k hk s' hks).symm.trans ho) hst hnend
  refine ⟨hrows, fun t => ?_⟩
  have hchange := openSell_change t c fun k hk =>
    h.openPart_eq hrows (hget k hk) (hfill k hk) t
  have hcov := h.covered t
  show (w.ledger.settle (w.ledger.snapshots.get? f.orderId) f).openSell t ≤
    (w.ledger.settle (w.ledger.snapshots.get? f.orderId) f).net t
  rw [hchange, h.openPart_active hc hrow hend (le_of_lt hq),
    hrows.openPart_active hc hrow' hend (le_of_lt hq), hfilled, if_pos rfl, net_settle, hprev]
  by_cases ht : s.symbol = t
  · simp only [if_pos ht, Fill.signedQty, hside, hsym, reduceCtorEq, if_false]
    linarith
  · simp only [if_neg ht, Fill.signedQty, hsym]
    linarith

/-! ## 5. Termination -/

/-- The rows and snapshots are as before but for a status, which is ended with its order. -/
theorem rows_terminated (h : SellRows B w) (c : String) (st : OrderStatus)
    {ended' : String → Prop}
    (hend : ∀ k, ended' k ↔ (k = c ∧ w.ledger.orders.get? k ≠ none) ∨ w.ended k) :
    SellRows B ⟨w.ledger.markOrderTerminal c st, ended'⟩ := by
  have hget := orders_markOrderTerminal w.ledger c st
  have hsnap := snapshots_markOrderTerminal w.ledger c st
  refine ⟨fun k o hk => ?_, fun i f hf => ?_, fun k s o hk hko hso hnend => ?_⟩
  · rw [hget] at hk
    by_cases hkc : k = c
    · subst hkc
      rw [if_pos rfl] at hk
      obtain ⟨o', ho', rfl⟩ := Option.map_eq_some_iff.mp hk
      exact RowOk.withStatus (h.rows k o' ho') _
    · rw [if_neg hkc] at hk
      exact h.rows k o hk
  · rw [hsnap] at hf
    refine (h.fills i f hf).mono fun k s o _ ho hid => ?_
    show ∃ o', (w.ledger.markOrderTerminal c st).orders.get? k = some o' ∧ _
    rw [hget]
    by_cases hkc : k = c
    · subst hkc
      rw [if_pos rfl, ho]
      exact ⟨_, rfl, hid⟩
    · rw [if_neg hkc]
      exact ⟨o, ho, hid⟩
  · have hfilled : (w.ledger.markOrderTerminal c st).filledByOrderId s.orderId =
        w.ledger.filledByOrderId s.orderId := by
      simp only [filledByOrderId, hsnap]
    show s.quantity ≤ (w.ledger.markOrderTerminal c st).filledByOrderId s.orderId
    rw [hfilled]
    rw [hget] at hko
    by_cases hkc : k = c
    · subst hkc
      rw [if_pos rfl] at hko
      obtain ⟨o', ho', rfl⟩ := Option.map_eq_some_iff.mp hko
      exact absurd ((hend k).mpr (.inl ⟨rfl, by simp [ho']⟩)) hnend
    · rw [if_neg hkc] at hko
      exact h.closed k s o hk hko hso (fun he => hnend ((hend k).mpr (.inr he)))

/-- Marking an order terminal takes it out of the open quantity. -/
theorem terminated (h : SellInv B w) (c : String) (st : OrderStatus)
    (hst : B.terms c ≠ none → st ∉ openStatuses) {ended' : String → Prop}
    (hend : ∀ k, ended' k ↔ (k = c ∧ w.ledger.orders.get? k ≠ none) ∨ w.ended k) :
    SellInv B ⟨w.ledger.markOrderTerminal c st, ended'⟩ := by
  have hget := orders_markOrderTerminal w.ledger c st
  have hsnap := snapshots_markOrderTerminal w.ledger c st
  have hfilled : (w.ledger.markOrderTerminal c st).filledByOrderId =
      w.ledger.filledByOrderId := by
    funext i
    simp only [filledByOrderId, hsnap]
  have hrows := rows_terminated h.toSellRows c st hend
  refine ⟨hrows, fun t => ?_⟩
  have hchange := openSell_change t c fun k hk =>
    h.openPart_eq hrows (fun _ _ => (hget k).trans (if_neg hk)) (fun s _ => by rw [hfilled]) t
  have hzero : (w.ledger.markOrderTerminal c st).openPart t c = 0 := by
    cases hc : B.terms c with
    | none => exact hrows.openPart_buy hc t
    | some s =>
      cases ho : w.ledger.orders.get? c with
      | none => exact openPart_none (by rw [hget, if_pos rfl, ho]; rfl) t
      | some o =>
        rw [hrows.openPart_sell hc ((hget c).trans (by rw [if_pos rfl, ho]; rfl))]
        exact if_neg fun hp => hst (by simp [hc]) hp.2
  have hcov := h.covered t
  have hpart := w.ledger.openPart_nonneg t c
  show (w.ledger.markOrderTerminal c st).openSell t ≤ (w.ledger.markOrderTerminal c st).net t
  rw [hchange, hzero]
  unfold net at hcov ⊢
  rw [hsnap]
  linarith

/-! ## 6. One step, and a run -/

/-- The step lemma: one case per effect of the ledger. -/
theorem step (h : SellInv B w) {w' : Watched} (hs : SellStep B w w') : SellInv B w' := by
  obtain ⟨today, op, hd, hl, hended⟩ := hs
  obtain ⟨l', ended'⟩ := w'
  simp only at hl hended
  have heff := step_effect w.ledger today op
  rw [← hl] at heff
  revert hended
  generalize (w.ledger.step today op).2 = r at heff
  intro hended
  -- Where the step ends no order, `ended'` is `ended`.
  have hsame : ∀ k, (∀ c, endedAfter w op r c ↔ w.ended c) → w.ended k → ended' k :=
    fun k hiff hk => (hended k).mpr ((hiff k).mpr hk)
  cases heff with
  | reserveRaised | reserveRefused | reserved | released | regressed | repeated | cashflow =>
    exact h.congr rfl rfl fun k => hsame k fun _ => Iff.rfl
  | sellRaised | sellRefused =>
    exact h.congr rfl rfl fun k => hsame k fun _ => by simp [endedAfter]
  | @recorded c o sym side cur q =>
    unfold Disciplined at hd
    cases hc : B.terms c with
    | none =>
      simp only [hc] at hd
      subst hd
      exact (h.recorded_buy hc o sym cur q).congr rfl rfl fun k => hsame k fun _ => Iff.rfl
    | some s =>
      simp only [hc] at hd
      obtain ⟨rfl, rfl, rfl, rfl, row, hrow, hopen⟩ := hd
      exact (h.linked hc hrow hopen cur).congr rfl rfl fun k => hsame k fun _ => Iff.rfl
  | @sellReserved c o sym cur q hne hcap =>
    obtain ⟨s, hc, rfl, rfl, ho⟩ := hd
    refine h.admitted hc ho cur (fun k hk he => ?_) hcap
    exact (hended k).mpr ⟨he, fun hp => hk hp.1⟩
  | @settled f hprog =>
    unfold Disciplined at hd
    cases hside : f.side with
    | BUY =>
      simp only [hside] at hd
      obtain ⟨hne, hid, hcoid, hsym⟩ := hd
      exact (h.bought hside hne hid hcoid hsym hprog).congr rfl rfl
        fun k => hsame k fun _ => Iff.rfl
    | SELL =>
      simp only [hside] at hd
      obtain ⟨c, s, hc, hid, hsym, hle, hcoid, ⟨row, hrow, hlink⟩, hend⟩ := hd
      exact (h.sold hc hside hid hsym hle hcoid hrow hlink hend hprog).congr rfl rfl
        fun k => hsame k fun _ => Iff.rfl
  | @terminal c st =>
    refine h.terminated c st hd fun k => (hended k).trans ?_
    simp only [endedAfter]

theorem start {sleeveId : String} {cap : Decimal} {b : Currency} {l₀ : InMemorySleeveLedger}
    (h₀ : InMemorySleeveLedger.init sleeveId cap b = .ok l₀) (ended : String → Prop) :
    SellInv B ⟨l₀, ended⟩ := by
  obtain ⟨-, -, rfl⟩ := init_inv h₀
  refine ⟨⟨fun c o hc => absurd hc (by simp [fresh]), fun i f hf => absurd hf (by simp [fresh]),
    fun c s o _ hc => absurd hc (by simp [fresh])⟩, fun t => ?_⟩
  rw [openSell_eq_sum]
  exact le_refl _

end SellInv

/-- The state after one operation, tracked as `SellStep` tracks it. -/
def Watched.after (w : Watched) (today : String) (op : LedgerOp) : Watched :=
  ⟨(w.ledger.step today op).1, endedAfter w op (w.ledger.step today op).2⟩

theorem SellStep.reach {B : SellBook} {start : Watched → Prop} {w : Watched}
    (h : Reachable start (SellStep B) w) (op : LedgerOp) (hd : Disciplined B w op)
    (today : String) :
    Reachable start (SellStep B) (w.after today op) :=
  h.step ⟨today, op, hd, rfl, fun _ => Iff.rfl⟩

def boughtTen : Fill := .whole "o1" "b1" "AAA" .BUY .KRW 10 100 0 ""

end Proof
end TossSleeve
