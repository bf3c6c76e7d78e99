import TossSleeve.Ledger.Steps
import TossSleeve.Lib.Reach
import Mathlib.Algebra.Order.BigOperators.Group.List

/-!
# `Proof/HardCap.lean` — what `reserve` admitted is what is spent

`available` is three figures at once — cash, reservations, proceeds on their way — and every
operation but one moves several of them. The guard of `reserve` is a condition on their balance at
one moment; the hard cap is a statement about every later one.

Two accounts make it go through. Per **BUY order**: as long as its reservation stands, what is
reserved and what was executed together make up at least the amount `R` it was admitted with
(`CapInv.held`), so an execution always finds its notional reserved. Per **currency**: `available`
*plus the fees of the BUY snapshots* never falls below zero (`CapInv.cap`).

The fees are in that sum because they are in no reservation. `reserve` is asked for the notional,
a snapshot debits notional and fees, and a sleeve that reserved everything it had is short of its
fees afterwards: `available` itself does go negative (§5). So it does in two further ways that the
discipline of §1 allows — a completed order whose cost is corrected upwards after its residue was
freed, and a sale reported as unsettled after it had been counted as settled. `Steady` names the
two, and the theorem of §4 assumes it.
-/

set_option autoImplicit false

namespace TossSleeve
namespace Proof

open Lib InMemorySleeveLedger

/-! ## 1. The discipline -/

/-- What one BUY order is: the amount it is reserved with, its currency, its order id. -/
structure BuyTerms where
  amount : Decimal
  currency : Currency
  orderId : String

/-- A ledger, the day of its last operation, the client order ids `reserve` admitted and those
    that were released or marked terminal. -/
structure CapWatch where
  ledger : InMemorySleeveLedger
  day : String
  admitted : List String
  closedOut : List String

/-- A snapshot of a BUY order: the order was admitted, and it costs no more than its amount and no
    less than before. -/
def BuyWithin (book : String → Option BuyTerms) (w : CapWatch) (f : Fill) : Prop :=
  (∃ s ∈ book f.clientOrderId, f.orderId = s.orderId ∧ f.currency = s.currency ∧
    f.costBasis ≤ s.amount) ∧ f.clientOrderId ∈ w.admitted ∧
  ∀ p ∈ w.ledger.snapshots.get? f.orderId,
    p.filledQuantity ≤ f.filledQuantity ∧ p.costBasis ≤ f.costBasis

/-- A snapshot of a SELL order: its net proceeds are not negative and no less than before. -/
def SellWithin (w : CapWatch) (f : Fill) : Prop :=
  0 ≤ netProceeds f ∧ ∀ p ∈ w.ledger.snapshots.get? f.orderId, netProceeds p ≤ netProceeds f

/-- May a sleeve that only buys what `reserve` admitted go on with this operation? `book` gives
    the BUY orders by client order id. -/
def Capped (book : String → Option BuyTerms) (w : CapWatch) : LedgerOp → Prop
  | .reserve c amount cur => ∀ s ∈ book c, amount = s.amount ∧ cur = s.currency
  | .recordCashflow amount _ _ => 0 ≤ amount
  | .applyFill f =>
    (∀ p ∈ w.ledger.snapshots.get? f.orderId, p.SameOrder f) ∧ f.clientOrderId ∉ w.closedOut ∧
    (f.side = .BUY → BuyWithin book w f) ∧ (f.side = .SELL → SellWithin w f)
  | .release .. | .recordOrder .. | .reserveSell .. | .markOrderTerminal .. => True

instance (book : String → Option BuyTerms) (w : CapWatch) (f : Fill) :
    Decidable (BuyWithin book w f) := inferInstanceAs (Decidable (_ ∧ _ ∧ _))

instance (w : CapWatch) (f : Fill) : Decidable (SellWithin w f) :=
  inferInstanceAs (Decidable (_ ∧ _))

instance (book : String → Option BuyTerms) (w : CapWatch) :
    (op : LedgerOp) → Decidable (Capped book w op)
  | .reserve c amount cur =>
    inferInstanceAs (Decidable (∀ s ∈ book c, amount = s.amount ∧ cur = s.currency))
  | .recordCashflow amount _ _ => inferInstanceAs (Decidable (0 ≤ amount))
  | .applyFill f => inferInstanceAs (Decidable ((∀ p ∈ w.ledger.snapshots.get? f.orderId,
      p.SameOrder f) ∧ _ ∧ (f.side = .BUY → _) ∧ (f.side = .SELL → _)))
  | .release .. | .recordOrder .. | .reserveSell .. | .markOrderTerminal .. =>
    inferInstanceAs (Decidable True)

/-- `reserve` admits a client order id by answering `True`. -/
def admittedAfter (w : CapWatch) : LedgerOp → Reply → List String
  | .reserve c .., .verdict true => c :: w.admitted
  | _, _ => w.admitted

def closedOutAfter (w : CapWatch) : LedgerOp → List String
  | .release c | .markOrderTerminal c _ => c :: w.closedOut
  | _ => w.closedOut

/-- The state after one operation. -/
def CapWatch.after (w : CapWatch) (today : String) (op : LedgerOp) : CapWatch where
  ledger := (w.ledger.step today op).1
  day := today
  admitted := admittedAfter w op (w.ledger.step today op).2
  closedOut := closedOutAfter w op

/-- What §4 assumes beyond §1: an order whose reservation is gone costs no more than it did, and
    proceeds that counted as settled on this day are not reported unsettled again. -/
def Steady (w : CapWatch) (today : String) : LedgerOp → Prop
  | .applyFill f => ∀ p ∈ w.ledger.snapshots.get? f.orderId,
      (f.side = .BUY → w.ledger.reserved.get? f.clientOrderId = none →
        f.costBasis ≤ p.costBasis) ∧
      (unsettled today f.currency f = true → unsettled today f.currency p = true)
  | _ => True

instance (w : CapWatch) (today : String) : (op : LedgerOp) → Decidable (Steady w today op)
  | .applyFill f => inferInstanceAs (Decidable (∀ p ∈ w.ledger.snapshots.get? f.orderId,
      (f.side = .BUY → w.ledger.reserved.get? f.clientOrderId = none →
        f.costBasis ≤ p.costBasis) ∧ (_ → _)))
  | .reserve .. | .release .. | .recordOrder .. | .reserveSell .. | .recordCashflow ..
  | .markOrderTerminal .. => inferInstanceAs (Decidable True)

/-- One operation within the discipline and within `extra`; the days never go back. -/
def CapStep (book : String → Option BuyTerms) (extra : CapWatch → String → LedgerOp → Prop)
    (w w' : CapWatch) : Prop :=
  ∃ today op, w.day ≤ today ∧ Capped book w op ∧ extra w today op ∧ w' = w.after today op

/-- A fresh ledger of capital `cap`, before its first operation. -/
def CapStart (sleeveId : String) (cap : Decimal) (b : Currency) (w : CapWatch) : Prop :=
  InMemorySleeveLedger.init sleeveId cap b = .ok w.ledger ∧ w.day = "" ∧
    w.admitted = [] ∧ w.closedOut = []

/-! ## 2. The figures -/

/-- The fees of the BUY snapshots in a currency. -/
def buyFees (l : InMemorySleeveLedger) (c : Currency) : Decimal :=
  l.snapshots.sum fun e =>
    if e.2.side = .BUY ∧ e.2.currency = c then e.2.commission + e.2.tax else 0

/-- What a BUY order has cost so far. -/
def buyCost (l : InMemorySleeveLedger) (orderId : String) : Decimal :=
  (l.snapshots.get? orderId).elim 0 fun p => if p.side = .BUY then p.costBasis else 0

theorem buyFees_nonneg (l : InMemorySleeveLedger) (c : Currency) : 0 ≤ buyFees l c := by
  refine List.sum_nonneg fun x hx => ?_
  obtain ⟨e, -, rfl⟩ := List.mem_map.mp hx
  split
  · exact add_nonneg e.2.commission_nonneg e.2.tax_nonneg
  · exact le_refl _

theorem buyCost_nonneg (l : InMemorySleeveLedger) (i : String) : 0 ≤ buyCost l i := by
  unfold buyCost
  cases l.snapshots.get? i with
  | none => exact le_refl _
  | some p =>
    simp only [Option.elim_some]
    split
    · exact le_of_lt p.costBasis_pos
    · exact le_refl _

theorem buyFees_settle (l : InMemorySleeveLedger) (f : Fill) (c : Currency) :
    buyFees (l.settle (l.snapshots.get? f.orderId) f) c = buyFees l c
      - (l.snapshots.get? f.orderId).elim 0
          (fun p => if p.side = .BUY ∧ p.currency = c then p.commission + p.tax else 0)
      + if f.side = .BUY ∧ f.currency = c then f.commission + f.tax else 0 := by
  show (l.snapshots.set f.orderId f).sum _ = _
  rw [Dict.sum_set]
  rfl

theorem buyCost_settle (l : InMemorySleeveLedger) (f : Fill) (prev : Option Fill) (i : String) :
    buyCost (l.settle prev f) i =
      if i = f.orderId then (if f.side = .BUY then f.costBasis else 0) else buyCost l i := by
  unfold buyCost
  rw [get?_snapshots_settle]
  by_cases h : i = f.orderId
  · simp only [if_pos h, Option.elim_some]
  · simp only [if_neg h]

theorem pendingOf_buy {f : Fill} (h : f.side = .BUY) (today : String) (c : Currency) :
    pendingOf today c f = 0 := by
  simp [pendingOf, unsettled, h]

/-- What is on its way is settled as the days go by, never the other way round. -/
theorem pendingOf_antitone {f : Fill} (h : f.side = .SELL → 0 ≤ netProceeds f)
    {today later : String} (hle : today ≤ later) (c : Currency) :
    pendingOf later c f ≤ pendingOf today c f := by
  unfold pendingOf
  by_cases hlater : unsettled later c f = true
  · have hnow : unsettled today c f = true := by
      simp only [unsettled, decide_eq_true_eq] at hlater ⊢
      exact ⟨hlater.1, hlater.2.1, hlater.2.2.1, lt_of_le_of_lt hle hlater.2.2.2⟩
    rw [if_pos hlater, if_pos hnow]
  · rw [if_neg hlater]
    by_cases hnow : unsettled today c f = true
    · rw [if_pos hnow]
      simp only [unsettled, decide_eq_true_eq] at hnow
      exact h hnow.1
    · rw [if_neg hnow]

/-! ## 3. The invariant -/

structure CapInv (book : String → Option BuyTerms) (w : CapWatch) : Prop where
  amounts : ∀ c cur amt, w.ledger.reserved.get? c = some (cur, amt) → 0 ≤ amt
  /-- Reserved and executed together are what the order was admitted with. -/
  held : ∀ c s cur amt, book c = some s → w.ledger.reserved.get? c = some (cur, amt) →
    cur = s.currency ∧ s.amount ≤ amt + buyCost w.ledger s.orderId
  /-- An admitted order holds its reservation until a snapshot completes it. -/
  standing : ∀ c s, book c = some s → c ∈ w.admitted → c ∉ w.closedOut →
    w.ledger.reserved.get? c = none → w.ledger.snapshots.get? s.orderId ≠ none
  sells : ∀ i p, w.ledger.snapshots.get? i = some p → p.side = .SELL → 0 ≤ netProceeds p
  cap : ∀ today, w.day ≤ today → ∀ c, 0 ≤ w.ledger.available today c + buyFees w.ledger c

theorem available_antitone {l : InMemorySleeveLedger}
    (h : ∀ i p, l.snapshots.get? i = some p → p.side = .SELL → 0 ≤ netProceeds p)
    {today later : String} (hle : today ≤ later) (c : Currency) :
    l.available today c ≤ l.available later c := by
  have hpend : l.settlementPending later c ≤ l.settlementPending today c := by
    rw [settlementPending_eq, settlementPending_eq]
    refine List.sum_le_sum fun e he => pendingOf_antitone (fun hs => ?_) hle c
    exact h e.1 e.2 (Dict.mem_rows_iff.mp he) hs
  unfold available
  linarith

namespace CapInv

variable {book : String → Option BuyTerms} {w : CapWatch}

/-- A step that keeps the snapshots and does not lower `available` on its own day keeps the cap. -/
theorem cap_of_le (h : CapInv book w) {l' : InMemorySleeveLedger} {today : String}
    (hday : w.day ≤ today) (hs : l'.snapshots = w.ledger.snapshots)
    (hav : ∀ c, w.ledger.available today c ≤ l'.available today c) (later : String)
    (hle : today ≤ later) (c : Currency) : 0 ≤ l'.available later c + buyFees l' c := by
  have hfees : buyFees l' c = buyFees w.ledger c := by simp only [buyFees, hs]
  have hsells : ∀ i p, l'.snapshots.get? i = some p → p.side = .SELL → 0 ≤ netProceeds p :=
    fun i p hp => h.sells i p (hs ▸ hp)
  have hlater := available_antitone hsells hle c
  have hcap := h.cap today hday c
  have := hav c
  rw [hfees]
  linarith

/-- The steps that touch neither reservations nor snapshots. -/
theorem quiet (h : CapInv book w) {w' : CapWatch} (hday : w.day ≤ w'.day)
    (hres : w'.ledger.reserved = w.ledger.reserved)
    (hs : w'.ledger.snapshots = w.ledger.snapshots)
    (hav : ∀ c, w.ledger.available w'.day c ≤ w'.ledger.available w'.day c)
    (hadm : ∀ c, c ∈ w'.admitted → c ∈ w.admitted)
    (hclo : ∀ c, c ∈ w.closedOut → c ∈ w'.closedOut) : CapInv book w' := by
  refine ⟨fun c cur amt hc => h.amounts c cur amt (hres ▸ hc), fun c s cur amt hb hc => ?_,
    fun c s hb ha hcl hc => ?_, fun i p hp => h.sells i p (hs ▸ hp),
    fun later hle c => h.cap_of_le hday hs hav later hle c⟩
  · have hcost : buyCost w'.ledger s.orderId = buyCost w.ledger s.orderId := by
      simp only [buyCost, hs]
    rw [hcost]
    exact h.held c s cur amt hb (hres ▸ hc)
  · rw [hs]
    exact h.standing c s hb (hadm c ha) (fun hcc => hcl (hclo c hcc)) (hres ▸ hc)

/-- A reservation is erased: by a release, or with its order marked terminal. -/
theorem erased (h : CapInv book w) {w' : CapWatch} (coid : String) (hday : w.day ≤ w'.day)
    (hres : w'.ledger.reserved = w.ledger.reserved.erase coid)
    (hs : w'.ledger.snapshots = w.ledger.snapshots)
    (hvc : ∀ c, w'.ledger.vc c = w.ledger.vc c)
    (hadm : ∀ c, c ∈ w'.admitted → c ∈ w.admitted)
    (hclo : ∀ c, c ∈ w'.closedOut ↔ c = coid ∨ c ∈ w.closedOut) : CapInv book w' := by
  have hget : ∀ c, w'.ledger.reserved.get? c =
      if c = coid then none else w.ledger.reserved.get? c := by
    intro c
    rw [hres, Dict.get?_erase]
  have hav : ∀ c, w.ledger.available w'.day c ≤ w'.ledger.available w'.day c := by
    intro c
    have hheld := heldFor_nonneg h.amounts coid c
    rw [available_erase w.ledger hvc hs hres w'.day c]
    linarith
  refine ⟨fun c cur amt hc => ?_, fun c s cur amt hb hc => ?_, fun c s hb ha hcl hc => ?_,
    fun i p hp => h.sells i p (hs ▸ hp), fun later hle c => h.cap_of_le hday hs hav later hle c⟩
  · rw [hget] at hc
    split at hc
    · exact absurd hc (by simp)
    · exact h.amounts c cur amt hc
  · have hcost : buyCost w'.ledger s.orderId = buyCost w.ledger s.orderId := by
      simp only [buyCost, hs]
    rw [hget] at hc
    split at hc
    · exact absurd hc (by simp)
    · rw [hcost]
      exact h.held c s cur amt hb hc
  · have hne : c ≠ coid := fun he => hcl ((hclo c).mpr (.inl he))
    rw [hget, if_neg hne] at hc
    rw [hs]
    exact h.standing c s hb (hadm c ha) (fun hcc => hcl ((hclo c).mpr (.inr hcc))) hc

/-- On the day of the call: the currency reserved in has just been checked, in the others a
    reservation moved away at most. -/
theorem cap_reserved (h : CapInv book w) {l' : InMemorySleeveLedger} {c : String}
    {amount : Decimal} {cur : Currency} {today : String} (hday : w.day ≤ today)
    (hcap : amount ≤ w.ledger.available today cur + w.ledger.heldFor c cur)
    (hl : l' = { w.ledger with reserved := w.ledger.reserved.set c (cur, amount) })
    (k : Currency) : 0 ≤ l'.available today k + buyFees l' k := by
  have hs : l'.snapshots = w.ledger.snapshots := by rw [hl]
  have hfees : buyFees l' k = buyFees w.ledger k := by simp only [buyFees, hs]
  have hpos := buyFees_nonneg w.ledger k
  have hold := h.cap today hday k
  have hheld := heldFor_nonneg h.amounts c k
  rw [hfees, available_set w.ledger (fun _ => by rw [hl]; rfl) hs (by rw [hl]) today k]
  by_cases hk : cur = k
  · subst hk
    rw [if_pos rfl]
    linarith
  · rw [if_neg hk]
    linarith

/-- The guard: the new reservation, with the old one of its key back, fits into `available`. -/
theorem reserved (h : CapInv book w) {w' : CapWatch} {c : String} {amount : Decimal}
    {cur : Currency} (hday : w.day ≤ w'.day) (ha : 0 ≤ amount)
    (hcap : amount ≤ w.ledger.available w'.day cur + w.ledger.heldFor c cur)
    (hbook : ∀ s, book c = some s → amount = s.amount ∧ cur = s.currency)
    (hl : w'.ledger = { w.ledger with reserved := w.ledger.reserved.set c (cur, amount) })
    (hadm : ∀ k, k ∈ w'.admitted ↔ k = c ∨ k ∈ w.admitted)
    (hclo : ∀ k, k ∈ w.closedOut → k ∈ w'.closedOut) : CapInv book w' := by
  have hget : ∀ k, w'.ledger.reserved.get? k =
      if k = c then some (cur, amount) else w.ledger.reserved.get? k := by
    intro k
    rw [hl]
    exact Dict.get?_set _ _ _ _
  have hs : w'.ledger.snapshots = w.ledger.snapshots := by rw [hl]
  refine ⟨fun k cur' amt hk => ?_, fun k s cur' amt hb hk => ?_, fun k s hb had hcl hk => ?_,
    fun i p hp => h.sells i p (hs ▸ hp), fun later hle k => ?_⟩
  · rw [hget] at hk
    split at hk
    · cases hk
      exact ha
    · exact h.amounts k cur' amt hk
  · have hcost : buyCost w'.ledger s.orderId = buyCost w.ledger s.orderId := by
      simp only [buyCost, hs]
    rw [hget] at hk
    split at hk
    · next hkc =>
      cases hk
      obtain ⟨hamt, hcur⟩ := hbook s (hkc ▸ hb)
      refine ⟨hcur, ?_⟩
      rw [hamt]
      exact le_add_of_nonneg_right (buyCost_nonneg _ _)
    · rw [hcost]
      exact h.held k s cur' amt hb hk
  · rw [hget] at hk
    split at hk
    · exact absurd hk (by simp)
    · next hkc =>
      rw [hs]
      have had' := ((hadm k).mp had).resolve_left hkc
      exact h.standing k s hb had' (fun hcc => hcl (hclo k hcc)) hk
  · have hnow := h.cap_reserved hday hcap hl k
    have hsells : ∀ i p, w'.ledger.snapshots.get? i = some p → p.side = .SELL →
        0 ≤ netProceeds p := fun i p hp => h.sells i p (hs ▸ hp)
    have hlater := available_antitone hsells hle k
    linarith

/-- What the predecessor of a BUY's snapshot cost: predecessors are BUYs too. -/
theorem prevCost_eq {l : InMemorySleeveLedger} {f : Fill} (hside : f.side = .BUY)
    (hsame : ∀ p, l.snapshots.get? f.orderId = some p → p.SameOrder f) :
    (l.snapshots.get? f.orderId).elim 0 Fill.costBasis = buyCost l f.orderId := by
  unfold buyCost
  cases hp : l.snapshots.get? f.orderId with
  | none => rfl
  | some p => simp only [Option.elim_some, if_pos ((hsame p hp).2.1.trans hside)]

/-- An execution takes its notional off the reservations: all of it, or none was due. -/
theorem reservedTotal_bought (h : CapInv book w) {f : Fill} {s : BuyTerms} {delta : Decimal}
    {reserved' : Dict String (Currency × Decimal)} (hb : book f.clientOrderId = some s)
    (hcur : f.currency = s.currency) (hid : f.orderId = s.orderId) (hle : f.costBasis ≤ s.amount)
    (hdelta : delta = f.costBasis - buyCost w.ledger f.orderId)
    (hgone : w.ledger.reserved.get? f.clientOrderId = none → delta ≤ 0)
    (hcons : Consumed w.ledger f delta reserved') (hside : f.side = .BUY) (c : Currency) :
    reserved'.sum (fun e => if e.2.1 = c then e.2.2 else 0) ≤
      w.ledger.reservedTotal c - if f.currency = c then delta else 0 := by
  rw [reservedTotal_eq]
  cases hcons with
  | untouched hnone =>
    have hzero := hgone (hnone.resolve_left (by simp [hside]))
    split <;> linarith
  | @freed cur amt _ hres =>
    obtain ⟨hcs, hheld⟩ := h.held _ s cur amt hb hres
    have hamt := h.amounts _ cur amt hres
    rw [Dict.sum_erase, hres, Option.elim_some]
    rw [← hid] at hheld
    rw [hcs, ← hcur]
    split <;> linarith
  | @reduced cur amt _ hres hpos =>
    obtain ⟨hcs, hheld⟩ := h.held _ s cur amt hb hres
    rw [Dict.sum_set, hres, Option.elim_some]
    rw [hcs, ← hcur]
    split <;> linarith

/-- Proceeds stay non-negative when those of a settled snapshot are. -/
theorem sells_settle (h : CapInv book w) {f : Fill} (hpos : f.side = .SELL → 0 ≤ netProceeds f)
    (prev : Option Fill) (i : String) (p : Fill)
    (hp : (w.ledger.settle prev f).snapshots.get? i = some p) (hps : p.side = .SELL) :
    0 ≤ netProceeds p := by
  rw [get?_snapshots_settle] at hp
  split at hp
  · cases hp
    exact hpos hps
  · exact h.sells i p hp hps

/-- An order without a reservation has a snapshot after a settled one, too, if no reservation of
    another order went away. -/
theorem standing_settle (h : CapInv book w) {f : Fill} {prev : Option Fill} {k : String}
    {s : BuyTerms} (hb : book k = some s) (hadm : k ∈ w.admitted) (hopen : k ∉ w.closedOut)
    (hback : s.orderId ≠ f.orderId → w.ledger.reserved.get? k = none) :
    (w.ledger.settle prev f).snapshots.get? s.orderId ≠ none := by
  rw [get?_snapshots_settle]
  by_cases hi : s.orderId = f.orderId
  · rw [if_pos hi]
    simp
  · rw [if_neg hi]
    exact h.standing k s hb hadm hopen (hback hi)

/-- Without a reservation a BUY has a snapshot to be compared with, and costs no more than it. -/
theorem cost_le_of_gone (h : CapInv book w) {f : Fill} {s : BuyTerms} (hside : f.side = .BUY)
    (hsame : ∀ p, w.ledger.snapshots.get? f.orderId = some p → p.SameOrder f)
    (hb : book f.clientOrderId = some s) (hid : f.orderId = s.orderId)
    (hadmitted : f.clientOrderId ∈ w.admitted) (hopen : f.clientOrderId ∉ w.closedOut)
    (hgone : ∀ p, w.ledger.snapshots.get? f.orderId = some p →
      w.ledger.reserved.get? f.clientOrderId = none → f.costBasis ≤ p.costBasis)
    (hres : w.ledger.reserved.get? f.clientOrderId = none) :
    f.costBasis - buyCost w.ledger f.orderId ≤ 0 := by
  rw [← prevCost_eq hside hsame]
  cases hp : w.ledger.snapshots.get? f.orderId with
  | none => exact absurd (hid ▸ hp) (h.standing _ s hb hadmitted hopen hres)
  | some p => exact sub_nonpos.mpr (hgone p hp hres)

/-- An execution moves what it costs from the reservation to the order. -/
theorem held_bought (h : CapInv book w) {f : Fill} {s : BuyTerms} (hside : f.side = .BUY)
    (hb : book f.clientOrderId = some s) (hid : f.orderId = s.orderId)
    (hprev : buyCost w.ledger f.orderId ≤ f.costBasis)
    {reserved' : Dict String (Currency × Decimal)}
    (hcons : Consumed w.ledger f (f.costBasis - buyCost w.ledger f.orderId) reserved')
    (prev : Option Fill) {k : String} {t : BuyTerms} {cur : Currency} {amt : Decimal}
    (hbk : book k = some t) (hk : reserved'.get? k = some (cur, amt)) :
    cur = t.currency ∧ t.amount ≤ amt + buyCost (w.ledger.settle prev f) t.orderId := by
  rw [buyCost_settle]
  rcases hcons.get?_cases hk with hold | ⟨rfl, -, hold⟩
  · obtain ⟨hcs, hheld⟩ := h.held k t cur amt hbk hold
    refine ⟨hcs, ?_⟩
    by_cases hi : t.orderId = f.orderId
    · rw [hi] at hheld
      rw [if_pos hi, if_pos hside]
      linarith
    · rw [if_neg hi]
      exact hheld
  · rw [hb] at hbk
    cases hbk
    obtain ⟨hcs, hheld⟩ := h.held _ s cur _ hb hold
    rw [← hid] at hheld ⊢
    rw [if_pos rfl, if_pos hside]
    exact ⟨hcs, by linarith⟩

/-- Cash and fees together fall by the notional of what was bought. -/
theorem cash_bought {l : InMemorySleeveLedger} {f : Fill} (hside : f.side = .BUY)
    (hsame : ∀ p, l.snapshots.get? f.orderId = some p → p.SameOrder f) (c : Currency) :
    (l.settle (l.snapshots.get? f.orderId) f).vc c +
        buyFees (l.settle (l.snapshots.get? f.orderId) f) c =
      l.vc c + buyFees l c -
        if f.currency = c then f.costBasis - buyCost l f.orderId else 0 := by
  rw [vc_settle, buyFees_settle, ← prevCost_eq hside hsame]
  cases hp : l.snapshots.get? f.orderId with
  | none =>
    simp only [Option.elim_none, hside, true_and, signedCash_buy hside, eq_comm]
    split <;> ring
  | some p =>
    obtain ⟨-, hps, hpc⟩ := hsame p hp
    simp only [Option.elim_some, hside, hps, hpc, true_and, signedCash_buy hside,
      signedCash_buy (hps.trans hside), eq_comm]
    split <;> ring

/-- Purchases have no proceeds. -/
theorem pending_bought {l : InMemorySleeveLedger} {f : Fill} (hside : f.side = .BUY)
    (hsame : ∀ p, l.snapshots.get? f.orderId = some p → p.SameOrder f) (today : String)
    (c : Currency) : (l.settle (l.snapshots.get? f.orderId) f).settlementPending today c =
      l.settlementPending today c := by
  rw [settlementPending_settle, pendingOf_buy hside]
  cases hp : l.snapshots.get? f.orderId with
  | none => simp
  | some p => simp [pendingOf_buy ((hsame p hp).2.1.trans hside)]

/-- A BUY executes. -/
theorem bought (h : CapInv book w) {w' : CapWatch} {f : Fill} {s : BuyTerms}
    (hday : w.day ≤ w'.day) (hside : f.side = .BUY)
    (hsame : ∀ p, w.ledger.snapshots.get? f.orderId = some p → p.SameOrder f)
    (hb : book f.clientOrderId = some s) (hid : f.orderId = s.orderId)
    (hcur : f.currency = s.currency) (hle : f.costBasis ≤ s.amount)
    (hadmitted : f.clientOrderId ∈ w.admitted) (hopen : f.clientOrderId ∉ w.closedOut)
    (hgrow : ∀ p, w.ledger.snapshots.get? f.orderId = some p → p.costBasis ≤ f.costBasis)
    (hgone : ∀ p, w.ledger.snapshots.get? f.orderId = some p →
      w.ledger.reserved.get? f.clientOrderId = none → f.costBasis ≤ p.costBasis)
    (hl : w'.ledger = w.ledger.settle (w.ledger.snapshots.get? f.orderId) f)
    (hadm : ∀ k, k ∈ w'.admitted → k ∈ w.admitted)
    (hclo : ∀ k, k ∈ w.closedOut → k ∈ w'.closedOut) : CapInv book w' := by
  have hcons := reserved_settle w.ledger f (w.ledger.snapshots.get? f.orderId)
  rw [prevCost_eq hside hsame, ← hl] at hcons
  have hprev : buyCost w.ledger f.orderId ≤ f.costBasis := by
    rw [← prevCost_eq hside hsame]
    cases hp : w.ledger.snapshots.get? f.orderId with
    | none => exact le_of_lt f.costBasis_pos
    | some p => exact hgrow p hp
  have hsells : ∀ i p, w'.ledger.snapshots.get? i = some p → p.side = .SELL →
      0 ≤ netProceeds p := by
    intro i p hp
    rw [hl] at hp
    exact h.sells_settle (fun hsell => absurd (hside.symm.trans hsell) (by decide)) _ i p hp
  refine ⟨fun k cur amt hk => ?_, fun k t cur amt hbk hk => ?_, fun k t hbk had hcl hk => ?_,
    hsells, fun later hlater c => ?_⟩
  · rcases hcons.get?_cases hk with hold | ⟨-, hpos, -⟩
    · exact h.amounts k cur amt hold
    · exact le_of_lt hpos
  · rw [hl]
    exact h.held_bought hside hb hid hprev hcons _ hbk hk
  · rw [hl]
    refine h.standing_settle hbk (hadm k had) (fun hcc => hcl (hclo k hcc)) fun hi => ?_
    have hkc : k ≠ f.clientOrderId := by
      rintro rfl
      rw [hb] at hbk
      cases hbk
      exact hi hid.symm
    exact (hcons.get?_of_ne hkc).symm.trans hk
  · -- What the cash has lost to the notional is no longer reserved.
    have hreserved := h.reservedTotal_bought hb hcur hid hle rfl
      (h.cost_le_of_gone hside hsame hb hid hadmitted hopen hgone) hcons hside c
    rw [← reservedTotal_eq] at hreserved
    have hcash := cash_bought hside hsame c
    have hpend := pending_bought hside hsame w'.day c
    rw [← hl] at hcash hpend
    have hold := h.cap w'.day hday c
    have hmono := available_antitone hsells hlater c
    unfold InMemorySleeveLedger.available at hold hmono ⊢
    linarith

/-- The cost of the BUYs does not change by a sale. -/
theorem buyCost_sold {l : InMemorySleeveLedger} {f : Fill} (hside : f.side = .SELL)
    (hsame : ∀ p, l.snapshots.get? f.orderId = some p → p.SameOrder f) (i : String) :
    buyCost (l.settle (l.snapshots.get? f.orderId) f) i = buyCost l i := by
  rw [buyCost_settle]
  by_cases hi : i = f.orderId
  · rw [if_pos hi, if_neg (by simp [hside]), hi]
    unfold buyCost
    cases hp : l.snapshots.get? f.orderId with
    | none => rfl
    | some p => simp [(hsame p hp).2.1, hside]
  · rw [if_neg hi]

/-- Nor do their fees. -/
theorem buyFees_sold {l : InMemorySleeveLedger} {f : Fill} (hside : f.side = .SELL)
    (hsame : ∀ p, l.snapshots.get? f.orderId = some p → p.SameOrder f) (c : Currency) :
    buyFees (l.settle (l.snapshots.get? f.orderId) f) c = buyFees l c := by
  rw [buyFees_settle]
  cases hp : l.snapshots.get? f.orderId with
  | none => simp [hside]
  | some p => simp [hside, (hsame p hp).2.1]

/-- The proceeds that come in are on their way, or they add to what is available. -/
theorem proceeds_sold (h : CapInv book w) {f : Fill} {today : String} (hside : f.side = .SELL)
    (hsame : ∀ p, w.ledger.snapshots.get? f.orderId = some p → p.SameOrder f)
    (hpos : 0 ≤ netProceeds f)
    (hgrow : ∀ p, w.ledger.snapshots.get? f.orderId = some p → netProceeds p ≤ netProceeds f)
    (hsettled : ∀ p, w.ledger.snapshots.get? f.orderId = some p →
      unsettled today f.currency f = true → unsettled today f.currency p = true) (c : Currency) :
    w.ledger.vc c - w.ledger.settlementPending today c ≤
      (w.ledger.settle (w.ledger.snapshots.get? f.orderId) f).vc c -
        (w.ledger.settle (w.ledger.snapshots.get? f.orderId) f).settlementPending today c := by
  have hf : signedCash f = netProceeds f := signedCash_sell hside
  rw [vc_settle, settlementPending_settle, hf]
  by_cases hc : c = f.currency
  · subst hc
    rw [if_pos rfl]
    cases hp : w.ledger.snapshots.get? f.orderId with
    | none =>
      simp only [Option.elim_none, pendingOf]
      split <;> linarith
    | some p =>
      have hps : signedCash p = netProceeds p := signedCash_sell ((hsame p hp).2.1.trans hside)
      have hle := hgrow p hp
      have hppos := h.sells _ p hp ((hsame p hp).2.1.trans hside)
      simp only [Option.elim_some, hps, pendingOf]
      by_cases hu : unsettled today f.currency f = true
      · rw [if_pos hu, if_pos (hsettled p hp hu)]
        linarith
      · rw [if_neg hu]
        split <;> linarith
  · rw [if_neg hc]
    have hzero : ∀ g : Fill, g.currency = f.currency → pendingOf today c g = 0 := by
      intro g hg
      have hgc : ¬ g.currency = c := fun he => hc (he.symm.trans hg)
      simp [pendingOf, unsettled, hgc]
    rw [hzero f rfl]
    cases hp : w.ledger.snapshots.get? f.orderId with
    | none => simp
    | some p => simp [hzero p (hsame p hp).2.2]

/-- A SELL executes. -/
theorem sold (h : CapInv book w) {w' : CapWatch} {f : Fill}
    (hday : w.day ≤ w'.day) (hside : f.side = .SELL)
    (hsame : ∀ p, w.ledger.snapshots.get? f.orderId = some p → p.SameOrder f)
    (hpos : 0 ≤ netProceeds f)
    (hgrow : ∀ p, w.ledger.snapshots.get? f.orderId = some p → netProceeds p ≤ netProceeds f)
    (hsettled : ∀ p, w.ledger.snapshots.get? f.orderId = some p →
      unsettled w'.day f.currency f = true → unsettled w'.day f.currency p = true)
    (hl : w'.ledger = w.ledger.settle (w.ledger.snapshots.get? f.orderId) f)
    (hadm : ∀ k, k ∈ w'.admitted → k ∈ w.admitted)
    (hclo : ∀ k, k ∈ w.closedOut → k ∈ w'.closedOut) : CapInv book w' := by
  have hres : w'.ledger.reserved = w.ledger.reserved := by
    rw [hl]
    exact reserved_settle_sell w.ledger hside _
  have hsells : ∀ i p, w'.ledger.snapshots.get? i = some p → p.side = .SELL →
      0 ≤ netProceeds p := by
    intro i p hp
    rw [hl] at hp
    exact h.sells_settle (fun _ => hpos) _ i p hp
  refine ⟨fun k cur amt hk => h.amounts k cur amt (hres ▸ hk), fun k t cur amt hbk hk => ?_,
    fun k t hbk had hcl hk => ?_, hsells, fun later hlater c => ?_⟩
  · rw [hl, buyCost_sold hside hsame]
    exact h.held k t cur amt hbk (hres ▸ hk)
  · rw [hl]
    exact h.standing_settle hbk (hadm k had) (fun hcc => hcl (hclo k hcc)) fun _ => hres ▸ hk
  · have hproceeds := h.proceeds_sold hside hsame hpos hgrow hsettled c
    have hfees := buyFees_sold hside hsame c
    rw [← hl] at hproceeds hfees
    have htotal : w'.ledger.reservedTotal c = w.ledger.reservedTotal c := by
      rw [reservedTotal_eq, reservedTotal_eq, hres]
    have hold := h.cap w'.day hday c
    have hmono := available_antitone hsells hlater c
    unfold InMemorySleeveLedger.available at hold hmono ⊢
    linarith

/-! ## 4. One step, and a run -/

/-- The step lemma: one case per effect of the ledger. -/
theorem step (h : CapInv book w) {today : String} {op : LedgerOp} (hday : w.day ≤ today)
    (hcapped : Capped book w op) (hsteady : Steady w today op) :
    CapInv book (w.after today op) := by
  have heff := step_effect w.ledger today op
  unfold CapWatch.after
  generalize (w.ledger.step today op).1 = l', (w.ledger.step today op).2 = r at heff ⊢
  cases heff with
  | reserveRaised | reserveRefused | sellRaised | sellRefused | regressed | repeated =>
    exact h.quiet hday rfl rfl (fun _ => le_refl _) (fun _ ha => ha) (fun _ hc => hc)
  | recorded | sellReserved =>
    exact h.quiet hday rfl rfl (fun _ => le_refl _) (fun _ ha => ha) (fun _ hc => hc)
  | @reserved c amount cur hne ha hcap =>
    refine h.reserved hday ha (le_trans hcap ?_) hcapped rfl (fun k => List.mem_cons)
      (fun _ hc => hc)
    exact le_refl _
  | released =>
    exact h.erased _ hday rfl rfl (fun _ => rfl) (fun _ ha => ha) (fun k => List.mem_cons)
  | terminal =>
    exact h.erased _ hday (reserved_markOrderTerminal ..) (snapshots_markOrderTerminal ..)
      (fun k => vc_markOrderTerminal w.ledger _ _ k) (fun _ ha => ha) (fun k => List.mem_cons)
  | @cashflow amount cur memo =>
    refine h.quiet hday rfl rfl (fun c => ?_) (fun _ ha => ha) (fun _ hc => hc)
    have hpos : 0 ≤ amount := hcapped
    unfold InMemorySleeveLedger.available
    rw [vc_recordCashflow]
    show _ ≤ w.ledger.vc c + _ - w.ledger.reservedTotal c - w.ledger.settlementPending today c
    split <;> linarith
  | @settled f hprog =>
    obtain ⟨hsame, hopen, hbuy, hsell⟩ := hcapped
    cases hside : f.side with
    | BUY =>
      obtain ⟨⟨s, hb, hid, hcur, hle⟩, hadm, hgrow⟩ := hbuy hside
      exact h.bought hday hside hsame hb hid hcur hle hadm hopen (fun p hp => (hgrow p hp).2)
        (fun p hp => (hsteady p hp).1 hside) rfl (fun _ ha => ha) (fun _ hc => hc)
    | SELL =>
      obtain ⟨hpos, hgrow⟩ := hsell hside
      exact h.sold hday hside hsame hpos hgrow (fun p hp => (hsteady p hp).2) rfl
        (fun _ ha => ha) (fun _ hc => hc)

theorem start {sleeveId : String} {cap : Decimal} {b : Currency} (hw : CapStart sleeveId cap b w) :
    CapInv book w := by
  obtain ⟨l, day, admitted, closedOut⟩ := w
  obtain ⟨hinit, hday, hadm, -⟩ := hw
  obtain ⟨-, hcap, hl⟩ := init_inv hinit
  simp only at hday hadm hl
  subst hday hadm hl
  refine ⟨fun c cur amt hc => absurd hc (by simp [fresh]),
    fun c s cur amt _ hc => absurd hc (by simp [fresh]),
    fun c s _ ha => absurd ha (by simp),
    fun i p hp => absurd hp (by simp [fresh]), fun today _ c => ?_⟩
  have hvc : 0 ≤ (fresh sleeveId cap b).vc c := by
    unfold vc fresh
    rw [Dict.get?_set]
    split
    · exact hcap
    · exact le_refl _
  have hfees : buyFees (fresh sleeveId cap b) c = 0 := rfl
  have havail : (fresh sleeveId cap b).available today c = (fresh sleeveId cap b).vc c := by
    unfold InMemorySleeveLedger.available
    rw [reservedTotal_eq, settlementPending_eq]
    exact (sub_zero _).trans (sub_zero _)
  simp only
  rw [hfees, havail]
  linarith

end CapInv

/-- **The hard cap.** In every state of a disciplined, steady run, and on every day from its last
    one on, `available` falls short of zero by no more than the fees of the BUY orders. -/
theorem hard_cap (book : String → Option BuyTerms) {sleeveId : String} {cap : Decimal}
    {b : Currency} {w : CapWatch}
    (h : Reachable (CapStart sleeveId cap b) (CapStep book Steady) w) (today : String)
    (hday : w.day ≤ today) (c : Currency) :
    0 ≤ w.ledger.available today c + buyFees w.ledger c := by
  have hinv : CapInv book w := h.inv (CapInv book) (fun _ hw => CapInv.start hw) (by
    intro s s' hi hs
    obtain ⟨today, op, hle, hcapped, hsteady, rfl⟩ := hs
    exact hi.step hle hcapped hsteady)
  exact hinv.cap today hday c

/-! ## 5. Where `available` itself goes negative

Three runs within the discipline of §1, from a capital of 100: fees on top of a full reservation;
a completed order corrected upwards after its residue was reserved again; proceeds spent, then
reported as still on their way. The first is steady. -/

def CapWatch.run (w : CapWatch) (ops : List (String × LedgerOp)) : CapWatch :=
  ops.foldl (fun w op => w.after op.1 op.2) w

/-- Every operation of the list is within the discipline, where its turn comes. -/
def RunWithin (book : String → Option BuyTerms) (extra : CapWatch → String → LedgerOp → Prop) :
    CapWatch → List (String × LedgerOp) → Prop
  | _, [] => True
  | w, (today, op) :: ops =>
    (w.day ≤ today ∧ Capped book w op ∧ extra w today op) ∧
      RunWithin book extra (w.after today op) ops

instance {book : String → Option BuyTerms} {extra : CapWatch → String → LedgerOp → Prop}
    [∀ w today op, Decidable (extra w today op)] :
    (ops : List (String × LedgerOp)) → (w : CapWatch) → Decidable (RunWithin book extra w ops)
  | [], _ => inferInstanceAs (Decidable True)
  | (today, op) :: ops, w =>
    have : Decidable (RunWithin book extra (w.after today op) ops) := instDecidableRunWithin ops _
    inferInstanceAs (Decidable ((_ ∧ _ ∧ _) ∧ _))

theorem CapStep.reach {book : String → Option BuyTerms}
    {extra : CapWatch → String → LedgerOp → Prop} {start : CapWatch → Prop} :
    ∀ (ops : List (String × LedgerOp)) {w : CapWatch}, Reachable start (CapStep book extra) w →
    RunWithin book extra w ops → Reachable start (CapStep book extra) (w.run ops)
  | [], _, h, _ => h
  | (today, op) :: ops, _, h, ⟨⟨hday, hcapped, hextra⟩, hops⟩ =>
    CapStep.reach ops (h.step ⟨today, op, hday, hcapped, hextra, rfl⟩) hops

/-- One BUY order `b1`, reserved with 100. -/
def oneBuy (c : String) : Option BuyTerms := if c = "b1" then some ⟨100, .KRW, "o1"⟩ else none

def capStart : CapWatch := ⟨fresh "sleeve" 100 .KRW, "", [], []⟩

def feeRun : List (String × LedgerOp) :=
  [("2024-01-02", .reserve "b1" 100 .KRW),
   ("2024-01-02", .recordOrder "b1" "o1" "AAA" .BUY .KRW 1),
   ("2024-01-02", .applyFill (.whole "o1" "b1" "AAA" .BUY .KRW 1 100 1 ""))]

def correctedRunAfterCompletion : List (String × LedgerOp) :=
  [("2024-01-02", .reserve "b1" 100 .KRW),
   ("2024-01-02", .recordOrder "b1" "o1" "AAA" .BUY .KRW 1),
   ("2024-01-02", .applyFill (.whole "o1" "b1" "AAA" .BUY .KRW 1 50 0 "")),
   ("2024-01-02", .reserve "b2" 50 .KRW),
   ("2024-01-03", .applyFill (.whole "o1" "b1" "AAA" .BUY .KRW 1 100 0 ""))]

def unsettledAgainRun : List (String × LedgerOp) :=
  [("2024-01-02", .applyFill (.whole "o2" "s1" "AAA" .SELL .KRW 1 100 1 "")),
   ("2024-01-02", .reserve "b2" 199 .KRW),
   ("2024-01-03", .applyFill (.whole "o2" "s1" "AAA" .SELL .KRW 1 100 0 "2024-01-05"))]

theorem capStart_start : CapStart "sleeve" 100 .KRW capStart :=
  ⟨init_ok "sleeve" 100 .KRW (by decide) (by decide +kernel), rfl, rfl, rfl⟩

theorem hard_cap_feeRun : 0 ≤ (capStart.run feeRun).ledger.available "2024-01-02" .KRW
    + buyFees (capStart.run feeRun).ledger .KRW :=
  hard_cap oneBuy (CapStep.reach feeRun (.start capStart_start) (by decide +kernel)) "2024-01-02"
    (by decide +kernel) .KRW

/-- A run within the discipline of §1 that ends with less than nothing available. -/
def GoesNegative (ops : List (String × LedgerOp)) : Prop :=
  Reachable (CapStart "sleeve" 100 .KRW) (CapStep oneBuy fun _ _ _ => True) (capStart.run ops) ∧
    (capStart.run ops).ledger.available (capStart.run ops).day .KRW < 0

theorem goesNegative {ops : List (String × LedgerOp)}
    (hwithin : RunWithin oneBuy (fun _ _ _ => True) capStart ops)
    (hneg : (capStart.run ops).ledger.available (capStart.run ops).day .KRW < 0) :
    GoesNegative ops :=
  ⟨CapStep.reach ops (.start capStart_start) hwithin, hneg⟩

theorem available_negative : GoesNegative feeRun ∧ GoesNegative correctedRunAfterCompletion ∧
    GoesNegative unsettledAgainRun :=
  ⟨goesNegative (by decide +kernel) (by decide +kernel),
    goesNegative (by decide +kernel) (by decide +kernel),
    goesNegative (by decide +kernel) (by decide +kernel)⟩

end Proof
end TossSleeve
