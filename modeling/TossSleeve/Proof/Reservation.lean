import TossSleeve.Proof.Cash

/-!
# `Proof/Reservation.lean` — what a BUY's executions leave of its reservation

A reservation is set once and consumed by deltas: each settled snapshot takes off what the order's
notional grew by, gives back what it shrank by, and a complete order frees the rest. Two things are
asked of that.

**How much is left** (§1) must not depend on how the order was polled. As long as an order stays
below its amount and its quantity, the deltas telescope: `R` less the cost of the last snapshot is
reserved, and of the cash the order has taken its fees and nothing else (`partial_fills_consume`).
The induction is over the run, from its end; it carries that the stored snapshot and the last one
polled agree in every figure.

**A complete order holds nothing** (§2) — provided its snapshot gets as far as the reservation. It
does not if it repeats the stored one, nor if it does not carry the order's client order id: the
freeing is part of settling a delta, and goes by what the fill says. `completed_freed_iff` is exact.
-/

set_option autoImplicit false

namespace TossSleeve
namespace Proof

open Lib InMemorySleeveLedger

/-! ## 1. Partial executions -/

/-- The snapshots of an order that a sequence of operations applies. -/
def snapshotsOf (o : String) (ops : List (String × LedgerOp)) : List Fill :=
  (ops.filterMap fun op => fillOf op.2).filter fun f => f.orderId = o

/-- A snapshot of the BUY order `o` of `c`, below its amount and below its quantity, if that is
    known. -/
structure PartialFill (c o : String) (cur : Currency) (amount quantity : Decimal) (f : Fill) :
    Prop where
  clientOrderId : f.clientOrderId = c
  orderId : f.orderId = o
  side : f.side = .BUY
  currency : f.currency = cur
  cost : f.costBasis < amount
  filled : quantity > 0 → f.filledQuantity < quantity

/-- What the snapshots of an order have made more available in a currency along a run, seen on one
    day. -/
def contribution (o : String) (cur : Currency) (day : String) (l : InMemorySleeveLedger) :
    List (String × LedgerOp) → Decimal
  | [] => 0
  | (today, op) :: ops =>
    (if (fillOf op).any (·.orderId = o) then
      (l.step today op).1.available day cur - l.available day cur else 0) +
    contribution o cur day (l.step today op).1 ops

theorem contribution_append (o : String) (cur : Currency) (day : String) (op : String × LedgerOp) :
    ∀ (ops : List (String × LedgerOp)) (l : InMemorySleeveLedger),
    contribution o cur day l (ops ++ [op]) = contribution o cur day l ops +
      if (fillOf op.2).any (·.orderId = o) then
        ((l.run ops).step op.1 op.2).1.available day cur - (l.run ops).available day cur else 0
  | [], l => by simp [contribution, InMemorySleeveLedger.run]
  | (today, op') :: ops, l => by
    rw [List.cons_append, contribution, contribution, contribution_append o cur day op ops,
      add_assoc]
    rfl

/-- The figures of a snapshot that cash and reservations depend on. -/
def SameFigures (p f : Fill) : Prop :=
  p.filledQuantity = f.filledQuantity ∧ p.avgPrice = f.avgPrice ∧ p.commission = f.commission ∧
    p.tax = f.tax ∧ p.side = f.side ∧ p.currency = f.currency

theorem SameFigures.costBasis {p f : Fill} (h : SameFigures p f) : p.costBasis = f.costBasis := by
  rw [Fill.costBasis, Fill.costBasis, h.1, h.2.1]

/-- The commission and the tax. -/
def fees (f : Fill) : Decimal := f.commission + f.tax

theorem SameFigures.fees {p f : Fill} (h : SameFigures p f) : Proof.fees p = Proof.fees f := by
  rw [Proof.fees, Proof.fees, h.2.2.1, h.2.2.2.1]

/-- Where a partially executed order stands: what it was last seen to have done is what is stored of
    it, and the rest of its amount is reserved. Its quantity is recorded, or not known yet. -/
structure PartialInv (c o : String) (cur : Currency) (amount quantity : Decimal)
    (l : InMemorySleeveLedger) (last : Option Fill) : Prop where
  reserved : l.reserved.get? c = some (cur, amount - last.elim 0 Fill.costBasis)
  recorded : l.recordedQty c > 0 → l.recordedQty c = quantity
  stored : Option.Rel SameFigures (l.snapshots.get? o) last
  isPartial : ∀ f ∈ last, PartialFill c o cur amount quantity f

/-- Operations of other orders leave it where it stands. -/
theorem PartialInv.foreign {c o : String} {cur : Currency} {amount quantity : Decimal}
    {l : InMemorySleeveLedger} {last : Option Fill} (h : PartialInv c o cur amount quantity l last)
    {today : String} {op : LedgerOp} (hc : ¬ op.Concerns c)
    (ho : ∀ f, op = .applyFill f → f.orderId ≠ o) :
    PartialInv c o cur amount quantity (l.step today op).1 last := by
  obtain ⟨hreserved, horders⟩ := @step_of_not_concerns l today c op hc
  refine ⟨hreserved.trans h.reserved, ?_, ?_, h.isPartial⟩
  · have hqty : (l.step today op).1.recordedQty c = l.recordedQty c := by
      rw [recordedQty, recordedQty, horders]
    rw [hqty]
    exact h.recorded
  · rw [get?_snapshots_step ho]
    exact h.stored

/-- So does recording it, with its quantity. -/
theorem PartialInv.recordOrder {c o : String} {cur : Currency} {amount quantity : Decimal}
    {l : InMemorySleeveLedger} {last : Option Fill} (h : PartialInv c o cur amount quantity l last)
    (orderId symbol : String) (side : OrderSide) (currency : Currency) :
    PartialInv c o cur amount quantity
      (l.recordOrder c orderId symbol side currency quantity) last := by
  refine ⟨h.reserved, fun _ => ?_, h.stored, h.isPartial⟩
  rw [recordedQty, get?_recordOrder, if_pos rfl]
  rfl

/-- A settled snapshot that reduces its order's reservation makes its fees unavailable, and no
    more. -/
theorem available_settle_reduced {l : InMemorySleeveLedger} {f : Fill} {c : String}
    {left left' : Decimal} (hside : f.side = .BUY)
    (hsame : ∀ p ∈ l.snapshots.get? f.orderId, p.side = .BUY)
    (hheld : l.reserved.get? c = some (f.currency, left))
    (hset : (l.settle (l.snapshots.get? f.orderId) f).reserved =
      l.reserved.set c (f.currency, left'))
    (hleft : left - left' = f.costBasis - (l.snapshots.get? f.orderId).elim 0 Fill.costBasis)
    (day : String) :
    (l.settle (l.snapshots.get? f.orderId) f).available day f.currency =
      l.available day f.currency + (l.snapshots.get? f.orderId).elim 0 fees - fees f := by
  have hpending : ∀ g : Fill, g.side = .BUY → pendingOf day f.currency g = 0 := by
    intro g hg
    refine if_neg fun h => ?_
    have hsell := (of_decide_eq_true h).1
    rw [hg] at hsell
    exact absurd hsell (by simp)
  have htotal : (l.settle (l.snapshots.get? f.orderId) f).reservedTotal f.currency =
      l.reservedTotal f.currency - left + left' := by
    rw [reservedTotal_eq, reservedTotal_eq, hset, Dict.sum_set, hheld, Option.elim_some,
      if_pos rfl, if_pos rfl]
  unfold available
  rw [vc_settle, if_pos rfl, htotal, settlementPending_settle, hpending f hside, signedCash_buy hside]
  cases hp : l.snapshots.get? f.orderId with
  | none =>
    rw [hp] at hleft
    simp only [Option.elim_none, fees] at hleft ⊢
    linarith
  | some p =>
    have hbuy := hsame p hp
    rw [hp] at hleft
    simp only [Option.elim_some, fees, hpending p hbuy, signedCash_buy hbuy] at hleft ⊢
    linarith

/-- What is stored of the order is what it was last seen to have done. -/
theorem PartialInv.seen {c o : String} {cur : Currency} {amount quantity : Decimal}
    {l : InMemorySleeveLedger} {last : Option Fill} (h : PartialInv c o cur amount quantity l last)
    {p : Fill} (hp : l.snapshots.get? o = some p) : ∃ g, last = some g ∧ SameFigures p g := by
  have hstored := h.stored
  rw [hp] at hstored
  cases hstored with
  | some hsame => exact ⟨_, rfl, hsame⟩

/-- So a figure that depends on no other fields is the same of both. -/
theorem PartialInv.stored_elim {c o : String} {cur : Currency} {amount quantity : Decimal}
    {l : InMemorySleeveLedger} {last : Option Fill} (h : PartialInv c o cur amount quantity l last)
    {figure : Fill → Decimal} (hfigure : ∀ p g, SameFigures p g → figure p = figure g) :
    (l.snapshots.get? o).elim 0 figure = last.elim 0 figure := by
  have hstored := h.stored
  generalize l.snapshots.get? o = s at hstored
  cases hstored with
  | none => rfl
  | some hsame => exact hfigure _ _ hsame

/-- A settled snapshot of the order leaves what it has not cost. -/
theorem PartialInv.reserved_settle {c o : String} {cur : Currency} {amount quantity : Decimal}
    {l : InMemorySleeveLedger} {last : Option Fill} (h : PartialInv c o cur amount quantity l last)
    {f : Fill} (hf : PartialFill c o cur amount quantity f) :
    (l.settle (l.snapshots.get? f.orderId) f).reserved =
      l.reserved.set c (cur, amount - f.costBasis) := by
  show l.reservedAfterFill f _ = _
  have hcost := h.stored_elim fun _ _ => SameFigures.costBasis
  have hopen : ¬ (l.recordedQty c > 0 ∧ f.filledQuantity ≥ l.recordedQty c) := by
    intro hw
    obtain ⟨hknown, hdone⟩ := hw
    have hq := h.recorded hknown
    rw [hq] at hknown hdone
    exact absurd (hf.filled hknown) (not_lt.mpr hdone)
  have hleft : amount - last.elim 0 Fill.costBasis -
      (f.costBasis - last.elim 0 Fill.costBasis) = amount - f.costBasis := by ring
  have hpos : amount - f.costBasis > 0 := sub_pos.mpr hf.cost
  simp only [reservedAfterFill, if_pos hf.side, hf.clientOrderId, hf.orderId, h.reserved,
    reservationAfterFill, if_neg hopen, hcost, hleft, if_pos hpos]

/-- The order then stands where the snapshot says. -/
theorem PartialInv.settled {c o : String} {cur : Currency} {amount quantity : Decimal}
    {l : InMemorySleeveLedger} {last : Option Fill} (h : PartialInv c o cur amount quantity l last)
    {f : Fill} (hf : PartialFill c o cur amount quantity f) :
    PartialInv c o cur amount quantity (l.settle (l.snapshots.get? f.orderId) f) (some f) := by
  refine ⟨?_, ?_, ?_, ?_⟩
  · rw [h.reserved_settle hf, Dict.get?_set, if_pos rfl, Option.elim_some]
  · have hrow := orders_settle l f (l.snapshots.get? f.orderId) c
    rw [if_pos hf.clientOrderId.symm] at hrow
    have hqty : (l.settle (l.snapshots.get? f.orderId) f).recordedQty c = l.recordedQty c := by
      rw [recordedQty, recordedQty, hrow, Option.map_map]
      rfl
    rw [hqty]
    exact h.recorded
  · rw [get?_snapshots_settle, if_pos hf.orderId.symm]
    exact .some ⟨rfl, rfl, rfl, rfl, rfl, rfl⟩
  · intro _ hw
    cases hw
    exact hf

/-- A repetition of what is stored leaves the order where it stands. -/
theorem PartialInv.repeated {c o : String} {cur : Currency} {amount quantity : Decimal}
    {l : InMemorySleeveLedger} {p g f : Fill}
    (h : PartialInv c o cur amount quantity l (some g)) (hp : l.snapshots.get? o = some p)
    (hpf : SameFigures p f) (hgf : g.costBasis = f.costBasis)
    (hf : PartialFill c o cur amount quantity f) :
    PartialInv c o cur amount quantity l (some f) := by
  refine ⟨?_, h.recorded, ?_, ?_⟩
  · rw [h.reserved, Option.elim_some, Option.elim_some, hgf]
  · rw [hp]
    exact .some hpf
  · intro _ hw
    cases hw
    exact hf

/-- One more snapshot of the order, no lower than the last. -/
theorem PartialInv.applied {c o : String} {cur : Currency} {amount quantity : Decimal}
    {l : InMemorySleeveLedger} {last : Option Fill} (h : PartialInv c o cur amount quantity l last)
    {f : Fill} (hf : PartialFill c o cur amount quantity f)
    (hprogress : ∀ g ∈ last, g.filledQuantity ≤ f.filledQuantity) (today day : String) :
    PartialInv c o cur amount quantity (l.step today (.applyFill f)).1 (some f) ∧
      (l.step today (.applyFill f)).1.available day cur - l.available day cur =
        last.elim 0 fees - fees f := by
  have heffect := l.step_effect today (.applyFill f)
  generalize (l.step today (.applyFill f)).1 = l' at heffect ⊢
  generalize (l.step today (.applyFill f)).2 = reply at heffect
  cases heffect with
  | @regressed _ p hp hlt =>
    rw [hf.orderId] at hp
    obtain ⟨g, rfl, hsame⟩ := h.seen hp
    have hle := hprogress g rfl
    rw [← hsame.1] at hle
    exact absurd hlt (not_lt.mpr hle)
  | @repeated _ p hp hq hcomm htax ha =>
    rw [hf.orderId] at hp
    obtain ⟨g, rfl, hsame⟩ := h.seen hp
    have hg := h.isPartial g rfl
    have hpf : SameFigures p f := ⟨hq.symm, ha.symm, hcomm.symm, htax.symm,
      hsame.2.2.2.2.1.trans (hg.side.trans hf.side.symm),
      hsame.2.2.2.2.2.trans (hg.currency.trans hf.currency.symm)⟩
    refine ⟨h.repeated hp hpf (hsame.costBasis.symm.trans hpf.costBasis) hf, ?_⟩
    rw [Option.elim_some, ← hsame.fees, hpf.fees, sub_self, sub_self]
  | settled happ =>
    refine ⟨h.settled hf, ?_⟩
    have hcost : (l.snapshots.get? f.orderId).elim 0 Fill.costBasis =
        last.elim 0 Fill.costBasis := by
      rw [hf.orderId]
      exact h.stored_elim fun _ _ => SameFigures.costBasis
    have hfees : (l.snapshots.get? f.orderId).elim 0 fees = last.elim 0 fees := by
      rw [hf.orderId]
      exact h.stored_elim fun _ _ => SameFigures.fees
    have hbuy : ∀ p ∈ l.snapshots.get? f.orderId, p.side = .BUY := by
      intro p hp
      rw [hf.orderId] at hp
      obtain ⟨g, rfl, hsame⟩ := h.seen hp
      exact hsame.2.2.2.2.1.trans (h.isPartial g rfl).side
    have hset := h.reserved_settle hf
    have hcur := hf.currency
    subst hcur
    rw [available_settle_reduced hf.side hbuy h.reserved hset (by rw [hcost]; ring) day, hfees]
    ring

/-- What happens after a reservation was taken: snapshots of its order, below its amount and its
    quantity; the recording of the order with that quantity; and operations of other orders. -/
inductive PartialOrForeign (c o : String) (cur : Currency) (amount quantity : Decimal) :
    LedgerOp → Prop
  | snapshot {f : Fill} (hf : PartialFill c o cur amount quantity f) :
      PartialOrForeign c o cur amount quantity (.applyFill f)
  | record (orderId symbol : String) (side : OrderSide) (currency : Currency) :
      PartialOrForeign c o cur amount quantity (.recordOrder c orderId symbol side currency quantity)
  | foreign {op : LedgerOp} (hc : ¬ op.Concerns c) (ho : ∀ f, op = .applyFill f → f.orderId ≠ o) :
      PartialOrForeign c o cur amount quantity op

theorem snapshotsOf_own (o : String) (ops : List (String × LedgerOp)) (today : String) {f : Fill}
    (h : f.orderId = o) : snapshotsOf o (ops ++ [(today, .applyFill f)]) = snapshotsOf o ops ++ [f] := by
  simp [snapshotsOf, fillOf, h]

theorem snapshotsOf_foreign (o : String) (ops : List (String × LedgerOp)) {op : String × LedgerOp}
    (h : ∀ f, op.2 = .applyFill f → f.orderId ≠ o) :
    snapshotsOf o (ops ++ [op]) = snapshotsOf o ops := by
  obtain ⟨today, op⟩ := op
  cases op with
  | applyFill f => simp [snapshotsOf, fillOf, h f rfl]
  | _ => simp [snapshotsOf, fillOf]

theorem any_fillOf_foreign {o : String} {op : LedgerOp}
    (h : ∀ f, op = .applyFill f → f.orderId ≠ o) : (fillOf op).any (·.orderId = o) = false := by
  cases op with
  | applyFill f => simpa [fillOf] using h f rfl
  | _ => rfl

/-- The run lemma. -/
theorem partialInv_run {c o : String} {cur : Currency} {amount quantity : Decimal}
    {l : InMemorySleeveLedger} (h : PartialInv c o cur amount quantity l none) (day : String)
    (ops : List (String × LedgerOp))
    (hops : ∀ op ∈ ops, PartialOrForeign c o cur amount quantity op.2)
    (hchain : (snapshotsOf o ops).Pairwise fun f g => f.filledQuantity ≤ g.filledQuantity) :
    PartialInv c o cur amount quantity (l.run ops) (snapshotsOf o ops).getLast? ∧
      contribution o cur day l ops = -(snapshotsOf o ops).getLast?.elim 0 fees := by
  induction ops using List.reverseRecOn with
  | nil => exact ⟨h, by simp [contribution, snapshotsOf]⟩
  | append_singleton ops op ih =>
    have hbefore := fun op' hop' => hops op' (List.mem_append_left [op] hop')
    rw [run_append, contribution_append]
    obtain ⟨today, op⟩ := op
    -- An operation that is no snapshot of the order, and leaves it where it stands.
    have hother : (∀ f, op = .applyFill f → f.orderId ≠ o) →
        (∀ last, PartialInv c o cur amount quantity (l.run ops) last →
          PartialInv c o cur amount quantity ((l.run ops).step today op).1 last) →
        PartialInv c o cur amount quantity ((l.run ops).step today op).1
            (snapshotsOf o (ops ++ [(today, op)])).getLast? ∧
          contribution o cur day l ops + (if (fillOf op).any (·.orderId = o) then
            ((l.run ops).step today op).1.available day cur - (l.run ops).available day cur else 0) =
          -(snapshotsOf o (ops ++ [(today, op)])).getLast?.elim 0 fees := by
      intro ho hkeeps
      rw [snapshotsOf_foreign o ops ho] at hchain ⊢
      obtain ⟨hinv, hsum⟩ := ih hbefore hchain
      rw [any_fillOf_foreign ho, if_neg Bool.false_ne_true, add_zero]
      exact ⟨hkeeps _ hinv, hsum⟩
    cases hops (today, op) (by simp) with
    | @snapshot f hf =>
      rw [snapshotsOf_own o ops today hf.orderId] at hchain ⊢
      obtain ⟨hpast, -, hlast⟩ := List.pairwise_append.mp hchain
      obtain ⟨hinv, hsum⟩ := ih hbefore hpast
      have hprogress : ∀ g ∈ (snapshotsOf o ops).getLast?, g.filledQuantity ≤ f.filledQuantity :=
        fun g hg => hlast g (List.mem_of_getLast? hg) f (List.mem_singleton_self f)
      obtain ⟨hafter, havailable⟩ := hinv.applied hf hprogress today day
      have hown : (fillOf (.applyFill f)).any (·.orderId = o) = true := by
        simp [fillOf, hf.orderId]
      rw [List.getLast?_concat, if_pos hown, hsum]
      refine ⟨hafter, ?_⟩
      rw [havailable, Option.elim_some]
      ring
    | record orderId symbol side currency =>
      exact hother (fun f hf => absurd hf (by simp)) fun _ hinv =>
        hinv.recordOrder orderId symbol side currency
    | foreign hc ho => exact hother ho fun _ hinv => hinv.foreign hc ho

/-- A guard that said yes has reserved the amount. -/
theorem reserved_of_verdict {l : InMemorySleeveLedger} {today c : String} {amount : Decimal}
    {cur : Currency} (h : (l.step today (.reserve c amount cur)).2 = .verdict true) :
    (l.step today (.reserve c amount cur)).1.reserved.get? c = some (cur, amount) := by
  have heffect := l.step_effect today (.reserve c amount cur)
  generalize (l.step today (.reserve c amount cur)).1 = l' at heffect ⊢
  rw [h] at heffect
  cases heffect with
  | reserved => rw [Dict.get?_set, if_pos rfl]

/-- **Partial executions consume a reservation exactly**, however they are polled and whatever goes
    on beside them: after each snapshot the amount less its cost is reserved, and the order has made
    its fees unavailable and nothing else. -/
theorem partial_fills_consume (l : InMemorySleeveLedger) (today c : String) (amount : Decimal)
    (cur : Currency) (hadmitted : (l.step today (.reserve c amount cur)).2 = .verdict true) (o : String)
    (hfirst : l.snapshots.get? o = none) (quantity : Decimal)
    (hquantity : l.recordedQty c > 0 → l.recordedQty c = quantity) (ops : List (String × LedgerOp))
    (hops : ∀ op ∈ ops, PartialOrForeign c o cur amount quantity op.2)
    (hchain : (snapshotsOf o ops).Pairwise fun f g => f.filledQuantity ≤ g.filledQuantity)
    (fs : List Fill) (f : Fill) (hlast : snapshotsOf o ops = fs ++ [f]) :
    ((l.step today (.reserve c amount cur)).1.run ops).reserved.get? c =
        some (cur, amount - f.costBasis) ∧
      ∀ day, contribution o cur day (l.step today (.reserve c amount cur)).1 ops =
        -(f.commission + f.tax) := by
  have hstart : PartialInv c o cur amount quantity
      (l.step today (.reserve c amount cur)).1 none := by
    refine ⟨?_, ?_, ?_, fun f hf => (Option.not_mem_none f hf).elim⟩
    · rw [reserved_of_verdict hadmitted, Option.elim_none, sub_zero]
    · have heffect := l.step_effect today (.reserve c amount cur)
      generalize (l.step today (.reserve c amount cur)).1 = l' at heffect ⊢
      generalize (l.step today (.reserve c amount cur)).2 = reply at heffect
      cases heffect <;> exact hquantity
    · have hno : ∀ f, LedgerOp.reserve c amount cur = .applyFill f → f.orderId ≠ o :=
        fun f hf => absurd hf (by simp)
      rw [get?_snapshots_step hno, hfirst]
      exact .none
  have hgetLast : (snapshotsOf o ops).getLast? = some f := by rw [hlast, List.getLast?_concat]
  constructor
  · have hinv := (partialInv_run hstart today ops hops hchain).1.reserved
    rw [hgetLast, Option.elim_some] at hinv
    exact hinv
  · intro day
    have hsum := (partialInv_run hstart day ops hops hchain).2
    rw [hgetLast, Option.elim_some] at hsum
    exact hsum

/-! An order for ten shares at a hundred, polled three times: four shares, the same four with their
average price corrected downwards, and then six. Another order is reserved in between. -/

def partialPoll (shares price fee : ℕ) : Fill := .whole "o1" "b1" "AAA" .BUY .KRW shares price fee ""

def pollsOfTen : List (String × LedgerOp) :=
  [("2024-01-02", .recordOrder "b1" "o1" "AAA" .BUY .KRW 10),
   ("2024-01-02", .applyFill (partialPoll 4 100 1)),
   ("2024-01-02", .reserve "b2" 500 .KRW),
   ("2024-01-02", .applyFill (partialPoll 4 95 1)),
   ("2024-01-03", .applyFill (partialPoll 6 97 2))]

theorem partial_fills_consume_corrected :
    (((fresh "sleeve" 5000 .KRW).step "2024-01-02" (.reserve "b1" 1000 .KRW)).1.run
        pollsOfTen).reserved.get? "b1" = some (.KRW, 1000 - 582) ∧
      ∀ day, contribution "o1" .KRW day
        ((fresh "sleeve" 5000 .KRW).step "2024-01-02" (.reserve "b1" 1000 .KRW)).1 pollsOfTen =
          -(2 + 0) := by
  have hcost : (partialPoll 6 97 2).costBasis = 582 := by decide +kernel
  rw [← hcost]
  have hpoll : ∀ shares price fee, (partialPoll shares price fee).costBasis < 1000 →
      (partialPoll shares price fee).filledQuantity < 10 →
      PartialFill "b1" "o1" .KRW 1000 10 (partialPoll shares price fee) :=
    fun shares price fee hcost hfilled => ⟨rfl, rfl, rfl, rfl, hcost, fun _ => hfilled⟩
  refine partial_fills_consume (fresh "sleeve" 5000 .KRW) "2024-01-02" "b1" 1000 .KRW
    (by decide +kernel) "o1" rfl 10 (fun h => absurd h (lt_irrefl _)) pollsOfTen ?_
    (by decide +kernel) [partialPoll 4 100 1, partialPoll 4 95 1] (partialPoll 6 97 2)
    (by decide +kernel)
  intro op hop
  simp only [pollsOfTen, List.mem_cons, List.not_mem_nil, or_false] at hop
  rcases hop with rfl | rfl | rfl | rfl | rfl
  · exact .record _ _ _ _
  · exact .snapshot (hpoll 4 100 1 (by decide +kernel) (by decide +kernel))
  · exact .foreign (show ("b2" : String) ≠ "b1" by decide) fun f hf => absurd hf (by simp)
  · exact .snapshot (hpoll 4 95 1 (by decide +kernel) (by decide +kernel))
  · exact .snapshot (hpoll 6 97 2 (by decide +kernel) (by decide +kernel))

/-! ## 2. Completion -/

/-- A completing snapshot that is settled frees the reservation of the client order id it
    carries. -/
theorem reserved_settle_complete {l : InMemorySleeveLedger} {f : Fill} (hside : f.side = .BUY)
    (hq : l.recordedQty f.clientOrderId > 0)
    (hdone : f.filledQuantity ≥ l.recordedQty f.clientOrderId) (prev : Option Fill) :
    (l.settle prev f).reserved.get? f.clientOrderId = none := by
  show (l.reservedAfterFill f _).get? f.clientOrderId = none
  rw [reservedAfterFill, if_pos hside]
  cases hres : l.reserved.get? f.clientOrderId with
  | none => exact hres
  | some e =>
    have hnone : ∀ prevReserved delta, reservationAfterFill (l.recordedQty f.clientOrderId)
        f.filledQuantity prevReserved delta = none :=
      fun prevReserved delta => if_pos ⟨hq, hdone⟩
    simp only [hnone]
    rw [Dict.get?_erase, if_pos rfl]

/-- **When a completed BUY holds no reservation**: when it held none already, or the snapshot that
    completes it is settled — it is not a repetition —, is a BUY's, and carries the client order
    id. -/
theorem completed_freed_iff (l : InMemorySleeveLedger) (today c : String) {row : Order}
    (hrow : l.orders.get? c = some row) (hq : 0 < row.quantity) {f : Fill}
    (hdone : row.quantity ≤ f.filledQuantity)
    (hreturned : (l.step today (.applyFill f)).2.Returned) :
    (l.step today (.applyFill f)).1.reserved.get? c = none ↔
      l.reserved.get? c = none ∨ (fillProgress (l.snapshots.get? f.orderId) f = .apply ∧
        f.clientOrderId = c ∧ f.side = .BUY) := by
  have heffect := l.step_effect today (.applyFill f)
  generalize (l.step today (.applyFill f)).1 = l' at heffect ⊢
  generalize (l.step today (.applyFill f)).2 = reply at heffect hreturned
  cases heffect with
  | regressed => exact hreturned.elim
  | @repeated _ p hp hqty hc ht ha =>
    have hnoop : fillProgress (l.snapshots.get? f.orderId) f = .noop := by
      rw [hp]
      exact fillProgress_of_repeated hqty hc ht ha
    rw [hnoop]
    exact ⟨.inl, fun h => h.resolve_right fun h => absurd h.1 (by simp)⟩
  | settled happ =>
    constructor
    · intro hafter
      by_cases hcoid : f.clientOrderId = c
      · by_cases hside : f.side = .BUY
        · exact .inr ⟨happ, hcoid, hside⟩
        · have hsame : (l.settle (l.snapshots.get? f.orderId) f).reserved = l.reserved :=
            if_neg hside
          exact .inl (hsame ▸ hafter)
      · refine .inl ?_
        have hforeign := @step_of_not_concerns l today c (.applyFill f) hcoid
        have hstep : (l.step today (.applyFill f)).1 = l.settle (l.snapshots.get? f.orderId) f := by
          simp only [step, applyFill, happ]
          rfl
        rw [hstep] at hforeign
        exact hforeign.1.symm.trans hafter
    · rintro (hnone | ⟨-, rfl, hside⟩)
      · exact (reserved_settle l f (l.snapshots.get? f.orderId)).get?_none hnone
      · have hrecorded : l.recordedQty f.clientOrderId = row.quantity := by
          rw [recordedQty, hrow]
          rfl
        exact reserved_settle_complete hside (hrecorded ▸ hq) (hrecorded ▸ hdone) _

/-! An order for ten shares, reserved, recorded, and filled at once. -/

def tenShares : Order :=
  { orderId := "o1", symbol := "AAA", side := .BUY, currency := .KRW, quantity := 10,
    status := .PENDING }

/-- The snapshot that completes the order, with the client order id Toss reports. -/
def completion (clientOrderId : String) : Fill :=
  .whole "o1" clientOrderId "AAA" .BUY .KRW 10 99 1 ""

def recordedTen : InMemorySleeveLedger :=
  (fresh "sleeve" 5000 .KRW).run
    [("2024-01-02", .reserve "b1" 1000 .KRW),
     ("2024-01-02", .recordOrder "b1" "o1" "AAA" .BUY .KRW 10)]

theorem completed_freed_iff_straight :
    (recordedTen.step "2024-01-02" (.applyFill (completion "b1"))).1.reserved.get? "b1" =
      none := by
  have hrow : recordedTen.orders.get? "b1" = some tenShares := by decide +kernel
  refine (completed_freed_iff recordedTen "2024-01-02" "b1" hrow (by decide +kernel)
    (by decide +kernel) (by decide +kernel)).mpr (.inr ⟨?_, rfl, rfl⟩)
  decide +kernel

/-- The completed order, reserved again by a retry of its `place`. -/
def reservedAgain : InMemorySleeveLedger :=
  (recordedTen.run [("2024-01-02", .applyFill (completion "b1"))]).run
    [("2024-01-03", .reserve "b1" 1000 .KRW)]

/-- The completing snapshot is returned from and the order is complete, but its reservation
    stays. -/
def StaysReserved (l : InMemorySleeveLedger) (f : Fill) : Prop :=
  (l.step "2024-01-03" (.applyFill f)).2 = .done ∧ l.clientOrderIdFor f.orderId = some "b1" ∧
    f.orderId = tenShares.orderId ∧ tenShares.quantity ≤ f.filledQuantity ∧
    (l.orders.get? "b1").map (fun o => (o.orderId, o.side, o.quantity)) = some ("o1", .BUY, 10) ∧
    (l.step "2024-01-03" (.applyFill f)).1.reserved.get? "b1" = some (.KRW, 1000)

instance (l : InMemorySleeveLedger) (f : Fill) : Decidable (StaysReserved l f) :=
  inferInstanceAs (Decidable (_ ∧ _ ∧ _ ∧ _ ∧ _ ∧ _))

/-- A repetition does not free what a retry reserved, and a snapshot without a client order id does
    not free what the order reserved. -/
theorem completed_stays_reserved :
    StaysReserved reservedAgain (completion "b1") ∧ StaysReserved recordedTen (completion "") := by
  decide +kernel

end Proof
end TossSleeve
