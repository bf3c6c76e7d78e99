import TossSleeve.Ledger.Steps
import TossSleeve.Lib.Latest

/-!
# `Proof/Cash.lean` — cash conservation

The ledger moves its cash by *deltas*: a snapshot is settled against the one stored before it, a
repeated snapshot is skipped, a regressing one raises. What the cash must be worth says nothing
about deltas:

    virtual_cash(c)  =  capital (if c is the base currency)
                      + every cashflow in c
                      + for every order in c, the signed cash effect of its latest accepted snapshot

Between the two stands one invariant, `CashInv`: the stored snapshot of an order and the last one
the caller saw accepted have the *same cash effect*. They need not be the same snapshot — a
repetition is accepted and not stored, and may differ in its dates or its client order id — and
that difference is the whole reason the invariant is about `signedCash` and not about fills.
-/

set_option autoImplicit false

namespace TossSleeve
namespace Proof

open Lib InMemorySleeveLedger

/-! ## 1. What a run shows its caller -/

/-- The fill an operation applies, if it applies one. -/
def fillOf : LedgerOp → Option Fill
  | .applyFill f => some f
  | _ => none

/-- The fill a call applied *and was not refused*. -/
def acceptedFill (op : LedgerOp) (r : Reply) : Option Fill :=
  if r.Returned then fillOf op else none

/-- The fills accepted along a run, in order. -/
def acceptedFills (l : InMemorySleeveLedger) : List (String × LedgerOp) → List Fill
  | [] => []
  | (today, op) :: ops =>
    (acceptedFill op (l.step today op).2).toList ++ acceptedFills (l.step today op).1 ops

/-- What an operation pays in or out in currency `c`, apart from trading. -/
def cashflowIn (c : Currency) : LedgerOp → Decimal
  | .recordCashflow amount cur _ => if cur = c then amount else 0
  | _ => 0

/-- A snapshot's signed cash effect in currency `c`. -/
def cashEffect (c : Currency) (f : Fill) : Decimal := if f.currency = c then signedCash f else 0

/-- All snapshots of one order agree on symbol, side and currency. -/
def OrdersConsistent (ops : List (String × LedgerOp)) : Prop :=
  ∀ f g, .applyFill f ∈ ops.map Prod.snd → .applyFill g ∈ ops.map Prod.snd →
    f.orderId = g.orderId → f.SameOrder g

theorem run_append (l : InMemorySleeveLedger) (ops : List (String × LedgerOp))
    (op : String × LedgerOp) : l.run (ops ++ [op]) = ((l.run ops).step op.1 op.2).1 := by
  simp [InMemorySleeveLedger.run]

theorem acceptedFills_append (op : String × LedgerOp) :
    ∀ (ops : List (String × LedgerOp)) (l : InMemorySleeveLedger),
    acceptedFills l (ops ++ [op]) =
      acceptedFills l ops ++ (acceptedFill op.2 ((l.run ops).step op.1 op.2).2).toList
  | [], l => by simp [acceptedFills, InMemorySleeveLedger.run]
  | (today, op') :: ops, l => by
    rw [List.cons_append, acceptedFills, acceptedFills,
      acceptedFills_append op ops, List.append_assoc]
    rfl

theorem mem_of_acceptedFills {f : Fill} : ∀ {ops : List (String × LedgerOp)}
    {l : InMemorySleeveLedger}, f ∈ acceptedFills l ops → .applyFill f ∈ ops.map Prod.snd
  | [], _, h => absurd h (by simp [acceptedFills])
  | (today, op) :: ops, l, h => by
    rw [acceptedFills, List.mem_append] at h
    rcases h with h | h
    · have hop : op = .applyFill f := by
        unfold acceptedFill at h
        split at h
        · cases op <;> simp [fillOf] at h
          rw [h]
        · simp at h
      simp [hop]
    · exact List.mem_cons_of_mem _ (mem_of_acceptedFills h)

/-! ## 2. The invariant -/

/-- An order's stored snapshot and its last accepted one settle to the same cash. -/
def SameCash : Option Fill → Option Fill → Prop
  | none, none => True
  | some p, some f => signedCash p = signedCash f ∧ p.SameOrder f
  | _, _ => False

theorem SameCash.elim {s a : Option Fill} (h : SameCash s a) (c : Currency) :
    s.elim 0 (cashEffect c) = a.elim 0 (cashEffect c) := by
  cases s with
  | none =>
    cases a with
    | none => rfl
    | some f => exact absurd h (by simp [SameCash])
  | some p =>
    cases a with
    | none => exact absurd h (by simp [SameCash])
    | some f => simp only [Option.elim_some, cashEffect, h.1, h.2.2.2]

/-- The ledger `l` carries the cash of `base` (per currency, the capital and the flows so far)
    and of the accepted fills `fs`. -/
structure CashInv (base : Currency → Decimal) (fs : List Fill) (l : InMemorySleeveLedger) :
    Prop where
  stored : ∀ o, SameCash (l.snapshots.get? o) (latest Fill.orderId o fs)
  cash : ∀ c, l.vc c = base c + totalLatest Fill.orderId (cashEffect c) fs

/-- A step that touches neither cash nor snapshots and accepts nothing keeps the invariant. -/
theorem CashInv.congr {base : Currency → Decimal} {fs : List Fill} {l l' : InMemorySleeveLedger}
    (h : CashInv base fs l) (hs : l'.snapshots = l.snapshots) (hv : ∀ c, l'.vc c = l.vc c) :
    CashInv base fs l' :=
  ⟨fun o => hs ▸ h.stored o, fun c => (hv c).trans (h.cash c)⟩

/-- A repetition stands for the stored snapshot it repeats. -/
theorem CashInv.repeated {base : Currency → Decimal} {fs : List Fill} {l : InMemorySleeveLedger}
    {f p : Fill} (h : CashInv base fs l) (hp : l.snapshots.get? f.orderId = some p)
    (hsame : f.SameOrder p) (heq : signedCash f = signedCash p) :
    CashInv base (fs ++ [f]) l := by
  have hstored := h.stored f.orderId
  refine ⟨fun o => ?_, fun c => ?_⟩
  · rw [latest_concat]
    by_cases ho : f.orderId = o
    · rw [if_pos ho, ← ho, hp]
      exact ⟨heq.symm, hsame.1.symm, hsame.2.1.symm, hsame.2.2.symm⟩
    · rw [if_neg ho]
      exact h.stored o
  · rw [totalLatest_concat, ← hstored.elim c, hp, Option.elim_some, h.cash c]
    have : cashEffect c f = cashEffect c p := by simp only [cashEffect, heq, hsame.2.2]
    rw [this]
    ring

/-- A settled snapshot moves the cash from its predecessor's effect to its own. -/
theorem CashInv.settled {base : Currency → Decimal} {fs : List Fill} {l : InMemorySleeveLedger}
    {f : Fill} (h : CashInv base fs l)
    (hsame : ∀ p, l.snapshots.get? f.orderId = some p → p.SameOrder f) :
    CashInv base (fs ++ [f]) (l.settle (l.snapshots.get? f.orderId) f) := by
  refine ⟨fun o => ?_, fun c => ?_⟩
  · rw [latest_concat]
    show SameCash ((l.snapshots.set f.orderId f).get? o) _
    rw [Dict.get?_set]
    by_cases ho : f.orderId = o
    · rw [if_pos ho, if_pos ho.symm]
      exact ⟨rfl, rfl, rfl, rfl⟩
    · rw [if_neg ho, if_neg (fun e => ho e.symm)]
      exact h.stored o
  · rw [vc_settle, totalLatest_concat, ← (h.stored f.orderId).elim c, h.cash c]
    have hdelta : (if c = f.currency then
          signedCash f - (l.snapshots.get? f.orderId).elim 0 signedCash else 0) =
        cashEffect c f - (l.snapshots.get? f.orderId).elim 0 (cashEffect c) := by
      cases hp : l.snapshots.get? f.orderId with
      | none => simp [cashEffect, eq_comm]
      | some p =>
        have hcur := (hsame p hp).2.2
        by_cases hc : c = f.currency
        · simp [cashEffect, hcur, hc]
        · have hc' : f.currency ≠ c := fun e => hc e.symm
          simp [cashEffect, hcur, hc, hc']
    rw [hdelta]
    ring

/-! ## 3. One step, and a run -/

/-- The step lemma. `base` grows by the step's cashflow, `fs` by the fill it accepted. -/
theorem CashInv.step {base : Currency → Decimal} {fs : List Fill} {l : InMemorySleeveLedger}
    (h : CashInv base fs l) (today : String) (op : LedgerOp)
    (hsame : ∀ f, op = .applyFill f → ∀ g ∈ fs, f.orderId = g.orderId → g.SameOrder f) :
    CashInv (fun c => base c + cashflowIn c op)
      (fs ++ (acceptedFill op (l.step today op).2).toList) (l.step today op).1 := by
  -- The stored snapshot of `f`'s order shares its symbol, side and currency with `f`.
  have hstored : ∀ f, op = .applyFill f → ∀ p, l.snapshots.get? f.orderId = some p →
      p.SameOrder f := by
    intro f hop p hp
    have hs := h.stored f.orderId
    rw [hp] at hs
    cases hl : latest Fill.orderId f.orderId fs with
    | none => rw [hl] at hs; exact absurd hs (by simp [SameCash])
    | some g =>
      rw [hl] at hs
      obtain ⟨hg, hgo⟩ := latest_some hl
      have hgf := hsame f hop g hg hgo.symm
      exact ⟨hs.2.1.trans hgf.1, hs.2.2.1.trans hgf.2.1, hs.2.2.2.trans hgf.2.2⟩
  have heff := step_effect l today op
  revert heff
  generalize (l.step today op).1 = l', (l.step today op).2 = r
  intro heff
  -- The steps that move no cash and accept no fill.
  have hquiet : ∀ l' : InMemorySleeveLedger, l'.snapshots = l.snapshots →
      (∀ c, l'.vc c = l.vc c) → CashInv base fs l' := fun _ hs hv => h.congr hs hv
  cases heff with
  | reserveRaised e | reserveRefused | sellRaised e | sellRefused | regressed hp hlt e =>
    simpa [acceptedFill, fillOf, cashflowIn, Reply.Returned] using h
  | reserved | released | recorded | sellReserved =>
    simp only [acceptedFill, fillOf, cashflowIn, ite_self, Option.toList_none, List.append_nil,
      add_zero]
    exact hquiet _ rfl (fun _ => rfl)
  | terminal =>
    simp only [acceptedFill, fillOf, cashflowIn, ite_self, Option.toList_none, List.append_nil,
      add_zero]
    exact hquiet _ (snapshots_markOrderTerminal l _ _) (vc_markOrderTerminal l _ _)
  | @repeated f p hp hq hc ht ha =>
    have hs := hstored f rfl p hp
    have heq : signedCash f = signedCash p := by
      simp only [signedCash, Fill.costBasis, hq, hc, ht, ha, hs.2.1]
    simpa [acceptedFill, fillOf, cashflowIn, Reply.Returned] using
      h.repeated hp ⟨hs.1.symm, hs.2.1.symm, hs.2.2.symm⟩ heq
  | settled happ =>
    simpa [acceptedFill, fillOf, cashflowIn, Reply.Returned] using h.settled (hstored _ rfl)
  | cashflow =>
    refine ⟨fun o => ?_, fun c => ?_⟩
    · simp only [acceptedFill, fillOf, ite_self, Option.toList_none, List.append_nil]
      exact h.stored o
    · rw [vc_recordCashflow, h.cash c]
      simp [acceptedFill, fillOf, Reply.Returned, cashflowIn, eq_comm, add_right_comm]

/-- The run lemma: along any run the cash is the capital, the flows so far and the effects of the
    accepted fills that stand. Induction on the run from its end, `CashInv.step` at each call. -/
theorem cashInv_run {base : Currency → Decimal} {l₀ : InMemorySleeveLedger}
    (h₀ : CashInv base [] l₀) (ops : List (String × LedgerOp)) (hcons : OrdersConsistent ops) :
    CashInv (fun c => base c + (ops.map (fun op => cashflowIn c op.2)).sum)
      (acceptedFills l₀ ops) (l₀.run ops) := by
  induction ops using List.reverseRecOn with
  | nil => simpa [acceptedFills, InMemorySleeveLedger.run] using h₀
  | append_singleton ops op ih =>
    have hcons' : OrdersConsistent ops := fun f g hf hg =>
      hcons f g (by simp [hf]) (by simp [hg])
    have hsame : ∀ f, op.2 = .applyFill f → ∀ g ∈ acceptedFills l₀ ops,
        f.orderId = g.orderId → g.SameOrder f := by
      intro f hop g hg ho
      refine hcons g f ?_ ?_ ho.symm
      · rw [List.map_append]
        exact List.mem_append_left _ (mem_of_acceptedFills hg)
      · simp [hop]
    have hstep := (ih hcons').step op.1 op.2 hsame
    rw [acceptedFills_append, run_append]
    simpa [List.map_append, add_assoc] using hstep

theorem cashInv_init {sleeveId : String} {cap : Decimal} {b : Currency}
    {l₀ : InMemorySleeveLedger} (h₀ : InMemorySleeveLedger.init sleeveId cap b = .ok l₀) :
    CashInv (fun c => if c = b then cap else 0) [] l₀ := by
  obtain ⟨-, -, rfl⟩ := init_inv h₀
  refine ⟨fun o => trivial, fun c => ?_⟩
  unfold vc fresh
  rw [Dict.get?_set]
  by_cases hc : c = b <;> simp [hc, totalLatest, keysOf]

/-- **Cash conservation and path independence.** Whatever the operations and their order, the
    cash of a currency is the capital (in the base currency), every cashflow in it, and the
    signed cash effect of each order's last accepted snapshot. -/
theorem virtualCash_conserved {sleeveId : String} {cap : Decimal} {b : Currency}
    {l₀ : InMemorySleeveLedger} (h₀ : InMemorySleeveLedger.init sleeveId cap b = .ok l₀)
    (ops : List (String × LedgerOp)) (hcons : OrdersConsistent ops) (c : Currency) :
    (l₀.run ops).virtualCash c =
      (if c = b then cap else 0) + (ops.map (fun op => cashflowIn c op.2)).sum
        + ∑ o ∈ keysOf Fill.orderId (acceptedFills l₀ ops),
            (latest Fill.orderId o (acceptedFills l₀ ops)).elim 0 (cashEffect c) :=
  (cashInv_run (cashInv_init h₀) ops hcons).cash c

/-! One order polled three times — a partial fill, the completion, a late correction of its fee —
beside a deposit and a reservation. -/

def correctedRun : List (String × LedgerOp) :=
  [("2024-01-02", .reserve "c1" 1000 .KRW),
   ("2024-01-02", .recordOrder "c1" "o1" "AAA" .BUY .KRW 10),
   ("2024-01-02", .applyFill (.whole "o1" "c1" "AAA" .BUY .KRW 4 100 1 "")),
   ("2024-01-02", .recordCashflow 50 .KRW "deposit"),
   ("2024-01-03", .applyFill (.whole "o1" "c1" "AAA" .BUY .KRW 10 99 2 "")),
   ("2024-01-03", .applyFill (.whole "o1" "c1" "AAA" .BUY .KRW 10 99 3 ""))]

theorem virtualCash_conserved_correctedRun :
    ∃ l₀, InMemorySleeveLedger.init "sleeve" 1000 .KRW = .ok l₀ ∧ OrdersConsistent correctedRun ∧
      (l₀.run correctedRun).virtualCash .KRW = 1000 + 50 - (99 * 10 + 3) := by
  have hcons : OrdersConsistent correctedRun := by
    intro f g hf hg _
    simp only [correctedRun, List.map_cons, List.map_nil, List.mem_cons, List.not_mem_nil,
      reduceCtorEq, LedgerOp.applyFill.injEq, false_or, or_false] at hf hg
    rcases hf with rfl | rfl | rfl <;> rcases hg with rfl | rfl | rfl <;> exact ⟨rfl, rfl, rfl⟩
  have h₀ := init_ok "sleeve" 1000 .KRW (by decide) (by decide +kernel)
  refine ⟨fresh "sleeve" 1000 .KRW, h₀, hcons, ?_⟩
  refine (virtualCash_conserved h₀ correctedRun hcons .KRW).trans ?_
  decide +kernel

end Proof
end TossSleeve
