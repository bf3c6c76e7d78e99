import TossSleeve.Proof.Cash

/-!
# `Proof/Terminal.lean` — how long a terminal order stays terminal

`mark_order_terminal` writes a status and frees a reservation. Nothing protects what it wrote:
`apply_fill` computes the status of an order from its recorded quantity and the snapshot alone, and
writes it over whatever was there. An order that was cancelled while an execution was still
unreported is `PARTIALLY_FILLED` again once the report arrives, and for good: its remainder counts
as an open SELL, and no one will ever execute it.

`Reopens` says exactly which operations undo a termination, and `terminal_iff` that nothing else
does: along any continuation that does not register the order again, it stays terminal if and only
if none of its steps reopens it.
-/

set_option autoImplicit false

namespace TossSleeve
namespace Proof

open Lib InMemorySleeveLedger

/-! ## 1. One step -/

/-- Does the operation register the order of `c`, for the first time or again? -/
def Registers (c : String) : LedgerOp → Prop
  | .recordOrder c' _ _ _ _ _ => c' = c
  | .reserveSell c' _ _ _ _ => c' = c
  | _ => False

/-- Does the operation reopen the order of `c`? A snapshot does that settles anything — even a fee —
    without completing the recorded quantity; so does a status that is not terminal. -/
def Reopens (l : InMemorySleeveLedger) (c : String) : LedgerOp → Prop
  | .applyFill f => f.clientOrderId = c ∧ fillProgress (l.snapshots.get? f.orderId) f = .apply ∧
      ¬ (l.recordedQty c > 0 ∧ f.filledQuantity ≥ l.recordedQty c)
  | .markOrderTerminal c' status => c' = c ∧ status ∈ openStatuses
  | _ => False

/-- The order of `c` is recorded, with a terminal status. -/
def Closed (l : InMemorySleeveLedger) (c : String) : Prop :=
  ∃ o, l.orders.get? c = some o ∧ o.status ∉ openStatuses

/-- A terminal order contributes to no ticker's open quantity. -/
theorem Closed.openPart {l : InMemorySleeveLedger} {c : String} (h : Closed l c) (ticker : String) :
    l.openPart ticker c = 0 := by
  obtain ⟨o, ho, hst⟩ := h
  rw [openPart_some ho]
  exact OrderRow.remaining_of_not_open _ fun hopen => hst hopen.2.2

theorem Closed.orderStatus {l : InMemorySleeveLedger} {c : String} (h : Closed l c) :
    l.orderStatus c ≠ some .PENDING ∧ l.orderStatus c ≠ some .PARTIALLY_FILLED := by
  obtain ⟨o, ho, hst⟩ := h
  have hstatus : l.orderStatus c = some o.status := by
    rw [InMemorySleeveLedger.orderStatus, ho]
    rfl
  rw [hstatus]
  constructor
  · intro hp
    rw [Option.some.inj hp] at hst
    exact hst (by decide)
  · intro hp
    rw [Option.some.inj hp] at hst
    exact hst (by decide)

theorem recordedQty_eq {l : InMemorySleeveLedger} {c : String} {o : Order}
    (h : l.orders.get? c = some o) : l.recordedQty c = o.quantity := by
  rw [recordedQty, h]
  rfl

/-- The step lemma: a terminal order is terminal after an operation, or has just been reopened by
    it. -/
theorem closed_step {l : InMemorySleeveLedger} {c : String} (h : Closed l c) (today : String)
    {op : LedgerOp} (hop : ¬ Registers c op) :
    Closed (l.step today op).1 c ↔ ¬ Reopens l c op := by
  obtain ⟨o, ho, hst⟩ := h
  have heffect := l.step_effect today op
  generalize (l.step today op).1 = l' at heffect ⊢
  generalize (l.step today op).2 = reply at heffect
  -- The row is what it was.
  have hsame : l'.orders.get? c = l.orders.get? c → ¬ Reopens l c op →
      (Closed l' c ↔ ¬ Reopens l c op) :=
    fun hrow hno => ⟨fun _ => hno, fun _ => ⟨o, hrow.trans ho, hst⟩⟩
  -- The row has a new status.
  have hnew : ∀ {status : OrderStatus}, l'.orders.get? c = some { o with status } →
      (Closed l' c ↔ status ∉ openStatuses) := by
    intro status hrow
    constructor
    · intro hw
      obtain ⟨o', ho', hst'⟩ := hw
      obtain rfl := Option.some.inj (hrow.symm.trans ho')
      exact hst'
    · exact fun hst' => ⟨_, hrow, hst'⟩
  cases heffect with
  | reserveRaised => exact hsame rfl id
  | reserveRefused => exact hsame rfl id
  | reserved => exact hsame rfl id
  | released => exact hsame rfl id
  | recorded => exact hsame (by rw [get?_recordOrder, if_neg fun e => hop e.symm]) id
  | sellRaised => exact hsame rfl id
  | sellRefused => exact hsame rfl id
  | sellReserved => exact hsame (by rw [get?_recordOrder, if_neg fun e => hop e.symm]) id
  | @regressed f p hp hlt =>
    refine hsame rfl fun hre => ?_
    have hprog := hre.2.1
    rw [hp] at hprog
    exact absurd hlt (not_lt.mpr (fillProgress_apply_le hprog))
  | @repeated f p hp hq hc ht ha =>
    refine hsame rfl fun hre => ?_
    have hprog := hre.2.1
    rw [hp, fillProgress_of_repeated hq hc ht ha] at hprog
    exact absurd hprog (by simp)
  | @settled f happ =>
    have hrow := orders_settle l f (l.snapshots.get? f.orderId) c
    by_cases hc : c = f.clientOrderId
    · rw [if_pos hc, ho, Option.map_some] at hrow
      rw [hnew hrow, terminalOrderStatus_mem_openStatuses]
      show ¬ ¬ _ ↔ ¬ (f.clientOrderId = c ∧ fillProgress _ f = .apply ∧ ¬ _)
      rw [recordedQty_eq ho]
      exact not_congr ⟨fun hno => ⟨hc.symm, happ, hno⟩, fun hre => hre.2.2⟩
    · rw [if_neg hc] at hrow
      exact hsame hrow fun hre => hc hre.1.symm
  | cashflow => exact hsame rfl id
  | @terminal c' status =>
    have hrow := orders_markOrderTerminal l c' status c
    by_cases hc : c = c'
    · subst hc
      rw [if_pos rfl, ho, Option.map_some] at hrow
      rw [hnew hrow]
      show _ ↔ ¬ (c = c ∧ status ∈ openStatuses)
      rw [eq_self, true_and]
    · rw [if_neg hc] at hrow
      exact hsame hrow fun hre => hc hre.1.symm

theorem closed_markOrderTerminal {l : InMemorySleeveLedger} {c : String} {status : OrderStatus}
    (hrecorded : l.orders.get? c ≠ none) (hstatus : status ∉ openStatuses) :
    Closed (l.markOrderTerminal c status) c := by
  obtain ⟨o, ho⟩ := Option.ne_none_iff_exists'.mp hrecorded
  refine ⟨{ o with status }, ?_, hstatus⟩
  rw [orders_markOrderTerminal, if_pos rfl, ho]
  rfl

/-! ## 2. A run -/

/-- After none of the operations the order is open, or counted as one. -/
def StaysTerminal (l : InMemorySleeveLedger) (c : String) (ops : List (String × LedgerOp)) : Prop :=
  ∀ pre, pre <+: ops → (l.run pre).orderStatus c ≠ some .PENDING ∧
    (l.run pre).orderStatus c ≠ some .PARTIALLY_FILLED ∧
    ∀ ticker, (l.run pre).openPart ticker c = 0

/-- None of the operations reopens the order, in the state it finds. -/
def NeverReopened (l : InMemorySleeveLedger) (c : String) (ops : List (String × LedgerOp)) : Prop :=
  ∀ pre op, pre ++ [op] <+: ops → ¬ Reopens (l.run pre) c op.2

theorem mem_of_prefix_concat {α : Type} {pre l : List α} {a : α} (h : pre ++ [a] <+: l) : a ∈ l :=
  h.subset (by simp)

/-- Along a run that never reopens it the order is closed. -/
theorem closed_run {l : InMemorySleeveLedger} {c : String} (h : Closed l c)
    {ops : List (String × LedgerOp)} (hops : ∀ op ∈ ops, ¬ Registers c op.2)
    (hnever : NeverReopened l c ops) : ∀ pre, pre <+: ops → Closed (l.run pre) c := by
  intro pre
  induction pre using List.reverseRecOn with
  | nil => exact fun _ => h
  | append_singleton pre op ih =>
    intro hpre
    have hclosed := ih ((List.prefix_append pre [op]).trans hpre)
    rw [run_append]
    exact (closed_step hclosed op.1 (hops op (mem_of_prefix_concat hpre))).mpr (hnever pre op hpre)

/-- A recorded order whose status is not open is closed. -/
theorem closed_of_orderStatus {l : InMemorySleeveLedger} {c : String} {o : Order}
    (ho : l.orders.get? c = some o) (hp : l.orderStatus c ≠ some .PENDING)
    (hpf : l.orderStatus c ≠ some .PARTIALLY_FILLED) : Closed l c := by
  have hstatus : l.orderStatus c = some o.status := by
    rw [InMemorySleeveLedger.orderStatus, ho]
    rfl
  rw [hstatus] at hp hpf
  refine ⟨o, ho, fun hopen => ?_⟩
  rcases List.mem_cons.mp hopen with h | h
  · exact hp (congrArg some h)
  · exact hpf (congrArg some (List.mem_singleton.mp h))

/-- A recorded order stays recorded. -/
theorem recorded_step {l : InMemorySleeveLedger} {c : String} (h : l.orders.get? c ≠ none)
    (today : String) (op : LedgerOp) : (l.step today op).1.orders.get? c ≠ none := by
  have heffect := l.step_effect today op
  generalize (l.step today op).1 = l' at heffect ⊢
  generalize (l.step today op).2 = reply at heffect
  have hrecord : ∀ c' o sym side cur q,
      (l.recordOrder c' o sym side cur q).orders.get? c ≠ none := by
    intro c' o sym side cur q
    rw [get?_recordOrder]
    split
    · exact Option.some_ne_none _
    · exact h
  cases heffect with
  | recorded => exact hrecord _ _ _ _ _ _
  | sellReserved => exact hrecord _ _ _ _ _ _
  | settled =>
    rw [orders_settle]
    split
    · simpa using h
    · exact h
  | terminal =>
    rw [orders_markOrderTerminal]
    split
    · next hc => simpa [← hc] using h
    · exact h
  | _ => exact h

theorem recorded_run {l : InMemorySleeveLedger} {c : String} (h : l.orders.get? c ≠ none) :
    ∀ ops, (l.run ops).orders.get? c ≠ none := by
  intro ops
  induction ops using List.reverseRecOn with
  | nil => exact h
  | append_singleton ops op ih =>
    rw [run_append]
    exact recorded_step ih op.1 op.2

/-- **A terminal order stays terminal exactly as long as nothing reopens it.** -/
theorem terminal_iff (l : InMemorySleeveLedger) (c : String) (status : OrderStatus)
    (hrecorded : l.orders.get? c ≠ none) (hstatus : status ∈ [.FILLED, .CANCELLED, .REJECTED])
    (ops : List (String × LedgerOp)) (hops : ∀ op ∈ ops, ¬ Registers c op.2) :
    StaysTerminal (l.markOrderTerminal c status) c ops ↔
      NeverReopened (l.markOrderTerminal c status) c ops := by
  have hterminal : status ∉ openStatuses := by
    revert status
    decide
  have hclosed := closed_markOrderTerminal hrecorded hterminal
  constructor
  · intro hstays pre op hpre
    -- The order is closed before the operation and after it.
    have hbefore : ∀ pre, pre <+: ops → Closed ((l.markOrderTerminal c status).run pre) c := by
      intro pre hpre
      obtain ⟨hp, hpf, -⟩ := hstays pre hpre
      obtain ⟨o, ho⟩ := Option.ne_none_iff_exists'.mp (recorded_run (c := c)
        (by obtain ⟨o, ho, -⟩ := hclosed; rw [ho]; exact Option.some_ne_none o) pre)
      exact closed_of_orderStatus ho hp hpf
    have hafter := hbefore (pre ++ [op]) hpre
    rw [run_append] at hafter
    exact (closed_step (hbefore pre ((List.prefix_append pre [op]).trans hpre)) op.1
      (hops op (mem_of_prefix_concat hpre))).mp hafter
  · intro hnever pre hpre
    have h := closed_run hclosed hops hnever pre hpre
    exact ⟨h.orderStatus.1, h.orderStatus.2, h.openPart⟩

/-! ## 3. A cancelled SELL whose execution is reported late

Ten shares were bought and a SELL of all ten registered and linked. -/

def boughtAll : Fill := .whole "o1" "b1" "AAA" .BUY .KRW 10 100 0 ""

def sellingTen : InMemorySleeveLedger :=
  (fresh "sleeve" 1000 .KRW).run
    [("2024-01-02", .applyFill boughtAll),
     ("2024-01-03", .reserveSell "s1" "" "AAA" .KRW 10),
     ("2024-01-03", .recordOrder "s1" "o2" "AAA" .SELL .KRW 10)]

/-- The report of a SELL, with so many shares executed. -/
def soldReport (shares : ℕ) : List (String × LedgerOp) :=
  [("2024-01-03", .applyFill (.whole "o2" "s1" "AAA" .SELL .KRW shares 110 0 ""))]

/-- Cancelled, and then reported as complete: it stays terminal. -/
theorem terminal_iff_soldOut :
    StaysTerminal (sellingTen.markOrderTerminal "s1" .CANCELLED) "s1" (soldReport 10) := by
  refine (terminal_iff sellingTen "s1" .CANCELLED ?_ (by decide) (soldReport 10) ?_).mpr ?_
  · intro h
    have hsome : (sellingTen.orders.get? "s1").isSome = true := by decide +kernel
    rw [h] at hsome
    exact absurd hsome Bool.false_ne_true
  · intro op hop
    obtain rfl := List.mem_singleton.mp hop
    exact id
  · intro pre op hpre hre
    obtain rfl := List.mem_singleton.mp (mem_of_prefix_concat hpre)
    obtain ⟨-, -, hnot⟩ := hre
    have hpre' : pre = [] := by
      have hlen := hpre.length_le
      rw [List.length_append] at hlen
      exact List.length_eq_zero_iff.mp (Nat.le_zero.mp (Nat.le_of_add_le_add_right hlen))
    subst hpre'
    refine hnot ?_
    decide +kernel

/-- Cancelled after four shares were sold, which is reported afterwards: the order is open again,
    and the six shares that are left can never be sold. -/
theorem terminal_reopened : ¬ StaysTerminal (sellingTen.markOrderTerminal "s1" .CANCELLED) "s1"
    (soldReport 4) ∧ sellingTen.orderStatus "s1" = some .PENDING ∧
    (∀ op ∈ soldReport 4, ¬ Registers "s1" op.2) ∧
    ((sellingTen.markOrderTerminal "s1" .CANCELLED).run (soldReport 4)).positionQuantity "AAA" = 6 ∧
    ((sellingTen.markOrderTerminal "s1" .CANCELLED).run (soldReport 4)).availableToSell "AAA" = 0 := by
  refine ⟨fun h => ?_, by decide +kernel, ?_, by decide +kernel, by decide +kernel⟩
  · exact absurd (show _ = some OrderStatus.PARTIALLY_FILLED by decide +kernel)
      (h (soldReport 4) (List.prefix_refl _)).2.1
  · intro op hop
    obtain rfl := List.mem_singleton.mp hop
    exact id

end Proof
end TossSleeve
