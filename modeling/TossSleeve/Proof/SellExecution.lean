import TossSleeve.Ledger.Steps

/-!
# `Proof/SellExecution.lean` — one execution of a SELL, counted how often?

When a SELL executes, shares leave the holdings and the order has less left to sell.
`available_to_sell` is the difference of the two, so it should not move. Whether it does depends on
two joins: the holdings are summed over the stored snapshots; the open remainder joins the recorded
order to its snapshot *by order id*; and the status that decides whether the order is open at all is
written *by client order id*.

For a linked order the joins agree. An order whose placing ended ambiguously is registered and not
linked: its order id is empty, although every snapshot of it carries the client order id it is
recorded under. Its executions leave the holdings and do not leave the open remainder, until it is
complete. `sell_counted_once_iff` says when exactly the figures agree.
-/

set_option autoImplicit false

namespace TossSleeve
namespace Proof

open Lib InMemorySleeveLedger

/-! ## 1. The two joins -/

/-- What a snapshot adds to what is stored of its order. -/
def executedDelta (l : InMemorySleeveLedger) (f : Fill) : Decimal :=
  f.filledQuantity - l.filledByOrderId f.orderId

/-- A snapshot of a SELL: no other SELL is recorded under its order id, and what is stored under it
    is of the same symbol and side. -/
structure SnapshotOf (l : InMemorySleeveLedger) (c ticker : String) (f : Fill) : Prop where
  clientOrderId : f.clientOrderId = c
  symbol : f.symbol = ticker
  side : f.side = .SELL
  unique : ∀ k o, l.orders.get? k = some o → o.side = .SELL → o.orderId = f.orderId → k = c
  stored : ∀ p ∈ l.snapshots.get? f.orderId, p.symbol = ticker ∧ p.side = .SELL

variable {l : InMemorySleeveLedger} {c ticker : String} {f : Fill}

/-- The stored snapshot took off the ticker's net quantity what it had executed, and off no
    other. -/
theorem SnapshotOf.stored_signedQty (h : SnapshotOf l c ticker f) (t : String) :
    (l.snapshots.get? f.orderId).elim 0 (·.signedQty t) =
      if ticker = t then -l.filledByOrderId f.orderId else 0 := by
  unfold filledByOrderId
  cases hp : l.snapshots.get? f.orderId with
  | none => simp
  | some p =>
    obtain ⟨hsymbol, hside⟩ := h.stored p hp
    simp [Fill.signedQty, hsymbol, hside]

/-- The executed delta leaves the holdings. -/
theorem SnapshotOf.net_settle (h : SnapshotOf l c ticker f) (t : String) :
    (l.settle (l.snapshots.get? f.orderId) f).net t =
      l.net t - if ticker = t then executedDelta l f else 0 := by
  rw [InMemorySleeveLedger.net_settle, h.stored_signedQty, Fill.signedQty, h.symbol, h.side]
  by_cases ht : ticker = t
  · simp only [if_pos ht, executedDelta, reduceCtorEq, if_false]
    ring
  · simp only [if_neg ht]
    ring

/-- No other order's open remainder is touched. -/
theorem SnapshotOf.openPart_others (h : SnapshotOf l c ticker f) {k : String} (hk : k ≠ c)
    (t : String) :
    l.openPart t k = (l.settle (l.snapshots.get? f.orderId) f).openPart t k := by
  have hget := orders_settle l f (l.snapshots.get? f.orderId) k
  rw [if_neg fun he => hk (he.trans h.clientOrderId)] at hget
  cases ho : l.orders.get? k with
  | none => rw [openPart_none ho, openPart_none (hget.trans ho)]
  | some o =>
    rw [openPart_row ho, openPart_row (hget.trans ho)]
    by_cases hopen : o.symbol = t ∧ o.side = .SELL ∧ o.status ∈ openStatuses
    · have hid : o.orderId ≠ f.orderId := fun he => hk (h.unique k o ho hopen.2.1 he)
      rw [if_pos hopen, if_pos hopen, filledByOrderId_settle, if_neg hid]
    · rw [if_neg hopen, if_neg hopen]

/-- The order's own remainder: it falls to nothing when the order is complete; before that, it falls
    by the delta if the order is linked, and not at all if it is not. -/
theorem SnapshotOf.openPart_own (h : SnapshotOf l c ticker f) {row : Order}
    (hrow : l.orders.get? c = some row) (hside : row.side = .SELL)
    (hsymbol : row.symbol = ticker) (hle : f.filledQuantity ≤ row.quantity) :
    (l.settle (l.snapshots.get? f.orderId) f).openPart ticker c =
      if row.quantity ≤ f.filledQuantity then 0
      else max (row.quantity - if row.orderId = f.orderId then f.filledQuantity
        else l.filledByOrderId row.orderId) 0 := by
  have hget := orders_settle l f (l.snapshots.get? f.orderId) c
  rw [if_pos h.clientOrderId.symm, hrow, Option.map_some] at hget
  have hpos : row.quantity > 0 := lt_of_lt_of_le f.filledQuantity_pos hle
  rw [openPart_row hget]
  by_cases hdone : row.quantity ≤ f.filledQuantity
  · rw [if_pos hdone, if_neg]
    intro hopen
    exact (terminalOrderStatus_mem_openStatuses _ _).mp hopen.2.2 ⟨hpos, hdone⟩
  · have hstill := (terminalOrderStatus_mem_openStatuses row.quantity f.filledQuantity).mpr
      fun hfull => hdone hfull.2
    rw [if_neg hdone, if_pos ⟨hsymbol, hside, hstill⟩, filledByOrderId_settle]

/-! ## 2. When the figures agree -/

/-- What an applied snapshot did to the ledger: settled it, unless it repeats the stored one. -/
theorem step_applyFill_of_returned (today : String)
    (hreturned : (l.step today (.applyFill f)).2.Returned) :
    ((l.step today (.applyFill f)).1 = l.settle (l.snapshots.get? f.orderId) f ∧
        fillProgress (l.snapshots.get? f.orderId) f = .apply ∧
        l.filledByOrderId f.orderId ≤ f.filledQuantity) ∨
      ((l.step today (.applyFill f)).1 = l ∧
        fillProgress (l.snapshots.get? f.orderId) f = .noop) := by
  have heffect := l.step_effect today (.applyFill f)
  generalize (l.step today (.applyFill f)).1 = l' at heffect ⊢
  generalize (l.step today (.applyFill f)).2 = reply at heffect hreturned
  cases heffect with
  | regressed => exact hreturned.elim
  | @repeated _ p hp hq hc ht ha =>
    refine .inr ⟨rfl, ?_⟩
    rw [hp]
    exact fillProgress_of_repeated hq hc ht ha
  | settled happ =>
    refine .inl ⟨rfl, happ, ?_⟩
    unfold filledByOrderId
    cases hp : l.snapshots.get? f.orderId with
    | none => exact le_of_lt f.filledQuantity_pos
    | some p => exact fillProgress_apply_le (hp ▸ happ)

/-- The open quantity changes by what becomes of the order's own remainder. -/
theorem SnapshotOf.openSell_settle (h : SnapshotOf l c ticker f) (t : String) :
    (l.settle (l.snapshots.get? f.orderId) f).openSell t = l.openSell t - l.openPart t c +
      (l.settle (l.snapshots.get? f.orderId) f).openPart t c :=
  openSell_change t c fun _ hk => h.openPart_others hk t

/-- Other tickers never see the execution. -/
theorem SnapshotOf.availableToSell_others (h : SnapshotOf l c ticker f) {row : Order}
    (hrow : l.orders.get? c = some row) (hsymbol : row.symbol = ticker) {t : String}
    (ht : t ≠ ticker) :
    (l.settle (l.snapshots.get? f.orderId) f).availableToSell t = l.availableToSell t := by
  have hsame : (l.settle (l.snapshots.get? f.orderId) f).openPart t c = l.openPart t c := by
    have hget := orders_settle l f (l.snapshots.get? f.orderId) c
    rw [if_pos h.clientOrderId.symm, hrow, Option.map_some] at hget
    rw [openPart_row hget, openPart_row hrow, if_neg fun h => ht (h.1.symm.trans hsymbol),
      if_neg fun h => ht (h.1.symm.trans hsymbol)]
  rw [availableToSell_eq, availableToSell_eq, h.openSell_settle, hsame, h.net_settle,
    if_neg fun he => ht he.symm, sub_zero]
  ring

/-- The holdings fall by the delta, because that much was held: so the figure is unchanged if the
    remainder falls by as much. -/
theorem SnapshotOf.availableToSell_iff (h : SnapshotOf l c ticker f)
    (hnonneg : 0 ≤ executedDelta l f) (hheld : executedDelta l f ≤ l.positionQuantity ticker) :
    (l.settle (l.snapshots.get? f.orderId) f).availableToSell ticker = l.availableToSell ticker ↔
      executedDelta l f = l.openPart ticker c -
        (l.settle (l.snapshots.get? f.orderId) f).openPart ticker c := by
  have hnet : max ((l.settle (l.snapshots.get? f.orderId) f).net ticker) 0 =
      max (l.net ticker) 0 - executedDelta l f := by
    rw [positionQuantity_eq_net] at hheld
    rw [h.net_settle, if_pos rfl]
    rcases le_total (l.net ticker) 0 with hneg | hpos
    · rw [max_eq_right hneg] at hheld ⊢
      rw [le_antisymm hheld hnonneg, sub_zero, sub_zero, max_eq_right hneg]
    · rw [max_eq_left hpos] at hheld ⊢
      exact max_eq_left (sub_nonneg.mpr hheld)
  rw [availableToSell_eq, availableToSell_eq, h.openSell_settle, hnet]
  constructor
  · intro h
    linarith
  · intro h
    linarith

/-- The remainder of a linked order falls by the delta. -/
theorem SnapshotOf.openPart_linked (h : SnapshotOf l c ticker f) {row : Order}
    (hrow : l.orders.get? c = some row) (hside : row.side = .SELL)
    (hsymbol : row.symbol = ticker) (hopen : row.status ∈ openStatuses)
    (hle : f.filledQuantity ≤ row.quantity)
    (hprogress : l.filledByOrderId f.orderId ≤ f.filledQuantity)
    (hlink : row.orderId = f.orderId) :
    executedDelta l f = l.openPart ticker c -
      (l.settle (l.snapshots.get? f.orderId) f).openPart ticker c := by
  have hbefore := openPart_row hrow ticker
  rw [if_pos ⟨hsymbol, hside, hopen⟩, hlink,
    max_eq_left (sub_nonneg.mpr (hprogress.trans hle))] at hbefore
  rw [h.openPart_own hrow hside hsymbol hle, hbefore]
  by_cases hdone : row.quantity ≤ f.filledQuantity
  · rw [if_pos hdone, executedDelta, le_antisymm hle hdone, sub_zero]
  · rw [if_neg hdone, if_pos hlink, max_eq_left (sub_nonneg.mpr hle), executedDelta]
    ring

/-- That of an order that is not linked goes when the order is complete, and stays till then. -/
theorem SnapshotOf.openPart_unlinked (h : SnapshotOf l c ticker f) {row : Order}
    (hrow : l.orders.get? c = some row) (hside : row.side = .SELL)
    (hsymbol : row.symbol = ticker) (hopen : row.status ∈ openStatuses)
    (hle : f.filledQuantity ≤ row.quantity) (hlink : row.orderId ≠ f.orderId) :
    l.openPart ticker c - (l.settle (l.snapshots.get? f.orderId) f).openPart ticker c =
      if row.quantity ≤ f.filledQuantity then l.openPart ticker c else 0 := by
  have hbefore := openPart_row hrow ticker
  rw [if_pos ⟨hsymbol, hside, hopen⟩] at hbefore
  rw [h.openPart_own hrow hside hsymbol hle]
  by_cases hdone : row.quantity ≤ f.filledQuantity
  · rw [if_pos hdone, if_pos hdone, sub_zero]
  · rw [if_neg hdone, if_neg hdone, if_neg hlink, ← hbefore, sub_self]

/-- **When the execution of a SELL is counted once.** Other tickers never see it. Its own ticker's
    `available_to_sell` is unchanged if and only if the order is linked to the snapshot's order id,
    or the snapshot repeats the stored one, or what newly executed is all that was open of a now
    complete order, and nothing of one that is not complete. -/
theorem sell_counted_once_iff (today : String) {row : Order} (hf : SnapshotOf l c ticker f)
    (hrow : l.orders.get? c = some row) (hside : row.side = .SELL) (hsymbol : row.symbol = ticker)
    (hopen : row.status ∈ openStatuses) (hle : f.filledQuantity ≤ row.quantity)
    (hheld : executedDelta l f ≤ l.positionQuantity ticker)
    (hreturned : (l.step today (.applyFill f)).2.Returned) :
    (∀ t, t ≠ ticker → (l.step today (.applyFill f)).1.availableToSell t = l.availableToSell t) ∧
      ((l.step today (.applyFill f)).1.availableToSell ticker = l.availableToSell ticker ↔
        row.orderId = f.orderId ∨ fillProgress (l.snapshots.get? f.orderId) f = .noop ∨
          executedDelta l f =
            if row.quantity ≤ f.filledQuantity then l.openPart ticker c else 0) := by
  rcases step_applyFill_of_returned today hreturned with ⟨hstep, happ, hprogress⟩ | ⟨hstep, hnoop⟩
  · rw [hstep]
    refine ⟨fun t ht => hf.availableToSell_others hrow hsymbol ht, ?_⟩
    rw [hf.availableToSell_iff (sub_nonneg.mpr hprogress) hheld]
    by_cases hlink : row.orderId = f.orderId
    · refine ⟨fun _ => .inl hlink, fun _ => ?_⟩
      exact hf.openPart_linked hrow hside hsymbol hopen hle hprogress hlink
    · rw [hf.openPart_unlinked hrow hside hsymbol hopen hle hlink, happ]
      exact ⟨fun h => .inr (.inr h), fun h => (h.resolve_left hlink).resolve_left nofun⟩
  · rw [hstep]
    exact ⟨fun _ _ => rfl, fun _ => .inr (.inl hnoop), fun _ => rfl⟩

/-! ## 3. A SELL whose placing ended ambiguously -/

/-- Ten shares held, and a SELL of ten registered; linked to its order id if that is known. -/
def registeredTen (link : Option String) : InMemorySleeveLedger :=
  (fresh "sleeve" 1000 .KRW).run
    ([("2024-01-02", .applyFill (.whole "o1" "b1" "AAA" .BUY .KRW 10 100 0 "")),
      ("2024-01-03", .reserveSell "s1" "" "AAA" .KRW 10)] ++
    (link.map fun o => ("2024-01-03", .recordOrder "s1" o "AAA" .SELL .KRW 10)).toList)

def fourSold : Fill := .whole "o2" "s1" "AAA" .SELL .KRW 4 110 0 ""

def registeredRow (link : Option String) : Order :=
  { orderId := link.getD "", symbol := "AAA", side := .SELL, currency := .KRW, quantity := 10,
    status := .PENDING }

theorem fourSold_snapshotOf {link : Option String} (hlink : link = none ∨ link = some "o2") :
    SnapshotOf (registeredTen link) "s1" "AAA" fourSold := by
  have hrows : (registeredTen link).orders.rows.map (·.1) = ["s1"] := by
    rcases hlink with rfl | rfl
    · decide +kernel
    · decide +kernel
  have hnone : (registeredTen link).snapshots.get? "o2" = none := by
    rcases hlink with rfl | rfl
    · decide +kernel
    · decide +kernel
  refine ⟨rfl, rfl, rfl, fun k o ho _ _ => ?_, fun p hp => absurd (hnone.symm.trans hp) nofun⟩
  have hmem := List.mem_map_of_mem (f := fun e : String × Order => e.1) (Dict.mem_rows_iff.mpr ho)
  rw [hrows] at hmem
  exact List.mem_singleton.mp hmem

/-- The order is linked: four shares less are held, and four less are open. -/
theorem sell_counted_once_iff_linked :
    ((registeredTen (some "o2")).step "2024-01-03" (.applyFill fourSold)).1.availableToSell "AAA" =
      (registeredTen (some "o2")).availableToSell "AAA" := by
  have hrow : (registeredTen (some "o2")).orders.get? "s1" = some (registeredRow (some "o2")) := by
    decide +kernel
  refine (sell_counted_once_iff "2024-01-03" (fourSold_snapshotOf (.inr rfl)) hrow rfl rfl
    (by decide) (by decide +kernel) (by decide +kernel) (by decide +kernel)).2.mpr (.inl rfl)

/-- It is not linked: four shares less are held, all ten are still open, and four shares count as
    oversold. -/
theorem sell_counted_twice : SnapshotOf (registeredTen none) "s1" "AAA" fourSold ∧
    (registeredTen none).orders.get? "s1" = some (registeredRow none) ∧
    executedDelta (registeredTen none) fourSold ≤ (registeredTen none).positionQuantity "AAA" ∧
    (registeredTen none).availableToSell "AAA" = 0 ∧
    ((registeredTen none).step "2024-01-03" (.applyFill fourSold)).1.availableToSell "AAA" = -4 := by
  refine ⟨fourSold_snapshotOf (.inl rfl), by decide +kernel, by decide +kernel, by decide +kernel,
    by decide +kernel⟩

end Proof
end TossSleeve
