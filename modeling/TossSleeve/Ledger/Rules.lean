import TossSleeve.Types
import TossSleeve.Lib.Table

/-!
# `Ledger/Rules.lean` — the accounting rules both ledgers share

The module-level helpers of `ledger.py`: they take values and return values, touch no store, and
both implementations of the ledger call them. Each is translated as the source computes it; the
lemmas under it say what a caller may use, so that no proof further up unfolds one again.

`_open_sell_qty` is a loop with an accumulator. §3 gives it the form the proofs want — a sum of
one contribution per row — once, by induction over the rows.
-/

set_option autoImplicit false

namespace TossSleeve

open Lib

/-! ## 1. Cash -/

/-- `_signed_cash`: the cumulative cash effect of a snapshot, fees included. -/
def signedCash (fill : Fill) : Decimal :=
  let base := fill.costBasis
  if fill.side = .BUY then -(base + fill.commission + fill.tax)
  else base - fill.commission - fill.tax

theorem signedCash_buy {f : Fill} (h : f.side = .BUY) :
    signedCash f = -(f.costBasis + f.commission + f.tax) := by
  simp [signedCash, h]

theorem signedCash_sell {f : Fill} (h : f.side = .SELL) :
    signedCash f = f.costBasis - f.commission - f.tax := by
  simp [signedCash, h]

/-- `_can_reserve`: a second reservation under one key replaces the first, so the amount already
    held under it counts as available. -/
def canReserve (available prevForCoid amount : Decimal) : Bool :=
  decide (amount ≤ available + prevForCoid)

/-- `_reservation_after_fill`: what stays reserved once a snapshot moved the notional by
    `deltaNotional`; `none` frees the reservation. A complete order frees all of it; an unknown
    recorded quantity (`0`) never counts as complete. -/
def reservationAfterFill (recordedQty newFilledQty prevReserved deltaNotional : Decimal) :
    Option Decimal :=
  if recordedQty > 0 ∧ newFilledQty ≥ recordedQty then none
  else
    let left := prevReserved - deltaNotional
    if left > 0 then some left else none

/-- `_fill_progress`'s three answers. -/
inductive Progress where
  | noop | apply | regression
  deriving DecidableEq, Repr

/-- `_fill_progress`: a repetition is skipped only when the cash fields are *all* equal. -/
def fillProgress (prev : Option Fill) (fill : Fill) : Progress :=
  match prev with
  | none => .apply
  | some prev =>
    if fill.filledQuantity < prev.filledQuantity then .regression
    else if fill.filledQuantity = prev.filledQuantity ∧ fill.commission = prev.commission
        ∧ fill.tax = prev.tax ∧ fill.avgPrice = prev.avgPrice then .noop
    else .apply

/-- What a `noop` says: every field the cash depends on agrees. -/
theorem fillProgress_noop {prev : Option Fill} {f : Fill} (h : fillProgress prev f = .noop) :
    ∃ p, prev = some p ∧ f.filledQuantity = p.filledQuantity ∧ f.commission = p.commission ∧
      f.tax = p.tax ∧ f.avgPrice = p.avgPrice := by
  cases prev with
  | none => exact absurd h (by simp [fillProgress])
  | some p =>
    simp only [fillProgress] at h
    split at h
    · exact absurd h (by simp)
    · split at h
      · next heq => exact ⟨p, rfl, heq⟩
      · exact absurd h (by simp)

/-- And those fields are all that a `noop` looks at. -/
theorem fillProgress_of_repeated {p f : Fill} (hq : f.filledQuantity = p.filledQuantity)
    (hc : f.commission = p.commission) (ht : f.tax = p.tax) (ha : f.avgPrice = p.avgPrice) :
    fillProgress (some p) f = .noop := by
  simp [fillProgress, hq, hc, ht, ha]

/-- An applied snapshot never lowers the quantity. -/
theorem fillProgress_apply_le {p f : Fill} (h : fillProgress (some p) f = .apply) :
    p.filledQuantity ≤ f.filledQuantity := by
  simp only [fillProgress] at h
  split at h
  · exact absurd h (by simp)
  · next hlt => exact not_lt.mp hlt

theorem fillProgress_regression {prev : Option Fill} {f : Fill}
    (h : fillProgress prev f = .regression) :
    ∃ p, prev = some p ∧ f.filledQuantity < p.filledQuantity := by
  cases prev with
  | none => exact absurd h (by simp [fillProgress])
  | some p =>
    simp only [fillProgress] at h
    split at h
    · next hlt => exact ⟨p, rfl, hlt⟩
    · split at h <;> exact absurd h (by simp)

/-- `_terminal_order_status`: FILLED once the recorded quantity is reached. -/
def terminalOrderStatus (recordedQty newFilledQty : Decimal) : OrderStatus :=
  if recordedQty > 0 ∧ newFilledQty ≥ recordedQty then .FILLED else .PARTIALLY_FILLED

/-! ## 3. The open SELL remainder -/

/-- `_OrderRow`: the columns of a recorded order that `_open_sell_qty` reads. -/
structure OrderRow where
  clientOrderId : String
  symbol : String
  side : OrderSide
  status : OrderStatus
  orderId : String
  recorded : Decimal
  deriving DecidableEq

/-- `_OPEN_STATUSES`. -/
def openStatuses : List OrderStatus := [.PENDING, .PARTIALLY_FILLED]

theorem pending_mem_openStatuses : OrderStatus.PENDING ∈ openStatuses := by decide

/-- `_open_sell_qty`: the unexecuted quantity of `ticker`'s open SELL orders, leaving out the
    order of `excludeCoid`. `filled` is `filled_by_order_id.get(·, 0)`. -/
def openSellQty (orders : List OrderRow) (filled : String → Decimal) (ticker : String)
    (excludeCoid : Option String := none) : Decimal :=
  orders.foldl (fun total o =>
    if some o.clientOrderId = excludeCoid then total
    else if o.symbol = ticker ∧ o.side = .SELL ∧ o.status ∈ openStatuses then
      let remaining := o.recorded - filled o.orderId
      if remaining > 0 then total + remaining else total
    else total) 0

/-- A row counts when it is an open SELL of the ticker. -/
def OrderRow.IsOpenSell (o : OrderRow) (ticker : String) : Prop :=
  o.symbol = ticker ∧ o.side = .SELL ∧ o.status ∈ openStatuses

instance (o : OrderRow) (ticker : String) : Decidable (o.IsOpenSell ticker) :=
  inferInstanceAs (Decidable (_ ∧ _ ∧ _))

/-- One row's contribution to the open quantity. -/
def OrderRow.remaining (o : OrderRow) (filled : String → Decimal) (ticker : String) : Decimal :=
  if o.IsOpenSell ticker then max (o.recorded - filled o.orderId) 0 else 0

theorem OrderRow.remaining_nonneg (o : OrderRow) (filled : String → Decimal) (ticker : String) :
    0 ≤ o.remaining filled ticker := by
  unfold OrderRow.remaining
  split
  · exact le_max_right _ _
  · exact le_refl _

/-- A filled order is closed exactly when it reached its recorded quantity. -/
theorem terminalOrderStatus_mem_openStatuses (recordedQty newFilledQty : Decimal) :
    terminalOrderStatus recordedQty newFilledQty ∈ openStatuses ↔
      ¬ (recordedQty > 0 ∧ newFilledQty ≥ recordedQty) := by
  unfold terminalOrderStatus
  by_cases h : recordedQty > 0 ∧ newFilledQty ≥ recordedQty
  · simp [h, openStatuses]
  · simp [h, openStatuses]

theorem OrderRow.remaining_of_open {o : OrderRow} {ticker : String} (filled : String → Decimal)
    (h : o.IsOpenSell ticker) : o.remaining filled ticker = max (o.recorded - filled o.orderId) 0 :=
  if_pos h

theorem OrderRow.remaining_of_not_open {o : OrderRow} {ticker : String}
    (filled : String → Decimal) (h : ¬ o.IsOpenSell ticker) : o.remaining filled ticker = 0 :=
  if_neg h

theorem openSellQty_foldl (filled : String → Decimal) (ticker : String)
    (excludeCoid : Option String) : ∀ (orders : List OrderRow) (total : Decimal),
    orders.foldl (fun total o =>
      if some o.clientOrderId = excludeCoid then total
      else if o.symbol = ticker ∧ o.side = .SELL ∧ o.status ∈ openStatuses then
        let remaining := o.recorded - filled o.orderId
        if remaining > 0 then total + remaining else total
      else total) total =
    total + (orders.map fun o =>
      if some o.clientOrderId = excludeCoid then 0 else o.remaining filled ticker).sum
  | [], total => by simp
  | o :: os, total => by
    rw [List.foldl_cons, openSellQty_foldl filled ticker excludeCoid os, List.map_cons,
      List.sum_cons, ← add_assoc]
    congr 1
    by_cases he : some o.clientOrderId = excludeCoid
    · simp [he]
    · rw [if_neg he, if_neg he]
      unfold OrderRow.remaining
      by_cases ho : o.IsOpenSell ticker
      · have ho' : o.symbol = ticker ∧ o.side = .SELL ∧ o.status ∈ openStatuses := ho
        rw [if_pos ho, if_pos ho']
        by_cases hr : o.recorded - filled o.orderId > 0
        · simp only [if_pos hr, max_eq_left (le_of_lt hr)]
        · simp only [if_neg hr, max_eq_right (not_lt.mp hr), add_zero]
      · have ho' : ¬ (o.symbol = ticker ∧ o.side = .SELL ∧ o.status ∈ openStatuses) := ho
        rw [if_neg ho, if_neg ho', add_zero]

/-- The loop is a sum over the rows. -/
theorem openSellQty_eq_sum (orders : List OrderRow) (filled : String → Decimal) (ticker : String)
    (excludeCoid : Option String) :
    openSellQty orders filled ticker excludeCoid = (orders.map fun o =>
      if some o.clientOrderId = excludeCoid then 0 else o.remaining filled ticker).sum := by
  unfold openSellQty
  rw [openSellQty_foldl, zero_add]

end TossSleeve
