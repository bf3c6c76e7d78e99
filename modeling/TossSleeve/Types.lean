import Mathlib.Data.Rat.Lemmas
import Mathlib.Algebra.Order.Ring.Rat
import Mathlib.Data.String.Basic
import Mathlib.Tactic.Positivity
import Mathlib.Tactic.Linarith
import Mathlib.Tactic.Ring

/-!
# `TossSleeve/Types.lean` — the package's value types (`types.py`)

The value types the ledger and the broker exchange, under the source's names.

Money. Every price, amount and quantity of the package is a `decimal.Decimal`; here it is an
exact rational, so a sum or a product is never rounded to the context's 28 digits. What the
source checks with `is_finite()` therefore has no counterpart: a `Decimal` of this development
is finite.

Validation. The `__post_init__` of `OrderRequest` and of `Fill` refuses to build a bad value, so
its checks are **fields** of the two structures: every function below may use that a fill has a
positive quantity without asking for it.

Dates (`filled_at`, `settlement_date`, `today`) are ISO strings compared as strings, by code
point, exactly as the source compares them.
-/

set_option autoImplicit false

namespace TossSleeve

/-- `decimal.Decimal`, without rounding. -/
abbrev Decimal := ℚ

inductive Currency where
  | KRW | USD
  deriving DecidableEq, Repr

inductive OrderSide where
  | BUY | SELL
  deriving DecidableEq, Repr

inductive OrderType where
  | MARKET | LIMIT
  deriving DecidableEq, Repr

/-- Order validity: `DAY`, and the US closing and opening auctions. -/
inductive TimeInForce where
  | DAY | CLS | OPG
  deriving DecidableEq, Repr

inductive OrderStatus where
  | PENDING | PARTIALLY_FILLED | FILLED | CANCELLED | REJECTED
  deriving DecidableEq, Repr

/-- A single order. Exactly one of `quantity` and `orderAmount` is given; the amount form is for
    MARKET BUY only; `price` is required of a LIMIT. -/
structure OrderRequest where
  ticker : String
  side : OrderSide
  orderType : OrderType
  currency : Currency
  quantity : Option Decimal := none
  orderAmount : Option Decimal := none
  price : Option Decimal := none
  timeInForce : TimeInForce := .DAY
  /-- The idempotency key, passed to Toss as `clientOrderId`. -/
  clientOrderId : String := ""
  ticker_ne : ticker ≠ "" := by decide
  quantity_xor_amount : quantity.isSome ≠ orderAmount.isSome := by decide
  quantity_pos : ∀ q ∈ quantity, 0 < q := by decide +kernel
  amount_marketBuy : orderAmount.isSome → side = .BUY ∧ orderType = .MARKET := by decide
  amount_pos : ∀ a ∈ orderAmount, 0 < a := by decide +kernel
  limit_price : orderType = .LIMIT → price.isSome := by decide
  price_pos : ∀ p ∈ price, 0 < p := by decide +kernel
  deriving DecidableEq

/-- A LIMIT order for whole shares at a whole price, at least one of either. The concrete runs of
the later files are told with these. -/
def OrderRequest.limit (side : OrderSide) (shares price : ℕ) (clientOrderId : String) :
    OrderRequest where
  ticker := "005930"
  side
  orderType := .LIMIT
  currency := .KRW
  quantity := some (max shares 1 : ℕ)
  price := some (max price 1 : ℕ)
  clientOrderId
  ticker_ne := by decide
  quantity_xor_amount := by simp
  quantity_pos := by rintro _ ⟨⟩; positivity
  amount_marketBuy := by simp
  amount_pos := by simp
  limit_price := by simp
  price_pos := by rintro _ ⟨⟩; positivity

structure OrderAck where
  accepted : Bool
  orderId : String
  clientOrderId : String
  message : String := ""
  deriving DecidableEq, Repr

structure BrokerPosition where
  ticker : String
  quantity : Decimal
  avgPrice : Decimal
  currency : Currency
  deriving DecidableEq, Repr

/-- A *cumulative* execution snapshot of one order: quantity, commission and tax are the order's
    totals so far, not the last execution's. -/
structure Fill where
  orderId : String
  clientOrderId : String
  symbol : String
  side : OrderSide
  currency : Currency
  filledQuantity : Decimal
  avgPrice : Decimal
  commission : Decimal
  tax : Decimal
  filledAt : String
  settlementDate : String
  filledQuantity_pos : 0 < filledQuantity
  avgPrice_pos : 0 < avgPrice
  commission_nonneg : 0 ≤ commission
  tax_nonneg : 0 ≤ tax
  deriving DecidableEq

/-- A snapshot in whole shares at a whole price, at least one of either. The concrete runs of the
    later files are told with these. -/
def Fill.whole (orderId clientOrderId symbol : String) (side : OrderSide) (currency : Currency)
    (shares price fee : ℕ) (settlementDate : String) : Fill where
  orderId
  clientOrderId
  symbol
  side
  currency
  filledQuantity := (max shares 1 : ℕ)
  avgPrice := (max price 1 : ℕ)
  commission := fee
  tax := 0
  filledAt := "2024-01-02"
  settlementDate
  filledQuantity_pos := by positivity
  avgPrice_pos := by positivity
  commission_nonneg := by positivity
  tax_nonneg := le_refl 0

/-- The executed principal, fees excluded. -/
def Fill.costBasis (f : Fill) : Decimal := f.avgPrice * f.filledQuantity

theorem Fill.costBasis_pos (f : Fill) : 0 < f.costBasis :=
  mul_pos f.avgPrice_pos f.filledQuantity_pos

/-- What one order's snapshots have in common: an order has one symbol, one side and one
    currency. -/
def Fill.SameOrder (f g : Fill) : Prop :=
  f.symbol = g.symbol ∧ f.side = g.side ∧ f.currency = g.currency

instance (f g : Fill) : Decidable (f.SameOrder g) := inferInstanceAs (Decidable (_ ∧ _ ∧ _))

/-- A LIMIT order states its quantity: the amount form is for MARKET orders. -/
theorem OrderRequest.limit_quantity (req : OrderRequest) (h : req.orderType = .LIMIT) :
    req.quantity.isSome ∧ req.orderAmount = none := by
  have hnone : req.orderAmount = none := by
    cases ha : req.orderAmount with
    | none => rfl
    | some a =>
      have := (req.amount_marketBuy (by simp [ha])).2
      rw [h] at this
      exact absurd this (by decide)
  refine ⟨?_, hnone⟩
  have := req.quantity_xor_amount
  rw [hnone] at this
  cases hq : req.quantity with
  | none => simp [hq] at this
  | some q => rfl

end TossSleeve
