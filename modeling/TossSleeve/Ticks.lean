import TossSleeve.Types
import TossSleeve.Lib.Grid
import Mathlib.Data.Rat.Floor

/-!
# `TossSleeve/Ticks.lean` — tick sizes and snapping (`ticks.py`)

The exchange takes an order price only as a multiple of its tick size, and in KRW the tick size
grows with the price. A strategy's computed price is snapped before it is sent: down for a BUY, up
for a SELL.

The source looks the tick up at the price it is given — truncated to whole won — and rounds to a
multiple of it; the exchange judges the price it receives, in *its* band. Every end of the KRX
table is a multiple of the tick below it and of the tick above it (`krwBands_compatible`), so the
two agree, and the snapped price is the best valid one (`snap_optimal`).
-/

set_option autoImplicit false

namespace TossSleeve

open Lib

/-! ## 1. The source -/

/-- `_KRX_TICKS`: upper end of the price range, tick. -/
def krxTicks : List (ℤ × ℤ) :=
  [(2000, 1), (5000, 5), (20000, 10), (50000, 50), (200000, 100), (500000, 500)]

/-- `_KRX_TOP`: the tick from 500,000 won on. -/
def krxTop : ℤ := 1000

/-- `_USD_TICK`: a cent. -/
def usdTick : Decimal := 1 / 100

/-- `int(x)`: towards zero. -/
def truncate (x : Decimal) : ℤ := if 0 ≤ x then ⌊x⌋ else ⌈x⌉

/-- `x // y` of two Decimals: the integral part of the quotient, towards zero. -/
def floorDiv (x y : Decimal) : Decimal := truncate (x / y)

/-- `tick_size`. -/
def tickSize (price : Decimal) : Currency → Decimal
  | .USD => usdTick
  | .KRW => (((krxTicks.find? fun b => truncate price < b.1).map (·.2)).getD krxTop : ℤ)

/-- `snap_down`. -/
def snapDown (price : Decimal) (currency : Currency) : Decimal :=
  let t := tickSize price currency
  floorDiv price t * t

/-- `snap_up`. -/
def snapUp (price : Decimal) (currency : Currency) : Decimal :=
  let t := tickSize price currency
  let floored := floorDiv price t * t
  if floored = price then floored else floored + t

/-- What the exchange accepts: a multiple of the price's own tick. -/
def ValidPrice (price : Decimal) (currency : Currency) : Prop :=
  ∃ n : ℤ, price = n * tickSize price currency

/-! ## 2. The table as bands -/

def krwBands : Bands Decimal where
  bands := krxTicks.map fun b => ((b.1 : Decimal), (b.2 : Decimal))
  top := krxTop

def usdBands : Bands Decimal := ⟨[], usdTick⟩

def tickBands : Currency → Bands Decimal
  | .KRW => krwBands
  | .USD => usdBands

theorem truncate_lt_iff {x : Decimal} (hx : 0 ≤ x) (n : ℤ) : truncate x < n ↔ x < n := by
  unfold truncate
  rw [if_pos hx]
  exact Int.floor_lt

/-- The loop over a table with whole-won ends finds the band of the price itself: cutting the
    fraction off changes no comparison with a whole number. -/
theorem find?_ticks {x : Decimal} (hx : 0 ≤ x) (top : ℤ) : ∀ ticks : List (ℤ × ℤ),
    (((ticks.find? fun b => truncate x < b.1).map (·.2)).getD top : ℤ) =
      Bands.stepAt (top : Decimal) x (ticks.map fun b => ((b.1 : Decimal), (b.2 : Decimal)))
  | [] => rfl
  | b :: bs => by
    rw [List.map_cons, Bands.stepAt]
    by_cases h : truncate x < b.1
    · rw [List.find?_cons_of_pos (by simpa using h), if_pos ((truncate_lt_iff hx b.1).mp h)]
      rfl
    · rw [List.find?_cons_of_neg (by simpa using h),
        if_neg fun hc => h ((truncate_lt_iff hx b.1).mpr hc)]
      exact find?_ticks hx top bs

theorem tickSize_eq {price : Decimal} (hp : 0 ≤ price) (currency : Currency) :
    tickSize price currency = (tickBands currency).step price := by
  cases currency with
  | KRW => exact find?_ticks hp krxTop krxTicks
  | USD => rfl

theorem mem_zmultiples {t x : Decimal} (n : ℤ) (h : x = n * t) :
    x ∈ AddSubgroup.zmultiples t := by
  rw [h, ← zsmul_eq_mul]
  exact AddSubgroup.mem_zmultiples_iff.mpr ⟨n, rfl⟩

/-- **Every end of the table fits the ticks on both its sides.** -/
theorem krwBands_compatible : krwBands.Compatible := by
  refine ⟨by norm_num, by norm_num, mem_zmultiples 0 (by norm_num),
    mem_zmultiples 2000 (by norm_num), ?_⟩
  refine ⟨by norm_num, by norm_num, mem_zmultiples 400 (by norm_num),
    mem_zmultiples 1000 (by norm_num), ?_⟩
  refine ⟨by norm_num, by norm_num, mem_zmultiples 500 (by norm_num),
    mem_zmultiples 2000 (by norm_num), ?_⟩
  refine ⟨by norm_num, by norm_num, mem_zmultiples 400 (by norm_num),
    mem_zmultiples 1000 (by norm_num), ?_⟩
  refine ⟨by norm_num, by norm_num, mem_zmultiples 500 (by norm_num),
    mem_zmultiples 2000 (by norm_num), ?_⟩
  refine ⟨by norm_num, by norm_num, mem_zmultiples 400 (by norm_num),
    mem_zmultiples 1000 (by norm_num), ?_⟩
  exact ⟨by norm_num [krwBands, krxTop], mem_zmultiples 500 (by norm_num [krwBands, krxTop])⟩

theorem usdBands_compatible : usdBands.Compatible :=
  ⟨by norm_num [usdBands, usdTick], mem_zmultiples 0 (by norm_num)⟩

theorem tickBands_compatible (currency : Currency) : (tickBands currency).Compatible := by
  cases currency with
  | KRW => exact krwBands_compatible
  | USD => exact usdBands_compatible

/-! ## 3. Snapping is rounding to the bands -/

theorem tickSize_pos {price : Decimal} (hp : 0 ≤ price) (currency : Currency) :
    0 < tickSize price currency := by
  rw [tickSize_eq hp]
  exact Bands.step_pos (tickBands_compatible currency) hp

theorem floorDiv_eq {x t : Decimal} (hx : 0 ≤ x) (ht : 0 < t) : floorDiv x t = ⌊x / t⌋ := by
  unfold floorDiv truncate
  rw [if_pos (div_nonneg hx (le_of_lt ht))]

theorem snapDown_eq {price : Decimal} (hp : 0 ≤ price) (currency : Currency) :
    snapDown price currency = (tickBands currency).down price := by
  show floorDiv price (tickSize price currency) * tickSize price currency = _
  rw [floorDiv_eq hp (tickSize_pos hp currency), tickSize_eq hp]
  rfl

theorem snapUp_eq {price : Decimal} (hp : 0 ≤ price) (currency : Currency) :
    snapUp price currency = (tickBands currency).up price := by
  show (if snapDown price currency = price then snapDown price currency
    else snapDown price currency + tickSize price currency) = _
  unfold Bands.up
  rw [snapDown_eq hp, tickSize_eq hp]
  by_cases h : (tickBands currency).down price = price
  · rw [if_pos h, if_pos h, h]
  · rw [if_neg h, if_neg h]

theorem validPrice_iff {price : Decimal} (hp : 0 ≤ price) (currency : Currency) :
    ValidPrice price currency ↔ (tickBands currency).OnGrid price := by
  unfold ValidPrice Bands.OnGrid
  rw [tickSize_eq hp, AddSubgroup.mem_zmultiples_iff]
  constructor
  · intro h
    obtain ⟨n, hn⟩ := h
    exact ⟨n, by rw [zsmul_eq_mul]; exact hn.symm⟩
  · intro h
    obtain ⟨n, hn⟩ := h
    exact ⟨n, by rw [← zsmul_eq_mul]; exact hn.symm⟩

theorem snapDown_isGreatest {price : Decimal} (hp : 0 ≤ price) (currency : Currency) :
    IsGreatest {x | 0 ≤ x ∧ ValidPrice x currency ∧ x ≤ price} (snapDown price currency) := by
  rw [snapDown_eq hp]
  obtain ⟨hmem, hub⟩ := Bands.down_isGreatest (tickBands_compatible currency) hp
  obtain ⟨hnn, hgrid, hle⟩ := hmem
  refine ⟨⟨hnn, (validPrice_iff hnn currency).mpr hgrid, hle⟩, ?_⟩
  intro x hx
  exact hub ⟨hx.1, (validPrice_iff hx.1 currency).mp hx.2.1, hx.2.2⟩

theorem snapUp_isLeast {price : Decimal} (hp : 0 ≤ price) (currency : Currency) :
    IsLeast {x | ValidPrice x currency ∧ price ≤ x} (snapUp price currency) := by
  rw [snapUp_eq hp]
  obtain ⟨hmem, hlb⟩ := Bands.up_isLeast (tickBands_compatible currency) hp
  obtain ⟨hgrid, hle⟩ := hmem
  refine ⟨⟨(validPrice_iff (le_trans hp hle) currency).mpr hgrid, hle⟩, ?_⟩
  intro x hx
  exact hlb ⟨(validPrice_iff (le_trans hp hx.2) currency).mp hx.1, hx.2⟩

/-- **Snapping is optimal and lands on a valid price.** -/
theorem snap_optimal (price : Decimal) (currency : Currency) (hp : 0 < price) :
    IsGreatest {x | 0 ≤ x ∧ ValidPrice x currency ∧ x ≤ price} (snapDown price currency) ∧
    IsLeast {x | ValidPrice x currency ∧ price ≤ x} (snapUp price currency) ∧
    snapDown (snapDown price currency) currency = snapDown price currency ∧
    snapUp (snapUp price currency) currency = snapUp price currency ∧
    (∀ higher, price ≤ higher →
      snapDown price currency ≤ snapDown higher currency ∧
      snapUp price currency ≤ snapUp higher currency) ∧
    (snapDown price currency = snapUp price currency ↔ ValidPrice price currency) ∧
    (¬ ValidPrice price currency →
      snapUp price currency = snapDown price currency + tickSize price currency) := by
  have hnn := le_of_lt hp
  have hg := tickBands_compatible currency
  have hdown := (snapDown_isGreatest hnn currency).1.1
  have hup := le_trans hnn (snapUp_isLeast hnn currency).1.2
  refine ⟨snapDown_isGreatest hnn currency, snapUp_isLeast hnn currency, ?_, ?_, ?_, ?_, ?_⟩
  · rw [snapDown_eq hdown, snapDown_eq hnn]
    exact Bands.down_idem hg hnn
  · rw [snapUp_eq hup, snapUp_eq hnn]
    exact Bands.up_idem hg hnn
  · intro higher hle
    have hhigher := le_trans hnn hle
    rw [snapDown_eq hnn, snapUp_eq hnn, snapDown_eq hhigher, snapUp_eq hhigher]
    exact ⟨Bands.down_mono hg hnn hle, Bands.up_mono hg hnn hle⟩
  · rw [snapDown_eq hnn, snapUp_eq hnn, validPrice_iff hnn]
    exact Bands.down_eq_up_iff hg hnn
  · rw [snapDown_eq hnn, snapUp_eq hnn, validPrice_iff hnn, tickSize_eq hnn]
    exact Bands.up_eq_down_add hg hnn

/-- A fraction below the end of a range: snapped up it lands on the end, where the tick is 5. -/
theorem snap_optimal_below_end :
    snapDown (3999 / 2) .KRW = 1999 ∧ snapUp (3999 / 2) .KRW = 2000 ∧ tickSize 2000 .KRW = 5 ∧
    IsLeast {x | ValidPrice x .KRW ∧ 3999 / 2 ≤ x} (snapUp (3999 / 2) .KRW) := by
  refine ⟨by decide +kernel, by decide +kernel, by decide +kernel, ?_⟩
  exact (snap_optimal (3999 / 2) .KRW (by norm_num)).2.1

end TossSleeve
