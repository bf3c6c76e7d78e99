import TossSleeve.Ledger.Steps
import TossSleeve.Lib.MovingAverage
import Mathlib.Algebra.Order.BigOperators.Group.List
import Mathlib.Data.Finset.Max

/-!
# `Proof/Holdings.lean` — reported positions are exact

`_position_rows` keeps three accumulators per symbol, of which a sale clamps two at zero and lets
the third go negative. What is reported from them is nonetheless exact: one row for each symbol
that is held, its quantity bought less sold, its average price between the cheapest and the
dearest BUY — in whatever order the snapshots are folded, oversold prefixes and full closes
included. When no prefix is oversold, the average is the textbook's (`Lib/MovingAverage.lean`).

* §1: a symbol's slot is the fold over the symbol's own snapshots; a row is read off the slot.
* §2: what a fold keeps (`Slot.Priced`): the net quantity never exceeds the tracked one, and the
  tracked cost stays between the price bounds times the tracked quantity.
* §3: without a short prefix the three accumulators are the textbook holding.
-/

set_option autoImplicit false

namespace TossSleeve.Proof

open Lib

/-! ## 1. A symbol's slot and its row -/

/-- A symbol's snapshots. -/
def fillsOf (ticker : String) (l : List Fill) : List Fill := l.filter (·.symbol = ticker)

/-- The rows of a fold that processes the snapshots in the order given. -/
def positionRowsIn (order : List Fill) : List BrokerPosition :=
  (order.foldl positionStep ∅).rows.filterMap positionOf

/-- The source's order. -/
def processed (snapshots : List Fill) : List Fill := snapshots.insertionSort FilledBefore

theorem processed_perm (snapshots : List Fill) : (processed snapshots).Perm snapshots :=
  List.perm_insertionSort FilledBefore snapshots

def slotOf (agg : Dict String (Currency × Slot)) (ticker : String) : Slot :=
  (agg.get? ticker).elim ⟨0, 0, 0⟩ (·.2)

theorem slotOf_positionStep (agg : Dict String (Currency × Slot)) (f : Fill) (ticker : String) :
    slotOf (positionStep agg f) ticker =
      if f.symbol = ticker then (slotOf agg ticker).book f else slotOf agg ticker := by
  unfold slotOf positionStep
  rw [Dict.get?_set]
  by_cases h : f.symbol = ticker
  · subst h
    rw [if_pos rfl, if_pos rfl, Option.elim_some]
    cases agg.get? f.symbol <;> rfl
  · rw [if_neg h, if_neg fun e => h e.symm]

theorem slotOf_foldl (ticker : String) : ∀ (l : List Fill) (agg : Dict String (Currency × Slot)),
    slotOf (l.foldl positionStep agg) ticker =
      (fillsOf ticker l).foldl Slot.book (slotOf agg ticker)
  | [], _ => rfl
  | f :: fs, agg => by
    rw [List.foldl_cons, slotOf_foldl ticker fs, slotOf_positionStep]
    unfold fillsOf
    by_cases h : f.symbol = ticker <;> simp [h]

/-- The slot a symbol ends with. -/
def finalSlot (order : List Fill) (ticker : String) : Slot :=
  (fillsOf ticker order).foldl Slot.book ⟨0, 0, 0⟩

theorem finalSlot_netQty (order : List Fill) (ticker : String) :
    (finalSlot order ticker).netQty = netQty order ticker := by
  have hslot := slotOf_foldl ticker order ∅
  have hnet := netOf_foldl ticker order ∅
  rw [show netOf ∅ ticker = 0 from rfl, zero_add] at hnet
  rw [← hnet]
  unfold finalSlot
  rw [show slotOf ∅ ticker = ⟨0, 0, 0⟩ from rfl] at hslot
  rw [← hslot]
  unfold slotOf netOf
  cases (order.foldl positionStep ∅).get? ticker <;> rfl

/-- **A symbol's rows**: one when it is held, read off its slot, and none otherwise. -/
theorem positionRowsIn_filter (order : List Fill) (ticker : String) :
    ∃ currency, (positionRowsIn order).filter (·.ticker = ticker) =
      (positionOf (ticker, currency, finalSlot order ticker)).toList := by
  have hticker : ∀ e p, positionOf e = some p → p.ticker = e.1 := by
    intro e p hp
    unfold positionOf at hp
    split at hp
    · cases hp
      rfl
    · exact absurd hp (by simp)
  have hfilter : (positionRowsIn order).filter (·.ticker = ticker) =
      ((order.foldl positionStep ∅).rows.filter (fun e => e.1 = ticker)).filterMap positionOf := by
    unfold positionRowsIn
    rw [List.filter_filterMap, List.filterMap_filter]
    refine List.filterMap_congr ?_
    intro e _
    cases hp : positionOf e with
    | none => simp
    | some p =>
      have hkey := hticker e p hp
      by_cases he : e.1 = ticker <;> simp [Option.filter, hkey, he]
  have hslot := slotOf_foldl ticker order ∅
  rw [show slotOf ∅ ticker = ⟨0, 0, 0⟩ from rfl] at hslot
  rw [hfilter, filter_key (Table.keys_nodup _)]
  show ∃ currency, (((order.foldl positionStep ∅).find? ticker).toList.filterMap positionOf) = _
  rw [Dict.find?_eq]
  unfold slotOf at hslot
  cases h : (order.foldl positionStep ∅).get? ticker with
  | none =>
    rw [h] at hslot
    refine ⟨.KRW, ?_⟩
    rw [finalSlot, ← hslot]
    rfl
  | some e =>
    rw [h] at hslot
    refine ⟨e.1, ?_⟩
    rw [finalSlot, ← hslot]
    show [(ticker, e)].filterMap positionOf = (positionOf (ticker, e)).toList
    cases hp : positionOf (ticker, e) <;> simp [hp]

/-! ## 2. What the fold keeps -/

/-- Nothing held is untracked, and what is tracked cost a price within the bounds. -/
structure Slot.Priced (low high : Decimal) (s : Slot) : Prop where
  net_le : s.netQty ≤ s.buyQty
  qty_nonneg : 0 ≤ s.buyQty
  low_le : low * s.buyQty ≤ s.buyCost
  le_high : s.buyCost ≤ high * s.buyQty

theorem Slot.priced_zero (low high : Decimal) : Slot.Priced low high ⟨0, 0, 0⟩ := by
  refine ⟨le_refl _, le_refl _, ?_, ?_⟩ <;> simp

theorem Slot.book_buy {f : Fill} (hf : f.side = .BUY) (s : Slot) :
    s.book f = ⟨s.netQty + f.filledQuantity, s.buyCost + f.costBasis,
      s.buyQty + f.filledQuantity⟩ := if_pos hf

/-- A sale takes away at the average: nothing is left, or the same average is. -/
theorem Slot.book_sell {f : Fill} (hf : f.side ≠ .BUY) {s : Slot}
    (hnet : s.netQty ≤ s.buyQty) :
    (s.netQty - f.filledQuantity ≤ 0 ∧ s.book f = ⟨s.netQty - f.filledQuantity, 0, 0⟩) ∨
    (f.filledQuantity < s.buyQty ∧ 0 < s.netQty - f.filledQuantity ∧
      s.book f = ⟨s.netQty - f.filledQuantity,
        s.buyCost - s.buyCost / s.buyQty * f.filledQuantity, s.buyQty - f.filledQuantity⟩) := by
  have hpos := f.filledQuantity_pos
  have hbook : s.book f =
      if s.netQty - f.filledQuantity ≤ 0 ∨ s.buyQty - min f.filledQuantity s.buyQty ≤ 0 then
        ⟨s.netQty - f.filledQuantity, 0, 0⟩
      else ⟨s.netQty - f.filledQuantity,
        s.buyCost - (if s.buyQty > 0 then s.buyCost / s.buyQty else 0) *
          min f.filledQuantity s.buyQty,
        s.buyQty - min f.filledQuantity s.buyQty⟩ := if_neg hf
  by_cases hlt : f.filledQuantity < s.buyQty
  · rw [min_eq_left (le_of_lt hlt), if_pos (show s.buyQty > 0 by linarith)] at hbook
    by_cases hclose : s.netQty - f.filledQuantity ≤ 0
    · exact Or.inl ⟨hclose, by rw [hbook, if_pos (Or.inl hclose)]⟩
    · refine Or.inr ⟨hlt, not_le.mp hclose, ?_⟩
      rw [hbook, if_neg]
      intro h
      rcases h with h | h
      · exact hclose h
      · linarith
  · rw [min_eq_right (not_lt.mp hlt)] at hbook
    refine Or.inl ⟨by linarith [not_lt.mp hlt], ?_⟩
    rw [hbook, if_pos (Or.inr (by linarith))]

theorem Slot.Priced.book {low high : Decimal} {s : Slot} (h : Slot.Priced low high s) {f : Fill}
    (hf : f.side = .BUY → low ≤ f.avgPrice ∧ f.avgPrice ≤ high) :
    Slot.Priced low high (s.book f) := by
  obtain ⟨hnet, hqty, hlow, hhigh⟩ := h
  have hpos := f.filledQuantity_pos
  by_cases hside : f.side = .BUY
  · obtain ⟨hl, hh⟩ := hf hside
    have hcl : low * f.filledQuantity ≤ f.costBasis :=
      mul_le_mul_of_nonneg_right hl (le_of_lt hpos)
    have hch : f.costBasis ≤ high * f.filledQuantity :=
      mul_le_mul_of_nonneg_right hh (le_of_lt hpos)
    rw [Slot.book_buy hside]
    constructor
    · show s.netQty + f.filledQuantity ≤ s.buyQty + f.filledQuantity
      linarith
    · show 0 ≤ s.buyQty + f.filledQuantity
      linarith
    · show low * (s.buyQty + f.filledQuantity) ≤ s.buyCost + f.costBasis
      linarith
    · show s.buyCost + f.costBasis ≤ high * (s.buyQty + f.filledQuantity)
      linarith
  · rcases Slot.book_sell hside hnet with ⟨hclose, hbook⟩ | ⟨hlt, -, hbook⟩
    · rw [hbook]
      exact ⟨hclose, le_refl _, by simp, by simp⟩
    · rw [hbook]
      have hqpos : 0 < s.buyQty := by linarith
      have hleft : 0 < s.buyQty - f.filledQuantity := by linarith
      -- The cost that stays is the average times the quantity that stays.
      have hcost : s.buyCost - s.buyCost / s.buyQty * f.filledQuantity =
          s.buyCost / s.buyQty * (s.buyQty - f.filledQuantity) := by
        field_simp
      constructor
      · show s.netQty - f.filledQuantity ≤ s.buyQty - f.filledQuantity
        linarith
      · exact le_of_lt hleft
      · show low * (s.buyQty - f.filledQuantity) ≤
          s.buyCost - s.buyCost / s.buyQty * f.filledQuantity
        rw [hcost]
        exact mul_le_mul_of_nonneg_right ((le_div_iff₀ hqpos).mpr hlow) (le_of_lt hleft)
      · show s.buyCost - s.buyCost / s.buyQty * f.filledQuantity ≤
          high * (s.buyQty - f.filledQuantity)
        rw [hcost]
        exact mul_le_mul_of_nonneg_right ((div_le_iff₀ hqpos).mpr hhigh) (le_of_lt hleft)

theorem Slot.priced_foldl {low high : Decimal} : ∀ {l : List Fill} {s : Slot},
    Slot.Priced low high s →
    (∀ f ∈ l, f.side = .BUY → low ≤ f.avgPrice ∧ f.avgPrice ≤ high) →
    Slot.Priced low high (l.foldl Slot.book s) := by
  intro l
  induction l with
  | nil => exact fun h _ => h
  | cons f fs ih =>
    intro s h hl
    apply ih
    · exact h.book (hl f (List.mem_cons_self ..))
    · exact fun g hg => hl g (List.mem_cons_of_mem _ hg)

/-! ## 3. The textbook, where it applies -/

/-- A snapshot as one trade. -/
def Fill.trade (f : Fill) : Trade Decimal :=
  { incoming := f.side = .BUY, qty := f.filledQuantity, cost := f.costBasis }

/-- A holding as the three accumulators. -/
def heldSlot (h : Inventory Decimal) : Slot := ⟨h.qty, h.cost, h.qty⟩

theorem signedQty_trade {f : Fill} {ticker : String} (h : f.symbol = ticker) :
    (Fill.trade f).signedQty = f.signedQty ticker := by
  unfold Trade.signedQty Fill.signedQty Fill.trade
  rw [if_pos h]
  by_cases hs : f.side = .BUY <;> simp [hs]

theorem book_heldSlot {h h' : Inventory Decimal} {f : Fill} (ht : h.trade (Fill.trade f) = some h') :
    (heldSlot h).book f = heldSlot h' := by
  have hpos := f.filledQuantity_pos
  by_cases hside : f.side = .BUY
  · rw [Slot.book_buy hside]
    unfold Inventory.trade Fill.trade at ht
    rw [if_pos (by simpa using hside)] at ht
    cases ht
    rfl
  · have hin : (Fill.trade f).incoming = false := by simpa [Fill.trade] using hside
    have hsell : h.trade (Fill.trade f) = (if h.qty < f.filledQuantity then none
        else if h.qty = f.filledQuantity then some ⟨0, 0⟩
        else some ⟨h.qty - f.filledQuantity, h.cost - h.average * f.filledQuantity⟩ :
          Option (Inventory Decimal)) := Inventory.trade_sell hin
    rw [hsell] at ht
    by_cases hlt : h.qty < f.filledQuantity
    · rw [if_pos hlt] at ht
      exact absurd ht (by simp)
    · have hle : f.filledQuantity ≤ h.qty := not_lt.mp hlt
      rw [if_neg hlt] at ht
      rcases Slot.book_sell hside (le_refl (heldSlot h).netQty) with
        ⟨hclose, hbook⟩ | ⟨-, hopen, hbook⟩
      · have hclose' : h.qty - f.filledQuantity ≤ 0 := hclose
        have heq : h.qty = f.filledQuantity := le_antisymm (by linarith) hle
        rw [if_pos heq] at ht
        cases ht
        rw [hbook]
        show (⟨h.qty - f.filledQuantity, 0, 0⟩ : Slot) = ⟨0, 0, 0⟩
        rw [show h.qty - f.filledQuantity = 0 by linarith]
      · have hopen' : 0 < h.qty - f.filledQuantity := hopen
        rw [if_neg (show ¬ h.qty = f.filledQuantity by intro he; linarith)] at ht
        cases ht
        rw [hbook]
        rfl

theorem foldl_heldSlot : ∀ {l : List Fill} {h h' : Inventory Decimal},
    (l.map Fill.trade).foldlM Inventory.trade h = some h' →
    l.foldl Slot.book (heldSlot h) = heldSlot h'
  | [], _, _, hf => by
    cases hf
    rfl
  | f :: fs, h, h', hf => by
    rw [List.map_cons, List.foldlM_cons, Option.bind_eq_bind, Option.bind_eq_some_iff] at hf
    obtain ⟨h₁, ht, hrest⟩ := hf
    rw [List.foldl_cons, book_heldSlot ht]
    exact foldl_heldSlot hrest

/-- Where the textbook goes through, the slot is its holding. -/
theorem finalSlot_of_movingAverage {order : List Fill} {ticker : String} {h : Inventory Decimal}
    (hm : movingAverage ((fillsOf ticker order).map Fill.trade) = some h) :
    finalSlot order ticker = heldSlot h := foldl_heldSlot hm

theorem netQty_eq_fillsOf (ticker : String) : ∀ l : List Fill,
    netQty l ticker = ((fillsOf ticker l).map fun f => (Fill.trade f).signedQty).sum
  | [] => rfl
  | f :: fs => by
    have ih := netQty_eq_fillsOf ticker fs
    have hcons : netQty (f :: fs) ticker = f.signedQty ticker + netQty fs ticker := by
      simp [netQty]
    rw [hcons, ih]
    unfold fillsOf
    by_cases hs : f.symbol = ticker
    · rw [List.filter_cons_of_pos (by simpa using hs), List.map_cons, List.sum_cons,
        signedQty_trade hs]
    · rw [List.filter_cons_of_neg (by simpa using hs), Fill.signedQty, if_neg hs, zero_add]

/-- It goes through when no prefix sells more than it has bought. -/
theorem exists_movingAverage {order : List Fill} {ticker : String}
    (hcov : ∀ n, 0 ≤ netQty (order.take n) ticker) :
    ∃ h, movingAverage ((fillsOf ticker order).map Fill.trade) = some h := by
  refine exists_foldlM_trade (fun f : Fill => decide (f.symbol = ticker)) Fill.trade ?_
  intro n
  rw [zero_add]
  have := hcov n
  rwa [netQty_eq_fillsOf] at this

/-! ## 4. The reported rows -/

/-- A symbol's BUY snapshots. -/
def buysOf (ticker : String) (l : List Fill) : List Fill :=
  l.filter fun f => f.symbol = ticker ∧ f.side = .BUY

/-- What is held was bought. -/
theorem exists_buy {l : List Fill} {ticker : String} (h : 0 < netQty l ticker) :
    ∃ f, f ∈ buysOf ticker l := by
  have hlt : (l.map fun _ => (0 : Decimal)).sum < (l.map (·.signedQty ticker)).sum := by
    have hsum : 0 < (l.map (·.signedQty ticker)).sum := h
    simpa using hsum
  obtain ⟨f, hf, hpos⟩ := List.exists_lt_of_sum_lt _ _ hlt
  refine ⟨f, List.mem_filter.mpr ⟨hf, ?_⟩⟩
  unfold Fill.signedQty at hpos
  have := f.filledQuantity_pos
  by_cases hs : f.symbol = ticker
  · rw [if_pos hs] at hpos
    by_cases hside : f.side = .BUY
    · simp [hs, hside]
    · rw [if_neg hside] at hpos
      linarith
  · rw [if_neg hs] at hpos
    exact absurd hpos (lt_irrefl _)

/-- The cheapest BUY and the dearest. -/
theorem exists_price_bounds {l : List Fill} {ticker : String} (h : 0 < netQty l ticker) :
    ∃ low ∈ buysOf ticker l, ∃ high ∈ buysOf ticker l, ∀ f ∈ buysOf ticker l,
      low.avgPrice ≤ f.avgPrice ∧ f.avgPrice ≤ high.avgPrice := by
  obtain ⟨f, hf⟩ := exists_buy h
  have hne : (buysOf ticker l).toFinset.Nonempty := ⟨f, List.mem_toFinset.mpr hf⟩
  obtain ⟨low, hlow, hmin⟩ := Finset.exists_min_image _ (·.avgPrice) hne
  obtain ⟨high, hhigh, hmax⟩ := Finset.exists_max_image _ (·.avgPrice) hne
  refine ⟨low, List.mem_toFinset.mp hlow, high, List.mem_toFinset.mp hhigh, ?_⟩
  intro g hg
  have hg' := List.mem_toFinset.mpr hg
  exact ⟨hmin g hg', hmax g hg'⟩

/-- What a row of the fold is. -/
theorem mem_positionRowsIn {order : List Fill} {row : BrokerPosition}
    (h : row ∈ positionRowsIn order) :
    0 < netQty order row.ticker ∧ row.quantity = netQty order row.ticker ∧
    row.avgPrice = (if (finalSlot order row.ticker).buyQty > 0 then
      (finalSlot order row.ticker).buyCost / (finalSlot order row.ticker).buyQty else 0) := by
  obtain ⟨currency, hrows⟩ := positionRowsIn_filter order row.ticker
  have hmem : row ∈ (positionRowsIn order).filter (·.ticker = row.ticker) :=
    List.mem_filter.mpr ⟨h, by simp⟩
  rw [hrows, Option.mem_toList] at hmem
  have hrow : positionOf (row.ticker, currency, finalSlot order row.ticker) = some row := hmem
  unfold positionOf at hrow
  split at hrow
  · next hpos =>
    rw [finalSlot_netQty] at hpos
    have hrow' := Option.some.inj hrow
    refine ⟨hpos, ?_, ?_⟩
    · rw [← finalSlot_netQty]
      exact (congrArg BrokerPosition.quantity hrow').symm
    · exact (congrArg BrokerPosition.avgPrice hrow').symm
  · exact absurd hrow (by simp)

theorem quantities_positionRowsIn (order : List Fill) (ticker : String) :
    ((positionRowsIn order).filter (·.ticker = ticker)).map (·.quantity) =
      if 0 < netQty order ticker then [netQty order ticker] else [] := by
  obtain ⟨currency, hrows⟩ := positionRowsIn_filter order ticker
  rw [hrows]
  unfold positionOf
  simp only [finalSlot_netQty]
  by_cases hpos : netQty order ticker > 0
  · rw [if_pos hpos, if_pos hpos]
    rfl
  · rw [if_neg hpos, if_neg hpos]
    rfl

/-- Where the textbook goes through, a row reports its holding. -/
theorem row_of_movingAverage {order : List Fill} {row : BrokerPosition} {h : Inventory Decimal}
    (hrow : row ∈ positionRowsIn order)
    (hm : movingAverage ((fillsOf row.ticker order).map Fill.trade) = some h) :
    row.quantity = h.qty ∧ row.avgPrice = h.average := by
  obtain ⟨hpos, hqty, havg⟩ := mem_positionRowsIn hrow
  have hslot := finalSlot_of_movingAverage hm
  have hnet : netQty order row.ticker = h.qty := by
    rw [← finalSlot_netQty, hslot]
    rfl
  refine ⟨hqty.trans hnet, ?_⟩
  rw [havg, hslot]
  exact if_pos (show h.qty > 0 by rw [← hnet]; exact hpos)

theorem avgPrice_within {order : List Fill} {row : BrokerPosition} {low high : Decimal}
    (hrow : row ∈ positionRowsIn order)
    (hb : ∀ f ∈ buysOf row.ticker order, low ≤ f.avgPrice ∧ f.avgPrice ≤ high) :
    low ≤ row.avgPrice ∧ row.avgPrice ≤ high := by
  obtain ⟨hpos, -, havg⟩ := mem_positionRowsIn hrow
  have hpriced : Slot.Priced low high (finalSlot order row.ticker) := by
    refine Slot.priced_foldl (Slot.priced_zero low high) ?_
    intro f hf hside
    obtain ⟨hmem, hsym⟩ := List.mem_filter.mp hf
    exact hb f (List.mem_filter.mpr ⟨hmem, by simpa [hside] using hsym⟩)
  have hqty : 0 < (finalSlot order row.ticker).buyQty := by
    have := hpriced.net_le
    rw [finalSlot_netQty] at this
    linarith
  rw [havg, if_pos hqty]
  exact ⟨(le_div_iff₀ hqty).mpr hpriced.low_le, (div_le_iff₀ hqty).mpr hpriced.le_high⟩

/-- The snapshots a ledger holds. -/
def storedFills (l : InMemorySleeveLedger) : List Fill := l.snapshots.rows.map Prod.snd

/-- **Reported positions are exact.** -/
theorem positions_exact (l : InMemorySleeveLedger) (ticker : String) :
    (∀ order, order.Perm (storedFills l) →
      ((positionRowsIn order).filter (·.ticker = ticker)).map (·.quantity) =
        if 0 < netQty (storedFills l) ticker then [netQty (storedFills l) ticker] else []) ∧
    (l.positions.filter (·.ticker = ticker)).map (·.quantity) =
      (if 0 < netQty (storedFills l) ticker then [netQty (storedFills l) ticker] else []) ∧
    l.positionQuantity ticker = max (netQty (storedFills l) ticker) 0 ∧
    ∀ row ∈ l.positions, row.ticker = ticker →
      0 < row.avgPrice ∧
      (∃ low ∈ buysOf ticker (storedFills l), ∃ high ∈ buysOf ticker (storedFills l),
        (∀ f ∈ buysOf ticker (storedFills l),
          low.avgPrice ≤ f.avgPrice ∧ f.avgPrice ≤ high.avgPrice) ∧
        low.avgPrice ≤ row.avgPrice ∧ row.avgPrice ≤ high.avgPrice) ∧
      ((∀ n, 0 ≤ netQty ((processed (storedFills l)).take n) ticker) →
        ∃ h, movingAverage ((fillsOf ticker (processed (storedFills l))).map Fill.trade) = some h ∧
          row.quantity = h.qty ∧ row.avgPrice = h.average) := by
  have hany : ∀ order, order.Perm (storedFills l) →
      ((positionRowsIn order).filter (·.ticker = ticker)).map (·.quantity) =
        if 0 < netQty (storedFills l) ticker then [netQty (storedFills l) ticker] else [] := by
    intro order hperm
    rw [quantities_positionRowsIn, netQty_perm hperm]
  refine ⟨hany, hany _ (processed_perm _), positionQuantity_eq _ _, ?_⟩
  intro row hrow ht
  subst ht
  have hrow' : row ∈ positionRowsIn (processed (storedFills l)) := hrow
  have hpos := (mem_positionRowsIn hrow').1
  rw [netQty_perm (processed_perm _)] at hpos
  obtain ⟨low, hlow, high, hhigh, hb⟩ := exists_price_bounds hpos
  have hwithin : low.avgPrice ≤ row.avgPrice ∧ row.avgPrice ≤ high.avgPrice := by
    refine avgPrice_within hrow' ?_
    intro f hf
    have hmem := (processed_perm (storedFills l)).mem_iff (a := f)
    obtain ⟨hin, hp⟩ := List.mem_filter.mp hf
    exact hb f (List.mem_filter.mpr ⟨hmem.mp hin, hp⟩)
  refine ⟨lt_of_lt_of_le low.avgPrice_pos hwithin.1, ⟨low, hlow, high, hhigh, hb, hwithin⟩, ?_⟩
  intro hcov
  obtain ⟨h, hm⟩ := exists_movingAverage hcov
  exact ⟨h, hm, row_of_movingAverage hrow' hm⟩

end TossSleeve.Proof
