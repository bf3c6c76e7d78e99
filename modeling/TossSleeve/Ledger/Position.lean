import TossSleeve.Ledger.Rules
import Mathlib.Data.List.Sort

/-!
# `Ledger/Position.lean` — positions from snapshots (`_position_rows`)

A sleeve's holdings are never stored: they are folded, on every read, from the latest snapshot of
each order, in `(filled_at, order_id)` order, by a moving-average rule with three accumulators
per symbol.

The rest of the development asks this file two things, one a section:

* §2 — **what quantity a row reports**: bought less sold, when that is positive
  (`positionQuantity_eq`). The average price and the order of the snapshots do not enter;
* §3 — **what the fold depends on**: neither on the order in which a store happens to hold its
  snapshots nor on the `client_order_id` they carry (`positionRows_eq_of_perm`). That is what two
  stores that keep the same snapshots in different ways have to know about it.

`agg` and `cur_of` are two dictionaries in the source, filled by `setdefault` at the same keys at
the same time; here one dictionary carries the pair.
-/

set_option autoImplicit false

namespace TossSleeve

open Lib

/-! ## 1. The fold -/

/-- `agg[symbol]`: `[net_qty, buy_cost, buy_qty]`. -/
structure Slot where
  netQty : Decimal
  buyCost : Decimal
  buyQty : Decimal
  deriving DecidableEq

/-- One snapshot booked into its symbol's accumulators. -/
def Slot.book (slot : Slot) (f : Fill) : Slot :=
  if f.side = .BUY then
    { netQty := slot.netQty + f.filledQuantity
      buyCost := slot.buyCost + f.costBasis
      buyQty := slot.buyQty + f.filledQuantity }
  else
    let avg := if slot.buyQty > 0 then slot.buyCost / slot.buyQty else 0
    let removed := min f.filledQuantity slot.buyQty
    let buyCost := slot.buyCost - avg * removed
    let buyQty := slot.buyQty - removed
    let netQty := slot.netQty - f.filledQuantity
    if netQty ≤ 0 ∨ buyQty ≤ 0 then { netQty, buyCost := 0, buyQty := 0 }
    else { netQty, buyCost, buyQty }

/-- The sort key's order: `(f.filled_at, f.order_id)`. -/
def FilledBefore (f g : Fill) : Prop :=
  f.filledAt < g.filledAt ∨ (f.filledAt = g.filledAt ∧ f.orderId ≤ g.orderId)

instance : DecidableRel FilledBefore := fun f g =>
  inferInstanceAs
    (Decidable (f.filledAt < g.filledAt ∨ (f.filledAt = g.filledAt ∧ f.orderId ≤ g.orderId)))

def positionStep (agg : Dict String (Currency × Slot)) (f : Fill) :
    Dict String (Currency × Slot) :=
  let entry := (agg.get? f.symbol).getD (f.currency, ⟨0, 0, 0⟩)
  agg.set f.symbol (entry.1, entry.2.book f)

/-- The row `_position_rows` reports for one symbol, if any. -/
def positionOf (e : String × Currency × Slot) : Option BrokerPosition :=
  if e.2.2.netQty > 0 then
    some
      { ticker := e.1
        quantity := e.2.2.netQty
        avgPrice := if e.2.2.buyQty > 0 then e.2.2.buyCost / e.2.2.buyQty else 0
        currency := e.2.1 }
  else none

/-- `_position_rows`. -/
def positionRows (snapshots : List Fill) : List BrokerPosition :=
  ((snapshots.insertionSort FilledBefore).foldl positionStep ∅).rows.filterMap positionOf

/-- `position_quantity`: the ticker's row, or 0. -/
def positionQuantity (rows : List BrokerPosition) (ticker : String) : Decimal :=
  ((rows.find? (fun p => p.ticker = ticker)).map (·.quantity)).getD 0

/-! ## 2. The reported quantity -/

/-- What a snapshot adds to a ticker's net quantity. -/
def Fill.signedQty (f : Fill) (ticker : String) : Decimal :=
  if f.symbol = ticker then (if f.side = .BUY then f.filledQuantity else -f.filledQuantity) else 0

/-- Bought less sold. -/
def netQty (snapshots : List Fill) (ticker : String) : Decimal :=
  (snapshots.map (·.signedQty ticker)).sum

theorem netQty_perm {l l' : List Fill} (h : l.Perm l') (ticker : String) :
    netQty l ticker = netQty l' ticker := by
  unfold netQty
  exact (h.map _).sum_eq

theorem Slot.book_netQty (slot : Slot) (f : Fill) :
    (slot.book f).netQty = slot.netQty + f.signedQty f.symbol := by
  unfold Slot.book Fill.signedQty
  rw [if_pos rfl]
  by_cases hs : f.side = .BUY
  · rw [if_pos hs, if_pos hs]
  · rw [if_neg hs, if_neg hs, ← sub_eq_add_neg]
    simp only
    split <;> rfl

/-- The net accumulator of a ticker, 0 when it has none yet. -/
def netOf (agg : Dict String (Currency × Slot)) (ticker : String) : Decimal :=
  (agg.get? ticker).elim 0 (fun e => e.2.netQty)

theorem netOf_positionStep (agg : Dict String (Currency × Slot)) (f : Fill) (ticker : String) :
    netOf (positionStep agg f) ticker = netOf agg ticker + f.signedQty ticker := by
  unfold netOf positionStep
  rw [Dict.get?_set]
  by_cases h : ticker = f.symbol
  · subst h
    rw [if_pos rfl, Option.elim_some, Slot.book_netQty]
    cases agg.get? f.symbol <;> simp
  · have h' : f.symbol ≠ ticker := fun e => h e.symm
    rw [if_neg h, Fill.signedQty, if_neg h', add_zero]

theorem netOf_foldl (ticker : String) : ∀ (l : List Fill) (agg : Dict String (Currency × Slot)),
    netOf (l.foldl positionStep agg) ticker = netOf agg ticker + netQty l ticker
  | [], agg => by simp [netQty]
  | f :: fs, agg => by
    rw [List.foldl_cons, netOf_foldl ticker fs, netOf_positionStep, netQty, netQty,
      List.map_cons, List.sum_cons, add_assoc]

/-- Looking a ticker up among the reported rows is reporting the ticker's entry: keys are unique,
    so a symbol that reports nothing has no second chance further down. -/
theorem find?_positionOf (ticker : String) : ∀ {rows : List (String × Currency × Slot)},
    (rows.map Prod.fst).Nodup →
    (rows.filterMap positionOf).find? (fun p => p.ticker = ticker) =
      (findRow Prod.fst ticker rows).bind positionOf
  | [], _ => rfl
  | e :: es, hn => by
    obtain ⟨he, hes⟩ := List.nodup_cons.mp hn
    have ih := find?_positionOf ticker hes
    by_cases hk : e.1 = ticker
    · have hnone : findRow Prod.fst ticker es = none :=
        findRow_eq_none fun s hs hsk => he (hk ▸ hsk ▸ List.mem_map_of_mem hs)
      rw [hnone, Option.bind_none] at ih
      cases hp : positionOf e with
      | none => simp [hp, findRow, hk, ih]
      | some p =>
        have hpt : p.ticker = ticker := by
          unfold positionOf at hp
          split at hp
          · cases hp; exact hk
          · exact absurd hp (by simp)
        simp [hp, findRow, hk, hpt]
    · cases hp : positionOf e with
      | none => simpa [hp, findRow, hk] using ih
      | some p =>
        have hpt : p.ticker ≠ ticker := by
          unfold positionOf at hp
          split at hp
          · cases hp; exact hk
          · exact absurd hp (by simp)
        simpa [hp, findRow, hk, hpt] using ih

/-- **The reported quantity is bought less sold, cut off at zero.** -/
theorem positionQuantity_eq (snapshots : List Fill) (ticker : String) :
    positionQuantity (positionRows snapshots) ticker = max (netQty snapshots ticker) 0 := by
  have hnet := netOf_foldl ticker (snapshots.insertionSort FilledBefore) ∅
  rw [netQty_perm (List.perm_insertionSort FilledBefore snapshots)] at hnet
  unfold positionQuantity positionRows
  rw [find?_positionOf ticker (Table.keys_nodup _)]
  simp only [netOf, Dict.get?_empty, Option.elim_none, zero_add] at hnet
  show ((((List.foldl positionStep ∅ (snapshots.insertionSort FilledBefore)).find? ticker).bind
    positionOf).map (·.quantity)).getD 0 = _
  rw [Dict.find?_eq]
  cases h : (List.foldl positionStep ∅ (snapshots.insertionSort FilledBefore)).get? ticker with
  | none =>
    rw [h, Option.elim_none] at hnet
    simp [← hnet]
  | some e =>
    rw [h, Option.elim_some] at hnet
    rw [Option.map_some, Option.bind_some]
    unfold positionOf
    by_cases hpos : e.2.netQty > 0
    · simp [if_pos hpos, ← hnet, max_eq_left (le_of_lt hpos)]
    · simp [if_neg hpos, ← hnet, max_eq_right (not_lt.mp hpos)]

/-! ## 3. What the fold depends on -/

instance : IsTrans Fill FilledBefore where
  trans f g h := by
    rintro (h₁ | ⟨e₁, l₁⟩) (h₂ | ⟨e₂, l₂⟩)
    · exact Or.inl (h₁.trans h₂)
    · exact Or.inl (e₂ ▸ h₁)
    · exact Or.inl (e₁ ▸ h₂)
    · exact Or.inr ⟨e₁.trans e₂, l₁.trans l₂⟩

instance : Std.Total FilledBefore where
  total f g := by
    rcases lt_trichotomy f.filledAt g.filledAt with h | h | h
    · exact Or.inl (Or.inl h)
    · exact (le_total f.orderId g.orderId).imp (fun l => Or.inr ⟨h, l⟩)
        (fun l => Or.inr ⟨h.symm, l⟩)
    · exact Or.inr (Or.inl h)

theorem FilledBefore.orderId_eq {f g : Fill} (h : FilledBefore f g) (h' : FilledBefore g f) :
    f.orderId = g.orderId := by
  rcases h with h | ⟨e, l⟩ <;> rcases h' with h' | ⟨e', l'⟩
  · exact absurd (h.trans h') (lt_irrefl _)
  · exact absurd h (e' ▸ lt_irrefl _)
  · exact absurd h' (e ▸ lt_irrefl _)
  · exact le_antisymm l l'

/-- A snapshot without the key it was placed under. -/
def Fill.forgetCoid (f : Fill) : Fill := { f with clientOrderId := "" }

theorem Fill.sameOrder_of_forgetCoid {f g : Fill} (h : f.forgetCoid = g.forgetCoid) :
    f.SameOrder g := by
  have hsymbol := congrArg Fill.symbol h
  have hside := congrArg Fill.side h
  have hcurrency := congrArg Fill.currency h
  exact ⟨hsymbol, hside, hcurrency⟩

/-- What does not read the client order id cannot tell. -/
theorem elim_forgetCoid {α : Type} {g : Fill → α} (hg : ∀ f, g f.forgetCoid = g f) (x : Option Fill)
    (a : α) : (x.map Fill.forgetCoid).elim a g = x.elim a g := by
  cases x with
  | none => rfl
  | some f => exact hg f

theorem positionStep_forgetCoid (agg : Dict String (Currency × Slot)) (f : Fill) :
    positionStep agg f.forgetCoid = positionStep agg f := rfl

theorem foldl_forgetCoid : ∀ (l : List Fill) (agg : Dict String (Currency × Slot)),
    (l.map Fill.forgetCoid).foldl positionStep agg = l.foldl positionStep agg
  | [], _ => rfl
  | f :: fs, agg => by
    rw [List.map_cons, List.foldl_cons, List.foldl_cons, positionStep_forgetCoid,
      foldl_forgetCoid fs]

theorem positionRows_forgetCoid (l : List Fill) :
    positionRows (l.map Fill.forgetCoid) = positionRows l := by
  unfold positionRows
  rw [← List.map_insertionSort FilledBefore FilledBefore Fill.forgetCoid l (fun _ _ _ _ => Iff.rfl),
    foldl_forgetCoid]

/-- Snapshots of distinct orders sort the same way whatever order a store returns them in. -/
theorem insertionSort_eq_of_perm {l l' : List Fill} (hn : (l.map (·.orderId)).Nodup)
    (h : l.Perm l') : l.insertionSort FilledBefore = l'.insertionSort FilledBefore := by
  have hsorted := List.pairwise_insertionSort FilledBefore l
  have hsorted' := List.pairwise_insertionSort FilledBefore l'
  refine List.Perm.eq_of_pairwise ?_ hsorted hsorted' ?_
  · intro f g hf hg h₁ h₂
    have hf' : f ∈ l := (List.perm_insertionSort _ l).mem_iff.mp hf
    have hg' : g ∈ l := h.mem_iff.mpr ((List.perm_insertionSort _ l').mem_iff.mp hg)
    exact List.inj_on_of_nodup_map hn hf' hg' (h₁.orderId_eq h₂)
  · exact (List.perm_insertionSort _ l).trans (h.trans (List.perm_insertionSort _ l').symm)

/-- **The fold sees neither storage order nor client order ids.** -/
theorem positionRows_eq_of_perm {l l' : List Fill} (hn : (l.map (·.orderId)).Nodup)
    (h : (l.map Fill.forgetCoid).Perm (l'.map Fill.forgetCoid)) :
    positionRows l = positionRows l' := by
  rw [← positionRows_forgetCoid l, ← positionRows_forgetCoid l']
  unfold positionRows
  have hkeys : ((l.map Fill.forgetCoid).map (·.orderId)).Nodup := by
    simpa [List.map_map, Function.comp_def, Fill.forgetCoid] using hn
  rw [insertionSort_eq_of_perm hkeys h]

end TossSleeve
