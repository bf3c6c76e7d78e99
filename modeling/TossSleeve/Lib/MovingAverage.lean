import Mathlib.Algebra.Order.Field.Basic
import Mathlib.Data.List.Basic
import Mathlib.Tactic.Linarith
import Mathlib.Tactic.FieldSimp
import Mathlib.Tactic.Ring

/-!
# `Lib/MovingAverage.lean` — the moving-average cost of an inventory

The textbook rule. Buying adds quantity and cost; selling takes cost away in proportion to the
quantity that leaves, so the average stays; selling everything leaves nothing. Selling more than
is held is no transaction of this rule, and the history is then given up (`none`).

The rule depends on the order of a history, and the questions about it are where it does not.

* Trades of one side merge: two of them are one with the sums (`trade_trade`). So they commute,
  and an order that was executed piecewise may be booked in one piece.
* A history may therefore be re-ordered as long as no trade of one side is moved past a trade of
  the other (`foldlM_partition`).
-/

set_option autoImplicit false

namespace TossSleeve.Lib

universe u v w

/-! ## 1. Partial folds whose steps commute -/

section Commute

variable {α : Type u} {β : Type v} (f : β → α → Option β)

/-- From every state, the two steps in either order come out the same. -/
def StepsCommute (a b : α) : Prop := ∀ s, (f s a >>= (f · b)) = (f s b >>= (f · a))

variable {f}

theorem foldlM_cons_of_commute {a : α} : ∀ {l : List α}, (∀ b ∈ l, StepsCommute f a b) →
    ∀ (l' : List α) (s : β), (a :: l ++ l').foldlM f s = (l ++ a :: l').foldlM f s
  | [], _, _, _ => rfl
  | b :: l, h, l', s => by
    have hb := h b (List.mem_cons_self ..) s
    have ih : ∀ t, (a :: l ++ l').foldlM f t = (l ++ a :: l').foldlM f t :=
      foldlM_cons_of_commute (fun c hc => h c (List.mem_cons_of_mem _ hc)) l'
    calc (a :: b :: l ++ l').foldlM f s
        = (f s a >>= (f · b)) >>= fun t => (l ++ l').foldlM f t := by simp [Option.bind_assoc]
      _ = (f s b >>= (f · a)) >>= fun t => (l ++ l').foldlM f t := by rw [hb]
      _ = f s b >>= fun t => (a :: l ++ l').foldlM f t := by simp [Option.bind_assoc]
      _ = f s b >>= fun t => (l ++ a :: l').foldlM f t := by simp only [ih]
      _ = (b :: l ++ a :: l').foldlM f s := by simp

/-- **A part of a history may be moved to its front** when each of its steps commutes with the
    steps it is moved past. -/
theorem foldlM_partition (p : α → Bool) : ∀ {l : List α},
    l.Pairwise (fun a b => p a = false → p b = true → StepsCommute f a b) → ∀ s : β,
    l.foldlM f s = (l.filter p ++ l.filter (fun a => !p a)).foldlM f s
  | [], _, _ => rfl
  | a :: l, h, s => by
    obtain ⟨ha, hl⟩ := List.pairwise_cons.mp h
    have ih := foldlM_partition p hl
    cases hp : p a with
    | true =>
      rw [List.filter_cons_of_pos hp, List.filter_cons_of_neg (by simp [hp]), List.cons_append,
        List.foldlM_cons, List.foldlM_cons]
      exact congrArg (f s a >>= ·) (funext ih)
    | false =>
      rw [List.filter_cons_of_neg (by simp [hp]), List.filter_cons_of_pos (by simp [hp]),
        ← foldlM_cons_of_commute, List.cons_append, List.foldlM_cons, List.foldlM_cons]
      · exact congrArg (f s a >>= ·) (funext ih)
      · intro b hb
        obtain ⟨hmem, hpb⟩ := List.mem_filter.mp hb
        exact ha b hmem hp hpb

end Commute

/-! ## 2. The rule -/

/-- A trade: quantity that comes in at a cost, or goes out. What goes out leaves at the average, so
    a sale's own proceeds do not matter. -/
structure Trade (K : Type u) where
  incoming : Bool
  qty : K
  cost : K

structure Inventory (K : Type u) where
  qty : K
  cost : K
  deriving DecidableEq

variable {K : Type u} [Field K] [LinearOrder K]

def Inventory.average (h : Inventory K) : K := h.cost / h.qty

def Inventory.trade (h : Inventory K) (t : Trade K) : Option (Inventory K) :=
  if t.incoming then some ⟨h.qty + t.qty, h.cost + t.cost⟩
  else if h.qty < t.qty then none
  else if h.qty = t.qty then some ⟨0, 0⟩
  else some ⟨h.qty - t.qty, h.cost - h.average * t.qty⟩

/-- The holding after a history that starts from nothing. -/
def movingAverage (history : List (Trade K)) : Option (Inventory K) :=
  history.foldlM Inventory.trade ⟨0, 0⟩

/-- What a trade does to the quantity. -/
def Trade.signedQty (t : Trade K) : K := if t.incoming then t.qty else -t.qty

/-- One trade for two of one side. -/
def Trade.merge (t u : Trade K) : Trade K := ⟨t.incoming, t.qty + u.qty, t.cost + u.cost⟩

theorem Inventory.trade_sell {h : Inventory K} {t : Trade K} (hin : t.incoming = false) :
    h.trade t = if h.qty < t.qty then none
      else if h.qty = t.qty then some ⟨0, 0⟩
      else some ⟨h.qty - t.qty, h.cost - h.average * t.qty⟩ := by
  unfold Inventory.trade
  simp [hin]

omit [LinearOrder K] in
/-- A sale leaves the average of what stays. -/
theorem Inventory.average_after {h : Inventory K} {q : K} (hq : h.qty ≠ 0) (hne : h.qty - q ≠ 0) :
    (h.cost - h.average * q) / (h.qty - q) = h.average := by
  unfold Inventory.average
  field_simp

variable [IsStrictOrderedRing K]

/-- A trade that leaves no negative quantity goes through. -/
theorem Inventory.exists_trade {h : Inventory K} {t : Trade K} (hq : 0 ≤ h.qty + t.signedQty) :
    ∃ h', h.trade t = some h' ∧ h'.qty = h.qty + t.signedQty := by
  unfold Trade.signedQty at hq ⊢
  unfold Inventory.trade
  cases hin : t.incoming with
  | true => exact ⟨_, rfl, rfl⟩
  | false =>
    rw [hin] at hq
    simp only [Bool.false_eq_true, if_false] at hq ⊢
    rw [if_neg (by linarith)]
    by_cases he : h.qty = t.qty
    · rw [if_pos he]
      exact ⟨_, rfl, by simp [he]⟩
    · rw [if_neg he]
      exact ⟨_, rfl, by simp [sub_eq_add_neg]⟩

/-- **A history goes through when no prefix of it sells more than it has bought.** The history is
    the part of `l` that `p` picks. -/
theorem exists_foldlM_trade {α : Type v} (p : α → Bool) (g : α → Trade K) :
    ∀ {l : List α} {h : Inventory K},
    (∀ n, 0 ≤ h.qty + (((l.take n).filter p).map fun a => (g a).signedQty).sum) →
    ∃ h', ((l.filter p).map g).foldlM Inventory.trade h = some h'
  | [], h, _ => ⟨h, rfl⟩
  | a :: l, h, hcov => by
    have hrest := fun n => hcov (n + 1)
    simp only [List.take_succ_cons] at hrest
    by_cases hp : p a = true
    · simp only [List.filter_cons_of_pos hp, List.map_cons, List.sum_cons, ← add_assoc] at hrest
      have hfirst : 0 ≤ h.qty + (g a).signedQty := by simpa using hrest 0
      obtain ⟨h₁, ht, hqty⟩ := Inventory.exists_trade hfirst
      rw [← hqty] at hrest
      obtain ⟨h', hf⟩ := exists_foldlM_trade p g hrest
      refine ⟨h', ?_⟩
      rw [List.filter_cons_of_pos hp, List.map_cons, List.foldlM_cons, ht]
      exact hf
    · simp only [List.filter_cons_of_neg hp] at hrest
      rw [List.filter_cons_of_neg hp]
      exact exists_foldlM_trade p g hrest

/-- **Two trades of one side are one.** -/
theorem Inventory.trade_trade {h : Inventory K} {t u : Trade K} (hside : t.incoming = u.incoming)
    (ht : 0 < t.qty) (hu : 0 < u.qty) :
    (h.trade t >>= fun h' => h'.trade u) = h.trade (t.merge u) := by
  cases hin : t.incoming with
  | true => simp [Inventory.trade, Trade.merge, hin, ← hside, add_assoc]
  | false =>
    have huin : u.incoming = false := hside ▸ hin
    have hmin : (t.merge u).incoming = false := hin
    rw [Inventory.trade_sell hin, Inventory.trade_sell hmin]
    show _ = (if h.qty < t.qty + u.qty then none
      else if h.qty = t.qty + u.qty then some ⟨0, 0⟩
      else some ⟨h.qty - (t.qty + u.qty), h.cost - h.average * (t.qty + u.qty)⟩ :
        Option (Inventory K))
    by_cases h₁ : h.qty < t.qty
    · rw [if_pos h₁, if_pos (by linarith)]
      rfl
    · rw [if_neg h₁]
      by_cases h₂ : h.qty = t.qty
      · rw [if_pos h₂, if_pos (by linarith), Option.bind_eq_bind, Option.bind_some,
          Inventory.trade_sell huin, if_pos hu]
      · rw [if_neg h₂, Option.bind_eq_bind, Option.bind_some, Inventory.trade_sell huin]
        have hlt : t.qty < h.qty := lt_of_le_of_ne (not_lt.mp h₁) (Ne.symm h₂)
        have havg : Inventory.average ⟨h.qty - t.qty, h.cost - h.average * t.qty⟩ = h.average :=
          Inventory.average_after (by linarith) (by linarith)
        rw [havg]
        by_cases h₃ : h.qty < t.qty + u.qty
        · rw [if_pos h₃, if_pos (by show h.qty - t.qty < u.qty; linarith)]
        · rw [if_neg h₃, if_neg (by show ¬ h.qty - t.qty < u.qty; linarith)]
          by_cases h₄ : h.qty = t.qty + u.qty
          · rw [if_pos h₄, if_pos (by show h.qty - t.qty = u.qty; linarith)]
          · rw [if_neg h₄, if_neg (by show ¬ h.qty - t.qty = u.qty; intro he; apply h₄; linarith)]
            congr 2
            · show h.qty - t.qty - u.qty = _
              ring
            · show h.cost - h.average * t.qty - h.average * u.qty = _
              ring

/-- So trades of one side may change places. -/
theorem stepsCommute_of_side {t u : Trade K} (hside : t.incoming = u.incoming) (ht : 0 < t.qty)
    (hu : 0 < u.qty) : StepsCommute Inventory.trade t u := by
  intro h
  have hmerge : t.merge u = u.merge t := by
    unfold Trade.merge
    rw [hside, add_comm t.qty, add_comm t.cost]
  calc (h.trade t >>= fun h' => h'.trade u) = h.trade (t.merge u) :=
        Inventory.trade_trade hside ht hu
    _ = h.trade (u.merge t) := by rw [hmerge]
    _ = (h.trade u >>= fun h' => h'.trade t) := (Inventory.trade_trade hside.symm hu ht).symm

end TossSleeve.Lib
