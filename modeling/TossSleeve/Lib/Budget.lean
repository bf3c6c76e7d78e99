import TossSleeve.Lib.Table
import Mathlib.Tactic.Linarith

/-!
# `Lib/Budget.lean` — claims that fit into a budget

Several claims are to be met out of one budget, and it does not matter which of them exist: a claim
nobody makes weighs nothing. `Fits w b` says that however many claims are looked at, they add up to
`b` at most. Quantifying over the finite sets of claimants, instead of adding up "all" of them, is
what makes the notion independent of where the claims are kept — two stores, each with some of
them, need no common list of keys.

Two rules are enough to carry it through a run. A step that touches one claim and the budget is
`Fits.move`: the claim grows by no more than the budget does. A step that admits a claim after
looking at what the others leave is `Fits.allot`.
-/

set_option autoImplicit false

namespace TossSleeve.Lib

universe u v

variable {κ : Type u} {M : Type v} [AddCommGroup M] [PartialOrder M] [IsOrderedAddMonoid M]

/-- However many of the claims are looked at, the budget has them all. -/
def Fits (w : κ → M) (b : M) : Prop := ∀ s : Finset κ, ∑ k ∈ s, w k ≤ b

namespace Fits

variable {w w' : κ → M} {b b' : M}

omit [IsOrderedAddMonoid M] in
theorem nonneg (h : Fits w b) : 0 ≤ b := h ∅

omit [IsOrderedAddMonoid M] in
/-- A list of distinct claimants. -/
theorem sum_le [DecidableEq κ] (h : Fits w b) {ks : List κ} (hks : ks.Nodup) :
    (ks.map w).sum ≤ b := by
  rw [← List.sum_toFinset w hks]
  exact h ks.toFinset

theorem mono (h : Fits w b) (hw : ∀ k, w' k ≤ w k) (hb : b ≤ b') : Fits w' b' := by
  intro s
  calc ∑ k ∈ s, w' k ≤ ∑ k ∈ s, w k := Finset.sum_le_sum fun k _ => hw k
    _ ≤ b := h s
    _ ≤ b' := hb

variable [DecidableEq κ]

/-- Next to the others, a claimant may take what they leave. -/
theorem allot {k₀ : κ} (h : ∀ s : Finset κ, k₀ ∉ s → w k₀ + ∑ k ∈ s, w k ≤ b) (h₀ : 0 ≤ w k₀) :
    Fits w b := by
  intro s
  calc ∑ k ∈ s, w k ≤ ∑ k ∈ insert k₀ (s.erase k₀), w k := by
        by_cases hs : k₀ ∈ s
        · rw [Finset.insert_erase hs]
        · rw [Finset.erase_eq_of_notMem hs, Finset.sum_insert hs]
          exact le_add_of_nonneg_left h₀
    _ = w k₀ + ∑ k ∈ s.erase k₀, w k := Finset.sum_insert (Finset.notMem_erase k₀ s)
    _ ≤ b := h _ (Finset.notMem_erase k₀ s)

/-- One claim changes, and the budget changes by at least as much. -/
theorem move (h : Fits w b) {k₀ : κ} (hne : ∀ k ≠ k₀, w' k ≤ w k) (h₀ : 0 ≤ w' k₀)
    (hb : w' k₀ - w k₀ ≤ b' - b) : Fits w' b' := by
  refine allot (fun s hs => ?_) h₀
  have hothers : ∑ k ∈ s, w' k ≤ ∑ k ∈ s, w k :=
    Finset.sum_le_sum fun k hk => hne k fun e => hs (e ▸ hk)
  have hall : w k₀ + ∑ k ∈ s, w k ≤ b := by
    rw [← Finset.sum_insert hs]
    exact h _
  calc w' k₀ + ∑ k ∈ s, w' k ≤ w' k₀ + ∑ k ∈ s, w k := by gcongr
    _ = (w' k₀ - w k₀) + (w k₀ + ∑ k ∈ s, w k) := by abel
    _ ≤ (b' - b) + b := add_le_add hb hall
    _ = b' := sub_add_cancel b' b

end Fits

/-- The entries of a dictionary, as claims. -/
theorem Dict.fits [DecidableEq κ] {α : Type u} {d : Dict κ α} {wt : κ × α → M}
    (hwt : ∀ e ∈ d.rows, 0 ≤ wt e) : Fits (d.weightAt wt) (d.sum wt) := by
  intro s
  rw [← Finset.sum_map_toList]
  exact Dict.sum_weightAt_le hwt s.nodup_toList

end TossSleeve.Lib
