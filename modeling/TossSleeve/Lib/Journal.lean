import Mathlib.Algebra.Order.BigOperators.Group.List
import Mathlib.Algebra.Order.Group.Defs

/-!
# `Lib/Journal.lean` — what is read off a growing journal

A journal grows at its front, and a report of it adds up the entries there were when it was written.
Any two reports of one journal are comparable, whenever they were written: one saw what the other
saw, and more (`sumUp_le_of_sumUp_le`). A report that comes to as much as the journal saw all of it
(`eq_of_sumUp_le`), as long as every entry adds to the figure that is compared.
-/

set_option autoImplicit false

namespace TossSleeve.Lib

universe u v

variable {α : Type u} {M : Type v} [AddCommGroup M] [LinearOrder M] [IsOrderedAddMonoid M]
  {f g : α → M} {older newer journal : List α}

/-- A figure of the entries, added up. -/
def sumUp (f : α → M) (journal : List α) : M := (journal.map f).sum

omit [LinearOrder M] [IsOrderedAddMonoid M] in
@[simp] theorem sumUp_nil (f : α → M) : sumUp f [] = 0 := rfl

omit [LinearOrder M] [IsOrderedAddMonoid M] in
@[simp] theorem sumUp_cons (f : α → M) (a : α) (journal : List α) :
    sumUp f (a :: journal) = f a + sumUp f journal :=
  List.sum_cons

theorem sumUp_nonneg (hf : ∀ a, 0 ≤ f a) (journal : List α) : 0 ≤ sumUp f journal := by
  induction journal with
  | nil => exact le_refl _
  | cons a journal ih =>
    rw [sumUp_cons]
    exact add_nonneg (hf a) ih

/-- An earlier report comes to no more than the journal. -/
theorem sumUp_le_of_suffix (hf : ∀ a, 0 ≤ f a) (h : older <:+ journal) :
    sumUp f older ≤ sumUp f journal := by
  obtain ⟨recent, rfl⟩ := h
  have hrecent := sumUp_nonneg hf recent
  unfold sumUp at hrecent ⊢
  rw [List.map_append, List.sum_append]
  exact le_add_of_nonneg_left hrecent

/-- **What comes to as much as the journal is the journal.** -/
theorem eq_of_sumUp_le (hf : ∀ a, 0 < f a) (h : older <:+ journal)
    (hle : sumUp f journal ≤ sumUp f older) : older = journal := by
  obtain ⟨recent, rfl⟩ := h
  cases recent with
  | nil => rfl
  | cons a recent =>
    -- An entry that the report did not see would count.
    have hseen := sumUp_le_of_suffix (fun a => le_of_lt (hf a)) (List.suffix_append recent older)
    have hmore : sumUp f older < sumUp f (a :: recent ++ older) := by
      rw [List.cons_append, sumUp_cons]
      exact lt_of_le_of_lt hseen (lt_add_of_pos_left _ (hf a))
    exact absurd hle (not_le.mpr hmore)

/-- **Of two reports, the one that saw no less by one figure saw no less by any other.** -/
theorem sumUp_le_of_sumUp_le (hf : ∀ a, 0 < f a) (hg : ∀ a, 0 ≤ g a) (hold : older <:+ journal)
    (hnew : newer <:+ journal) (hle : sumUp f older ≤ sumUp f newer) :
    sumUp g older ≤ sumUp g newer := by
  rcases List.suffix_or_suffix_of_suffix hold hnew with h | h
  · exact sumUp_le_of_suffix hg h
  · rw [eq_of_sumUp_le hf h hle]

end TossSleeve.Lib
