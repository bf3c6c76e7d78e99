import Mathlib.Data.List.Count
import Mathlib.Algebra.BigOperators.Group.List.Basic

/-!
# `Lib/Shards.lean` — a store that falls apart into shards

Some stores are a number of small stores side by side, and a total they share: every action is about
one of them, reads and writes that one alone, and adds something to the total that no action reads.
Such a store does not care in which order actions of different shards come (`shard_foldl_eq`,
`total_foldl_eq`): two histories that are the same *lane by lane* (`SameLanes`) leave it the same.

Nothing is exchanged step by step. What a shard is after a history is what it is after the part of
the history in its own lane (`shard_foldl`), and a total is a sum, which has no order.
-/

set_option autoImplicit false

namespace TossSleeve.Lib

universe u v w x y

/-! ## 1. Lanes -/

section Lanes

variable {α : Type u} {κ : Type v} [DecidableEq κ] {f : α → κ}

/-- The part of a history in one lane. -/
def inLane (f : α → κ) (k : κ) (as : List α) : List α := as.filter fun a => decide (f a = k)

/-- The same history, lane by lane. -/
def SameLanes (f : α → κ) (as bs : List α) : Prop := ∀ k, inLane f k as = inLane f k bs

@[simp] theorem inLane_nil (k : κ) : inLane f k [] = [] := rfl

@[simp] theorem inLane_cons_self (a : α) (as : List α) :
    inLane f (f a) (a :: as) = a :: inLane f (f a) as := by
  simp [inLane]

theorem inLane_cons_of_ne {a : α} {k : κ} (h : f a ≠ k) (as : List α) :
    inLane f k (a :: as) = inLane f k as := by
  simp [inLane, h]

/-- Nothing is lost by looking lane by lane. -/
theorem SameLanes.perm {as bs : List α} (h : SameLanes f as bs) : as.Perm bs := by
  classical
  refine List.perm_iff_count.mpr fun a => ?_
  have hcount : ∀ cs : List α, (inLane f (f a) cs).count a = cs.count a := by
    intro cs
    exact List.count_filter (by simp)
  rw [← hcount as, ← hcount bs, h]

theorem inLane_append (k : κ) (as bs : List α) :
    inLane f k (as ++ bs) = inLane f k as ++ inLane f k bs := List.filter_append ..

/-- Histories in different lanes may come in either order. -/
theorem sameLanes_append_comm {as bs : List α} (h : ∀ a ∈ as, ∀ b ∈ bs, f a ≠ f b) :
    SameLanes f (as ++ bs) (bs ++ as) := by
  intro k
  rw [inLane_append, inLane_append]
  by_cases hk : ∃ a ∈ as, f a = k
  · obtain ⟨a, ha, rfl⟩ := hk
    have hnone : inLane f (f a) bs = [] := by
      refine List.filter_eq_nil_iff.mpr fun b hb => ?_
      simpa using (h a ha b hb).symm
    rw [hnone, List.append_nil, List.nil_append]
  · have hnone : inLane f k as = [] := by
      refine List.filter_eq_nil_iff.mpr fun a ha => ?_
      simpa using fun he => hk ⟨a, ha, he⟩
    rw [hnone, List.append_nil, List.nil_append]

end Lanes

/-! ## 2. Shards -/

/-- Where `I` holds, every action of `P` reads and writes the shard of its lane, and adds to the
    total. -/
structure Sharded {σ : Type u} {α : Type v} {κ : Type w} {V : Type x} {M : Type y} [Add M]
    (step : σ → α → σ) (I : σ → Prop) (P : α → Prop) (lane : α → κ) (shard : σ → κ → V)
    (total : σ → M) (pays : V → α → M) : Prop where
  keeps : ∀ s a, I s → P a → I (step s a)
  others : ∀ s a k, I s → P a → k ≠ lane a → shard (step s a) k = shard s k
  own : ∀ s s' a, I s → I s' → P a → shard s (lane a) = shard s' (lane a) →
    shard (step s a) (lane a) = shard (step s' a) (lane a)
  total : ∀ s a, I s → P a → total (step s a) = total s + pays (shard s (lane a)) a

namespace Sharded

variable {σ : Type u} {α : Type v} {κ : Type w} {V : Type x} {M : Type y} [DecidableEq κ]
  [AddCommMonoid M] {step : σ → α → σ} {I : σ → Prop} {P : α → Prop} {lane : α → κ}
  {shard : σ → κ → V} {total : σ → M} {pays : V → α → M}

/-- A shard after a history is the shard after its own lane of it. -/
theorem shard_foldl (h : Sharded step I P lane shard total pays) {k : κ} {as : List α} :
    ∀ {s s' : σ}, I s → I s' → (∀ a ∈ as, P a) → shard s k = shard s' k →
      shard (as.foldl step s) k = shard ((inLane lane k as).foldl step s') k := by
  induction as with
  | nil => exact fun _ _ _ hs => hs
  | cons a as ih =>
    intro s s' hI hI' hP hs
    have ha : P a := hP a List.mem_cons_self
    have has : ∀ b ∈ as, P b := fun b hb => hP b (List.mem_cons_of_mem _ hb)
    by_cases hk : lane a = k
    · subst hk
      rw [inLane_cons_self]
      exact ih (h.keeps s a hI ha) (h.keeps s' a hI' ha) has (h.own s s' a hI hI' ha hs)
    · rw [inLane_cons_of_ne hk]
      exact ih (h.keeps s a hI ha) hI' has ((h.others s a k hI ha (Ne.symm hk)).trans hs)

/-- What the actions of a history pay, each with its lane. -/
def bill (step : σ → α → σ) (lane : α → κ) (shard : σ → κ → V) (pays : V → α → M) :
    σ → List α → List (κ × M)
  | _, [] => []
  | s, a :: as =>
    (lane a, pays (shard s (lane a)) a) :: bill step lane shard pays (step s a) as

omit [DecidableEq κ] in
theorem total_foldl (h : Sharded step I P lane shard total pays) {as : List α} :
    ∀ {s : σ}, I s → (∀ a ∈ as, P a) → total (as.foldl step s) =
      total s + ((bill step lane shard pays s as).map Prod.snd).sum := by
  induction as with
  | nil => exact fun _ _ => (add_zero _).symm
  | cons a as ih =>
    intro s hI hP
    have ha : P a := hP a List.mem_cons_self
    rw [List.foldl_cons, ih (h.keeps s a hI ha) fun b hb => hP b (List.mem_cons_of_mem _ hb),
      h.total s a hI ha, add_assoc]
    rfl

/-- What a lane pays is said by the lane. -/
theorem inLane_bill (h : Sharded step I P lane shard total pays) {k : κ} {as : List α} :
    ∀ {s s' : σ}, I s → I s' → (∀ a ∈ as, P a) → shard s k = shard s' k →
      inLane Prod.fst k (bill step lane shard pays s as) =
        bill step lane shard pays s' (inLane lane k as) := by
  induction as with
  | nil => exact fun _ _ _ _ => rfl
  | cons a as ih =>
    intro s s' hI hI' hP hs
    have ha : P a := hP a List.mem_cons_self
    have has : ∀ b ∈ as, P b := fun b hb => hP b (List.mem_cons_of_mem _ hb)
    by_cases hk : lane a = k
    · subst hk
      rw [inLane_cons_self, bill, bill, hs]
      refine (inLane_cons_self _ _).trans (congrArg _ ?_)
      exact ih (h.keeps s a hI ha) (h.keeps s' a hI' ha) has (h.own s s' a hI hI' ha hs)
    · rw [inLane_cons_of_ne hk, bill, inLane_cons_of_ne (f := Prod.fst) hk]
      exact ih (h.keeps s a hI ha) hI' has ((h.others s a k hI ha (Ne.symm hk)).trans hs)

variable {as bs : List α} {s : σ}

theorem shard_foldl_eq (h : Sharded step I P lane shard total pays) (hI : I s)
    (hP : ∀ a ∈ as, P a) (hlanes : SameLanes lane as bs) (k : κ) :
    shard (as.foldl step s) k = shard (bs.foldl step s) k := by
  have hP' : ∀ b ∈ bs, P b := fun b hb => hP b (hlanes.perm.mem_iff.mpr hb)
  calc shard (as.foldl step s) k
      = shard ((inLane lane k as).foldl step s) k := h.shard_foldl hI hI hP rfl
    _ = shard ((inLane lane k bs).foldl step s) k := by rw [hlanes k]
    _ = shard (bs.foldl step s) k := (h.shard_foldl hI hI hP' rfl).symm

theorem total_foldl_eq (h : Sharded step I P lane shard total pays) (hI : I s)
    (hP : ∀ a ∈ as, P a) (hlanes : SameLanes lane as bs) :
    total (as.foldl step s) = total (bs.foldl step s) := by
  have hP' : ∀ b ∈ bs, P b := fun b hb => hP b (hlanes.perm.mem_iff.mpr hb)
  have hbills : SameLanes Prod.fst (bill step lane shard pays s as)
      (bill step lane shard pays s bs) := by
    intro k
    rw [h.inLane_bill hI hI hP rfl, hlanes k, ← h.inLane_bill hI hI hP' rfl]
  rw [h.total_foldl hI hP, h.total_foldl hI hP', (hbills.perm.map Prod.snd).sum_eq]

end Sharded

end TossSleeve.Lib
