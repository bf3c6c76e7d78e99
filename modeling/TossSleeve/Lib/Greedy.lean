import TossSleeve.Lib.Window
import Mathlib.Data.List.Forall2
import Mathlib.Data.List.Sort
import Mathlib.Order.Bounds.Basic

/-!
# `Lib/Greedy.lean` — the earliest schedule under a sliding limit

Requests arrive, and each is to be served at some instant, not before it arrived and with no more
than `n` of them in any window of length `p` (`Serves`). The greedy schedule takes them in the order
in which they arrive and gives each the first instant that is left.

It is the earliest there is (`Greedy.least`): whoever serves the same requests under the same
limit, in whatever order, has at no instant served more of them. Against a schedule in order of
arrival this is one induction (`Greedy.le`) — the other schedule's next instant is one that was
left, since the greedy ones before it are no later than the other's. A schedule in another order
serves as many at every instant when its instants are sorted.
-/

set_option autoImplicit false

namespace TossSleeve.Lib

open List

universe u

variable {K : Type u}

/-! ## 1. Pointwise order -/

theorem forall₂_snoc {α β : Type*} {R : α → β → Prop} {as : List α} {a : α} :
    ∀ {bs : List β}, Forall₂ R (as ++ [a]) bs →
      ∃ bs' b, bs = bs' ++ [b] ∧ Forall₂ R as bs' ∧ R a b := by
  induction as with
  | nil =>
    intro bs h
    obtain ⟨b, bs, hab, hnil, rfl⟩ := forall₂_cons_left_iff.mp h
    obtain rfl := forall₂_nil_left_iff.mp hnil
    exact ⟨[], b, rfl, .nil, hab⟩
  | cons a' as ih =>
    intro bs h
    obtain ⟨b', bs, hab', hrest, rfl⟩ := forall₂_cons_left_iff.mp h
    obtain ⟨bs', b, rfl, hbs', hab⟩ := ih hrest
    exact ⟨b' :: bs', b, rfl, .cons hab' hbs', hab⟩

theorem exists_of_forall₂ {α β : Type*} {R : α → β → Prop} {as : List α} {bs : List β}
    (h : Forall₂ R as bs) : ∀ b ∈ bs, ∃ a ∈ as, R a b := by
  induction h with
  | nil => simp
  | cons hab hrest ih =>
    intro b hb
    rcases mem_cons.mp hb with rfl | hb
    · exact ⟨_, mem_cons_self .., hab⟩
    · obtain ⟨a, ha, hR⟩ := ih b hb
      exact ⟨a, mem_cons_of_mem _ ha, hR⟩

variable [LinearOrder K]

/-- Something small goes in front, something larger anywhere. -/
theorem forall₂_orderedInsert {a h : K} (hah : a ≤ h) {as ts : List K} (has : as.Pairwise (· ≤ ·))
    (ha : ∀ x ∈ as, a ≤ x) (hle : Forall₂ (· ≤ ·) as ts) :
    Forall₂ (· ≤ ·) (a :: as) (ts.orderedInsert (· ≤ ·) h) := by
  induction hle generalizing a with
  | nil => exact .cons hah .nil
  | @cons a' t as ts hat hle ih =>
    have haa' : a ≤ a' := ha a' (mem_cons_self ..)
    obtain ⟨ha', has⟩ := pairwise_cons.mp has
    by_cases hht : h ≤ t
    · rw [orderedInsert_cons_of_le _ _ hht]
      exact .cons hah (.cons hat hle)
    · rw [orderedInsert_of_not_le _ _ hht]
      have hah' : a' ≤ h := le_trans hat (le_of_not_ge hht)
      exact .cons (le_trans haa' hat) (ih hah' has ha')

/-- What is sorted is below what is above it when that is sorted, too. -/
theorem forall₂_insertionSort {as ts : List K} (has : as.Pairwise (· ≤ ·))
    (h : Forall₂ (· ≤ ·) as ts) : Forall₂ (· ≤ ·) as (ts.insertionSort (· ≤ ·)) := by
  induction h with
  | nil => exact .nil
  | cons hab hrest ih =>
    obtain ⟨ha, has⟩ := pairwise_cons.mp has
    exact forall₂_orderedInsert hab has ha (ih has)

/-! ## 2. Schedules -/

variable [AddCommGroup K] {n : ℕ} {p opened : K}

/-- The instants at which the requests that arrived are served. -/
structure Serves (n : ℕ) (p : K) (arrived times : List K) : Prop where
  after : Forall₂ (· ≤ ·) arrived times
  limited : Limited n p times

/-- One request after the other is given the first instant that is left, as of `opened`; the last
    one that was given is `last`. -/
inductive Greedy (n : ℕ) (p opened : K) : List K → List K → K → Prop
  | nil : Greedy n p opened [] [] opened
  | next {arrived times : List K} {last a t : K} (h : Greedy n p opened arrived times last)
      (ht : IsLeast {t | max last a ≤ t ∧ (inWindow p t times).length < n} t) :
      Greedy n p opened (arrived ++ [a]) (times ++ [t]) t

/-- An instant that is left for one more does not break the limit. -/
theorem Limited.snoc [IsOrderedAddMonoid K] {times : List K} {t : K} (h : Limited n p times)
    (hle : ∀ x ∈ times, x ≤ t) (hroom : (inWindow p t times).length < n) :
    Limited n p (times ++ [t]) := by
  intro u
  rw [inWindow_append, length_append]
  by_cases ht : u - p < t ∧ t ≤ u
  · -- A window that ends later has no more of them.
    have hsub : (inWindow p u times).length ≤ (inWindow p t times).length := by
      unfold inWindow
      rw [← countP_eq_length_filter, ← countP_eq_length_filter]
      refine countP_mono_left fun x hx hin => ?_
      have hlt : u - p < x := (of_decide_eq_true hin).1
      exact decide_eq_true ⟨lt_of_le_of_lt (sub_le_sub_right ht.2 p) hlt, hle x hx⟩
    have hone := length_inWindow_le p u [t]
    rw [length_singleton] at hone
    omega
  · have hnone : inWindow p u [t] = [] := by
      unfold inWindow
      rw [filter_singleton]
      simp [ht]
    rw [hnone]
    exact h u

/-- A schedule that is no later has no more in a window, when that is the last one of both. -/
theorem length_inWindow_mono {gs ts : List K} {t : K} (h : Forall₂ (· ≤ ·) gs ts)
    (ht : ∀ x ∈ ts, x ≤ t) : (inWindow p t gs).length ≤ (inWindow p t ts).length := by
  induction h with
  | nil => exact le_rfl
  | @cons g x gs ts hle hrest ih =>
    have ih := ih fun y hy => ht y (mem_cons_of_mem _ hy)
    have hx := ht x (mem_cons_self ..)
    unfold inWindow at ih ⊢
    by_cases hg : t - p < g ∧ g ≤ t
    · have hin : t - p < x ∧ x ≤ t := ⟨lt_of_lt_of_le hg.1 hle, hx⟩
      rw [filter_cons_of_pos (by simpa using hg), filter_cons_of_pos (by simpa using hin),
        length_cons, length_cons]
      exact Nat.succ_le_succ ih
    · rw [filter_cons_of_neg (by simpa using hg)]
      exact le_trans ih ((sublist_cons_self x ts).filter _).length_le

namespace Greedy

variable {arrived times : List K} {last : K}

theorem after (h : Greedy n p opened arrived times last) : Forall₂ (· ≤ ·) arrived times := by
  induction h with
  | nil => exact .nil
  | next h ht ih => exact rel_append ih (.cons (le_trans (le_max_right _ _) ht.1.1) .nil)

theorem le_last (h : Greedy n p opened arrived times last) : ∀ x ∈ times, x ≤ last := by
  induction h with
  | nil => simp
  | next h ht ih =>
    intro x hx
    rcases mem_append.mp hx with hx | hx
    · exact le_trans (ih x hx) (le_trans (le_max_left _ _) ht.1.1)
    · exact le_of_eq (mem_singleton.mp hx)

/-- The last instant is `opened`, or one that was given. -/
theorem last_le (h : Greedy n p opened arrived times last) {t : K} (hopened : opened ≤ t)
    (hle : ∀ x ∈ times, x ≤ t) : last ≤ t := by
  cases h with
  | nil => exact hopened
  | next h ht => exact hle _ (by simp)

variable [IsOrderedAddMonoid K]

/-- The greedy schedule is one. -/
theorem serves (h : Greedy n p opened arrived times last) : Serves n p arrived times := by
  refine ⟨h.after, ?_⟩
  induction h with
  | nil => exact limited_nil n p
  | next h ht ih =>
    have hlater := fun x hx => le_trans (h.le_last x hx) (le_trans (le_max_left _ _) ht.1.1)
    exact ih.snoc hlater ht.1.2

/-- **No schedule in order of arrival is earlier anywhere.** By induction on the requests: where the
    other schedule has its next instant, one is left for the greedy one. -/
theorem le (h : Greedy n p opened arrived times last) (hp : 0 < p) :
    ∀ {ts : List K}, Serves n p arrived ts → ts.Pairwise (· ≤ ·) → (∀ x ∈ ts, opened ≤ x) →
      Forall₂ (· ≤ ·) times ts := by
  induction h with
  | nil =>
    intro ts hs _ _
    exact hs.after
  | @next arrived times last a t h ht ih =>
    intro ts hs hsorted hopened
    obtain ⟨ts, b, rfl, hafter, hab⟩ := forall₂_snoc hs.after
    obtain ⟨hsorted, -, hbefore⟩ := pairwise_append.mp hsorted
    have hbefore : ∀ x ∈ ts, x ≤ b := fun x hx => hbefore x hx b (mem_singleton_self b)
    have hlimited := hs.limited.subperm (sublist_append_left ts [b]).subperm
    have hle := ih ⟨hafter, hlimited⟩ hsorted fun x hx => hopened x (mem_append_left _ hx)
    refine rel_append hle (.cons (ht.2 ⟨max_le ?_ hab, ?_⟩) .nil)
    · refine h.last_le (hopened b (by simp)) fun x hx => ?_
      obtain ⟨y, hy, hxy⟩ := exists_of_forall₂ (R := fun b a => a ≤ b) hle.flip x hx
      exact le_trans hxy (hbefore y hy)
    · -- The other schedule's window holds `b` as well.
      have hwindow := hs.limited b
      have hself : inWindow p b [b] = [b] := by
        unfold inWindow
        rw [filter_singleton]
        simp [hp]
      rw [inWindow_append, hself, length_append, length_singleton] at hwindow
      have := length_inWindow_mono (p := p) hle hbefore
      omega

/-- **The greedy schedule is the earliest**, whatever the order in which others serve. -/
theorem least (h : Greedy n p opened arrived times last) (hp : 0 < p)
    (hsorted : arrived.Pairwise (· ≤ ·)) (hopened : ∀ x ∈ arrived, opened ≤ x) {ts : List K}
    (hs : Serves n p arrived ts) : Forall₂ (· ≤ ·) times (ts.insertionSort (· ≤ ·)) := by
  have hafter := forall₂_insertionSort hsorted hs.after
  have hlimited := hs.limited.subperm (perm_insertionSort (· ≤ ·) ts).subperm
  refine h.le hp ⟨hafter, hlimited⟩ (pairwise_insertionSort (· ≤ ·) ts) fun x hx => ?_
  obtain ⟨a, ha, hax⟩ := exists_of_forall₂ hs.after x ((mem_insertionSort _).mp hx)
  exact le_trans (hopened a ha) hax

end Greedy

end TossSleeve.Lib
