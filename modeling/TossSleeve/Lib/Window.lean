import Mathlib.Algebra.Order.Group.Defs
import Mathlib.Algebra.Order.Sub.Basic
import Mathlib.Data.List.Count
import Mathlib.Data.List.Perm.Subperm
import Mathlib.Data.List.TakeWhile
import Mathlib.Tactic.Abel

/-!
# `Lib/Window.lean` — sliding windows over a history of instants

A history of instants is *limited* to `n` per window of length `p` when no half-open window
`(t - p, t]` holds more than `n` of them, wherever it ends.

An incremental limiter does not keep the history. It keeps a queue: the instants that may still
matter, the oldest in front, from which it drops the front as it leaves the window of the current
instant. `Tracks` is what such a queue knows of the history. Two rules carry it — dropping
(`Tracks.evict`) and admitting an instant while there is room (`Tracks.grant`) — and the limit on
*every* window, past and future, is one of its fields.

A limiter limits grants, and what is to be limited is what they are for. §2 carries the limit over:
if nobody uses a grant but at its own instant, and none twice (`Backed`), the uses are limited as
the grants are.
-/

set_option autoImplicit false

namespace TossSleeve.Lib

universe u

/-! ## 1. Queues -/

section Window

variable {K : Type u} [AddCommGroup K] [LinearOrder K]

/-- The instants in the window of length `p` that ends at `t`. -/
def inWindow (p t : K) (l : List K) : List K := l.filter fun x => t - p < x ∧ x ≤ t

def Limited (n : ℕ) (p : K) (l : List K) : Prop := ∀ t, (inWindow p t l).length ≤ n

/-- What is in front and has left the window is dropped. -/
def evict (p now : K) (l : List K) : List K := l.dropWhile (· ≤ now - p)

theorem limited_nil (n : ℕ) (p : K) : Limited n p [] := fun _ => Nat.zero_le n

theorem inWindow_append (p t : K) (l l' : List K) :
    inWindow p t (l ++ l') = inWindow p t l ++ inWindow p t l' := List.filter_append ..

theorem length_inWindow_le (p t : K) (l : List K) : (inWindow p t l).length ≤ l.length :=
  List.length_filter_le _ l

/-- Fewer instants, in whatever order, are limited too. -/
theorem Limited.subperm {n : ℕ} {p : K} {l l' : List K} (h : Limited n p l) (hs : l'.Subperm l) :
    Limited n p l' := fun t => le_trans (hs.filter _).length_le (h t)

/-- What a queue knows of a history, as of the instant `last`. -/
structure Tracks (n : ℕ) (p : K) (queue history : List K) (last : K) : Prop where
  /-- The rest of the history has left the window. -/
  gone : ∃ old, history = old ++ queue ∧ ∀ x ∈ old, x ≤ last - p
  sorted : queue.Pairwise (· ≤ ·)
  le_last : ∀ x ∈ history, x ≤ last
  length_le : queue.length ≤ n
  limited : Limited n p history

variable {n : ℕ} {p : K} {queue history : List K} {last now : K}

theorem tracks_nil (last : K) : Tracks n p [] [] last where
  gone := ⟨[], rfl, by simp⟩
  sorted := List.Pairwise.nil
  le_last := by simp
  length_le := Nat.zero_le n
  limited := limited_nil n p

namespace Tracks

theorem mem_history (h : Tracks n p queue history last) {x : K} (hx : x ∈ queue) :
    x ∈ history := by
  obtain ⟨old, he, -⟩ := h.gone
  rw [he]
  exact List.mem_append_right _ hx

/-- What is left is in the window: the front was not dropped, and the others are later. -/
theorem lt_of_mem_evict (h : queue.Pairwise (· ≤ ·)) {x : K} (hx : x ∈ Lib.evict p now queue) :
    now - p < x := by
  have hsorted : (Lib.evict p now queue).Pairwise (· ≤ ·) := h.sublist (List.dropWhile_sublist _)
  cases he : Lib.evict p now queue with
  | nil => exact absurd hx (by simp [he])
  | cons first rest =>
    have hfirst : now - p < first := by
      have hhead := List.head?_dropWhile_not (fun x => decide (x ≤ now - p)) queue
      have he' : queue.dropWhile (fun x => decide (x ≤ now - p)) = first :: rest := he
      rw [he'] at hhead
      simpa using hhead
    rw [he] at hx hsorted
    rcases List.mem_cons.mp hx with rfl | hx
    · exact hfirst
    · exact lt_of_lt_of_le hfirst ((List.pairwise_cons.mp hsorted).1 x hx)

variable [IsOrderedAddMonoid K]

theorem mono (h : Tracks n p queue history last) (hle : last ≤ now) :
    Tracks n p queue history now where
  gone := by
    obtain ⟨old, he, hold⟩ := h.gone
    exact ⟨old, he, fun x hx => le_trans (hold x hx) (sub_le_sub_right hle p)⟩
  sorted := h.sorted
  le_last := fun x hx => le_trans (h.le_last x hx) hle
  length_le := h.length_le
  limited := h.limited

/-- **Dropping from the front.** -/
theorem evict (h : Tracks n p queue history last) (hle : last ≤ now) :
    Tracks n p (evict p now queue) history now where
  gone := by
    obtain ⟨old, he, hold⟩ := (h.mono hle).gone
    refine ⟨old ++ queue.takeWhile (· ≤ now - p), ?_, ?_⟩
    · rw [List.append_assoc]
      exact he.trans (by rw [Lib.evict, List.takeWhile_append_dropWhile])
    · intro x hx
      rcases List.mem_append.mp hx with hx | hx
      · exact hold x hx
      · simpa using List.mem_takeWhile_imp hx
  sorted := h.sorted.sublist (List.dropWhile_sublist _)
  le_last := (h.mono hle).le_last
  length_le := le_trans (List.dropWhile_sublist _).length_le h.length_le
  limited := h.limited

/-- As of `last`, the window holds no more than the queue. -/
theorem length_inWindow_le (h : Tracks n p queue history last) {t : K} (ht : last ≤ t) :
    (inWindow p t history).length ≤ queue.length := by
  obtain ⟨old, he, hold⟩ := h.gone
  have hnone : inWindow p t old = [] := by
    refine List.filter_eq_nil_iff.mpr ?_
    intro x hx hin
    have hlt : t - p < x := (of_decide_eq_true hin).1
    exact absurd (le_trans (hold x hx) (sub_le_sub_right ht p)) (not_le.mpr hlt)
  rw [he, inWindow_append, hnone, List.nil_append]
  exact Lib.length_inWindow_le p t queue

/-- **Admitting an instant while there is room.** A window that the instant is in has nothing of
    the rest of the history; any other window is as it was. -/
theorem grant (h : Tracks n p queue history now) (hroom : queue.length < n) :
    Tracks n p (queue ++ [now]) (history ++ [now]) now where
  gone := by
    obtain ⟨old, he, hold⟩ := h.gone
    exact ⟨old, by rw [he, List.append_assoc], hold⟩
  sorted := by
    refine List.pairwise_append.mpr ⟨h.sorted, List.pairwise_singleton .., ?_⟩
    intro x hx y hy
    rw [List.mem_singleton.mp hy]
    exact h.le_last x (h.mem_history hx)
  le_last := by
    intro x hx
    rcases List.mem_append.mp hx with hx | hx
    · exact h.le_last x hx
    · exact le_of_eq (List.mem_singleton.mp hx)
  length_le := by
    rw [List.length_append]
    exact hroom
  limited := by
    intro t
    rw [inWindow_append, List.length_append]
    by_cases ht : t - p < now ∧ now ≤ t
    · have hqueue := h.length_inWindow_le ht.2
      have hone := Lib.length_inWindow_le p t [now]
      rw [List.length_singleton] at hone
      omega
    · have hnone : inWindow p t [now] = [] := by
        unfold inWindow
        rw [List.filter_singleton]
        simp [ht]
      rw [hnone]
      exact h.limited t

/-- A full queue fills every window that ends before its front leaves. -/
theorem le_length_inWindow {first : K} {rest : List K} (h : Tracks n p (first :: rest) history now)
    {t : K} (hnow : now ≤ t) (hlt : t < first + p) :
    (first :: rest).length ≤ (inWindow p t history).length := by
  obtain ⟨old, he, -⟩ := h.gone
  have hall : inWindow p t (first :: rest) = first :: rest := by
    refine List.filter_eq_self.mpr ?_
    intro x hx
    have hfirst : first ≤ x := by
      rcases List.mem_cons.mp hx with rfl | hx
      · exact le_refl _
      · exact (List.pairwise_cons.mp h.sorted).1 x hx
    have hlo : t - p < x := lt_of_lt_of_le (sub_lt_iff_lt_add.mpr hlt) hfirst
    have hhi : x ≤ t := le_trans (h.le_last x (h.mem_history hx)) hnow
    simp [hlo, hhi]
  rw [he, inWindow_append, hall, List.length_append]
  omega

end Tracks

end Window

/-! ## 2. Grants and their uses -/

section Grants

variable {ι : Type*} {K : Type u} [DecidableEq ι] [DecidableEq K] {used granted : List (ι × K)}
  {held : ι → Option K}

/-- Everybody's uses are of grants of their own, each at the instant of the grant; and the grant
    that is still `held` is not among the used ones. -/
def Backed (used granted : List (ι × K)) (held : ι → Option K) : Prop :=
  ∀ i t, used.count (i, t) + (if held i = some t then 1 else 0) ≤ granted.count (i, t)

theorem backed_nil : Backed ([] : List (ι × K)) [] fun _ => none := by
  intro i t
  simp

namespace Backed

theorem grant (h : Backed used granted held) {i : ι} (hi : held i = none) (t : K) :
    Backed used (granted ++ [(i, t)]) (Function.update held i (some t)) := by
  intro j u
  have hj := h j u
  rw [List.count_append, List.count_singleton]
  by_cases hij : j = i
  · subst hij
    rw [hi] at hj
    by_cases htu : t = u
    · subst htu
      simp only [Function.update_self, beq_self_eq_true, if_true]
      simp only [reduceCtorEq, if_false] at hj
      omega
    · simp only [Function.update_self, Option.some.injEq, htu, if_false]
      simp only [reduceCtorEq, if_false] at hj
      omega
  · rw [Function.update_of_ne hij]
    omega

/-- A grant that nobody will use. -/
theorem more (h : Backed used granted held) (e : ι × K) : Backed used (granted ++ [e]) held := by
  intro j u
  rw [List.count_append]
  exact le_trans (h j u) (Nat.le_add_right _ _)

theorem use (h : Backed used granted held) {i : ι} {t : K} (hi : held i = some t) :
    Backed (used ++ [(i, t)]) granted (Function.update held i none) := by
  intro j u
  have hj := h j u
  rw [List.count_append, List.count_singleton]
  by_cases hij : j = i
  · subst hij
    rw [hi] at hj
    rw [Function.update_self]
    by_cases htu : t = u
    · subst htu
      simpa using hj
    · simp only [Option.some.injEq, htu, if_false] at hj
      simpa [htu] using hj
  · rw [Function.update_of_ne hij]
    have hne : ((i, t) == (j, u)) = false := by simp [Ne.symm hij]
    rw [hne]
    simpa using hj

theorem subperm (h : Backed used granted held) : used.Subperm granted := by
  apply List.subperm_ext_iff.mpr
  rintro ⟨i, t⟩ -
  exact le_trans (Nat.le_add_right _ _) (h i t)

/-- **The uses are limited as the grants are.** -/
theorem limited [AddCommGroup K] [LinearOrder K] {n : ℕ} {p : K} (h : Backed used granted held)
    (hl : Limited n p (granted.map Prod.snd)) : Limited n p (used.map Prod.snd) := by
  obtain ⟨l, hperm, hsub⟩ := h.subperm
  exact hl.subperm ⟨l.map Prod.snd, hperm.map Prod.snd, hsub.map Prod.snd⟩

end Backed

end Grants

end TossSleeve.Lib
