import Mathlib.Algebra.BigOperators.Group.Finset.Basic
import Mathlib.Tactic.Abel

/-!
# `Lib/Latest.lean` — the last entry of each key, and totals over it

A history is a list of entries, each with a key; later entries supersede earlier ones of the same
key. `latest` picks the entry that stands, `totalLatest` adds a weight up over the entries that
stand.

A component that keeps such a total *incrementally* — take the superseded entry's weight off, put
the new one's on — is right because of one identity, `totalLatest_concat`: that is exactly what
appending an entry does to the total. However long the history and however its keys interleave,
the sum telescopes.
-/

set_option autoImplicit false

namespace TossSleeve.Lib

universe u v w

section Latest

variable {α : Type u} {κ : Type v} [DecidableEq κ] (key : α → κ)

/-- The last entry under `k`. -/
def latest (k : κ) (h : List α) : Option α := (h.filter (fun a => key a = k)).getLast?

/-- The keys a history has entries for. -/
def keysOf (h : List α) : Finset κ := (h.map key).toFinset

@[simp] theorem latest_nil (k : κ) : latest key k [] = none := rfl

theorem latest_concat (k : κ) (h : List α) (a : α) :
    latest key k (h ++ [a]) = if key a = k then some a else latest key k h := by
  unfold latest
  rw [List.filter_append]
  by_cases hk : key a = k <;> simp [hk]

variable {key}

theorem latest_some {k : κ} {h : List α} {a : α} (ha : latest key k h = some a) :
    a ∈ h ∧ key a = k := by
  have hm := List.mem_of_getLast? ha
  simpa using hm

theorem latest_eq_none {k : κ} {h : List α} (hk : k ∉ keysOf key h) : latest key k h = none := by
  cases hl : latest key k h with
  | none => rfl
  | some a =>
    obtain ⟨ha, rfl⟩ := latest_some hl
    exact absurd (List.mem_toFinset.mpr (List.mem_map_of_mem ha)) hk

variable (key)

/-- The weight of the entries that stand. -/
def totalLatest {M : Type w} [AddCommGroup M] (wt : α → M) (h : List α) : M :=
  ∑ k ∈ keysOf key h, (latest key k h).elim 0 wt

/-- **An appended entry replaces its predecessor in the total.** -/
theorem totalLatest_concat {M : Type w} [AddCommGroup M] (wt : α → M) (h : List α) (a : α) :
    totalLatest key wt (h ++ [a]) =
      totalLatest key wt h - (latest key (key a) h).elim 0 wt + wt a := by
  have hkeys : keysOf key (h ++ [a]) = insert (key a) ((keysOf key h).erase (key a)) := by
    ext k
    by_cases hk : k = key a <;> simp [keysOf, hk]
  have hrest : ∑ k ∈ (keysOf key h).erase (key a), (latest key k (h ++ [a])).elim 0 wt =
      ∑ k ∈ (keysOf key h).erase (key a), (latest key k h).elim 0 wt := by
    refine Finset.sum_congr rfl fun k hk => ?_
    rw [latest_concat, if_neg (fun e => Finset.ne_of_mem_erase hk e.symm)]
  have hold : totalLatest key wt h =
      (latest key (key a) h).elim 0 wt +
        ∑ k ∈ (keysOf key h).erase (key a), (latest key k h).elim 0 wt := by
    unfold totalLatest
    by_cases hm : key a ∈ keysOf key h
    · exact (Finset.add_sum_erase _ _ hm).symm
    · rw [Finset.erase_eq_of_notMem hm, latest_eq_none hm, Option.elim_none, zero_add]
  rw [totalLatest, hkeys, Finset.sum_insert (Finset.notMem_erase _ _), hrest, hold,
    latest_concat, if_pos rfl, Option.elim_some]
  abel

end Latest

end TossSleeve.Lib
