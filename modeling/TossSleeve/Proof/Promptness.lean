import TossSleeve.Lib.Greedy
import TossSleeve.Proof.Granting
import Mathlib.Data.List.Induction

/-!
# `Proof/Promptness.lean` — the limiter keeps nobody waiting for nothing

A limiter that granted nothing would enforce its window as well. This one grants as much as the
window allows: callers that queue for its lock are granted their calls at instants that no other
way of serving them under the same limit improves on, for any of them, in whatever order it serves
them (`limiter_prompt`).

That is what `acquire_earliest` says of one call, taken through a whole queue: what `acquire` does
under the lock, one caller after the other, is the greedy schedule (`Lib/Greedy.lean`).
-/

set_option autoImplicit false

namespace TossSleeve

open Lib

/-- Callers come at the instants `came` and get the lock in that order, each as soon as it is there
    and the one before is done. -/
inductive RateLimiter.Served {ω : Type} (rl : RateLimiter) (clock : Clock ω) (s : LimiterState ω) :
    List Time → LimiterState ω → Prop
  | nobody : Served rl clock s [] s
  | next {came : List Time} {s' : LimiterState ω} {a : Time} {w w' : ω} {fuel : ℕ} {t : Time}
      {calls : List Time} (h : Served rl clock s came s')
      (hw : clock.now w = clock.now s'.world ⊔ a)
      (ha : rl.acquire clock fuel s'.calls w = some (t, calls, w')) :
      Served rl clock s (came ++ [a]) { calls, granted := s'.granted ++ [t], world := w' }

namespace Proof.Promptness

open Granting

variable {ω : Type} {rl : RateLimiter} {clock : Clock ω} {s s' : LimiterState ω}
  {came : List Time}

/-! ## A queue of callers -/

theorem served_runs (hs : RateLimiter.Fresh s) (h : rl.Served clock s came s') :
    rl.Runs clock s' := by
  induction h with
  | nobody => exact .start hs
  | next h hw ha ih =>
    have hle := le_trans (le_max_left _ _) (le_of_eq hw.symm)
    exact .step (.step ih (.pass hle)) (.grant ha)

/-- **A queue of callers is served greedily.** -/
theorem served_greedy (hx : Punctual clock) (hs : RateLimiter.Fresh s)
    (h : rl.Served clock s came s') :
    Greedy rl.max rl.period (clock.now s.world) came s'.granted (clock.now s'.world) := by
  induction h with
  | nobody =>
    rw [hs.2]
    exact .nil
  | next h hw ha ih =>
    have hle := le_trans (le_max_left _ _) (le_of_eq hw.symm)
    obtain ⟨hleast, hdone⟩ := acquire_earliest hx ((runs_tracks (served_runs hs h)).mono hle) ha
    rw [hw] at hleast
    rw [hdone]
    exact ih.next hleast

/-- Whoever comes is served. -/
theorem served_exists (hx : Punctual clock) (hs : RateLimiter.Fresh s) (came : List Time) :
    ∃ s', rl.Served clock s came s' := by
  induction came using List.reverseRecOn with
  | nil => exact ⟨s, .nobody⟩
  | append_singleton came a ih =>
    obtain ⟨s', h⟩ := ih
    have hwait : 0 ≤ clock.now s'.world ⊔ a - clock.now s'.world :=
      sub_nonneg.mpr (le_max_left _ _)
    have hw := hx.sleep_eq _ s'.world hwait
    rw [add_sub_cancel] at hw
    have hle := le_trans (le_max_left _ _) (le_of_eq hw.symm)
    obtain ⟨⟨t, calls, w'⟩, ha⟩ := acquire_ends hx.sleepsFully
      ((runs_tracks (served_runs hs h)).mono hle)
    exact ⟨_, h.next hw ha⟩

/-- **The limiter keeps nobody waiting for nothing.** Where sleeps are exact, all callers are
    served, within the limit, each at the first instant that the ones before leave to it; and
    whatever other instants there are at which the same callers could be served within the limit,
    none of the limiter's is later than the one in its place. -/
theorem limiter_prompt {ω : Type} (rl : RateLimiter) {clock : Clock ω} (hx : Punctual clock)
    {s : LimiterState ω} (hs : RateLimiter.Fresh s) {came : List Time}
    (hsorted : came.Pairwise (· ≤ ·)) (hopened : ∀ a ∈ came, clock.now s.world ≤ a) :
    (∃ s', rl.Served clock s came s') ∧
    ∀ s', rl.Served clock s came s' →
      Greedy rl.max rl.period (clock.now s.world) came s'.granted (clock.now s'.world) ∧
      Serves rl.max rl.period came s'.granted ∧
      ∀ times, Serves rl.max rl.period came times →
        List.Forall₂ (· ≤ ·) s'.granted (times.insertionSort (· ≤ ·)) := by
  refine ⟨served_exists hx hs came, fun s' h => ?_⟩
  have hgreedy := served_greedy hx hs h
  refine ⟨hgreedy, hgreedy.serves, fun times htimes => ?_⟩
  exact hgreedy.least rl.period_pos hsorted hopened htimes

/-- The same calls in another order. -/
theorem serves_otherwise : Serves 2 (1 : Time) [0, 0, 0, 1 / 2] [1, 0, 0, 1] := by
  constructor
  · simp [List.forall₂_cons]
    norm_num
  · intro t
    -- No window of a second holds both 0 and 1.
    have hboth : ¬ ((t - 1 < 0 ∧ (0 : ℚ) ≤ t) ∧ (t - 1 < 1 ∧ (1 : ℚ) ≤ t)) := by
      rintro ⟨⟨hlt, -⟩, -, hle⟩
      linarith
    simp only [inWindow, List.filter_cons, List.filter_nil, decide_eq_true_eq]
    by_cases hzero : t - 1 < 0 ∧ (0 : ℚ) ≤ t
    · have hone := fun h => hboth ⟨hzero, h⟩
      simp only [if_pos hzero, if_neg hone]
      exact le_refl 2
    · simp only [if_neg hzero]
      split <;> simp

/-- Three calls at once and a fourth half a second later: two of them wait for the second to be
    over, and not longer. -/
theorem limiter_prompt_burst : ∃ s', twoPerSecond.Served clockOnly ⟨[], [], 0⟩ [0, 0, 0, 1 / 2] s' ∧
    List.Forall₂ (· ≤ ·) s'.granted [0, 0, 1, 1] := by
  have hcame : ([0, 0, 0, 1 / 2] : List Time).Pairwise (· ≤ ·) := by decide +kernel
  obtain ⟨⟨s', h⟩, hall⟩ := limiter_prompt twoPerSecond punctual_clockOnly
    (s := ⟨[], [], 0⟩) ⟨rfl, rfl⟩ hcame (by decide +kernel)
  have hsorted : [1, 0, 0, 1].insertionSort (· ≤ ·) = ([0, 0, 1, 1] : List Time) := by
    decide +kernel
  exact ⟨s', h, hsorted ▸ (hall s' h).2.2 _ serves_otherwise⟩

end Proof.Promptness
end TossSleeve
