import TossSleeve.RateLimit
import Mathlib.Order.Bounds.Basic
import Mathlib.Tactic.Linarith

/-!
# `Proof/Granting.lean` — the limiter enforces its sliding window

    among the instants at which acquires are granted,
    every (t - period, t] contains at most max_calls

for every clock, every sleep and any number of calls; and no call waits longer than that requires
(`limiter_slides`).

The queue tracks the history (`Lib/Window.lean`): each turn of the loop drops from its front, the
last one admits. What a turn does with the wait it computed matters for how long the loop runs
only. The queue is full when it waits and its front leaves the window after exactly that wait, so
one full sleep is enough (`room_after_wait`); before, the window is full.
-/

set_option autoImplicit false

namespace TossSleeve.Proof

open Lib

namespace Granting

variable {ω : Type} {rl : RateLimiter} {clock : Clock ω}

/-! ## 1. One turn of the loop -/

theorem toWait_none {now : Time} {calls : List Time} (h : rl.toWait now calls = none) :
    calls.length < rl.max := by
  unfold RateLimiter.toWait at h
  split at h
  · exact absurd h (by simp)
  · next hlt => exact not_le.mp hlt

theorem toWait_of_room {now : Time} {calls : List Time} (h : calls.length < rl.max) :
    rl.toWait now calls = none := dif_neg (not_le.mpr h)

/-- It waits for the front of a full queue. -/
theorem toWait_some {now wait : Time} {calls : List Time} (h : rl.toWait now calls = some wait) :
    rl.max ≤ calls.length ∧ ∃ first rest, calls = first :: rest ∧
      wait = first + rl.period - now := by
  unfold RateLimiter.toWait at h
  split at h
  · next hle =>
    refine ⟨hle, ?_⟩
    cases calls with
    | nil =>
      have := rl.max_pos
      exact absurd hle (by simp; omega)
    | cons first rest => exact ⟨first, rest, rfl, (Option.some.inj h).symm⟩
  · exact absurd h (by simp)

/-- **Room after the wait**: the front of the queue is gone then. -/
theorem room_after_wait {first now : Time} {rest : List Time}
    (hlen : (first :: rest).length ≤ rl.max) (hnow : first + rl.period ≤ now) :
    (rl.evict now (first :: rest)).length < rl.max := by
  have hgone : first ≤ now - rl.period := by linarith
  have hevict : rl.evict now (first :: rest) = rl.evict now rest := by
    unfold RateLimiter.evict Lib.evict
    rw [List.dropWhile_cons_of_pos (by simpa using hgone)]
  rw [hevict]
  have hle : (rl.evict now rest).length ≤ rest.length := (List.dropWhile_sublist _).length_le
  rw [List.length_cons] at hlen
  omega

/-! ## 2. The window -/

/-- The clock's next reading, after the sleep of a turn. -/
def readAfter (clock : Clock ω) (wait : Time) (w : ω) : Time × ω :=
  clock.time (if wait > 0 then clock.sleep wait w else w)

theorem le_readAfter (clock : Clock ω) (wait : Time) (w : ω) :
    clock.now w ≤ (readAfter clock wait w).1 := by
  unfold readAfter
  by_cases h : wait > 0
  · rw [if_pos h]
    exact le_trans (clock.now_le_sleep wait w) (clock.now_le_time _)
  · rw [if_neg h]
    exact clock.now_le_time w

theorem acquireLoop_succ (fuel : ℕ) (now : Time) (calls : List Time) (w : ω) :
    rl.acquireLoop clock (fuel + 1) now calls w =
      (rl.toWait now calls).elim (some (now, calls ++ [now], w)) fun wait =>
        rl.acquireLoop clock fuel (readAfter clock wait w).1
          (rl.evict (readAfter clock wait w).1 calls) (readAfter clock wait w).2 := by
  rw [RateLimiter.acquireLoop]
  cases rl.toWait now calls <;> rfl

/-- The loop keeps track, and admits one instant. By induction on its turns. -/
theorem acquireLoop_tracks {granted : List Time} : ∀ {fuel : ℕ} {now : Time} {calls : List Time}
    {w : ω} {t : Time} {calls' : List Time} {w' : ω},
    Tracks rl.max rl.period calls granted now → now ≤ clock.now w →
    rl.acquireLoop clock fuel now calls w = some (t, calls', w') →
    Tracks rl.max rl.period calls' (granted ++ [t]) t ∧ t ≤ clock.now w' := by
  intro fuel
  induction fuel with
  | zero =>
    intro now calls w t calls' w' _ _ h
    exact absurd h (by simp [RateLimiter.acquireLoop])
  | succ fuel ih =>
    intro now calls w t calls' w' htracks hnow h
    rw [acquireLoop_succ] at h
    cases hwait : rl.toWait now calls with
    | none =>
      rw [hwait] at h
      cases h
      exact ⟨htracks.grant (toWait_none hwait), hnow⟩
    | some wait =>
      rw [hwait, Option.elim_some] at h
      have hread : now ≤ (readAfter clock wait w).1 := le_trans hnow (le_readAfter clock wait w)
      exact ih (htracks.evict hread) (clock.time_le_now _) h

theorem acquire_tracks {fuel : ℕ} {calls granted calls' : List Time} {w w' : ω} {t : Time}
    (h : Tracks rl.max rl.period calls granted (clock.now w))
    (ha : rl.acquire clock fuel calls w = some (t, calls', w')) :
    Tracks rl.max rl.period calls' (granted ++ [t]) t ∧ t ≤ clock.now w' :=
  acquireLoop_tracks (h.evict (clock.now_le_time w)) (clock.time_le_now w) ha

/-- **In every state of a run the queue tracks the history.** -/
theorem runs_tracks {s : LimiterState ω} (h : rl.Runs clock s) :
    Tracks rl.max rl.period s.calls s.granted (clock.now s.world) := by
  refine Reachable.inv
    (fun s => Tracks rl.max rl.period s.calls s.granted (clock.now s.world)) ?_ ?_ h
  · intro s hs
    obtain ⟨hc, hg⟩ := hs
    rw [hc, hg]
    exact tracks_nil _
  · intro s s' hs hstep
    cases hstep with
    | pass hle => exact hs.mono hle
    | grant ha =>
      obtain ⟨htracks, hle⟩ := acquire_tracks hs ha
      exact htracks.mono hle

/-! ## 3. How long a call waits -/

/-- Every sleep lasts at least as long as it was asked to. -/
def SleepsFully (clock : Clock ω) : Prop := ∀ d w, clock.now w + d ≤ clock.now (clock.sleep d w)

/-- The first turn's queue: what the reading leaves of it is inside the window. -/
theorem wait_pos {now wait : Time} {calls : List Time} (hsorted : calls.Pairwise (· ≤ ·))
    (h : rl.toWait now (rl.evict now calls) = some wait) : 0 < wait := by
  obtain ⟨-, first, rest, he, rfl⟩ := toWait_some h
  have hmem : first ∈ Lib.evict rl.period now calls := by
    show first ∈ rl.evict now calls
    rw [he]
    exact List.mem_cons_self ..
  have := Tracks.lt_of_mem_evict hsorted hmem
  linarith

/-- **One full sleep is enough.** -/
theorem acquire_ends (hs : SleepsFully clock) {calls granted : List Time} {w : ω}
    (h : Tracks rl.max rl.period calls granted (clock.now w)) :
    ∃ r, rl.acquire clock 2 calls w = some r := by
  have htracks := h.evict (clock.now_le_time w)
  unfold RateLimiter.acquire
  simp only
  rw [acquireLoop_succ]
  cases hwait : rl.toWait (clock.time w).1 (rl.evict (clock.time w).1 calls) with
  | none => exact ⟨_, rfl⟩
  | some wait =>
    have hpos := wait_pos h.sorted hwait
    obtain ⟨-, first, rest, he, hw⟩ := toWait_some hwait
    have hread : first + rl.period ≤ (readAfter clock wait (clock.time w).2).1 := by
      unfold readAfter
      rw [if_pos hpos]
      have hslept := hs wait (clock.time w).2
      have hbefore := clock.time_le_now w
      have hafter := clock.now_le_time (clock.sleep wait (clock.time w).2)
      linarith
    have hlen : (first :: rest).length ≤ rl.max := by
      rw [← he]
      exact htracks.length_le
    rw [Option.elim_some, acquireLoop_succ, he, toWait_of_room (room_after_wait hlen hread)]
    exact ⟨_, rfl⟩

/-- Sleeps last as long as asked, and nothing else takes time. Nobody asks for less than no time. -/
structure Punctual (clock : Clock ω) : Prop where
  time_eq : ∀ w, clock.time w = (clock.now w, w)
  sleep_eq : ∀ d w, 0 ≤ d → clock.now (clock.sleep d w) = clock.now w + d

theorem Punctual.sleepsFully (h : Punctual clock) : SleepsFully clock := by
  intro d w
  rcases le_total 0 d with hd | hd
  · exact le_of_eq (h.sleep_eq d w hd).symm
  · exact le_trans (by linarith) (clock.now_le_sleep d w)

/-- The clock's next reading is at the end of the wait, if there was one. -/
theorem Punctual.readAfter_eq (h : Punctual clock) (wait : Time) (w : ω) :
    (readAfter clock wait w).1 = clock.now w ⊔ (clock.now w + wait) ∧
      clock.now (readAfter clock wait w).2 = (readAfter clock wait w).1 := by
  unfold readAfter
  rw [h.time_eq]
  refine ⟨?_, rfl⟩
  by_cases hwait : wait > 0
  · rw [if_pos hwait, h.sleep_eq wait w (le_of_lt hwait), max_eq_right (by linarith)]
  · rw [if_neg hwait, max_eq_left (by linarith)]

/-- The loop passes no instant at which there is room. By induction on its turns: since the call
    `asked`, every window has been full, and stays so until the front of the queue leaves. -/
theorem acquireLoop_earliest (hx : Punctual clock) {granted : List Time} {asked : Time} :
    ∀ {fuel : ℕ} {now : Time} {calls : List Time} {w : ω} {t : Time} {calls' : List Time} {w' : ω},
    Tracks rl.max rl.period calls granted now → clock.now w = now → asked ≤ now →
    (∀ u, asked ≤ u → u < now → rl.max ≤ (inWindow rl.period u granted).length) →
    rl.acquireLoop clock fuel now calls w = some (t, calls', w') →
    IsLeast {u | asked ≤ u ∧ (inWindow rl.period u granted).length < rl.max} t ∧
      clock.now w' = t := by
  intro fuel
  induction fuel with
  | zero =>
    intro now calls w t calls' w' _ _ _ _ h
    exact absurd h (by simp [RateLimiter.acquireLoop])
  | succ fuel ih =>
    intro now calls w t calls' w' htracks hnow hasked hfull h
    rw [acquireLoop_succ] at h
    cases hwait : rl.toWait now calls with
    | none =>
      rw [hwait] at h
      cases h
      have hroom := lt_of_le_of_lt (htracks.length_inWindow_le (le_refl now)) (toWait_none hwait)
      refine ⟨⟨⟨hasked, hroom⟩, fun u hu => ?_⟩, hnow⟩
      by_contra hlt
      exact absurd hu.2 (not_lt.mpr (hfull u hu.1 (not_le.mp hlt)))
    | some wait =>
      rw [hwait, Option.elim_some] at h
      obtain ⟨hlen, first, rest, rfl, rfl⟩ := toWait_some hwait
      obtain ⟨hread, hafter⟩ := hx.readAfter_eq (first + rl.period - now) w
      have hle : now ≤ (readAfter clock (first + rl.period - now) w).1 := by
        rw [hread, hnow]
        exact le_max_left _ _
      refine ih (htracks.evict hle) hafter (le_trans hasked hle) (fun u hu hlt => ?_) h
      rcases lt_or_ge u now with hbefore | hsince
      · exact hfull u hu hbefore
      · have hend : u < first + rl.period := by
          rw [hread, hnow, lt_max_iff] at hlt
          rcases hlt with hlt | hlt
          · exact absurd hlt (not_lt.mpr hsince)
          · linarith
        exact le_trans hlen (htracks.le_length_inWindow hsince hend)

/-- **A call is granted, and done, at the earliest instant with room in the window.** -/
theorem acquire_earliest (hx : Punctual clock) {fuel : ℕ} {calls granted calls' : List Time}
    {w w' : ω} {t : Time} (h : Tracks rl.max rl.period calls granted (clock.now w))
    (ha : rl.acquire clock fuel calls w = some (t, calls', w')) :
    IsLeast {u | clock.now w ≤ u ∧ (inWindow rl.period u granted).length < rl.max} t ∧
      clock.now w' = t := by
  unfold RateLimiter.acquire at ha
  rw [hx.time_eq] at ha
  refine acquireLoop_earliest hx (h.evict (le_refl _)) rfl (le_refl _) (fun u hu hlt => ?_) ha
  exact absurd hu (not_le.mpr hlt)

end Granting

/-- **The limiter enforces its sliding window**, for every clock and every sleep; its waiting ends
    when sleeps are not cut short, and no sooner than the limit allows when they are exact. -/
theorem limiter_slides {ω : Type} (rl : RateLimiter) (clock : Clock ω) :
    (∀ s, rl.Runs clock s → Limited rl.max rl.period s.granted) ∧
    (Granting.SleepsFully clock → ∀ s, rl.Runs clock s →
      ∃ r, rl.acquire clock 2 s.calls s.world = some r) ∧
    (Granting.Punctual clock → ∀ s, rl.Runs clock s → ∀ fuel t calls w,
      rl.acquire clock fuel s.calls s.world = some (t, calls, w) →
      IsLeast {t | clock.now s.world ≤ t ∧ (inWindow rl.period t s.granted).length < rl.max} t) := by
  refine ⟨?_, ?_, ?_⟩
  · intro s hs
    exact (Granting.runs_tracks hs).limited
  · intro hsleep s hs
    exact Granting.acquire_ends hsleep (Granting.runs_tracks hs)
  · intro hpunctual s hs fuel t calls w ha
    exact (Granting.acquire_earliest hpunctual (Granting.runs_tracks hs) ha).1

namespace Granting

/-- A world that is nothing but its clock. -/
def clockOnly : Clock Time where
  now w := w
  time w := (w, w)
  sleep d w := if 0 ≤ d then w + d else w
  now_le_time w := le_refl w
  time_le_now w := le_refl w
  now_le_sleep d w := by split <;> linarith

theorem punctual_clockOnly : Punctual clockOnly :=
  ⟨fun _ => rfl, fun _ _ hd => if_pos hd⟩

/-- Two calls a second. -/
def twoPerSecond : RateLimiter := ⟨2, 1, Nat.two_pos, one_pos⟩

/-- Both calls of the first second are granted at once. -/
theorem runs_twoPerSecond :
    twoPerSecond.Runs clockOnly { calls := [0, 0], granted := [0, 0], world := 0 } := by
  have hfirst : twoPerSecond.acquire clockOnly 1 [] 0 = some (0, [0], 0) := by decide +kernel
  have hsecond : twoPerSecond.acquire clockOnly 1 [0] 0 = some (0, [0, 0], 0) := by decide +kernel
  have hstart : twoPerSecond.Runs clockOnly { calls := [], granted := [], world := 0 } :=
    .start ⟨rfl, rfl⟩
  exact .step (.step hstart (.grant hfirst)) (.grant hsecond)

end Granting

/-- The third call waits for the second to be over, once, and not longer. -/
theorem limiter_slides_third :
    Limited 2 1 ([0, 0] : List Time) ∧
    ∃ calls w, Granting.twoPerSecond.acquire Granting.clockOnly 2 [0, 0] 0 = some (1, calls, w) ∧
      IsLeast {t : Time | 0 ≤ t ∧ (inWindow 1 t ([0, 0] : List Time)).length < 2} 1 := by
  obtain ⟨hlimited, hends, hearliest⟩ := limiter_slides Granting.twoPerSecond Granting.clockOnly
  obtain ⟨⟨t, calls, w⟩, ha⟩ := hends Granting.punctual_clockOnly.sleepsFully _
    Granting.runs_twoPerSecond
  have hone : (Granting.twoPerSecond.acquire Granting.clockOnly 2 [0, 0] 0).map Prod.fst = some 1 := by
    decide +kernel
  obtain rfl : t = 1 := Option.some.inj ((congrArg (Option.map Prod.fst) ha).symm.trans hone)
  exact ⟨hlimited _ Granting.runs_twoPerSecond, calls, w, ha,
    hearliest Granting.punctual_clockOnly _ Granting.runs_twoPerSecond _ _ _ _ ha⟩

end TossSleeve.Proof
