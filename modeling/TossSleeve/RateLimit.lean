import TossSleeve.Lib.Window
import TossSleeve.Lib.Reach
import Mathlib.Algebra.Order.Ring.Rat

/-!
# `TossSleeve/RateLimit.lean` — the sliding-window rate limiter (`ratelimit.py`)

`acquire` waits until fewer than `max_calls` calls were granted in the last `period` seconds, and
then grants one more. It keeps a queue of the granted instants and prunes it lazily; the clock and
the sleep are injected (`time_func`, `sleep_func`), so the model takes them as it finds them: a
`Clock` is any world with a reading that never goes back and a sleep that returns whenever it
likes.

Times are exact here, where the source has floats.

The lock makes one call of `acquire` wait for the other, so a run is a sequence of whole calls
with time passing in between. A call is granted at the instant its last reading of the clock
shows: nothing awaits between that reading and the return.
-/

set_option autoImplicit false

namespace TossSleeve

open Lib

/-- Instants and durations, in seconds. -/
abbrev Time := ℚ

/-- The `ValueError`s of `RateLimiter.__init__`. -/
inductive LimiterError where
  | maxCalls (n : ℤ)
  | period (p : Time)
  deriving DecidableEq

/-- The message, up to the value interpolated into it. -/
def LimiterError.text : LimiterError → String
  | .maxCalls _ => "max_calls 는 양수여야 함: "
  | .period _ => "period 는 양수여야 함: "

/-- A `RateLimiter`'s settings. The constructor refuses what is not positive. -/
structure RateLimiter where
  max : ℕ
  period : Time
  max_pos : 0 < max
  period_pos : 0 < period

namespace RateLimiter

/-- `__init__`. -/
def init (maxCalls : ℤ) (period : Time) : Except LimiterError RateLimiter :=
  if hm : maxCalls ≤ 0 then .error (.maxCalls maxCalls)
  else if hp : period ≤ 0 then .error (.period period)
  else .ok
    { max := maxCalls.toNat
      period
      max_pos := by omega
      period_pos := not_le.mp hp }

/-- `_evict`. -/
def evict (rl : RateLimiter) (now : Time) (calls : List Time) : List Time :=
  Lib.evict rl.period now calls

/-- The test of the waiting loop, after `_evict`: how long is there still to wait? `none` when
    there is room. -/
def toWait (rl : RateLimiter) (now : Time) (calls : List Time) : Option Time :=
  if h : rl.max ≤ calls.length then
    have : 0 < calls.length := lt_of_lt_of_le rl.max_pos h
    some (calls[0] + rl.period - now)
  else none

end RateLimiter

/-- `time_func` and `sleep_func`, over whatever world they live in. Neither takes time back. -/
structure Clock (ω : Type) where
  now : ω → Time
  time : ω → Time × ω
  sleep : Time → ω → ω
  now_le_time : ∀ w, now w ≤ (time w).1
  time_le_now : ∀ w, (time w).1 ≤ now (time w).2
  now_le_sleep : ∀ d w, now w ≤ now (sleep d w)

namespace RateLimiter

variable {ω : Type} (rl : RateLimiter) (clock : Clock ω)

/-- The waiting loop of `acquire`, once `now` was read and the queue pruned: the granted instant,
    the queue and the world it leaves, if it ends within `fuel` turns. -/
def acquireLoop : ℕ → Time → List Time → ω → Option (Time × List Time × ω)
  | 0, _, _, _ => none
  | fuel + 1, now, calls, w =>
    match rl.toWait now calls with
    | none => some (now, calls ++ [now], w)
    | some wait =>
      let w := if wait > 0 then clock.sleep wait w else w
      let (now, w) := clock.time w
      acquireLoop fuel now (rl.evict now calls) w

/-- `acquire`, with the lock held. -/
def acquire (fuel : ℕ) (calls : List Time) (w : ω) : Option (Time × List Time × ω) :=
  let (now, w) := clock.time w
  rl.acquireLoop clock fuel now (rl.evict now calls) w

end RateLimiter

/-- A limiter in its world. `granted` is the history: every instant at which a call was granted. -/
structure LimiterState (ω : Type) where
  calls : List Time
  granted : List Time
  world : ω

namespace RateLimiter

variable {ω : Type} (rl : RateLimiter) (clock : Clock ω)

/-- A new limiter. -/
def Fresh (s : LimiterState ω) : Prop := s.calls = [] ∧ s.granted = []

/-- Between two calls time passes; a call is granted. -/
inductive Step : LimiterState ω → LimiterState ω → Prop
  | pass {s : LimiterState ω} {w : ω} (h : clock.now s.world ≤ clock.now w) :
      Step s { s with world := w }
  | grant {s : LimiterState ω} {fuel : ℕ} {t : Time} {calls : List Time} {w : ω}
      (h : rl.acquire clock fuel s.calls s.world = some (t, calls, w)) :
      Step s { calls, granted := s.granted ++ [t], world := w }

/-- What a run can reach. -/
def Runs (s : LimiterState ω) : Prop := Reachable Fresh (rl.Step clock) s

end RateLimiter

end TossSleeve
