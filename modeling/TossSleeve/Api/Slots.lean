import TossSleeve.Api.Rest
import TossSleeve.RateLimit
import TossSleeve.Lib.Pool

/-!
# `Api/Slots.lean` — one `TossRest` and its limiter, in time (`api/rest.py`, `ratelimit.py`)

To a method of the `TossRest`, `acquire` is something to wait for and a GET is sent when it is
answered. When a request leaves is another matter: it leaves as soon as what the method waited for
last has come. Here `acquire` is spelled out, to the lock and the turns of its loop; a GET is two
steps, the sending and the answer; and the account number of a GET is looked up on the way, where
it is not known, with a GET of its own.

Any number of calls share the `TossRest`. What happens between two of their steps is the world's
business: other calls, and time that passes. A request is sent at the instant at which its call was
resumed last, so no time passes between the two.
-/

set_option autoImplicit false

namespace TossSleeve

open Lib

/-! ## 1. The calls -/

/-- What the calls of one `TossRest` ask for. -/
inductive RestReq where
  /-- `async with self._lock`, of the limiter. -/
  | lock
  | unlock
  /-- One reading of the clock, `_evict`, and the test of the loop; with room, the slot is taken. -/
  | turn
  | sleep (wait : Time)
  /-- No answer ever comes. -/
  | forever
  /-- `client.get` is called. -/
  | send (path : String) (params : List (String × String)) (authorization : String)
      (account : Option String)
  | response
  /-- Anything else: tokens, and the account number the `TossRest` knows. -/
  | other (q : BrokerReq)

/-- A turn is answered by how long there is to wait: `none` once the slot is taken. -/
abbrev RestReq.Resp : RestReq → Type
  | .lock => Unit
  | .unlock => Unit
  | .turn => Option Time
  | .sleep _ => Unit
  | .forever => Empty
  | .send _ _ _ _ => Unit
  | .response => PostOutcome
  | .other q => q.Resp

abbrev RestProg (α : Type) : Type := Proc Unit RestReq RestReq.Resp Exc α

namespace RestProg

def askRest (q : RestReq) : RestProg q.Resp := Proc.request q

/-- The loop of `RateLimiter.acquire`, as far as `fuel` lets it turn. -/
def acquireLoop : ℕ → RestProg Unit
  | 0 => do return (← askRest .forever).elim
  | fuel + 1 => do
    match ← askRest .turn with
    | none => .ret ()
    | some wait => do
      if wait > 0 then askRest (.sleep wait)
      acquireLoop fuel

/-- `RateLimiter.acquire`. -/
def acquire (fuel : ℕ) : RestProg Unit := do
  askRest .lock
  acquireLoop fuel
  askRest .unlock

/-- A slot is acquired, and a GET is sent and answered, step by step. -/
def serve (fuel : ℕ) : (q : BrokerReq) → RestProg q.Resp
  | .acquireRead => acquire fuel
  | .get path params authorization account => do
    askRest (.send path params authorization account)
    askRest .response
  | q => askRest (.other q)

end RestProg

/-- An account number is looked up; anything else is asked for. -/
def accountLookup : (q : BrokerReq) → Prog q.Resp
  | .accountSeq => Prog.outcome TossRest.accountSeq
  | q => ask q

/-- A call of a reading method. -/
inductive RestCall where
  | holdings
  | orderFill (orderId : String)
  | buyingPower (currency : Currency)
  | prices (symbols : List String)
  | orderbook (symbol : String)
  | accountSeq

namespace RestCall

def program : RestCall → Prog Unit
  | .holdings => discard TossRest.holdings
  | .orderFill orderId => discard (TossRest.orderFill orderId)
  | .buyingPower currency => discard (TossRest.buyingPower currency)
  | .prices symbols => discard (TossRest.prices symbols)
  | .orderbook symbol => discard (TossRest.orderbook symbol)
  | .accountSeq => discard TossRest.accountSeq

/-- The call, step by step. -/
def timed (fuel : ℕ) (call : RestCall) : RestProg Unit :=
  (call.program.inline accountLookup).inline (RestProg.serve fuel)

/-- Does the call send the account number along? -/
def Numbered : RestCall → Prop
  | .holdings => True
  | .orderFill _ => True
  | .buyingPower _ => True
  | .prices _ => False
  | .orderbook _ => False
  | .accountSeq => False

end RestCall

/-! ## 2. The world -/

/-- A `TossRest`, its limiter, and the clock. -/
structure RestWorld (ι : Type) where
  now : Time
  /-- The limiter's queue. -/
  calls : List Time
  /-- Who holds the limiter's lock. -/
  holder : Option ι := none
  /-- `_account_seq`, if it is not empty. -/
  account : Option String
  /-- Every slot there has been, and every GET: whose, and when. -/
  granted : List (ι × Time) := []
  sent : List (ι × Time) := []
  /-- When the network or the limiter last let a call go on. -/
  resumed : ι → Time

namespace RestWorld

variable {ι : Type}

/-- A new `TossRest`, with or without an account number. -/
def Fresh (w : RestWorld ι) : Prop :=
  w.calls = [] ∧ w.holder = none ∧ w.granted = [] ∧ w.sent = []

variable [DecidableEq ι]

/-- A call goes on. -/
def resume (w : RestWorld ι) (i : ι) : RestWorld ι :=
  { w with resumed := Function.update w.resumed i w.now }

/-- The queue after `_evict`. -/
def evict (rl : RateLimiter) (w : RestWorld ι) : RestWorld ι :=
  { w with calls := rl.evict w.now w.calls }

/-- A call takes a slot. -/
def grant (w : RestWorld ι) (i : ι) : RestWorld ι :=
  { w with
    calls := w.calls ++ [w.now]
    granted := w.granted ++ [(i, w.now)]
    resumed := Function.update w.resumed i w.now }

/-- How the world answers a call. `C` is what is known of the calls that take a slot. -/
inductive Answers (rl : RateLimiter) (C : RestWorld ι → ι → Prop) (w : RestWorld ι) (i : ι) :
    Event RestReq.Resp → RestWorld ι → Prop
  | lock (h : w.holder = none) : Answers rl C w i ⟨.lock, ()⟩ { w with holder := some i }
  | unlock : Answers rl C w i ⟨.unlock, ()⟩ { w with holder := none }
  | full {wait : Time} (h : rl.toWait w.now (w.evict rl).calls = some wait) :
      Answers rl C w i ⟨.turn, some wait⟩ (w.evict rl)
  | room (h : rl.toWait w.now (w.evict rl).calls = none) (hc : C w i) :
      Answers rl C w i ⟨.turn, none⟩ ((w.evict rl).grant i)
  | sleep (wait : Time) : Answers rl C w i ⟨.sleep wait, ()⟩ w
  | send {path authorization : String} {params : List (String × String)} {account : Option String}
      (h : w.resumed i = w.now) : Answers rl C w i ⟨.send path params authorization account, ()⟩
        { w with sent := w.sent ++ [(i, w.now)] }
  | response (outcome : PostOutcome) : Answers rl C w i ⟨.response, outcome⟩ (w.resume i)
  | authHeaders (x : Except LookupFailure String) :
      Answers rl C w i ⟨.other .authHeaders, x⟩ (w.resume i)
  | invalidate : Answers rl C w i ⟨.other .invalidate, ()⟩ (w.resume i)
  | cachedAccountSeq : Answers rl C w i ⟨.other .cachedAccountSeq, w.account⟩ w
  | cacheAccountSeq (seq : String) :
      Answers rl C w i ⟨.other (.cacheAccountSeq seq), ()⟩ { w with account := some seq }

/-- Time passes. -/
inductive Moves (w : RestWorld ι) : RestWorld ι → Prop
  | pass {now : Time} (h : w.now ≤ now) : Moves w { w with now }

/-- **A call that sends an account number takes a slot only when the number is known.** -/
def Known (calls : ι → RestCall) (w : RestWorld ι) (i : ι) : Prop :=
  (calls i).Numbered → w.account ≠ none

end RestWorld

/-- Any number of calls that share one `TossRest`. -/
def reading {ι : Type} [DecidableEq ι] (rl : RateLimiter) (fuel : ι → ℕ) (calls : ι → RestCall)
    (C : RestWorld ι → ι → Prop) : Pool (RestWorld ι) ι RestReq.Resp Exc Unit where
  program i := (calls i).timed (fuel i)
  Answer w i e w' := w.Answers rl C i e w'
  Env w w' := w.Moves w'

end TossSleeve
