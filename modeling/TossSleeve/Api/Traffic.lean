import TossSleeve.Api.Slots
import TossSleeve.Broker

/-!
# `Api/Traffic.lean` — a broker and its `TossRest`, on one limiter (`broker.py`, `api/rest.py`)

A `TossBroker` that is given no `TossRest` makes one, on its own limiter. So the orders, the
cancellations and whatever is read share one window of slots, and in `Api/Slots.lean` there are only
the reads. Here are all of them: the POSTs of a broker leave in two steps, as the GETs do, and the
account number that a POST carries is looked up before the first attempt at it, with a GET.

The ledger and the cached acks are no further than a call away. They answer what they like, and no
time passes.
-/

set_option autoImplicit false

namespace TossSleeve

open Lib

/-- A call of a broker, or of its `TossRest`. -/
inductive TrafficCall where
  | place (b : TossBroker) (req : OrderRequest)
  | cancel (b : TossBroker) (orderId : String)
  | read (call : RestCall)

/-- Slots, POSTs and GETs, step by step. -/
def RestProg.transmit (fuel : ℕ) : (q : BrokerReq) → RestProg q.Resp
  | .acquire => RestProg.acquire fuel
  | .post path _ headers => do
    RestProg.askRest (.send path [] headers.authorization (some headers.account))
    RestProg.askRest .response
  | q => RestProg.serve fuel q

namespace TrafficCall

def program : TrafficCall → Prog Unit
  | .place b req => discard (b.place req)
  | .cancel b orderId => discard (b.cancel orderId)
  | .read call => call.program

/-- The call, step by step. -/
def timed (fuel : ℕ) (call : TrafficCall) : RestProg Unit :=
  (call.program.inline accountLookup).inline (RestProg.transmit fuel)

/-- Does the call know all it sends before it takes a slot? Those that may have to look the account
    number up in between do not. -/
def prompt : TrafficCall → Bool
  | .place _ _ => true
  | .cancel _ _ => true
  | .read .holdings => false
  | .read (.orderFill _) => false
  | .read (.buyingPower _) => false
  | .read (.prices _) => true
  | .read (.orderbook _) => true
  | .read .accountSeq => true

end TrafficCall

namespace RestWorld

variable {ι : Type} [DecidableEq ι]

/-- How the world answers a call. -/
inductive Carries (rl : RateLimiter) (w : RestWorld ι) (i : ι) :
    Event RestReq.Resp → RestWorld ι → Prop
  | rest {e : Event RestReq.Resp} {w' : RestWorld ι} (h : w.Answers rl (fun _ _ => True) i e w') :
      Carries rl w i e w'
  | ledger (op : LedgerOp) (reply : Reply) : Carries rl w i ⟨.other (.ledger op), reply⟩ w
  | cachedAck (broker : ℕ) (clientOrderId : String) (ack : Option OrderAck) :
      Carries rl w i ⟨.other (.cachedAck broker clientOrderId), ack⟩ w
  | cacheAck (broker : ℕ) (clientOrderId : String) (ack : OrderAck) :
      Carries rl w i ⟨.other (.cacheAck broker clientOrderId ack), ()⟩ w
  | clientOrderIdFor (orderId : String) (found : Option String) :
      Carries rl w i ⟨.other (.clientOrderIdFor orderId), found⟩ w

end RestWorld

/-- Any number of calls that share one limiter. -/
def traffic {ι : Type} [DecidableEq ι] (rl : RateLimiter) (fuel : ι → ℕ)
    (calls : ι → TrafficCall) : Pool (RestWorld ι) ι RestReq.Resp Exc Unit where
  program i := (calls i).timed (fuel i)
  Answer w i e w' := w.Carries rl i e w'
  Env w w' := w.Moves w'

end TossSleeve
