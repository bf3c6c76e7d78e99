import TossSleeve.Api.Constants
import TossSleeve.Ledger.InMemory
import TossSleeve.Lib.Proc
import TossSleeve.Money

/-!
# `Api/Auth.lean` — what a call waits for, and the one re-authentication (`api/auth.py`)

The methods of the broker are coroutines. Everything such a method does to something outside
itself — awaiting the network, but also calling the ledger or reading its cache of acks — is a
request here, so that a run of the method is a list of requests with their answers, and who
answers, and what else happens in between, is left to whoever runs it.

The token and the account number are looked up by code that does not submit orders, and the
broker's methods are written against the answers: a lookup is one request to them, which yields a
value or fails. What such a lookup itself asks for — a cache, the token endpoint, the list of
accounts — are requests as well: `Api/Rest.lean` and `Api/TokenCache.lean` say how it goes.
-/

set_option autoImplicit false

namespace TossSleeve

open Lib

/-! ## 1. Requests -/

/-- A failed lookup: an error of the package, an `httpx.HTTPError`, or an exception nobody thought
    of. -/
inductive LookupFailure where
  | toss (e : TossError)
  | http
  | python (e : PyError)
  deriving DecidableEq

/-- The headers of a POST: the bearer token and `X-Tossinvest-Account`. -/
structure Headers where
  authorization : String
  account : String
  deriving DecidableEq

/-- The dict `_build_body` returns; a `Decimal` stands for its text, `none` for a key left out. -/
structure OrderBody where
  symbol : String
  side : String
  orderType : String
  timeInForce : String
  quantity : Option Decimal
  orderAmount : Option Decimal
  price : Option Decimal
  clientOrderId : Option String
  deriving DecidableEq

/-- The JSON of a POST: an order, or the `{}` of a cancellation. -/
inductive Payload where
  | order (body : OrderBody)
  | empty
  deriving DecidableEq

/-- What a coroutine of the package asks of the world. -/
inductive BrokerReq where
  /-- `self._acks.get(client_order_id)`, of the broker with this id. -/
  | cachedAck (broker : ℕ) (clientOrderId : String)
  | cacheAck (broker : ℕ) (clientOrderId : String) (ack : OrderAck)
  /-- A call of the ledger that writes. -/
  | ledger (op : LedgerOp)
  | clientOrderIdFor (orderId : String)
  | authHeaders
  | invalidate
  | accountSeq
  /-- `RateLimiter.acquire`. -/
  | acquire
  | post (path : String) (payload : Payload) (headers : Headers)
  /-- `TossRest.order_fill`. -/
  | orderFill (orderId : String)
  /-- A token that is in memory or on disk, and not expired. -/
  | cachedToken
  | cacheToken (token : String)
  /-- The POST to `TOKEN_PATH`. -/
  | postToken
  /-- `self._account_seq` of the `TossRest`, if it is known. -/
  | cachedAccountSeq
  | cacheAccountSeq (seq : String)
  /-- `RateLimiter.acquire` of the `TossRest`. -/
  | acquireRead
  /-- A GET, with the bearer token, and the account where the call has one. -/
  | get (path : String) (params : List (String × String)) (authorization : String)
      (account : Option String)

abbrev BrokerReq.Resp : BrokerReq → Type
  | .cachedAck _ _ => Option OrderAck
  | .cacheAck _ _ _ => Unit
  | .ledger _ => Reply
  | .clientOrderIdFor _ => Option String
  | .authHeaders => Except LookupFailure String
  | .invalidate => Unit
  | .accountSeq => Except LookupFailure String
  | .acquire => Unit
  | .post _ _ _ => PostOutcome
  | .orderFill _ => Except LookupFailure (Option Fill)
  | .cachedToken => Option String
  | .cacheToken _ => Unit
  | .postToken => PostOutcome
  | .cachedAccountSeq => Option String
  | .cacheAccountSeq _ => Unit
  | .acquireRead => Unit
  | .get _ _ _ _ => PostOutcome

/-- What a coroutine of the package raises. -/
inductive Exc where
  | toss (e : TossError)
  | http
  | python (e : PyError)
  | ledger (e : LedgerError)

/-- A coroutine of the package. It has no state of its own. -/
abbrev Prog (α : Type) : Type := Proc Unit BrokerReq BrokerReq.Resp Exc α

/-- Await the answer to a request. -/
def ask (q : BrokerReq) : Prog q.Resp := Proc.request q

/-- `raise` for a failed lookup. -/
def LookupFailure.exc : LookupFailure → Exc
  | .toss e => .toss e
  | .http => .http
  | .python e => .python e

/-- The value of a lookup, or its exception. -/
def Prog.lookup {α : Type} : Except LookupFailure α → Prog α
  | .ok a => .ret a
  | .error f => .raise f.exc

/-- A call of the ledger. -/
def ledgerCall (op : LedgerOp) : Prog Reply := do
  let reply : Reply ← ask (.ledger op)
  match reply with
  | .raised e => .raise (.ledger e)
  | reply => .ret reply

/-! ## 2. `request_with_reauth` -/

/-- `INVALID_TOKEN_CODE`. -/
def invalidTokenCode : String := "invalid-token"

/-- `auth.auth_headers()`. -/
def authHeaders : Prog String := do Prog.lookup (← ask .authHeaders)

/-- `rest.account_seq()`. -/
def accountSeq : Prog String := do Prog.lookup (← ask .accountSeq)

/-- A 401 whose code says that the *token* died: the answer that is worth a second attempt. -/
def TossError.InvalidToken (e : TossError) : Prop :=
  e.status = some 401 ∧ e.code = some invalidTokenCode

instance (e : TossError) : Decidable e.InvalidToken := inferInstanceAs (Decidable (_ ∧ _))

/-- `request_with_reauth`. Only the first `parse_toss` stands inside the `try`: what either `send`
    raises, and what the second answer says, propagates. -/
def requestWithReauth (send : String → Prog Response) (ambiguous : Bool) : Prog Json := do
  let headers ← authHeaders
  let resp ← send headers
  match parseToss resp ambiguous with
  | .ok payload => .ret payload
  | .error e =>
    if e.InvalidToken then do
      ask .invalidate
      let headers ← authHeaders
      let resp ← send headers
      match parseToss resp ambiguous with
      | .ok payload => .ret payload
      | .error e => .raise (.toss e)
    else .raise (.toss e)

end TossSleeve
