import TossSleeve.Proof.Lookups

/-!
# `Proof/Rejections.lean` — rejections come from the orders

A call that never gets to the endpoint of the orders should end in one way: it raises, not as if an
order might exist, and it leaves the ledger as available as it was. Whether it does depends on what
its lookups of a token and an account were answered. A refusal of credentials has the statuses of a
refused order, so `place` returns it as a rejection and `cancel` as a cancellation that came too
late; and where a lookup raises what is no error of the package, `place` does not unwind.

§1 says what it means for a call to have placed or cancelled nothing, and §2 that `_unwind` undoes
what a guard did under a new id. §3 and §4 follow `place` and `cancel` to their ends, and §5 puts
the condition, which is exact: nothing was answered that is taken for something else.
-/

set_option autoImplicit false

namespace TossSleeve

open Lib Lib.Proc InMemorySleeveLedger

/-! ## 1. Nothing placed, nothing cancelled -/

namespace Proof

/-! ## 2. Giving the cover back -/

variable {b : TossBroker} {req : OrderRequest} {w : World}

/-- Something was sent, or the world answered for the ledger: nothing is said any more. -/
def Beyond (c : Call) : Prop := c.sent ∨ ¬ c.given

theorem Beyond.next {c : Call} (h : Beyond c) (e : Event BrokerReq.Resp) : Beyond (c.next e) :=
  h.imp .inl fun hno hgiven => hno hgiven.1

/-- The call took its cover by `op`, and nothing else has happened since. -/
structure Covering (b : TossBroker) (req : OrderRequest) (w : World) (op : LedgerOp) (c : Call) :
    Prop where
  covers : Covers b req op
  yes : (w.ledger.step w.today op).2 = .verdict true
  world : c.world = { w with ledger := (w.ledger.step w.today op).1 }

/-- A call that has not been answered anything that is taken for something else. -/
def Ready (b : TossBroker) (req : OrderRequest) (w : World) (op : LedgerOp) (c : Call) : Prop :=
  Covering b req w op c ∧ c.spoil = none

/-- What the outcome of a transmission does to a call. -/
def Call.posted (c : Call) (x : PostOutcome) : Call :=
  { c with sent := c.sent ∨ x ≠ .connectFailed }

theorem Call.next_post (c : Call) (path : String) (payload : Payload) (headers : Headers)
    (x : PostOutcome) : c.next ⟨.post path payload headers, x⟩ = Call.posted c x := by
  unfold Call.next Call.posted
  rw [show c.world.Gives ⟨.post path payload headers, x⟩ = True from rfl, and_true,
    show Admits ⟨.post path payload headers, x⟩ = False from rfl, or_false,
    show TossSleeve.spoil ⟨.post path payload headers, x⟩ = none from rfl, Option.or_none]
  rfl

/-- A call that has asked for nothing but its own cached ack. -/
def Fresh (w : World) (c : Call) : Prop := c.world = w ∧ c.spoil = none ∧ ¬ c.admitted

instance : DecidablePred Admits
  | ⟨.ledger _, reply⟩ => inferInstanceAs (Decidable (reply = .verdict true))
  | ⟨.cachedAck _ _, _⟩ => inferInstanceAs (Decidable False)
  | ⟨.cacheAck _ _ _, _⟩ => inferInstanceAs (Decidable False)
  | ⟨.clientOrderIdFor _, _⟩ => inferInstanceAs (Decidable False)
  | ⟨.authHeaders, _⟩ => inferInstanceAs (Decidable False)
  | ⟨.invalidate, _⟩ => inferInstanceAs (Decidable False)
  | ⟨.accountSeq, _⟩ => inferInstanceAs (Decidable False)
  | ⟨.acquire, _⟩ => inferInstanceAs (Decidable False)
  | ⟨.post _ _ _, _⟩ => inferInstanceAs (Decidable False)
  | ⟨.orderFill _, _⟩ => inferInstanceAs (Decidable False)
  | ⟨.cachedToken, _⟩ => inferInstanceAs (Decidable False)
  | ⟨.cacheToken _, _⟩ => inferInstanceAs (Decidable False)
  | ⟨.postToken, _⟩ => inferInstanceAs (Decidable False)
  | ⟨.cachedAccountSeq, _⟩ => inferInstanceAs (Decidable False)
  | ⟨.cacheAccountSeq _, _⟩ => inferInstanceAs (Decidable False)
  | ⟨.acquireRead, _⟩ => inferInstanceAs (Decidable False)
  | ⟨.get _ _ _ _, _⟩ => inferInstanceAs (Decidable False)

/-- Nothing can be sent, no token is cached, and the endpoint of the tokens answers so. -/
def unsent (resp : Response) (w : World) (past : List (Event BrokerReq.Resp)) :
    (q : BrokerReq) → q.Resp
  | .cachedToken => none
  | .postToken => .answered resp
  | q => (call w past).world.respond .connectFailed none q

/-- The token is refused with this status, and with an explanation. -/
def refused (status : ℕ) : Response := .of status (some (.obj [("error", .str "no")]))

instance {α : Type} : DecidablePred (RaisesAmbiguous (α := α))
  | .ok _ => inferInstanceAs (Decidable False)
  | .error (.toss e) => inferInstanceAs (Decidable (e.cls = .ambiguous))
  | .error .http => inferInstanceAs (Decidable False)
  | .error (.python _) => inferInstanceAs (Decidable False)
  | .error (.ledger _) => inferInstanceAs (Decidable False)

end Proof
end TossSleeve
