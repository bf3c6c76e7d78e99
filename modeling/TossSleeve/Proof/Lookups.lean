import TossSleeve.Proof.Cover
import TossSleeve.Api.Rest

/-!
# `Proof/Lookups.lean` — what the lookups of a token and an account can be taken for

The errors of four endpoints reach `place` and `cancel` through one parser, and both classify them
by status alone. So an answer of the token endpoint or of the accounts endpoint can be taken for
the order's: a 400 or 422 for a rejection, a 409 for a duplicate. And where a lookup raises what is
no error of the package at all, nothing is classified.

`Spoil` names the three ways, and `spoil` says which answers lead to which. A `Call` is a run of one
method that remembers the first of them. The runs are those of the methods with their lookups
spelled out, so the answers are HTTP responses; `brokerLookup_serves` takes a run to that of the
method itself, whose requests for a token and an account are answered as `spoil` says.
-/

set_option autoImplicit false

namespace TossSleeve

open Lib Lib.Proc

/-! ## 1. Answers that are taken for something else -/

/-- What a lookup that failed is taken for. -/
inductive Spoil where
  /-- A 409, or an error that says so itself: the order may exist. -/
  | conflict
  /-- A 400 or 422 with a body: the order was rejected. -/
  | rejection
  /-- An exception that is neither the package's nor `httpx`'s. -/
  | crash
  deriving DecidableEq

/-- What a response to a lookup is taken for. -/
def Response.spoil (r : Response) : Option Spoil :=
  if r.status = 409 then some .conflict
  else if r.status ∈ businessStatuses ∧ ¬ (jsonOrNone r).isNull then some .rejection
  else none

/-- The token endpoint granted a token for longer than a `float` can tell. -/
def Response.Preposterous (r : Response) : Prop :=
  r.Success ∧ (r.result.get? "access_token").isSome ∧ toFloatOverflows (r.result.field "expires_in")

instance : DecidablePred Response.Preposterous :=
  fun _ => inferInstanceAs (Decidable (_ ∧ _ ∧ _))

def tokenSpoil : PostOutcome → Option Spoil
  | .answered r => if r.Preposterous then some .crash else r.spoil
  | _ => none

def accountSpoil : PostOutcome → Option Spoil
  | .answered r => r.spoil
  | _ => none

/-- What a failure is taken for, by whoever hears of it. -/
def LookupFailure.spoil : LookupFailure → Option Spoil
  | .toss e =>
    if e.status = some 409 ∨ e.cls = .ambiguous then some .conflict
    else if isBusinessRejection e then some .rejection
    else none
  | .http => none
  | .python _ => some .crash

/-- What the answer to a lookup is taken for. -/
def lookedSpoil : Except LookupFailure String → Option Spoil
  | .ok _ => none
  | .error f => f.spoil

/-- What the answer to a lookup is taken for, or the answer to what a lookup sent. -/
def spoil : Event BrokerReq.Resp → Option Spoil
  | ⟨.authHeaders, x⟩ => lookedSpoil x
  | ⟨.accountSeq, x⟩ => lookedSpoil x
  | ⟨.postToken, x⟩ => tokenSpoil x
  | ⟨.get _ _ _ _, x⟩ => accountSpoil x
  | _ => none

/-! ## 2. A call on its own -/

/-- Did something leave for an endpoint of the orders? -/
def Sends : Event BrokerReq.Resp → Prop
  | ⟨.post _ _ _, x⟩ => x ≠ .connectFailed
  | _ => False

/-- Did the ledger say yes? -/
def Admits : Event BrokerReq.Resp → Prop
  | ⟨.ledger _, reply⟩ => reply = .verdict true
  | _ => False

/-- A call in a world that only the call changes. -/
structure Call where
  world : World
  /-- The ledger and the caches answered for themselves. -/
  given : Prop := True
  admitted : Prop := False
  sent : Prop := False
  /-- The first answer that was taken for something else. -/
  spoil : Option Spoil := none

def Call.next (c : Call) (e : Event BrokerReq.Resp) : Call where
  world := c.world.after e
  given := c.given ∧ c.world.Gives e
  admitted := c.admitted ∨ Admits e
  sent := c.sent ∨ Sends e
  spoil := c.spoil.or (TossSleeve.spoil e)

/-- What the answer to a lookup does to a call. -/
def Call.spoiltBy (c : Call) (s : Option Spoil) : Call := { c with spoil := c.spoil.or s }

/-- The call that went as in the trace. -/
def call (w : World) (tr : List (Event BrokerReq.Resp)) : Call := tr.foldl Call.next { world := w }

namespace Proof

/-! ## 3. What is heard of an answer -/

/-- An error with another status, or with none, is taken for itself. -/
theorem spoil_of_status {e : TossError} (hcls : e.cls ≠ .ambiguous)
    (h : ∀ s ∈ e.status, s ≠ 409 ∧ s ∉ businessStatuses) :
    (LookupFailure.toss e).spoil = none := by
  have h409 : ¬ (e.status = some 409 ∨ e.cls = .ambiguous) := by
    rintro (h' | h')
    · exact (h 409 h').1 rfl
    · exact hcls h'
  have hno : isBusinessRejection e = false := by
    unfold isBusinessRejection
    cases hstatus : e.status with
    | none => exact Bool.and_false _
    | some s => rw [Option.any_some, decide_eq_false (h s hstatus).2, Bool.and_false]
  show (if e.status = some 409 ∨ e.cls = .ambiguous then _ else _) = _
  rw [if_neg h409, hno, if_neg Bool.false_ne_true]

/-- The call goes as the ghost says. -/
abbrev Goes {α : Type} (fin : Call → Except Exc α → Prop) (p : Prog α) (c : Call) : Prop :=
  Along Call.next (fun _ _ => True) fin p c

/-- How a lookup ends. -/
inductive LookEnd {α : Type} (c : Call) : Call → Except Exc α → Prop
  | ok (a : α) : LookEnd c c (.ok a)
  | error (f : LookupFailure) : LookEnd c (c.spoiltBy f.spoil) (.error f.exc)

theorem Call.spoiltBy_none (c : Call) : c.spoiltBy none = c := by
  rw [Call.spoiltBy, Option.or_none]

/-- An error that is taken for itself. -/
theorem lookEnd_toss {α : Type} (c : Call) {e : TossError}
    (h : (LookupFailure.toss e).spoil = none) :
    LookEnd c c (.error (.toss e) : Except Exc α) := by
  have hend := LookEnd.error (α := α) (c := c) (.toss e)
  rwa [h, Call.spoiltBy_none] at hend

theorem LookEnd.raised {α β : Type} {c c' : Call} {e : Exc}
    (h : LookEnd c c' (.error e : Except Exc α)) : LookEnd c c' (.error e : Except Exc β) := by
  cases h with
  | error f => exact .error f

/-- How the GET of `account_seq` ends. -/
inductive AskEnd (c : Call) : Call → Except Exc Response → Prop
  | answered (r : Response) : AskEnd c (c.spoiltBy r.spoil) (.ok r)
  | failed {e : TossError} (hcls : e.cls = .transport) (h : e.status = none) :
      AskEnd c c (.error (.toss e))

theorem AskEnd.raised {c c' : Call} {e : Exc} (h : AskEnd c c' (.error e)) :
    LookEnd c c' (.error e : Except Exc Json) := by
  cases h with
  | failed hcls h =>
    refine lookEnd_toss c (spoil_of_status (by simp [hcls]) fun s hs => ?_)
    exact absurd (h.symm.trans hs) (by simp)

end Proof
end TossSleeve
