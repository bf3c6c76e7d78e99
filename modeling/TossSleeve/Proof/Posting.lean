import TossSleeve.Proof.Submission

/-!
# `Proof/Posting.lean` — one `_post`, from any phase

`place` and `cancel` send what they send through the same two nested retries, and a proof about
either wants to know the same of it: where it can end. Seen from a ghost the answer is short. While
it looks up a token and an account, waits for a slot, or transmits in vain, the call stays where it
is; the one transmission that was not in vain decides.

`CanPost` says of a set of phases that a `_post` can be made from them, where each outcome of a
transmission leads, and where a failed lookup does; `post_along` is the rule. What an outcome
*means* is left to the method.
-/

set_option autoImplicit false

namespace TossSleeve.Proof.Posting

open Lib Lib.Proc

variable {G : Type}

/-- Where the answer to a lookup leads. -/
def looked (lost : G → LookupFailure → G) (g : G) : Except LookupFailure String → G
  | .ok _ => g
  | .error f => lost g f

/-- From the phases `P` a body can be posted: all that goes on around the transmission leaves the
    phase alone, unless a lookup fails, and `out` says where the outcome of the transmission leads.
    After one that never left, or was turned away for a dead token, the body can be posted again. -/
structure CanPost (next : G → Event BrokerReq.Resp → G) (ok : G → BrokerReq → Prop) (path : String)
    (payload : Payload) (ambiguous : Bool) (P : G → Prop) (out : G → PostOutcome → G)
    (lost : G → LookupFailure → G) : Prop where
  authHeaders : ∀ g, P g → ok g .authHeaders ∧ ∀ x, next g ⟨.authHeaders, x⟩ = looked lost g x
  invalidate : ∀ g, P g → ok g .invalidate ∧ ∀ x, next g ⟨.invalidate, x⟩ = g
  accountSeq : ∀ g, P g → ok g .accountSeq ∧ ∀ x, next g ⟨.accountSeq, x⟩ = looked lost g x
  acquire : ∀ g, P g → ok g .acquire ∧ ∀ x, next g ⟨.acquire, x⟩ = g
  post : ∀ g, P g → ∀ headers, ok g (.post path payload headers) ∧
    ∀ x, next g ⟨.post path payload headers, x⟩ = out g x
  unsent : ∀ g, P g → P (out g .connectFailed)
  deadToken : ∀ g, P g → ∀ r e, parseToss r ambiguous = .error e → e.InvalidToken →
    P (out g (.answered r))

/-- How a `_send` ends. -/
inductive SendEnd (ambiguous : Bool) (P : G → Prop) (out : G → PostOutcome → G)
    (lost : G → LookupFailure → G) : G → Except Exc Response → Prop
  | answered {g : G} (hg : P g) (r : Response) :
      SendEnd ambiguous P out lost (out g (.answered r)) (.ok r)
  | sendFailed {g : G} (hg : P g) {e : TossError}
      (h : e.cls = if ambiguous then .ambiguous else .transport) (hstatus : e.status = none) :
      SendEnd ambiguous P out lost (out g .sendFailed) (.error (.toss e))
  | exhausted {g : G} (hg : P g) {e : TossError} (h : e.cls = .transport)
      (hstatus : e.status = none) : SendEnd ambiguous P out lost g (.error (.toss e))
  | lost {g : G} (hg : P g) (f : LookupFailure) :
      SendEnd ambiguous P out lost (lost g f) (.error f.exc)

/-- How a `_post` ends. -/
inductive PostEnd (ambiguous : Bool) (P : G → Prop) (out : G → PostOutcome → G)
    (lost : G → LookupFailure → G) : G → Except Exc Json → Prop
  | payload {g : G} (hg : P g) {r : Response} (h : r.Success) :
      PostEnd ambiguous P out lost (out g (.answered r)) (.ok r.result)
  | refused {g : G} (hg : P g) {r : Response} {e : TossError}
      (h : parseToss r ambiguous = .error e) :
      PostEnd ambiguous P out lost (out g (.answered r)) (.error (.toss e))
  | sendFailed {g : G} (hg : P g) {e : TossError}
      (h : e.cls = if ambiguous then .ambiguous else .transport) (hstatus : e.status = none) :
      PostEnd ambiguous P out lost (out g .sendFailed) (.error (.toss e))
  | exhausted {g : G} (hg : P g) {e : TossError} (h : e.cls = .transport)
      (hstatus : e.status = none) : PostEnd ambiguous P out lost g (.error (.toss e))
  | lost {g : G} (hg : P g) (f : LookupFailure) :
      PostEnd ambiguous P out lost (lost g f) (.error f.exc)

variable {next : G → Event BrokerReq.Resp → G} {ok : G → BrokerReq → Prop} {path : String}
  {payload : Payload} {ambiguous : Bool} {P : G → Prop} {out : G → PostOutcome → G}
  {lost : G → LookupFailure → G} {b : TossBroker} {g : G}

theorem SendEnd.raised {e : Exc} (h : SendEnd ambiguous P out lost g (.error e)) :
    PostEnd ambiguous P out lost g (.error e) := by
  cases h with
  | sendFailed hg h hstatus => exact .sendFailed hg h hstatus
  | exhausted hg h hstatus => exact .exhausted hg h hstatus
  | lost hg f => exact .lost hg f

/-- What `parse_toss` makes of an answer. -/
theorem postEnd_parse (hg : P g) (r : Response) :
    PostEnd ambiguous P out lost (out g (.answered r))
      (match parseToss r ambiguous with
        | .ok payload => .ok payload
        | .error e => .error (.toss e)) := by
  by_cases hs : r.Success
  · rw [parseToss_success hs]
    exact .payload hg hs
  · obtain ⟨e, he, -⟩ := parseToss_error hs ambiguous
    rw [he]
    exact .refused hg he

theorem sendLoop_along (h : CanPost next ok path payload ambiguous P out lost)
    (headers : Headers) : ∀ n g, P g → Along next ok (SendEnd ambiguous P out lost)
      (b.sendLoop (ask (.post path payload headers)) ambiguous n) g
  | 0, _, hg => .exhausted hg rfl rfl
  | n + 1, g, hg => by
    refine ⟨(h.acquire g hg).1, fun x => ?_⟩
    rw [(h.acquire g hg).2 x]
    refine ⟨(h.post g hg headers).1, fun x => ?_⟩
    rw [(h.post g hg headers).2 x]
    cases x with
    | answered r => exact .answered hg r
    | sendFailed => exact .sendFailed hg rfl rfl
    | connectFailed => exact sendLoop_along h headers n _ (h.unsent g hg)

/-- What `_post` hands to `request_with_reauth`. -/
theorem send_along (h : CanPost next ok path payload ambiguous P out lost) (hg : P g)
    (authorization : String) : Along next ok (SendEnd ambiguous P out lost) (do
      let account ← accountSeq
      b.send (ask (.post path payload { authorization, account })) ambiguous) g := by
  refine ⟨(h.accountSeq g hg).1, fun x => ?_⟩
  rw [(h.accountSeq g hg).2 x]
  cases x with
  | error f => exact .lost hg f
  | ok account => exact sendLoop_along h _ _ g hg

theorem authHeaders_along {α : Type} {fin : G → Except Exc α → Prop} {f : String → Prog α}
    (h : CanPost next ok path payload ambiguous P out lost) (hg : P g)
    (hf : ∀ s, Along next ok fin (f s) g) (hlost : ∀ e : LookupFailure, fin (lost g e) (.error e.exc)) :
    Along next ok fin (authHeaders >>= f) g := by
  refine ⟨(h.authHeaders g hg).1, fun x => ?_⟩
  rw [(h.authHeaders g hg).2 x]
  cases x with
  | ok s => exact hf s
  | error e => exact hlost e

/-- **One `_post`, from any phase.** -/
theorem post_along (h : CanPost next ok path payload ambiguous P out lost) (hg : P g) :
    Along next ok (PostEnd ambiguous P out lost) (b.post path payload ambiguous) g := by
  refine authHeaders_along h hg (fun s => ?_) fun e => .lost hg e
  refine .bind (send_along h hg s) (fun p r hp => ?_) fun _ _ he => he.raised
  cases hp with
  | @answered g hg r =>
    have hparse := @postEnd_parse _ ambiguous P out lost g hg r
    cases hr : parseToss r ambiguous with
    | ok x =>
      rw [hr] at hparse
      exact hparse
    | error e =>
      rw [hr] at hparse
      show Along _ _ _ (if e.InvalidToken then _ else _) _
      split
      · next htoken =>
        -- Turned away for a dead token: once more, from where that leads.
        have hagain := h.deadToken g hg r e hr htoken
        refine ⟨(h.invalidate _ hagain).1, fun x => ?_⟩
        rw [(h.invalidate _ hagain).2 x]
        refine authHeaders_along h hagain (fun s => ?_) fun e => .lost hagain e
        refine .bind (send_along h hagain s) (fun p r hp => ?_) fun _ _ he => he.raised
        cases hp with
        | answered hg r => exact along_parse (postEnd_parse hg r)
      · exact hparse

end TossSleeve.Proof.Posting
