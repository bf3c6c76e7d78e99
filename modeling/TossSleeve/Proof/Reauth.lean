import TossSleeve.Broker
import TossSleeve.Proof.Tokens

/-!
# `Proof/Reauth.lean` — the phases of a call with one re-authentication

`request_with_reauth` obtains a token, sends, and if the token was refused throws away what is
cached, obtains a token again and sends again. `ReauthPhase` is where such a call is: in the middle
of one of the three calls of the `TossAuth` that it makes (those have phases of their own), about to
send, or done. A call has `failed` when somebody broke a promise: the server refused for another
reason, or refused the second token, or a token could not be had. `requestWithReauth_along` says
that a call raises only then.

What is sent, and how, is the caller's closure (§2): all that matters is that it sends once with the
headers it is given, and returns what it is answered. The closures of the package do.
-/

set_option autoImplicit false

namespace TossSleeve

open Lib Lib.Proc

/-! ## 1. Phases -/

/-- The value of the `authorization` header. -/
def bearer (token : String) : String := "Bearer " ++ token

theorem bearer_inj {t u : String} (h : bearer t = bearer u) : t = u := by
  have hlist := congrArg String.toList h
  simp only [bearer, String.toList_append] at hlist
  exact String.toList_injective (List.append_cancel_left hlist)

/-- The answer by which the server refuses a token. -/
def Response.RefusesToken (r : Response) : Prop :=
  r.status = 401 ∧ errorField r "code" = some invalidTokenCode

instance (r : Response) : Decidable r.RefusesToken := inferInstanceAs (Decidable (_ ∧ _))

/-- Where a call is; `retry` in its second attempt. -/
inductive ReauthPhase where
  /-- In `auth_headers`. -/
  | seeking (retry : Bool) (p : TokenPhase)
  /-- About to send with this header. -/
  | sending (retry : Bool) (authorization : String)
  /-- In `invalidate`, since this header was refused. -/
  | refused (authorization : String) (p : TokenPhase)
  | done
  | failed

namespace ReauthPhase

/-- Where a call is, when its `auth_headers` is here. -/
def seek (retry : Bool) : TokenPhase → ReauthPhase
  | .left (some token) => .sending retry (bearer token)
  | .left none => .failed
  | p => .seeking retry p

/-- Where a call is, when its `invalidate` is here. -/
def drop (authorization : String) : TokenPhase → ReauthPhase
  | .left _ => .seeking true .looking
  | p => .refused authorization p

/-- Where a call is, once its request is answered. -/
def answered (retry : Bool) (authorization : String) : PostOutcome → ReauthPhase
  | .answered r =>
    if r.Success then .done
    else if r.RefusesToken ∧ retry = false then .refused authorization .dropping
    else .failed
  | _ => .failed

theorem answered_eq (retry : Bool) (authorization : String) (r : Response) :
    answered retry authorization (.answered r) =
      if r.Success then .done
      else if r.RefusesToken ∧ retry = false then .refused authorization .dropping
      else .failed := rfl

/-- What an answer does to a call that is about to send. -/
def sent (retry : Bool) (authorization : String) : Event BrokerReq.Resp → ReauthPhase
  | ⟨.get _ _ _ _, outcome⟩ => answered retry authorization outcome
  | ⟨.post _ _ _, outcome⟩ => answered retry authorization outcome
  | ⟨.accountSeq, .error _⟩ => .failed
  | _ => .sending retry authorization

def next : ReauthPhase → Event AuthReq.Resp → ReauthPhase
  | .seeking retry p, e => seek retry (p.next e)
  | .sending retry authorization, ⟨.other q, x⟩ => sent retry authorization ⟨q, x⟩
  | .refused authorization p, e => drop authorization (p.next e)
  | p, _ => p

/-- What a call asks for, when it is about to send. -/
inductive Sends (authorization : String) : BrokerReq → Prop
  | acquire : Sends authorization .acquire
  | acquireRead : Sends authorization .acquireRead
  | accountSeq : Sends authorization .accountSeq
  | get (path : String) (params : List (String × String)) (account : Option String) :
      Sends authorization (.get path params authorization account)
  | post (path : String) (payload : Payload) (account : String) :
      Sends authorization (.post path payload { authorization, account })

/-- What a call asks for, phase by phase. -/
inductive Asks : ReauthPhase → AuthReq → Prop
  | seeking {retry : Bool} {p : TokenPhase} {q : AuthReq} (h : p.Asks q) : Asks (.seeking retry p) q
  | sending {retry : Bool} {authorization : String} {q : BrokerReq} (h : Sends authorization q) :
      Asks (.sending retry authorization) (.other q)
  | refused {authorization : String} {p : TokenPhase} {q : AuthReq} (h : p.Asks q) :
      Asks (.refused authorization p) q
  | failed (q : AuthReq) : Asks .failed q

/-- Only a call that failed raises. -/
def Ends {α : Type} (p : ReauthPhase) : Except Exc α → Prop
  | .ok _ => p = .done ∨ p = .failed
  | .error _ => p = .failed

/-! ### The same, to a call whose calls of the `TossAuth` are single requests -/

def nextRequest : ReauthPhase → Event BrokerReq.Resp → ReauthPhase
  | .seeking retry .looking, ⟨.authHeaders, .ok authorization⟩ => .sending retry authorization
  | .sending retry authorization, e => sent retry authorization e
  | .refused _ .dropping, _ => .seeking true .looking
  | _, _ => .failed

inductive Requests : ReauthPhase → BrokerReq → Prop
  | seeking (retry : Bool) : Requests (.seeking retry .looking) .authHeaders
  | sending {retry : Bool} {authorization : String} {q : BrokerReq} (h : Sends authorization q) :
      Requests (.sending retry authorization) q
  | refused (authorization : String) : Requests (.refused authorization .dropping) .invalidate
  | failed (q : BrokerReq) : Requests .failed q

end ReauthPhase

namespace Proof.Reauth

open ReauthPhase

/-- Nothing is promised any more. -/
theorem along_failed {α : Type} {fin : ReauthPhase → Except Exc α → Prop}
    (h : ∀ r, fin .failed r) (p : Prog α) : Along nextRequest Requests fin p .failed :=
  .of_fixed (fun _ => rfl) .failed h p

/-! ## 2. What is sent -/

variable {retry : Bool} {authorization : String}

/-- How a closure may end. -/
def SendsOnce (retry : Bool) (authorization : String) (p : ReauthPhase) : Except Exc Response → Prop
  | .ok r => p = answered retry authorization (.answered r) ∨ p = .failed
  | .error _ => p = .failed

theorem sendsOnce_failed (r : Except Exc Response) : SendsOnce retry authorization .failed r := by
  cases r with
  | ok r => exact .inr rfl
  | error e => exact rfl

/-- How a closure that has not sent yet may get stuck. -/
def Readies {α : Type} (retry : Bool) (authorization : String) (p : ReauthPhase) :
    Except Exc α → Prop
  | .ok _ => p = .sending retry authorization
  | .error _ => p = .failed

theorem accountSeq_readies : Along nextRequest Requests (Readies retry authorization) accountSeq
    (.sending retry authorization) := by
  refine ⟨.sending .accountSeq, fun x => ?_⟩
  cases x with
  | ok seq => exact rfl
  | error f => exact rfl

theorem fetch_along (path : String) (params : List (String × String)) (account : Option String)
    (message : String) : Along nextRequest Requests (SendsOnce retry authorization)
      (TossRest.fetch path params authorization account message)
      (.sending retry authorization) := by
  refine ⟨.sending (.get path params account), fun x => ?_⟩
  cases x with
  | answered r => exact .inl rfl
  | connectFailed => exact rfl
  | sendFailed => exact rfl

theorem send_along (b : TossBroker) (path : String) (payload : Payload) (account : String)
    (ambiguous : Bool) : Along nextRequest Requests (SendsOnce retry authorization)
      (b.send (TossSleeve.ask (.post path payload { authorization, account })) ambiguous)
      (.sending retry authorization) := by
  refine ⟨.sending .acquire, fun _ => ⟨.sending (.post path payload account), fun x => ?_⟩⟩
  cases x with
  | answered r => exact .inl rfl
  | connectFailed => exact along_failed sendsOnce_failed _
  | sendFailed => exact rfl

end Proof.Reauth

/-- A `send` closure: with whatever header it is called, it sends once with it. -/
structure Sender where
  send : String → Prog Response
  ambiguous : Bool
  sends : ∀ retry authorization, Along ReauthPhase.nextRequest ReauthPhase.Requests
    (Proof.Reauth.SendsOnce retry authorization) (send authorization) (.sending retry authorization)

namespace Sender

open Proof.Reauth

/-- The closure of `TossRest._get`. -/
def get (path : String) (account : Bool) (params : List (String × String)) : Sender where
  send authorization := do
    TossSleeve.ask .acquireRead
    let seq ← if account then some <$> accountSeq else .ret none
    TossRest.fetch path params authorization seq "Toss 읽기 전송 실패"
  ambiguous := false
  sends retry authorization := by
    refine ⟨.sending .acquireRead, fun _ => ?_⟩
    cases account with
    | false => exact fetch_along path params none _
    | true =>
      have hseq : Along ReauthPhase.nextRequest ReauthPhase.Requests (Readies retry authorization)
          (some <$> TossSleeve.accountSeq) (.sending retry authorization) :=
        Along.bind accountSeq_readies (fun _ _ h => h) fun _ _ h => h
      show Along _ _ _ ((some <$> TossSleeve.accountSeq) >>= fun seq =>
        TossRest.fetch path params authorization seq _) _
      refine Along.bind hseq ?_ ?_
      · intro p seq h
        rw [show p = _ from h]
        exact fetch_along path params seq _
      · exact fun p e h => h

/-- The closure of `TossRest.account_seq`. -/
def accounts : Sender where
  send authorization := do
    TossSleeve.ask .acquireRead
    TossRest.fetch accountsPath [] authorization none "계좌 조회 전송 실패"
  ambiguous := false
  sends _ _ := ⟨.sending .acquireRead, fun _ => fetch_along accountsPath [] none _⟩

/-- The closure of `TossBroker._post`. -/
def post (b : TossBroker) (path : String) (payload : Payload) (ambiguous : Bool) : Sender where
  send authorization := do
    let account ← accountSeq
    b.send (TossSleeve.ask (.post path payload { authorization, account })) ambiguous
  ambiguous
  sends _ _ := Along.bind accountSeq_readies
    (fun p account h => (show p = _ from h) ▸ send_along b path payload account ambiguous)
    fun _ _ h => h

theorem get_eq (path : String) (account : Bool) (params : List (String × String)) :
    TossRest.get path account params =
      TossSleeve.requestWithReauth (get path account params).send false := rfl

theorem post_eq (b : TossBroker) (path : String) (payload : Payload) (ambiguous : Bool) :
    b.post path payload ambiguous =
      TossSleeve.requestWithReauth (post b path payload ambiguous).send ambiguous := rfl

end Sender

/-! ## 3. A call keeps to its phases -/

namespace Proof.Reauth

open ReauthPhase

theorem ends_failed {α : Type} (r : Except Exc α) : Ends .failed r := by
  cases r with
  | ok a => exact .inr rfl
  | error e => exact rfl

/-- How the search for a header may end. -/
def Finds (retry : Bool) (p : ReauthPhase) : Except Exc String → Prop
  | .ok authorization => p = .sending retry authorization
  | .error _ => p = .failed

theorem authHeaders_finds (retry : Bool) : Along nextRequest Requests (Finds retry)
    TossSleeve.authHeaders (.seeking retry .looking) := by
  refine ⟨.seeking retry, fun x => ?_⟩
  cases x with
  | ok authorization => exact rfl
  | error f => exact rfl

/-- How the answer to a request is classified, as far as it says where the call is. -/
theorem parse_cases (r : Response) (ambiguous : Bool) :
    (r.Success ∧ ∃ payload, parseToss r ambiguous = .ok payload) ∨
    (¬ r.Success ∧ ∃ e, parseToss r ambiguous = .error e ∧ (e.InvalidToken ↔ r.RefusesToken)) := by
  by_cases h : r.Success
  · exact .inl ⟨h, r.result, parseToss_success h ambiguous⟩
  · obtain ⟨e, heq, hof⟩ := parseToss_error h ambiguous
    refine .inr ⟨h, e, heq, ?_⟩
    unfold TossError.InvalidToken Response.RefusesToken
    rw [hof.status, hof.code, Option.some_inj]

/-- One attempt: a header, a request, and what is made of the answer. -/
theorem attempt_along (s : Sender) (retry : Bool) {rest : Response → Prog Json}
    (hrest : ∀ authorization r, Along nextRequest Requests Ends (rest r)
      (answered retry authorization (.answered r))) :
    Along nextRequest Requests Ends (do
      let headers ← TossSleeve.authHeaders
      let resp ← s.send headers
      rest resp) (.seeking retry .looking) := by
  refine .bind (authHeaders_finds retry) (fun p authorization h => ?_) (fun p e h => h)
  rw [show p = .sending retry authorization from h]
  refine .bind (s.sends retry authorization) (fun p r h => ?_) (fun p e h => h)
  rcases h with rfl | rfl
  · exact hrest authorization r
  · exact along_failed ends_failed _

/-- **A call raises only when a promise was broken.** -/
theorem requestWithReauth_along (s : Sender) : Along nextRequest Requests Ends
    (TossSleeve.requestWithReauth s.send s.ambiguous) (.seeking false .looking) := by
  apply attempt_along s false
  intro authorization r
  rcases parse_cases r s.ambiguous with ⟨hs, payload, heq⟩ | ⟨hs, e, heq, htoken⟩
  · rw [heq, answered_eq, if_pos hs]
    exact .inl rfl
  · rw [heq, answered_eq, if_neg hs]
    show Along _ _ _ (if e.InvalidToken then _ else _) _
    by_cases hr : r.RefusesToken
    swap
    · rw [if_neg fun h => hr (htoken.mp h), if_neg fun h => hr h.1]
      exact rfl
    rw [if_pos (htoken.mpr hr), if_pos ⟨hr, rfl⟩]
    refine ⟨.refused authorization, fun _ => ?_⟩
    -- The second attempt: whatever is refused now is raised.
    apply attempt_along s true
    intro authorization r
    rcases parse_cases r s.ambiguous with ⟨hs, payload, heq⟩ | ⟨hs, e, heq, -⟩
    · rw [heq, answered_eq, if_pos hs]
      exact .inl rfl
    · rw [heq, answered_eq, if_neg hs, if_neg fun h => absurd h.2 (by simp)]
      exact rfl

theorem next_seeking (retry : Bool) {p : TokenPhase} {q : AuthReq} (h : p.Asks q) (x : q.Resp) :
    (seek retry p).next ⟨q, x⟩ = seek retry (p.next ⟨q, x⟩) := by
  cases h <;> rfl

theorem next_refused (authorization : String) {p : TokenPhase} {q : AuthReq} (h : p.Asks q)
    (x : q.Resp) : (drop authorization p).next ⟨q, x⟩ = drop authorization (p.next ⟨q, x⟩) := by
  cases h <;> rfl

theorem asks_seek (retry : Bool) {p : TokenPhase} {q : AuthReq} (h : p.Asks q) :
    (seek retry p).Asks q := by
  cases h <;> exact .seeking (by constructor)

theorem asks_drop (authorization : String) {p : TokenPhase} {q : AuthReq} (h : p.Asks q) :
    (drop authorization p).Asks q := by
  cases h <;> exact .refused (by constructor)

/-- `auth_headers`, as a call of `request_with_reauth` makes it. -/
theorem authHeaders_serves (retry : Bool) : Along ReauthPhase.next ReauthPhase.Asks
    (Serves nextRequest (@Ends Json) (.seeking retry .looking) .authHeaders)
    (SharedAuth.outcome SharedAuth.authHeaders) (.seeking retry .looking) := by
  have hheaders : Along ReauthPhase.next ReauthPhase.Asks (Finds retry) SharedAuth.authHeaders
      (seek retry .looking) := by
    have htoken : Along ReauthPhase.next ReauthPhase.Asks
        (fun p r => ∃ p', p = seek retry p' ∧ p'.Ends r) SharedAuth.token (seek retry .looking) :=
      Along.lift (f := seek retry) (fun (p : TokenPhase) e (h : p.Asks e.1) =>
        next_seeking retry h e.2) (fun (p : TokenPhase) q (h : p.Asks q) => asks_seek retry h)
        (fun p r h => ⟨p, rfl, h⟩) token_along
    refine Along.bind htoken (fun p token h => ?_) (fun p e h => ?_)
    · obtain ⟨p', rfl, hp'⟩ := h
      rw [show p' = .left (some token) from hp']
      exact rfl
    · obtain ⟨p', rfl, hp'⟩ := h
      rw [show p' = .left none from hp']
      exact rfl
  refine Along.attempt (fun p authorization h => ?_) (fun p e h => ?_) hheaders
  · exact h
  · rw [show p = .failed from h]
    cases e <;> exact rfl

theorem invalidate_serves (authorization : String) : Along ReauthPhase.next ReauthPhase.Asks
    (Serves nextRequest (@Ends Json) (.refused authorization .dropping) .invalidate)
    SharedAuth.invalidate (.refused authorization .dropping) := by
  refine Along.lift (f := drop authorization) (fun (p : TokenPhase) e (h : p.Asks e.1) =>
    next_refused authorization h e.2) (fun (p : TokenPhase) q (h : p.Asks q) =>
    asks_drop authorization h) (fun p r h => ?_) invalidate_along
  obtain ⟨rfl, rfl⟩ := h
  exact rfl

/-- Whoever has failed may ask for anything. -/
theorem serve_failed (q : BrokerReq) : Along ReauthPhase.next ReauthPhase.Asks
    (Serves nextRequest (@Ends Json) .failed q) (SharedAuth.serve q) .failed := by
  refine .of_fixed (fun _ => rfl) .failed (fun r => ?_) _
  cases r with
  | ok x => rfl
  | error e => rfl

/-- **The same, with its calls of the `TossAuth` spelled out.** -/
theorem shared_along (s : Sender) : Along ReauthPhase.next ReauthPhase.Asks Ends
    (SharedAuth.requestWithReauth s.send s.ambiguous) (.seeking false .looking) := by
  refine Along.inline ?_ (requestWithReauth_along s)
  intro p q hq
  cases hq with
  | seeking retry => exact authHeaders_serves retry
  | sending h => cases h <;> exact ⟨.sending (by constructor), fun x => rfl⟩
  | refused authorization => exact invalidate_serves authorization
  | failed q => exact serve_failed q

end Proof.Reauth
end TossSleeve
