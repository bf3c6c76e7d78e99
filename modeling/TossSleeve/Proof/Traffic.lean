import TossSleeve.Api.Traffic
import TossSleeve.Proof.Sending

/-!
# `Proof/Traffic.lean` — orders respect the rate limit at the moment of sending

A GET that sends an account number may find out with a slot in hand that it does not know the
number, and is late then (`Proof/Sending.lean`). A POST does not: `_post` asks for the number first,
and each attempt of `_send` takes its slot last thing before it transmits. So all that is sent on
behalf of `place` and `cancel` — the POSTs, those repeated after a failed connection or a dead
token, and the lookups of the account — is limited as the slots are, whatever is read next to it on
the same limiter, late or not (`orders_limited`).

The phases are those of `Proof/Sending.lean`. A call that may be late is `astray` from the start,
and its requests are not counted.
-/

set_option autoImplicit false

namespace TossSleeve

open Lib Lib.Proc

/-! ## 1. Phases -/

namespace SlotPhase

/-- What an answer does to a call whose slots, POSTs and GETs are single requests. -/
def nextTransmission : SlotPhase → Event BrokerReq.Resp → SlotPhase
  | .idle, ⟨.acquire, _⟩ => .slotted
  | .idle, ⟨.acquireRead, _⟩ => .slotted
  | .slotted, ⟨.post _ _ _, _⟩ => .idle
  | .slotted, ⟨.get _ _ _ _, _⟩ => .idle
  | p, _ => p

/-- What such a call asks for, with or without lookups of the account in it. -/
inductive Passes (lookups : Prop) : SlotPhase → BrokerReq → Prop
  | authHeaders : Passes lookups .idle .authHeaders
  | invalidate : Passes lookups .idle .invalidate
  | accountSeq (h : lookups) : Passes lookups .idle .accountSeq
  | cached : Passes lookups .idle .cachedAccountSeq
  | cache (seq : String) : Passes lookups .idle (.cacheAccountSeq seq)
  | ledger (op : LedgerOp) : Passes lookups .idle (.ledger op)
  | cachedAck (broker : ℕ) (c : String) : Passes lookups .idle (.cachedAck broker c)
  | cacheAck (broker : ℕ) (c : String) (ack : OrderAck) :
      Passes lookups .idle (.cacheAck broker c ack)
  | clientOrderIdFor (orderId : String) : Passes lookups .idle (.clientOrderIdFor orderId)
  | acquire : Passes lookups .idle .acquire
  | acquireRead : Passes lookups .idle .acquireRead
  | post (path : String) (payload : Payload) (headers : Headers) :
      Passes lookups .slotted (.post path payload headers)
  | get (path : String) (params : List (String × String)) (authorization : String)
      (account : Option String) :
      Passes lookups .slotted (.get path params authorization account)
  | astray (q : BrokerReq) : Passes lookups .astray q

/-- The same, step by step. -/
inductive Emits : SlotPhase → RestReq → Prop
  | asks {p : SlotPhase} {q : RestReq} (h : Asks False p q) : Emits p q
  | ledger (op : LedgerOp) : Emits .idle (.other (.ledger op))
  | cachedAck (broker : ℕ) (c : String) : Emits .idle (.other (.cachedAck broker c))
  | cacheAck (broker : ℕ) (c : String) (ack : OrderAck) :
      Emits .idle (.other (.cacheAck broker c ack))
  | clientOrderIdFor (orderId : String) : Emits .idle (.other (.clientOrderIdFor orderId))

end SlotPhase

namespace Proof.Sending.Traffic

open SlotPhase

variable {lookups : Prop} {α β : Type} {b : TossBroker} {req : OrderRequest}

/-! ## 2. The calls keep to their phases -/

/-- A part of a method that has nothing in hand before and after. -/
abbrev Settles (lookups : Prop) (p : Prog α) : Prop :=
  Along nextTransmission (Passes lookups) (fun p (_ : Except Exc α) => p = .idle) p .idle

theorem settles_bind {p : Prog α} {f : α → Prog β} (hp : Settles lookups p)
    (hf : ∀ a, Settles lookups (f a)) : Settles lookups (p >>= f) := by
  refine Along.bind hp (fun g a hg => ?_) fun _ _ hg => hg
  rw [hg]
  exact hf a

theorem settles_attempt {p : Prog α} {f : α → Prog β} {handler : Exc → Prog β}
    (hp : Settles lookups p) (hf : ∀ a, Settles lookups (f a))
    (hhandler : ∀ e, Settles lookups (handler e)) : Settles lookups (p.attempt f handler) := by
  refine Along.attempt (fun g a hg => ?_) (fun g e hg => ?_) hp
  · rw [hg]
    exact hf a
  · rw [hg]
    exact hhandler e

theorem settles_lookup (x : Except LookupFailure α) : Settles lookups (Prog.lookup x) := by
  cases x with
  | ok a => exact rfl
  | error f => exact rfl

theorem settles_authHeaders : Settles lookups authHeaders := by
  apply settles_bind
  · exact ⟨.authHeaders, fun x => rfl⟩
  · exact settles_lookup

/-- `request_with_reauth`, around a transmission that has nothing in hand before and after. -/
theorem settles_requestWithReauth {send : String → Prog Response}
    (hsend : ∀ authorization, Settles lookups (send authorization)) (ambiguous : Bool) :
    Settles lookups (requestWithReauth send ambiguous) := by
  apply settles_bind settles_authHeaders
  intro authorization
  apply settles_bind (hsend authorization)
  intro resp
  cases parseToss resp ambiguous with
  | ok payload => exact rfl
  | error e =>
    show Along _ _ _ (if e.InvalidToken then _ else _) _
    by_cases h : e.InvalidToken
    · rw [if_pos h]
      refine ⟨.invalidate, fun _ => ?_⟩
      apply settles_bind settles_authHeaders
      intro authorization
      apply settles_bind (hsend authorization)
      intro resp
      cases parseToss resp ambiguous with
      | ok payload => exact rfl
      | error e => exact rfl
    · rw [if_neg h]
      exact rfl

/-- **`_send`**: each attempt takes a slot and uses it. By induction on the attempts. -/
theorem settles_sendLoop (path : String) (payload : Payload) (headers : Headers)
    (ambiguous : Bool) (n : ℕ) :
    Settles lookups (b.sendLoop (ask (.post path payload headers)) ambiguous n) := by
  induction n with
  | zero => exact rfl
  | succ n ih =>
    refine ⟨.acquire, fun _ => ⟨.post path payload headers, fun x => ?_⟩⟩
    cases x with
    | answered resp => exact rfl
    | sendFailed => exact rfl
    | connectFailed => exact ih

theorem settles_post (h : lookups) (path : String) (payload : Payload) (ambiguous : Bool) :
    Settles lookups (b.post path payload ambiguous) := by
  apply settles_requestWithReauth
  intro authorization
  apply settles_bind
  · exact settles_bind ⟨.accountSeq h, fun x => rfl⟩ settles_lookup
  · intro account
    exact settles_sendLoop path payload _ ambiguous _

theorem settles_ledgerCall (op : LedgerOp) : Settles lookups (ledgerCall op) := by
  refine ⟨.ledger op, fun reply => ?_⟩
  cases reply <;> exact rfl

theorem settles_cached (c : String) : Settles lookups (b.cached c) := by
  unfold TossBroker.cached
  split
  · exact rfl
  · exact ⟨.cachedAck b.id c, fun _ => rfl⟩

theorem settles_unwind (reserved sellRecorded : Bool) :
    Settles lookups (TossBroker.unwind req reserved sellRecorded) := by
  unfold TossBroker.unwind
  split
  · exact rfl
  · have hdiscard : ∀ op, Settles lookups (discard (ledgerCall op)) := fun op =>
      settles_bind (settles_ledgerCall op) fun _ => rfl
    have hsell : Settles lookups (if sellRecorded then
        discard (ledgerCall (.markOrderTerminal req.clientOrderId .REJECTED)) else pure ()) := by
      split
      · exact hdiscard _
      · exact rfl
    cases reserved with
    | true => exact settles_bind (hdiscard _) fun _ => hsell
    | false => exact hsell

theorem settles_handleOrderError (e : TossError) (reserved sellRecorded : Bool) :
    Settles lookups (b.handleOrderError e req reserved sellRecorded) := by
  have hunwind : Settles lookups (TossBroker.unwind req reserved sellRecorded) :=
    settles_unwind reserved sellRecorded
  unfold TossBroker.handleOrderError
  split
  · apply settles_bind (settles_cached req.clientOrderId)
    intro ack
    cases ack with
    | some ack => exact rfl
    | none => exact rfl
  · split
    · exact settles_bind hunwind fun _ => rfl
    · split
      · exact rfl
      · exact settles_bind hunwind fun _ => rfl

theorem settles_accept (reserved sellRecorded : Bool) (result : Json) :
    Settles lookups (b.accept req reserved sellRecorded result) := by
  unfold TossBroker.accept
  simp only
  split
  · exact settles_bind (settles_unwind reserved sellRecorded) fun _ => rfl
  · split
    · exact rfl
    · apply settles_bind
      · exact settles_bind (settles_ledgerCall _) fun _ => rfl
      · exact fun _ => ⟨.cacheAck b.id req.clientOrderId _, fun _ => rfl⟩

theorem settles_submit (h : lookups) (reserved sellRecorded : Bool) :
    Settles lookups (b.submit req reserved sellRecorded) := by
  apply settles_attempt (settles_post h _ _ _)
  · exact settles_accept reserved sellRecorded
  · intro e
    cases e with
    | toss e => exact settles_handleOrderError e reserved sellRecorded
    | http => exact settles_bind (settles_unwind reserved sellRecorded) fun _ => rfl
    | python e => exact rfl
    | ledger e => exact rfl

/-- A guard, and what it admits. -/
theorem settles_guard {op : LedgerOp} {admitted refused : Prog OrderAck}
    (hadmitted : Settles lookups admitted) (hrefused : Settles lookups refused) :
    Settles lookups (do
      if (← ledgerCall op) = .verdict true then admitted else refused : Prog OrderAck) := by
  apply settles_bind (settles_ledgerCall op)
  intro reply
  split
  · exact hadmitted
  · exact hrefused

theorem settles_place (h : lookups) : Settles lookups (b.place req) := by
  apply settles_bind (settles_cached req.clientOrderId)
  intro ack
  cases ack with
  | some ack => exact rfl
  | none =>
    show Settles lookups (b.placeGuarded req)
    unfold TossBroker.placeGuarded
    split
    · unfold TossBroker.placeBuy
      split
      · exact rfl
      · split
        · exact rfl
        · split
          · exact rfl
          · exact settles_guard (settles_submit h true false) rfl
    · unfold TossBroker.placeSell
      split
      · exact rfl
      · split
        · exact rfl
        · exact settles_guard (settles_submit h false true) rfl

theorem settles_cancel (h : lookups) (orderId : String) : Settles lookups (b.cancel orderId) := by
  apply settles_attempt (settles_post h _ _ _)
  · intro _
    refine ⟨.clientOrderIdFor orderId, fun found => ?_⟩
    cases found with
    | none => exact rfl
    | some c =>
      show Settles lookups (if c = "" then _ else _)
      split
      · exact rfl
      · apply settles_bind
        · exact settles_bind (settles_ledgerCall _) fun _ => rfl
        · exact fun _ => rfl
  · intro e
    cases e with
    | toss e =>
      show Settles lookups (if isBusinessRejection e then _ else _)
      split <;> exact rfl
    | http => exact rfl
    | python e => exact rfl
    | ledger e => exact rfl

/-! ### With the lookups of the account -/

/-- **The lookup of an account number**, with a GET of its own. -/
theorem settles_accountSeq : Settles lookups TossRest.accountSeq := by
  refine ⟨.cached, fun x => ?_⟩
  cases x with
  | some seq => exact rfl
  | none =>
    show Settles lookups (requestWithReauth _ false >>= fun result => _)
    apply settles_bind
    · apply settles_requestWithReauth
      intro authorization
      refine ⟨.acquireRead, fun _ => ⟨.get accountsPath [] authorization none, fun x => ?_⟩⟩
      cases x <;> exact rfl
    · intro result
      apply settles_bind (settles_lookup (accountSeqOf result))
      intro seq
      exact ⟨.cache seq, fun _ => rfl⟩

theorem accountLookup_served {g : SlotPhase} {q : BrokerReq} (h : Passes True g q) :
    Along nextTransmission (Passes False) (Serves nextTransmission (@Rests Unit) g q)
      (accountLookup q) g := by
  cases h with
  | accountSeq =>
    refine Along.attempt (fun g seq hg => hg) (fun g e hg => ?_) settles_accountSeq
    cases e with
    | ledger e => exact trivial
    | _ => exact hg
  | astray q =>
    refine .of_fixed (fun _ => rfl) .astray (fun r => ?_) _
    cases r with
    | ok x => exact rfl
    | error e => exact trivial
  | authHeaders => exact ⟨.authHeaders, fun _ => rfl⟩
  | invalidate => exact ⟨.invalidate, fun _ => rfl⟩
  | cached => exact ⟨.cached, fun _ => rfl⟩
  | cache seq => exact ⟨.cache seq, fun _ => rfl⟩
  | ledger op => exact ⟨.ledger op, fun _ => rfl⟩
  | cachedAck broker c => exact ⟨.cachedAck broker c, fun _ => rfl⟩
  | cacheAck broker c ack => exact ⟨.cacheAck broker c ack, fun _ => rfl⟩
  | clientOrderIdFor orderId => exact ⟨.clientOrderIdFor orderId, fun _ => rfl⟩
  | acquire => exact ⟨.acquire, fun _ => rfl⟩
  | acquireRead => exact ⟨.acquireRead, fun _ => rfl⟩
  | post path payload headers => exact ⟨.post path payload headers, fun _ => rfl⟩
  | get path params authorization account =>
    exact ⟨.get path params authorization account, fun _ => rfl⟩

/-- The methods, before their lookups are looked into. -/
theorem program_passes (call : TrafficCall) (h : call.prompt) :
    Along nextTransmission (Passes True) Rests call.program .idle := by
  have hdone : ∀ {γ : Type} {p : Prog γ}, Settles True p →
      Along nextTransmission (Passes True) Rests (discard p) .idle := by
    intro γ p hp
    refine Along.mono (fun g r hg => ?_) (settles_bind hp fun _ => rfl)
    cases r with
    | ok x => exact .inl hg
    | error e => exact trivial
  cases call with
  | place b req => exact hdone (settles_place trivial)
  | cancel b orderId => exact hdone (settles_cancel trivial orderId)
  | read call =>
    have hn : ¬ call.Numbered := by
      cases call with
      | holdings => exact absurd h (by simp [TrafficCall.prompt])
      | orderFill orderId => exact absurd h (by simp [TrafficCall.prompt])
      | buyingPower currency => exact absurd h (by simp [TrafficCall.prompt])
      | _ => exact id
    -- A reading call that sends no account number keeps to the phases of the reads.
    refine Along.lift (f := id) (fun g e hg => ?_) (fun g q hg => ?_) (fun _ _ hr => hr)
      (program_rests call)
    · obtain ⟨q, x⟩ := e
      cases hg with
      | accountSeq hyes => exact (hn hyes).elim
      | _ => rfl
    · cases hg with
      | authHeaders => exact .authHeaders
      | invalidate => exact .invalidate
      | cached => exact .cached
      | cache seq => exact .cache seq
      | acquire => exact .acquireRead
      | accountSeq hyes => exact (hn hyes).elim
      | get path params authorization account => exact .get path params authorization account
      | astray q => exact .astray q

/-! ### Step by step -/

variable (fuel : ℕ)

/-- A slot, for a POST or a GET. -/
theorem acquire_emits {fin : SlotPhase → Except Exc Unit → Prop} (hok : fin .slotted (.ok ()))
    (hraise : ∀ g e, fin g (.error e)) : Along next Emits fin (RestProg.acquire fuel) .idle := by
  have hnext : ∀ g e, Asks False g e.1 → next (id g) e = id (next g e) := fun _ _ _ => rfl
  refine Along.lift hnext (fun _ _ hq => .asks hq) (fun g r hr => ?_)
    (acquire_served fuel)
  cases r with
  | ok x =>
    have hg : g = .slotted := hr
    exact hg ▸ hok
  | error e => exact hraise g e

theorem transmit_served {g : SlotPhase} {q : BrokerReq} (h : Passes False g q) :
    Along next Emits (Serves nextTransmission (@Rests Unit) g q) (RestProg.transmit fuel q) g := by
  cases h with
  | accountSeq h => exact h.elim
  | acquire => exact acquire_emits fuel rfl fun _ _ => trivial
  | acquireRead => exact acquire_emits fuel rfl fun _ _ => trivial
  | post path payload headers =>
    exact ⟨.asks (.send path [] headers.authorization (some headers.account)),
      fun _ => ⟨.asks .response, fun _ => rfl⟩⟩
  | get path params authorization account =>
    exact ⟨.asks (.send path params authorization account), fun _ => ⟨.asks .response, fun _ => rfl⟩⟩
  | authHeaders => exact ⟨.asks .authHeaders, fun _ => rfl⟩
  | invalidate => exact ⟨.asks .invalidate, fun _ => rfl⟩
  | cached => exact ⟨.asks .cached, fun _ => rfl⟩
  | cache seq => exact ⟨.asks (.cache seq), fun _ => rfl⟩
  | ledger op => exact ⟨.ledger op, fun _ => rfl⟩
  | cachedAck broker c => exact ⟨.cachedAck broker c, fun _ => rfl⟩
  | cacheAck broker c ack => exact ⟨.cacheAck broker c ack, fun _ => rfl⟩
  | clientOrderIdFor orderId => exact ⟨.clientOrderIdFor orderId, fun _ => rfl⟩
  | astray q =>
    refine .of_fixed (fun _ => rfl) (fun q => .asks (.astray q)) (fun r => ?_) _
    cases r with
    | ok x => exact rfl
    | error e => exact trivial

/-- The phase a call starts in. -/
def entry (call : TrafficCall) : SlotPhase := if call.prompt then .idle else .astray

/-- **A call keeps to its phases.** -/
theorem timed_emits (call : TrafficCall) :
    Along next Emits Rests (call.timed fuel) (entry call) := by
  unfold entry
  by_cases h : call.prompt
  · rw [if_pos h]
    exact Along.inline (fun _ _ hq => transmit_served fuel hq)
      (Along.inline (fun _ _ hq => accountLookup_served hq) (program_passes call h))
  · rw [if_neg h]
    exact .of_fixed (fun _ => rfl) (fun q => .asks (.astray q)) rests_astray _

/-! ## 3. The world does -/

section World

variable {ι : Type} [DecidableEq ι]

/-- What was sent by calls that are never late. -/
def promptly (calls : ι → TrafficCall) (sent : List (ι × Time)) : List (ι × Time) :=
  sent.filter fun e => (calls e.1).prompt

/-- **The invariant.** -/
structure TrafficInv (rl : RateLimiter) (calls : ι → TrafficCall) (w : RestWorld ι)
    (ph : ι → Option SlotPhase) : Prop where
  tracks : Tracks rl.max rl.period w.calls (w.granted.map Prod.snd) w.now
  backed : Backed (promptly calls w.sent) w.granted (inHand w ph)
  prompt : ∀ i p, ph i = some p → ((calls i).prompt ↔ p ≠ .astray)

variable {rl : RateLimiter} {calls : ι → TrafficCall} {w w' : RestWorld ι}
  {ph : ι → Option SlotPhase} {i : ι} {p : SlotPhase}

namespace TrafficInv

/-- A call goes on with what it has in hand. -/
theorem stay (h : TrafficInv rl calls w ph) (hq : Quiet i w w') (hp : ph i = some p)
    (hslot : slotOf (w'.resumed i) p = slotOf (w.resumed i) p) :
    TrafficInv rl calls w' (Function.update ph i (some p)) := by
  have hph : Function.update ph i (some p) = ph := Function.update_eq_self_iff.mpr hp.symm
  have hhand : inHand w' (Function.update ph i (some p)) = inHand w ph := by
    rw [inHand_update hq.resumed, hslot]
    apply Function.update_eq_self_iff.mpr
    rw [inHand, hp]
    rfl
  refine ⟨?_, ?_, ?_⟩
  · rw [hq.calls, hq.granted, hq.now]
    exact h.tracks
  · rw [hq.sent, hq.granted, hhand]
    exact h.backed
  · rw [hph]
    exact h.prompt

theorem idle (h : TrafficInv rl calls w ph) (hq : Quiet i w w') (hp : ph i = some .idle) :
    TrafficInv rl calls w' (Function.update ph i (some .idle)) := h.stay hq hp rfl

theorem evict (h : TrafficInv rl calls w ph) : TrafficInv rl calls (w.evict rl) ph :=
  ⟨h.tracks.evict (le_refl _), h.backed, h.prompt⟩

/-- A call that is never late moves on. -/
theorem phases (h : TrafficInv rl calls w ph) (hp : ph i = some p) (hne : p ≠ .astray)
    {p' : SlotPhase} (hne' : p' ≠ .astray) :
    ∀ j q, Function.update ph i (some p') j = some q → ((calls j).prompt ↔ q ≠ .astray) := by
  have hi := (h.prompt i p hp).mpr hne
  exact Pool.forall_update (by simp [hi, hne']) fun j q _ hj => h.prompt j q hj

/-- **A call takes a slot.** -/
theorem grant (h : TrafficInv rl calls w ph) (hp : ph i = some .idle)
    (hroom : w.calls.length < rl.max) :
    TrafficInv rl calls (w.grant i) (Function.update ph i (some .slotted)) := by
  refine ⟨?_, ?_, h.phases hp (by simp) (by simp)⟩
  · show Tracks _ _ (w.calls ++ [w.now]) ((w.granted ++ [(i, w.now)]).map Prod.snd) w.now
    rw [List.map_append]
    exact h.tracks.grant hroom
  · have hnow : (w.grant i).resumed i = w.now := Function.update_self ..
    rw [inHand_update (fun _ hj => Function.update_of_ne hj ..), slotOf, hnow]
    apply h.backed.grant
    rw [inHand, hp]
    rfl

/-- **A request is sent**, at the instant of the slot. -/
theorem send (h : TrafficInv rl calls w ph) (hp : ph i = some .slotted)
    (hnow : w.resumed i = w.now) : TrafficInv rl calls { w with sent := w.sent ++ [(i, w.now)] }
      (Function.update ph i (some .idle)) := by
  refine ⟨h.tracks, ?_, h.phases hp (by simp) (by simp)⟩
  have hi : (calls i).prompt := (h.prompt i _ hp).mpr (by simp)
  have hsent : promptly calls (w.sent ++ [(i, w.now)]) =
      promptly calls w.sent ++ [(i, w.now)] := by
    simp [promptly, hi]
  show Backed (promptly calls (w.sent ++ [(i, w.now)])) w.granted (inHand w _)
  rw [hsent, inHand_update fun _ _ => rfl]
  apply h.backed.use
  rw [inHand, hp, ← hnow]
  rfl

/-- **A call that may be late** does what it likes. -/
theorem late_answer (h : TrafficInv rl calls w ph) (hp : ph i = some .astray)
    {e : Event RestReq.Resp} (ha : w.Carries rl i e w') :
    TrafficInv rl calls w' (Function.update ph i (some .astray)) := by
  have hph : Function.update ph i (some .astray) = ph := Function.update_eq_self_iff.mpr hp.symm
  have hlate : (calls i).prompt = false := by simpa using (h.prompt i _ hp)
  have hquiet : ∀ {w'}, Quiet i w w' →
      TrafficInv rl calls w' (Function.update ph i (some .astray)) := fun hq => h.stay hq hp rfl
  cases ha with
  | ledger op reply => exact hquiet (Quiet.refl w)
  | cachedAck broker c ack => exact hquiet (Quiet.refl w)
  | cacheAck broker c ack => exact hquiet (Quiet.refl w)
  | clientOrderIdFor orderId found => exact hquiet (Quiet.refl w)
  | rest ha =>
    cases ha with
    | lock => exact hquiet ⟨rfl, rfl, rfl, rfl, fun _ _ => rfl, id⟩
    | unlock => exact hquiet ⟨rfl, rfl, rfl, rfl, fun _ _ => rfl, id⟩
    | full => exact h.evict.stay (Quiet.refl _) hp rfl
    | room hwait =>
      have hhand : inHand ((w.evict rl).grant i) ph = inHand w ph := by
        funext j
        by_cases hj : j = i
        · subst hj
          simp [inHand, hp, slotOf]
        · simp [inHand, RestWorld.grant, RestWorld.evict, hj]
      rw [hph]
      refine ⟨?_, ?_, h.prompt⟩
      · show Tracks _ _ ((w.evict rl).calls ++ [w.now]) ((w.granted ++ [(i, w.now)]).map Prod.snd) _
        rw [List.map_append]
        exact h.evict.tracks.grant (Granting.toWait_none hwait)
      · rw [hhand]
        exact h.backed.more (i, w.now)
    | sleep => exact hquiet (Quiet.refl w)
    | send =>
      have hsent : promptly calls (w.sent ++ [(i, w.now)]) = promptly calls w.sent := by
        simp [promptly, hlate]
      rw [hph]
      refine ⟨h.tracks, ?_, h.prompt⟩
      show Backed (promptly calls (w.sent ++ [(i, w.now)])) w.granted (inHand w ph)
      rw [hsent]
      exact h.backed
    | response => exact hquiet quiet_resume
    | authHeaders => exact hquiet quiet_resume
    | invalidate => exact hquiet quiet_resume
    | cachedAccountSeq => exact hquiet (Quiet.refl w)
    | cacheAccountSeq => exact hquiet ⟨rfl, rfl, rfl, rfl, fun _ _ => rfl, fun _ => by simp⟩

theorem start (h : TrafficInv rl calls w ph) (hp : ph i = none) :
    TrafficInv rl calls w (Function.update ph i (some (entry (calls i)))) := by
  refine ⟨h.tracks, ?_, Pool.forall_update ?_ fun j q _ hj => h.prompt j q hj⟩
  · have hslot : slotOf (w.resumed i) (entry (calls i)) = none := by
      unfold entry
      split <;> rfl
    have hhand : Function.update (inHand w ph) i none = inHand w ph := by
      apply Function.update_eq_self_iff.mpr
      rw [inHand, hp]
      rfl
    rw [inHand_update fun _ _ => rfl, hslot, hhand]
    exact h.backed
  · unfold entry
    cases (calls i).prompt <;> simp

/-- **One step.** -/
theorem answer (h : TrafficInv rl calls w ph) (hp : ph i = some p) {q : RestReq} {x : q.Resp}
    (hok : Emits p q) (ha : w.Carries rl i ⟨q, x⟩ w') :
    TrafficInv rl calls w' (Function.update ph i (some (p.next ⟨q, x⟩))) := by
  cases hok with
  | ledger op =>
    cases ha with
    | rest ha => cases ha
    | ledger => exact h.idle (Quiet.refl w) hp
  | cachedAck broker c =>
    cases ha with
    | rest ha => cases ha
    | cachedAck => exact h.idle (Quiet.refl w) hp
  | cacheAck broker c ack =>
    cases ha with
    | rest ha => cases ha
    | cacheAck => exact h.idle (Quiet.refl w) hp
  | clientOrderIdFor orderId =>
    cases ha with
    | rest ha => cases ha
    | clientOrderIdFor => exact h.idle (Quiet.refl w) hp
  | asks hok =>
    cases hok with
    | astray q => exact h.late_answer hp ha
    | lookup hn => exact hn.elim
    | forever => exact x.elim
    | authHeaders =>
      cases ha with | rest ha => cases ha with | authHeaders => exact h.idle quiet_resume hp
    | invalidate =>
      cases ha with | rest ha => cases ha with | invalidate => exact h.idle quiet_resume hp
    | cached =>
      cases ha with | rest ha => cases ha with | cachedAccountSeq => exact h.idle (Quiet.refl w) hp
    | cache seq =>
      cases ha with
      | rest ha =>
        cases ha
        exact h.idle ⟨rfl, rfl, rfl, rfl, fun _ _ => rfl, fun _ => by simp⟩ hp
    | lock =>
      cases ha with
      | rest ha =>
        cases ha
        exact h.idle ⟨rfl, rfl, rfl, rfl, fun _ _ => rfl, id⟩ hp
    | turn =>
      cases ha with
      | rest ha =>
        cases ha with
        | full hwait => exact h.evict.idle (Quiet.refl _) hp
        | room hwait => exact h.evict.grant hp (Granting.toWait_none hwait)
    | sleep wait =>
      cases ha with
      | rest ha =>
        cases ha
        exact h.idle (Quiet.refl w) hp
    | unlock =>
      cases ha with
      | rest ha =>
        cases ha
        exact h.stay ⟨rfl, rfl, rfl, rfl, fun _ _ => rfl, id⟩ hp rfl
    | send path params authorization account =>
      cases ha with
      | rest ha =>
        cases ha with
        | send hnow => exact h.send hp hnow
    | response =>
      cases ha with
      | rest ha =>
        cases ha
        exact h.idle quiet_resume hp

end TrafficInv

theorem traffic_inv {fuel : ι → ℕ} {s : Pool.State (RestWorld ι) ι RestReq.Resp Exc Unit}
    (hs : Reachable (Pool.Start RestWorld.Fresh) (traffic rl fuel calls).Step s) :
    TrafficInv rl calls s.world (Pool.phase (fun _ => next) (fun i => entry (calls i)) s) := by
  apply Pool.inv (fun _ => Emits) (fun i => timed_emits (fuel i) (calls i))
    (TrafficInv rl calls) ?_ ?_ ?_ ?_ hs
  · intro w hw
    obtain ⟨hcalls, -, hgranted, hsent⟩ := hw
    refine ⟨?_, ?_, fun _ _ h => absurd h (by simp)⟩
    · rw [hcalls, hgranted]
      exact tracks_nil w.now
    · rw [hsent, hgranted]
      exact backed_nil
  · exact fun w ph i h hi => h.start hi
  · exact fun w ph i g q x w' h hp hok ha => h.answer hp hok ha
  · intro w ph w' h hmove
    cases hmove with
    | pass hle => exact ⟨h.tracks.mono hle, h.backed, h.prompt⟩

end World

end Proof.Sending.Traffic

namespace Proof

open Sending Sending.Traffic

/-- **Orders respect the rate limit when they are sent**, and so does all else that is sent by calls
    that know what they send before they take a slot: for every order of steps, whatever is answered
    and when, and whatever is read next to them on the same limiter. -/
theorem orders_limited {ι : Type} [DecidableEq ι] {rl : RateLimiter} {fuel : ι → ℕ}
    {calls : ι → TrafficCall} {s : Pool.State (RestWorld ι) ι RestReq.Resp Exc Unit}
    (hs : Reachable (Pool.Start RestWorld.Fresh) (traffic rl fuel calls).Step s) :
    Limited rl.max rl.period ((promptly calls s.world.sent).map Prod.snd) :=
  (traffic_inv hs).backed.limited (traffic_inv hs).tracks.limited

/-! ## 4. An order next to a late read -/

section LateRead

/-- One who buys, and one who looks at the holdings. -/
inductive Trader where
  | buyer | holder
  deriving DecidableEq

def Trader.call : Trader → TrafficCall
  | .buyer => .place { id := 0 } (.limit .BUY 1 50000 "gd:1")
  | .holder => .read .holdings

/-- The answers of a concrete run: the guard admits the order, and nothing is cached. -/
def answeringTrader (rl : RateLimiter) (outcome : PostOutcome) (w : RestWorld Trader) (i : Trader) :
    (q : RestReq) → Option (q.Resp × RestWorld Trader)
  | .other (.ledger _) => some (.verdict true, w)
  | .other (.cachedAck _ _) => some (none, w)
  | q => answeringRest rl (fun _ _ => True) outcome w i q

/-- A run of the two, one slot a second. -/
def tradeAt (turns : List (Pool.Turn Trader PostOutcome Time)) :
    Pool.State (RestWorld Trader) Trader RestReq.Resp Exc Unit :=
  (traffic oneASecond (fun _ => 2) Trader.call).play (answeringTrader oneASecond) passTo
    { now := 0, calls := [], account := none, resumed := fun _ => 0 } turns

def goTrade (i : Trader) (n : ℕ) : List (Pool.Turn Trader PostOutcome Time) :=
  List.replicate n (.go i accountsAnswer)

/-- The holder's slot is of 0, and its GET leaves at 5, with the order. -/
def orderAtFive : List (Pool.Turn Trader PostOutcome Time) :=
  goTrade .holder 10 ++ [.world 1] ++ goTrade .holder 3 ++ [.world 5] ++ goTrade .holder 3 ++
    goTrade .buyer 9

/-- The answers of such a run are answers of the world. -/
theorem answeringRest_carries (outcome : PostOutcome) {w w' : RestWorld Trader} {i : Trader}
    {q : RestReq} {x : q.Resp}
    (h : answeringRest oneASecond (fun _ _ => True) outcome w i q = some (x, w')) :
    w.Carries oneASecond i ⟨q, x⟩ w' := by
  refine .rest ?_
  cases q with
  | lock =>
    obtain ⟨hfree, heq⟩ := Option.ite_none_right_eq_some.mp h
    obtain ⟨-, rfl⟩ := Prod.ext_iff.mp (Option.some.inj heq)
    exact .lock hfree
  | turn =>
    cases hwait : oneASecond.toWait w.now (w.evict oneASecond).calls with
    | some wait =>
      simp only [answeringRest, hwait] at h
      obtain ⟨rfl, rfl⟩ := Prod.ext_iff.mp (Option.some.inj h)
      exact .full hwait
    | none =>
      simp only [answeringRest, hwait, if_true] at h
      obtain ⟨rfl, rfl⟩ := Prod.ext_iff.mp (Option.some.inj h)
      exact .room hwait trivial
  | forever => exact x.elim
  | send path params authorization account =>
    obtain ⟨hnow, heq⟩ := Option.ite_none_right_eq_some.mp h
    obtain ⟨-, rfl⟩ := Prod.ext_iff.mp (Option.some.inj heq)
    exact .send hnow
  | unlock =>
    obtain ⟨-, rfl⟩ := Prod.ext_iff.mp (Option.some.inj h)
    exact .unlock
  | sleep wait =>
    obtain ⟨-, rfl⟩ := Prod.ext_iff.mp (Option.some.inj h)
    exact .sleep wait
  | response =>
    obtain ⟨rfl, rfl⟩ := Prod.ext_iff.mp (Option.some.inj h)
    exact .response outcome
  | other q =>
    cases q with
    | authHeaders =>
      obtain ⟨rfl, rfl⟩ := Prod.ext_iff.mp (Option.some.inj h)
      exact .authHeaders (.ok "Bearer D")
    | cachedAccountSeq =>
      obtain ⟨rfl, rfl⟩ := Prod.ext_iff.mp (Option.some.inj h)
      exact .cachedAccountSeq
    | cacheAccountSeq seq =>
      obtain ⟨-, rfl⟩ := Prod.ext_iff.mp (Option.some.inj h)
      exact .cacheAccountSeq seq
    | _ => exact absurd h (by simp [answeringRest])

theorem tradeAt_reachable (turns : List (Pool.Turn Trader PostOutcome Time)) :
    Reachable (Pool.Start RestWorld.Fresh) (traffic oneASecond (fun _ => 2) Trader.call).Step
      (tradeAt turns) := by
  refine Pool.play_reachable RestWorld.Fresh ?_ ?_ ⟨rfl, rfl, rfl, rfl⟩ turns
  · intro outcome w i q x w' h
    cases q with
    | other q =>
      cases q with
      | ledger op =>
        obtain ⟨-, rfl⟩ := Prod.ext_iff.mp (Option.some.inj h)
        exact .ledger op x
      | cachedAck broker c =>
        obtain ⟨-, rfl⟩ := Prod.ext_iff.mp (Option.some.inj h)
        exact .cachedAck broker c x
      | _ => exact answeringRest_carries outcome h
    | _ => exact answeringRest_carries outcome h
  · intro now w w' h
    obtain ⟨hle, heq⟩ := Option.ite_none_right_eq_some.mp h
    obtain rfl := Option.some.inj heq
    exact .pass hle

theorem orders_limited_atFive :
    (tradeAt orderAtFive).world.sent = [(.holder, 1), (.holder, 5), (.buyer, 5)] ∧
    Limited oneASecond.max oneASecond.period
      ((promptly Trader.call (tradeAt orderAtFive).world.sent).map Prod.snd) :=
  ⟨by decide +kernel, orders_limited (tradeAt_reachable _)⟩

end LateRead

end Proof

end TossSleeve
