import TossSleeve.Api.Slots
import TossSleeve.Lib.Window
import TossSleeve.Proof.Granting

/-!
# `Proof/Sending.lean` — the rate limit at the moment of sending

    at most max_calls GETs are sent in any interval (t - period, t]

The limiter limits slots (`Proof/Granting.lean`). A GET is sent with a slot of its own, so all
depends on its leaving at the instant of the slot. `SlotPhase` is what a call has in hand. One that
sends no account number goes from the slot straight to the GET; so does one that does, if the
number is known by then. Otherwise it goes `astray`: with its slot in hand it looks the number up,
and whatever that takes, the GET is late by it, and may fall into a window that is full without it
(`sends_burst`).

§2: the calls keep to their phases. §3: the world does, while nobody goes astray. The slot somebody
has in hand is one that no GET was sent with yet (`Backed`), which is what carries the limit over
from the slots to the GETs.
-/

set_option autoImplicit false

namespace TossSleeve

open Lib Lib.Proc

/-! ## 1. Phases -/

/-- What a call has in hand. -/
inductive SlotPhase where
  | idle
  /-- A slot, of this very instant. -/
  | slotted
  /-- A slot, and an account number to look up first. -/
  | astray

namespace SlotPhase

/-- What an answer does to a call whose slots and GETs are single requests. -/
def nextRequest : SlotPhase → Event BrokerReq.Resp → SlotPhase
  | .idle, ⟨.acquireRead, _⟩ => .slotted
  | .slotted, ⟨.cachedAccountSeq, none⟩ => .astray
  | .slotted, ⟨.accountSeq, .error _⟩ => .astray
  | .slotted, ⟨.get _ _ _ _, _⟩ => .idle
  | p, _ => p

/-- What such a call asks for. -/
inductive Requests (numbered : Prop) : SlotPhase → BrokerReq → Prop
  | authHeaders : Requests numbered .idle .authHeaders
  | invalidate : Requests numbered .idle .invalidate
  | cached : Requests numbered .idle .cachedAccountSeq
  | cache (seq : String) : Requests numbered .idle (.cacheAccountSeq seq)
  | acquire : Requests numbered .idle .acquireRead
  | accountSeq (h : numbered) : Requests numbered .slotted .accountSeq
  | get (path : String) (params : List (String × String)) (authorization : String)
      (account : Option String) :
      Requests numbered .slotted (.get path params authorization account)
  | astray (q : BrokerReq) : Requests numbered .astray q

/-- The same, once the account number is looked up on the way. -/
inductive Looks (numbered : Prop) : SlotPhase → BrokerReq → Prop
  | authHeaders : Looks numbered .idle .authHeaders
  | invalidate : Looks numbered .idle .invalidate
  | cached : Looks numbered .idle .cachedAccountSeq
  | cache (seq : String) : Looks numbered .idle (.cacheAccountSeq seq)
  | acquire : Looks numbered .idle .acquireRead
  | lookup (h : numbered) : Looks numbered .slotted .cachedAccountSeq
  | get (path : String) (params : List (String × String)) (authorization : String)
      (account : Option String) : Looks numbered .slotted (.get path params authorization account)
  | astray (q : BrokerReq) : Looks numbered .astray q

/-- The same, step by step. -/
def next : SlotPhase → Event RestReq.Resp → SlotPhase
  | .idle, ⟨.turn, none⟩ => .slotted
  | .slotted, ⟨.other .cachedAccountSeq, none⟩ => .astray
  | .slotted, ⟨.send _ _ _ _, _⟩ => .idle
  | p, _ => p

inductive Asks (numbered : Prop) : SlotPhase → RestReq → Prop
  | authHeaders : Asks numbered .idle (.other .authHeaders)
  | invalidate : Asks numbered .idle (.other .invalidate)
  | cached : Asks numbered .idle (.other .cachedAccountSeq)
  | cache (seq : String) : Asks numbered .idle (.other (.cacheAccountSeq seq))
  | lock : Asks numbered .idle .lock
  | turn : Asks numbered .idle .turn
  | sleep (wait : Time) : Asks numbered .idle (.sleep wait)
  | forever : Asks numbered .idle .forever
  | unlock : Asks numbered .slotted .unlock
  | lookup (h : numbered) : Asks numbered .slotted (.other .cachedAccountSeq)
  | send (path : String) (params : List (String × String)) (authorization : String)
      (account : Option String) : Asks numbered .slotted (.send path params authorization account)
  | response : Asks numbered .idle .response
  | astray (q : RestReq) : Asks numbered .astray q

/-- A call that returns has nothing in hand, unless it went astray. -/
def Rests {α : Type} (p : SlotPhase) : Except Exc α → Prop
  | .ok _ => p = .idle ∨ p = .astray
  | .error _ => True

end SlotPhase

namespace Proof.Sending

open SlotPhase

variable {numbered : Prop} {α β : Type}

/-! ## 2. The calls keep to their phases

Each of the three in turn: the methods; the same with their lookups; and step by step. -/

theorem rests_astray (r : Except Exc α) : Rests .astray r := by
  cases r with
  | ok a => exact .inr rfl
  | error e => exact trivial

/-- Nothing is promised of a call that went astray. -/
theorem requests_astray (p : Prog α) :
    Along nextRequest (Requests numbered) Rests p .astray :=
  .of_fixed (fun _ => rfl) .astray rests_astray p

/-- One part of a method after the other. -/
theorem rests_bind {p : Prog α} {f : α → Prog β} {g : SlotPhase}
    (hp : Along nextRequest (Requests numbered) Rests p g)
    (hf : ∀ a, Along nextRequest (Requests numbered) Rests (f a) .idle) :
    Along nextRequest (Requests numbered) Rests (p >>= f) g := by
  refine Along.bind hp (fun g a hg => ?_) (fun _ _ _ => trivial)
  rcases hg with rfl | rfl
  · exact hf a
  · exact requests_astray (f a)

theorem lookup_rests (x : Except LookupFailure α) :
    Along nextRequest (Requests numbered) Rests (Prog.lookup x) .idle := by
  cases x with
  | ok a => exact .inl rfl
  | error f => exact trivial

theorem decoded_rests (x : Except PyError α) :
    Along nextRequest (Requests numbered) Rests (Prog.decoded x) .idle := by
  cases x with
  | ok a => exact .inl rfl
  | error e => exact trivial

theorem authHeaders_rests : Along nextRequest (Requests numbered) Rests authHeaders .idle := by
  apply rests_bind
  · exact ⟨.authHeaders, fun x => .inl rfl⟩
  · exact lookup_rests

theorem fetch_rests (path : String) (params : List (String × String)) (authorization : String)
    (account : Option String) (message : String) : Along nextRequest (Requests numbered) Rests
      (TossRest.fetch path params authorization account message) .slotted := by
  refine ⟨.get path params authorization account, fun x => ?_⟩
  cases x with
  | answered r => exact .inl rfl
  | connectFailed => exact trivial
  | sendFailed => exact trivial

/-- `request_with_reauth`, around a GET that has nothing in hand before and after. -/
theorem requestWithReauth_rests {send : String → Prog Response} (hsend : ∀ authorization,
    Along nextRequest (Requests numbered) Rests (send authorization) .idle) :
    Along nextRequest (Requests numbered) Rests (TossSleeve.requestWithReauth send false)
      .idle := by
  apply rests_bind authHeaders_rests
  intro authorization
  apply rests_bind (hsend authorization)
  intro resp
  cases parseToss resp with
  | ok payload => exact .inl rfl
  | error e =>
    show Along _ _ _ (if e.InvalidToken then _ else _) _
    by_cases h : e.InvalidToken
    · rw [if_pos h]
      refine ⟨.invalidate, fun _ => ?_⟩
      apply rests_bind authHeaders_rests
      intro authorization
      apply rests_bind (hsend authorization)
      intro resp
      cases parseToss resp with
      | ok payload => exact .inl rfl
      | error e => exact trivial
    · rw [if_neg h]
      exact trivial

/-- **A GET without an account number**: the slot, and the request. -/
theorem get_rests (path : String) (params : List (String × String)) :
    Along nextRequest (Requests numbered) Rests (TossRest.get path false params) .idle := by
  apply requestWithReauth_rests
  intro authorization
  refine ⟨.acquire, fun _ => ?_⟩
  exact fetch_rests path params authorization none _

/-- **A GET with one**: the number is looked up in between. -/
theorem get_rests_numbered (h : numbered) (path : String) (params : List (String × String)) :
    Along nextRequest (Requests numbered) Rests (TossRest.get path true params) .idle := by
  apply requestWithReauth_rests
  intro authorization
  refine ⟨.acquire, fun _ => ⟨.accountSeq h, fun x => ?_⟩⟩
  cases x with
  | ok seq => exact fetch_rests path params authorization (some seq) _
  | error f => exact trivial

theorem accountSeq_rests :
    Along nextRequest (Requests numbered) Rests TossRest.accountSeq .idle := by
  refine ⟨.cached, fun x => ?_⟩
  cases x with
  | some seq => exact .inl rfl
  | none =>
    show Along _ _ _ (TossSleeve.requestWithReauth _ false >>= fun result => _) _
    apply rests_bind
    · apply requestWithReauth_rests
      intro authorization
      exact ⟨.acquire, fun _ => fetch_rests accountsPath [] authorization none _⟩
    · intro result
      apply rests_bind (lookup_rests (accountSeqOf result))
      intro seq
      exact ⟨.cache seq, fun _ => .inl rfl⟩

theorem pricesLoop_rests (batches : List (List String)) : ∀ out : List PriceQuote,
    Along nextRequest (Requests numbered) Rests (TossRest.pricesLoop batches out) .idle := by
  induction batches with
  | nil =>
    intro out
    exact .inl rfl
  | cons batch batches ih =>
    intro out
    apply rests_bind (get_rests pricesPath _)
    intro result
    apply rests_bind (decoded_rests (pricesOf result))
    intro quotes
    exact ih (out ++ quotes)

theorem program_rests (call : RestCall) :
    Along nextRequest (Requests call.Numbered) Rests call.program .idle := by
  have hdone : ∀ {α : Type} {p : Prog α}, Along nextRequest (Requests call.Numbered) Rests p .idle →
      Along nextRequest (Requests call.Numbered) Rests (discard p) .idle :=
    fun hp => rests_bind hp fun _ => .inl rfl
  cases call with
  | holdings =>
    apply hdone
    exact rests_bind (get_rests_numbered trivial holdingsPath []) fun result => decoded_rests _
  | orderFill orderId =>
    apply hdone
    exact rests_bind (get_rests_numbered trivial (orderDetailPath orderId) []) fun result =>
      lookup_rests _
  | buyingPower currency =>
    apply hdone
    exact rests_bind (get_rests_numbered trivial buyingPowerPath _) fun result => lookup_rests _
  | prices symbols => exact hdone (pricesLoop_rests _ [])
  | orderbook symbol =>
    apply hdone
    exact rests_bind (get_rests orderbookPath _) fun result => decoded_rests _
  | accountSeq => exact hdone accountSeq_rests

/-! ### With the lookups -/

theorem looks_astray {fin : SlotPhase → Except Exc α → Prop} (hfin : ∀ r, fin .astray r)
    (p : Prog α) : Along nextRequest (Looks numbered) fin p .astray :=
  .of_fixed (fun _ => rfl) .astray hfin p

/-- What serves a request keeps to the phases, or gets lost. -/
abbrev Served (g : SlotPhase) (q : BrokerReq) (g' : SlotPhase) (r : Except Exc q.Resp) : Prop :=
  g' = .astray ∨ Serves nextRequest (@Rests Unit) g q g' r

/-- **The lookup of an account number**: it is known, or the call goes astray. -/
theorem accountSeq_served (h : numbered) : Along nextRequest (Looks numbered)
    (Served .slotted .accountSeq) (Prog.outcome TossRest.accountSeq) .slotted := by
  refine ⟨.lookup h, fun x => ?_⟩
  cases x with
  | some seq => exact .inr rfl
  | none => exact looks_astray (fun _ => .inl rfl) _

theorem accountLookup_served {g : SlotPhase} {q : BrokerReq} (h : Requests numbered g q) :
    Along nextRequest (Looks numbered) (Served g q) (accountLookup q) g := by
  cases h with
  | accountSeq h => exact accountSeq_served h
  | astray q => exact looks_astray (fun _ => .inl rfl) _
  | authHeaders => exact ⟨.authHeaders, fun x => .inr rfl⟩
  | invalidate => exact ⟨.invalidate, fun x => .inr rfl⟩
  | cached => exact ⟨.cached, fun x => .inr rfl⟩
  | cache seq => exact ⟨.cache seq, fun x => .inr rfl⟩
  | acquire => exact ⟨.acquire, fun x => .inr rfl⟩
  | get path params authorization account =>
    exact ⟨.get path params authorization account, fun x => .inr rfl⟩

theorem lookedUp_rests (call : RestCall) : Along nextRequest (Looks call.Numbered) Rests
    (call.program.inline accountLookup) .idle := by
  apply Along.inline_or (· = SlotPhase.astray) (fun g q hq => accountLookup_served hq) ?_
    (program_rests call)
  intro p g hg
  rw [hg]
  exact looks_astray rests_astray p

/-! ### Step by step -/

variable (fuel : ℕ)

/-- The loop ends with a slot. By induction on its turns. -/
theorem acquireLoop_along : Along next (Asks numbered)
    (fun p (r : Except Exc Unit) => p = .slotted ∧ r = .ok ()) (RestProg.acquireLoop fuel)
    .idle := by
  induction fuel with
  | zero => exact ⟨.forever, fun x => x.elim⟩
  | succ fuel ih =>
    refine ⟨.turn, fun x => ?_⟩
    cases x with
    | none => exact ⟨rfl, rfl⟩
    | some wait =>
      show Along _ _ _ (if wait > 0 then _ else _) _
      by_cases h : wait > 0
      · rw [if_pos h]
        exact ⟨.sleep wait, fun _ => ih⟩
      · rw [if_neg h]
        exact ih

theorem acquire_served : Along next (Asks numbered)
    (Serves nextRequest (@Rests Unit) .idle .acquireRead) (RestProg.acquire fuel) .idle := by
  refine ⟨.lock, fun _ => ?_⟩
  show Along _ _ _ (RestProg.acquireLoop fuel >>= fun _ => _) _
  refine Along.bind (acquireLoop_along fuel) (fun p x hp => ?_) (fun p e hp => ?_)
  · obtain ⟨rfl, -⟩ := hp
    exact ⟨.unlock, fun _ => rfl⟩
  · exact absurd hp.2 (by simp)

theorem asks_astray {fin : SlotPhase → Except Exc α → Prop} (hfin : ∀ r, fin .astray r)
    (p : RestProg α) : Along next (Asks numbered) fin p .astray :=
  .of_fixed (fun _ => rfl) .astray hfin p

theorem serve_served {g : SlotPhase} {q : BrokerReq} (h : Looks numbered g q) :
    Along next (Asks numbered) (Serves nextRequest (@Rests Unit) g q)
      (RestProg.serve fuel q) g := by
  cases h with
  | acquire => exact acquire_served fuel
  | get path params authorization account =>
    exact ⟨.send path params authorization account, fun _ => ⟨.response, fun x => rfl⟩⟩
  | authHeaders => exact ⟨.authHeaders, fun x => rfl⟩
  | invalidate => exact ⟨.invalidate, fun x => rfl⟩
  | cached => exact ⟨.cached, fun x => rfl⟩
  | cache seq => exact ⟨.cache seq, fun x => rfl⟩
  | lookup h =>
    refine ⟨.lookup h, fun x => ?_⟩
    cases x <;> exact rfl
  | astray q =>
    apply asks_astray
    intro r
    cases r with
    | ok x => exact rfl
    | error e => exact trivial

/-- **A call keeps to its phases.** -/
theorem timed_along (call : RestCall) :
    Along next (Asks call.Numbered) Rests (call.timed fuel) .idle :=
  Along.inline (fun _ _ hq => serve_served fuel hq) (lookedUp_rests call)

/-! ## 3. The world does -/

section World

variable {ι : Type}

/-- The slot of a call in this phase, if it was resumed then. -/
def slotOf (resumed : Time) : SlotPhase → Option Time
  | .idle => none
  | .slotted => some resumed
  | .astray => none

/-- The slots that the calls have in hand. -/
def inHand (w : RestWorld ι) (ph : ι → Option SlotPhase) (i : ι) : Option Time :=
  (ph i).bind (slotOf (w.resumed i))

variable [DecidableEq ι]

/-- A call with a slot in hand has all it needs for its GET. -/
def Ready (calls : ι → RestCall) (w : RestWorld ι) (i : ι) : SlotPhase → Prop
  | .idle => True
  | .slotted => w.Known calls i
  | .astray => False

/-- **The invariant.** -/
structure SendingInv (rl : RateLimiter) (calls : ι → RestCall) (w : RestWorld ι)
    (ph : ι → Option SlotPhase) : Prop where
  tracks : Tracks rl.max rl.period w.calls (w.granted.map Prod.snd) w.now
  backed : Backed w.sent w.granted (inHand w ph)
  ready : ∀ i p, ph i = some p → Ready calls w i p

variable {rl : RateLimiter} {calls : ι → RestCall} {w w' : RestWorld ι}
  {ph : ι → Option SlotPhase} {i : ι} {p : SlotPhase}

/-- One call moves. -/
theorem inHand_update (h : ∀ j, j ≠ i → w'.resumed j = w.resumed j) :
    inHand w' (Function.update ph i (some p)) =
      Function.update (inHand w ph) i (slotOf (w'.resumed i) p) := by
  funext j
  by_cases hij : j = i
  · subst hij
    simp [inHand]
  · simp [inHand, hij, h j hij]

/-- What a step leaves alone that has to do with neither the limiter nor a GET. -/
structure Quiet (i : ι) (w w' : RestWorld ι) : Prop where
  now : w'.now = w.now
  calls : w'.calls = w.calls
  granted : w'.granted = w.granted
  sent : w'.sent = w.sent
  resumed : ∀ j, j ≠ i → w'.resumed j = w.resumed j
  account : w.account ≠ none → w'.account ≠ none

omit [DecidableEq ι] in
theorem Quiet.refl (w : RestWorld ι) : Quiet i w w := ⟨rfl, rfl, rfl, rfl, fun _ _ => rfl, id⟩

omit [DecidableEq ι] in
theorem Ready.mono (h : Ready calls w i p) (ha : w.account ≠ none → w'.account ≠ none) :
    Ready calls w' i p := by
  cases p with
  | idle => exact trivial
  | slotted => exact fun hn => ha (h hn)
  | astray => exact h

theorem quiet_resume : Quiet i w (w.resume i) :=
  ⟨rfl, rfl, rfl, rfl, fun _ hj => Function.update_of_ne hj .., id⟩

namespace SendingInv

/-- A call goes on with what it has in hand. -/
theorem stay (h : SendingInv rl calls w ph) (hq : Quiet i w w') (hp : ph i = some p)
    (hslot : slotOf (w'.resumed i) p = slotOf (w.resumed i) p) :
    SendingInv rl calls w' (Function.update ph i (some p)) := by
  have hph : Function.update ph i (some p) = ph := Function.update_eq_self_iff.mpr hp.symm
  have hhand : inHand w' (Function.update ph i (some p)) = inHand w ph := by
    rw [inHand_update hq.resumed, hslot]
    apply Function.update_eq_self_iff.mpr
    rw [inHand, hp]
    rfl
  refine ⟨?_, ?_, ?_⟩
  · rw [hq.calls, hq.granted, hq.now]
    exact h.tracks
  · rw [hq.sent, hq.granted, hhand]
    exact h.backed
  · rw [hph]
    intro j q hj
    exact (h.ready j q hj).mono hq.account

/-- A call with nothing in hand goes on. -/
theorem idle (h : SendingInv rl calls w ph) (hq : Quiet i w w') (hp : ph i = some .idle) :
    SendingInv rl calls w' (Function.update ph i (some .idle)) := h.stay hq hp rfl

theorem evict (h : SendingInv rl calls w ph) : SendingInv rl calls (w.evict rl) ph :=
  ⟨h.tracks.evict (le_refl _), h.backed, h.ready⟩

/-- **A call takes a slot.** -/
theorem grant (h : SendingInv rl calls w ph) (hp : ph i = some .idle)
    (hroom : w.calls.length < rl.max) (hknown : w.Known calls i) :
    SendingInv rl calls (w.grant i) (Function.update ph i (some .slotted)) := by
  refine ⟨?_, ?_, ?_⟩
  · show Tracks _ _ (w.calls ++ [w.now]) ((w.granted ++ [(i, w.now)]).map Prod.snd) w.now
    rw [List.map_append]
    exact h.tracks.grant hroom
  · have hnow : (w.grant i).resumed i = w.now := Function.update_self ..
    rw [inHand_update (fun _ hj => Function.update_of_ne hj ..), slotOf, hnow]
    apply h.backed.grant
    rw [inHand, hp]
    rfl
  · exact Pool.forall_update hknown fun j q _ hj => h.ready j q hj

/-- **A GET is sent**, at the instant of the slot. -/
theorem send (h : SendingInv rl calls w ph) (hp : ph i = some .slotted)
    (hnow : w.resumed i = w.now) : SendingInv rl calls { w with sent := w.sent ++ [(i, w.now)] }
      (Function.update ph i (some .idle)) := by
  refine ⟨h.tracks, ?_, Pool.forall_update trivial fun j q _ hj => h.ready j q hj⟩
  show Backed (w.sent ++ [(i, w.now)]) w.granted (inHand w _)
  rw [inHand_update fun _ _ => rfl]
  apply h.backed.use
  rw [inHand, hp, ← hnow]
  rfl

theorem start (h : SendingInv rl calls w ph) (hp : ph i = none) :
    SendingInv rl calls w (Function.update ph i (some .idle)) := by
  refine ⟨h.tracks, ?_, Pool.forall_update trivial fun j q _ hj => h.ready j q hj⟩
  have hhand : Function.update (inHand w ph) i none = inHand w ph := by
    apply Function.update_eq_self_iff.mpr
    rw [inHand, hp]
    rfl
  rw [inHand_update fun _ _ => rfl, slotOf, hhand]
  exact h.backed

/-- **One step.** -/
theorem answer (h : SendingInv rl calls w ph) (hp : ph i = some p) {q : RestReq} {x : q.Resp}
    (hok : Asks (calls i).Numbered p q) (ha : w.Answers rl (RestWorld.Known calls) i ⟨q, x⟩ w') :
    SendingInv rl calls w' (Function.update ph i (some (p.next ⟨q, x⟩))) := by
  cases hok with
  | astray q => exact (h.ready i _ hp).elim
  | authHeaders =>
    cases ha
    exact h.idle quiet_resume hp
  | invalidate =>
    cases ha
    exact h.idle quiet_resume hp
  | cached =>
    cases ha
    exact h.idle (Quiet.refl w) hp
  | cache seq =>
    cases ha
    exact h.idle ⟨rfl, rfl, rfl, rfl, fun _ _ => rfl, fun _ => by simp⟩ hp
  | lock =>
    cases ha
    exact h.idle ⟨rfl, rfl, rfl, rfl, fun _ _ => rfl, id⟩ hp
  | turn =>
    cases ha with
    | full hwait => exact h.evict.idle (Quiet.refl _) hp
    | room hwait hknown => exact h.evict.grant hp (Granting.toWait_none hwait) hknown
  | sleep wait =>
    cases ha
    exact h.idle (Quiet.refl w) hp
  | forever => exact x.elim
  | unlock =>
    cases ha
    exact h.stay ⟨rfl, rfl, rfl, rfl, fun _ _ => rfl, id⟩ hp rfl
  | lookup hn =>
    cases ha
    -- The number is known since the slot was taken.
    cases hseq : w.account with
    | none => exact absurd hseq (h.ready i _ hp hn)
    | some seq => exact h.stay (Quiet.refl w) hp rfl
  | send path params authorization account =>
    cases ha with
    | send hnow => exact h.send hp hnow
  | response =>
    cases ha
    exact h.idle quiet_resume hp

end SendingInv

theorem sending_inv {fuel : ι → ℕ} {s : Pool.State (RestWorld ι) ι RestReq.Resp Exc Unit}
    (hs : Reachable (Pool.Start RestWorld.Fresh)
      (reading rl fuel calls (RestWorld.Known calls)).Step s) :
    SendingInv rl calls s.world (Pool.phase (fun _ => next) (fun _ => SlotPhase.idle) s) := by
  apply Pool.inv (fun i => Asks (calls i).Numbered) (fun i => timed_along (fuel i) (calls i))
    (SendingInv rl calls) ?_ ?_ ?_ ?_ hs
  · intro w hw
    obtain ⟨hcalls, -, hgranted, hsent⟩ := hw
    refine ⟨?_, ?_, fun _ _ h => absurd h (by simp)⟩
    · rw [hcalls, hgranted]
      exact tracks_nil w.now
    · rw [hsent, hgranted]
      exact backed_nil
  · exact fun w ph i h hi => h.start hi
  · exact fun w ph i g q x w' h hp hok ha => h.answer hp hok ha
  · intro w ph w' h hmove
    cases hmove with
    | pass hle => exact ⟨h.tracks.mono hle, h.backed, h.ready⟩

end World

end Proof.Sending

namespace Proof

open Sending

/-- **The GETs of one `TossRest` respect the rate limit when they are sent**, if nobody has to look
    the account number up with a slot in hand: for every order of steps and whatever the network
    answers, and when. -/
theorem sends_limited {ι : Type} [DecidableEq ι] {rl : RateLimiter} {fuel : ι → ℕ}
    {calls : ι → RestCall} {s : Pool.State (RestWorld ι) ι RestReq.Resp Exc Unit}
    (hs : Reachable (Pool.Start RestWorld.Fresh)
      (reading rl fuel calls (RestWorld.Known calls)).Step s) :
    Limited rl.max rl.period (s.world.sent.map Prod.snd) :=
  (sending_inv hs).backed.limited (sending_inv hs).tracks.limited

/-! ## 4. Two calls -/

section TwoCalls

/-- One call that sends the account number, and one that does not. -/
inductive Asker where
  | holder | watcher
  deriving DecidableEq

def Asker.call : Asker → RestCall
  | .holder => .holdings
  | .watcher => .prices ["005930"]

/-- One slot a second. -/
def oneASecond : RateLimiter := ⟨1, 1, by decide, by decide +kernel⟩

/-- The accounts of a customer who has one. -/
def accountsAnswer : PostOutcome :=
  .answered (.of 200 (some (.obj [("result", .arr [.obj [("accountSeq", .num "7")]])])))

variable {ι : Type} [DecidableEq ι]

instance (calls : ι → RestCall) (w : RestWorld ι) : DecidablePred (w.Known calls) := fun i =>
  match h : calls i with
  | .holdings | .orderFill _ | .buyingPower _ =>
    decidable_of_iff (w.account ≠ none) (by simp [RestWorld.Known, RestCall.Numbered, h])
  | .prices _ | .orderbook _ | .accountSeq =>
    .isTrue (by simp [RestWorld.Known, RestCall.Numbered, h])

/-- The answers of a concrete run, as far as `C` lets them pass; every GET is answered alike. -/
def answeringRest (rl : RateLimiter) (C : RestWorld ι → ι → Prop) [∀ w, DecidablePred (C w)]
    (outcome : PostOutcome) (w : RestWorld ι) (i : ι) :
    (q : RestReq) → Option (q.Resp × RestWorld ι)
  | .lock => if w.holder = none then some ((), { w with holder := some i }) else none
  | .unlock => some ((), { w with holder := none })
  | .turn =>
    match rl.toWait w.now (w.evict rl).calls with
    | some wait => some (some wait, w.evict rl)
    | none => if C w i then some (none, (w.evict rl).grant i) else none
  | .sleep _ => some ((), w)
  | .forever => none
  | .send _ _ _ _ =>
    if w.resumed i = w.now then some ((), { w with sent := w.sent ++ [(i, w.now)] }) else none
  | .response => some (outcome, w.resume i)
  | .other .authHeaders => some (.ok "Bearer D", w.resume i)
  | .other .cachedAccountSeq => some (w.account, w)
  | .other (.cacheAccountSeq seq) => some ((), { w with account := some seq })
  | .other _ => none

/-- It is this late, by now. -/
def passTo (now : Time) (w : RestWorld ι) : Option (RestWorld ι) :=
  if w.now ≤ now then some { w with now } else none

/-- A run of the two, from a `TossRest` that knows this much of the account. -/
def asks (C : RestWorld Asker → Asker → Prop) [∀ w, DecidablePred (C w)] (account : Option String)
    (turns : List (Pool.Turn Asker PostOutcome Time)) :
    Pool.State (RestWorld Asker) Asker RestReq.Resp Exc Unit :=
  (reading oneASecond (fun _ => 2) Asker.call C).play (answeringRest oneASecond C) passTo
    { now := 0, calls := [], account, resumed := fun _ => 0 } turns

theorem asks_reachable (C : RestWorld Asker → Asker → Prop) [∀ w, DecidablePred (C w)]
    (account : Option String) (turns : List (Pool.Turn Asker PostOutcome Time)) :
    Reachable (Pool.Start RestWorld.Fresh) (reading oneASecond (fun _ => 2) Asker.call C).Step
      (asks C account turns) := by
  refine Pool.play_reachable RestWorld.Fresh ?_ ?_ ⟨rfl, rfl, rfl, rfl⟩ turns
  · intro outcome w i q x w' h
    cases q with
    | lock =>
      obtain ⟨hfree, heq⟩ := Option.ite_none_right_eq_some.mp h
      obtain ⟨-, rfl⟩ := Prod.ext_iff.mp (Option.some.inj heq)
      exact .lock hfree
    | turn =>
      cases hwait : oneASecond.toWait w.now (w.evict oneASecond).calls with
      | some wait =>
        simp only [answeringRest, hwait] at h
        obtain ⟨rfl, rfl⟩ := Prod.ext_iff.mp (Option.some.inj h)
        exact .full hwait
      | none =>
        simp only [answeringRest, hwait] at h
        obtain ⟨hc, heq⟩ := Option.ite_none_right_eq_some.mp h
        obtain ⟨rfl, rfl⟩ := Prod.ext_iff.mp (Option.some.inj heq)
        exact .room hwait hc
    | forever => exact x.elim
    | send path params authorization account =>
      obtain ⟨hnow, heq⟩ := Option.ite_none_right_eq_some.mp h
      obtain ⟨-, rfl⟩ := Prod.ext_iff.mp (Option.some.inj heq)
      exact .send hnow
    | unlock =>
      obtain ⟨-, rfl⟩ := Prod.ext_iff.mp (Option.some.inj h)
      exact .unlock
    | sleep wait =>
      obtain ⟨-, rfl⟩ := Prod.ext_iff.mp (Option.some.inj h)
      exact .sleep wait
    | response =>
      obtain ⟨rfl, rfl⟩ := Prod.ext_iff.mp (Option.some.inj h)
      exact .response outcome
    | other q =>
      cases q with
      | authHeaders =>
        obtain ⟨rfl, rfl⟩ := Prod.ext_iff.mp (Option.some.inj h)
        exact .authHeaders (.ok "Bearer D")
      | cachedAccountSeq =>
        obtain ⟨rfl, rfl⟩ := Prod.ext_iff.mp (Option.some.inj h)
        exact .cachedAccountSeq
      | cacheAccountSeq seq =>
        obtain ⟨-, rfl⟩ := Prod.ext_iff.mp (Option.some.inj h)
        exact .cacheAccountSeq seq
      | _ => exact absurd h (by simp [answeringRest])
  · intro now w w' h
    obtain ⟨hle, heq⟩ := Option.ite_none_right_eq_some.mp h
    obtain rfl := Option.some.inj heq
    exact .pass hle

/-- The call goes on, so many times. -/
def goAsk (i : Asker) (n : ℕ) : List (Pool.Turn Asker PostOutcome Time) :=
  List.replicate n (.go i accountsAnswer)

/-- Both ask; the one sends with its slot, and the other waits for the next. -/
def oneAfterTheOther : List (Pool.Turn Asker PostOutcome Time) :=
  goAsk .holder 7 ++ goAsk .watcher 5 ++ [.world 1] ++ goAsk .watcher 3

/-- The account number is known. -/
theorem sends_limited_known :
    (asks (RestWorld.Known Asker.call) (some "7") oneAfterTheOther).world.sent =
      [(.holder, 0), (.watcher, 1)] ∧
    Limited oneASecond.max oneASecond.period
      ((asks (RestWorld.Known Asker.call) (some "7") oneAfterTheOther).world.sent.map Prod.snd) :=
  ⟨by decide +kernel, sends_limited (asks_reachable _ _ _)⟩

/-- It is not known: the one takes a slot at 0 and looks the number up, with the slot of 1, which
    takes until 5. Then it sends, and the other, with the slot of 5, sends as well. -/
def lookupTakesLong : List (Pool.Turn Asker PostOutcome Time) :=
  goAsk .holder 10 ++ [.world 1] ++ goAsk .holder 3 ++ [.world 5] ++ goAsk .holder 3 ++
    goAsk .watcher 6

theorem sends_burst :
    Reachable (Pool.Start RestWorld.Fresh)
      (reading oneASecond (fun _ => 2) Asker.call fun _ _ => True).Step
      (asks (fun _ _ => True) none lookupTakesLong) ∧
    ¬ Limited oneASecond.max oneASecond.period
      ((asks (fun _ _ => True) none lookupTakesLong).world.sent.map Prod.snd) := by
  refine ⟨asks_reachable _ _ _, fun h => ?_⟩
  have hsent : (asks (fun _ _ => True) none lookupTakesLong).world.sent.map Prod.snd =
      [1, 5, 5] := by
    decide +kernel
  have hfive := h 5
  rw [hsent] at hfive
  exact absurd hfive (by decide +kernel)

end TwoCalls

end Proof
end TossSleeve
