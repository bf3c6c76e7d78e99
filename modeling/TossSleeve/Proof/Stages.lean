import TossSleeve.Ledger.Either
import TossSleeve.Proof.Posting
import TossSleeve.Lib.Pool

/-!
# `Proof/Stages.lean` — what a `place` and a `cancel` know of an order

What the cover of an order owes to `place` is in `Proof/Phases.lean`. The order id goes another way:
Toss names it, `place` records it and then caches the ack, and a `cancel` asks the ledger for it. §1
puts any number of calls of both, of any brokers, over one ledger of either kind, next to whatever
else happens to the ledger as long as it knows no order ids. §2 is what a call knows at each point
(`OrderStage`), and §3 that the calls keep to it.
-/

set_option autoImplicit false

namespace TossSleeve

open Lib Lib.Proc

/-! ## 1. Calls over a ledger -/

/-- What the calls act on: a ledger, the day, and `_acks` of each broker. -/
structure SleeveWorld (kind : LedgerKind) where
  ledger : kind.State
  today : String
  acks : ℕ → String → Option OrderAck

/-- The operation knows no order id. -/
def LedgerOp.Blank (op : LedgerOp) : Prop := ∀ e ∈ op.registers, e.2 = ""

instance (op : LedgerOp) : Decidable op.Blank := inferInstanceAs (Decidable (∀ _ ∈ _, _))

namespace SleeveWorld

variable {kind : LedgerKind}

/-- Can this be the answer? The ledger and the caches answer for themselves. -/
def Gives (w : SleeveWorld kind) : Event BrokerReq.Resp → Prop
  | ⟨.cachedAck b c, x⟩ => x = w.acks b c
  | ⟨.ledger op, x⟩ => x = (kind.step w.ledger w.today op).2
  | ⟨.clientOrderIdFor o, x⟩ => kind.clientOrderIdFor w.ledger o = .ok x
  | _ => True

/-- The world after a request was answered. -/
def after (w : SleeveWorld kind) : Event BrokerReq.Resp → SleeveWorld kind
  | ⟨.ledger op, _⟩ => { w with ledger := (kind.step w.ledger w.today op).1 }
  | ⟨.cacheAck b c ack, _⟩ =>
    { w with acks := fun b' c' => if b' = b ∧ c' = c then some ack else w.acks b' c' }
  | _ => w

/-- The answers of a concrete run: a POST ends as the script says, a lookup succeeds. -/
def respond (w : SleeveWorld kind) (outcome : PostOutcome) : (q : BrokerReq) → Option q.Resp
  | .cachedAck b c => some (w.acks b c)
  | .cacheAck _ _ _ => some ()
  | .ledger op => some (kind.step w.ledger w.today op).2
  | .clientOrderIdFor o => (kind.clientOrderIdFor w.ledger o).toOption
  | .authHeaders => some (.ok "Bearer t")
  | .accountSeq => some (.ok "7")
  | .acquire => some ()
  | .post _ _ _ => some outcome
  | _ => none

theorem gives_respond {w : SleeveWorld kind} {outcome : PostOutcome} {q : BrokerReq} {x : q.Resp}
    (h : w.respond outcome q = some x) : w.Gives ⟨q, x⟩ := by
  cases q with
  | cachedAck b c => exact (Option.some.inj h).symm
  | ledger op => exact (Option.some.inj h).symm
  | clientOrderIdFor o =>
    change (kind.clientOrderIdFor w.ledger o).toOption = some x at h
    show kind.clientOrderIdFor w.ledger o = .ok x
    cases hfind : kind.clientOrderIdFor w.ledger o with
    | error e => rw [hfind] at h; exact absurd h (by simp [Except.toOption])
    | ok y => rw [hfind] at h; rw [Option.some.inj h]
  | _ => exact trivial

/-- What else happens: somebody calls the ledger, the day changes, a broker is restarted. -/
inductive Moves (w : SleeveWorld kind) : SleeveWorld kind → Prop
  | call {op : LedgerOp} (h : op.Blank) :
      Moves w { w with ledger := (kind.step w.ledger w.today op).1 }
  | day (today : String) : Moves w { w with today }
  | restart (b : ℕ) : Moves w { w with acks := fun b' c => if b' = b then none else w.acks b' c }

/-- No order is recorded yet. -/
def Opening (w : SleeveWorld kind) : Prop :=
  (∀ c, kind.order w.ledger c = none) ∧ ∀ b c, w.acks b c = none

end SleeveWorld

/-- A call of a broker. -/
inductive OrderCall where
  | place (b : TossBroker) (req : OrderRequest)
  | cancel (b : TossBroker) (orderId : String)

inductive OrderResult where
  | ack (ack : OrderAck)
  | cancelled (done : Bool)
  deriving DecidableEq

def OrderCall.run : OrderCall → Prog OrderResult
  | .place b req => do
    let ack ← b.place req
    .ret (.ack ack)
  | .cancel b orderId => do
    let done ← b.cancel orderId
    .ret (.cancelled done)

/-- The order of a POST, and the answer to it. -/
def answeredOrder : Event BrokerReq.Resp → Option (OrderBody × Response)
  | ⟨.post _ (.order body) _, .answered r⟩ => some (body, r)
  | _ => none

/-- Toss tells the truth: a success that names an order names the one that it has for the client
    order id of the body. -/
def Truthful (toss : String → String) (e : Event BrokerReq.Resp) : Prop :=
  ∀ p ∈ answeredOrder e, p.2.Success → orderIdIn p.2.result ≠ "" →
    ∀ c ∈ p.1.clientOrderId, orderIdIn p.2.result = toss c

instance (toss : String → String) : DecidablePred (Truthful toss) :=
  fun _ => inferInstanceAs (Decidable (∀ _ ∈ _, _ → _ → ∀ _ ∈ _, _))

/-- The calls, over one ledger. -/
def ordering {ι : Type} (kind : LedgerKind) (toss : String → String) (calls : ι → OrderCall) :
    Pool (SleeveWorld kind) ι BrokerReq.Resp Exc OrderResult where
  program i := (calls i).run
  Answer w _ e w' := w.Gives e ∧ Truthful toss e ∧ w' = w.after e
  Env := SleeveWorld.Moves

/-! ## 2. What a call knows -/

inductive OrderStage where
  | waiting
  /-- Toss named the order. -/
  | named (orderId : String)
  /-- The ledger has the name. -/
  | linked (orderId : String)
  | cached (ack : OrderAck)
  /-- The ledger said whose the order id is. -/
  | found (clientOrderId : Option String)
  | marked (clientOrderId : String)

namespace OrderStage

/-- Where an outcome of a transmission leads. -/
def out : OrderStage → PostOutcome → OrderStage
  | g, .answered r => if r.Success ∧ orderIdIn r.result ≠ "" then .named (orderIdIn r.result) else g
  | g, _ => g

def next : OrderCall → OrderStage → Event BrokerReq.Resp → OrderStage
  | .place _ _, _, ⟨.cachedAck _ _, some ack⟩ => .cached ack
  | .place _ _, g, ⟨.post _ _ _, x⟩ => g.out x
  | .place _ _, .named o, ⟨.ledger (.recordOrder _ _ _ _ _ _), _⟩ => .linked o
  | .cancel _ _, _, ⟨.clientOrderIdFor _, x⟩ => .found x
  | .cancel _ _, g, ⟨.ledger _, .raised _⟩ => g
  | .cancel _ _, _, ⟨.ledger (.markOrderTerminal c _), _⟩ => .marked c
  | _, g, _ => g

/-- What a call asks for, stage by stage. -/
inductive Asks : OrderCall → OrderStage → BrokerReq → Prop
  | look {b : TossBroker} {req : OrderRequest} (g : OrderStage) :
      Asks (.place b req) g (.cachedAck b.id req.clientOrderId)
  /-- The guard's question, and what `_unwind` does. -/
  | blank {b : TossBroker} {req : OrderRequest} {op : LedgerOp} (h : op.Blank) :
      Asks (.place b req) .waiting (.ledger op)
  | record {b : TossBroker} {req : OrderRequest} (o : String) (hc : req.clientOrderId ≠ "") :
      Asks (.place b req) (.named o) (.ledger (.recordOrder req.clientOrderId o req.ticker req.side
        req.currency (req.quantity.getD 0)))
  | cache {b : TossBroker} {req : OrderRequest} (o : String) :
      Asks (.place b req) (.linked o) (.cacheAck b.id req.clientOrderId
        { accepted := true, orderId := o, clientOrderId := req.clientOrderId })
  | lookUp {b : TossBroker} {o : String} : Asks (.cancel b o) .waiting (.clientOrderIdFor o)
  | mark {b : TossBroker} {o c : String} (hc : c ≠ "") :
      Asks (.cancel b o) (.found (some c)) (.ledger (.markOrderTerminal c .CANCELLED))
  | authHeaders (call : OrderCall) : Asks call .waiting .authHeaders
  | invalidate (call : OrderCall) : Asks call .waiting .invalidate
  | accountSeq (call : OrderCall) : Asks call .waiting .accountSeq
  | acquire (call : OrderCall) : Asks call .waiting .acquire
  | order {b : TossBroker} {req : OrderRequest} (hc : req.clientOrderId ≠ "") (headers : Headers) :
      Asks (.place b req) .waiting (.post ordersPath (.order (buildBody req)) headers)
  | cancel {b : TossBroker} {o : String} (headers : Headers) :
      Asks (.cancel b o) .waiting (.post (cancelPath o) .empty headers)

/-- What an end says of the stage it was reached in. -/
def Ends : OrderCall → OrderStage → Except Exc OrderResult → Prop
  | .place _ _, g, .ok (.ack ack) =>
    ack.accepted = true → g = .linked ack.orderId ∨ g = .cached ack
  | .cancel _ _, g, .ok (.cancelled true) =>
    (∃ c, g = .marked c) ∨ g = .found none ∨ g = .found (some "")
  | .cancel _ _, g, _ => ∀ c, g ≠ .marked c
  | _, _, _ => True

/-- The same of an ack. -/
def Acked (g : OrderStage) : Except Exc OrderAck → Prop
  | .ok ack => ack.accepted = true → g = .linked ack.orderId ∨ g = .cached ack
  | .error _ => True

/-- The same of what `cancel` returns. -/
def Confirmed (g : OrderStage) : Except Exc Bool → Prop
  | .ok true => (∃ c, g = .marked c) ∨ g = .found none ∨ g = .found (some "")
  | _ => ∀ c, g ≠ .marked c

/-- What a look into `_acks` leads to. -/
def Looked (g g' : OrderStage) : Except Exc (Option OrderAck) → Prop
  | .ok none => g' = g
  | .ok (some ack) => g' = .cached ack
  | .error _ => True

end OrderStage

namespace Proof.Cancelling

open OrderStage

/-! ## 3. The calls keep to their stages -/

/-- A call that waits may post, if it may post this body, and goes on waiting if that fails. -/
theorem canPost_waiting {call : OrderCall} {path : String} {payload : Payload} {ambiguous : Bool}
    {f : OrderStage → PostOutcome → OrderStage}
    (hpost : ∀ headers, Asks call .waiting (.post path payload headers) ∧
      ∀ x, next call .waiting ⟨.post path payload headers, x⟩ = f .waiting x)
    (hunsent : f .waiting .connectFailed = .waiting)
    (hrefused : ∀ r e, parseToss r ambiguous = .error e → f .waiting (.answered r) = .waiting) :
    Posting.CanPost (next call) (Asks call) path payload ambiguous (· = .waiting) f
      (fun g _ => g) where
  authHeaders := by
    rintro _ rfl
    exact ⟨.authHeaders _, fun x => by cases call <;> cases x <;> rfl⟩
  invalidate := by
    rintro _ rfl
    exact ⟨.invalidate _, fun _ => by cases call <;> rfl⟩
  accountSeq := by
    rintro _ rfl
    exact ⟨.accountSeq _, fun x => by cases call <;> cases x <;> rfl⟩
  acquire := by
    rintro _ rfl
    exact ⟨.acquire _, fun _ => by cases call <;> rfl⟩
  post := by
    rintro _ rfl headers
    exact hpost headers
  unsent := by
    rintro _ rfl
    exact hunsent
  deadToken := by
    rintro _ rfl r e h -
    exact hrefused r e h

/-- An error of a `_post` leaves the call waiting. -/
theorem waiting_of_postEnd {ambiguous : Bool} {f : OrderStage → PostOutcome → OrderStage}
    (hsendFailed : f .waiting .sendFailed = .waiting)
    (hrefused : ∀ r e, parseToss r ambiguous = .error e → f .waiting (.answered r) = .waiting)
    {g : OrderStage} {e : Exc}
    (h : Posting.PostEnd ambiguous (· = .waiting) f (fun g _ => g) g (.error e)) :
    g = .waiting := by
  cases h with
  | refused hg hparse =>
    rw [hg]
    exact hrefused _ _ hparse
  | sendFailed hg _ _ =>
    rw [hg]
    exact hsendFailed
  | exhausted hg _ _ => exact hg
  | lost hg f => exact hg

section Place

variable {b : TossBroker} {req : OrderRequest}

/-- `place`'s discipline, with what holds at the end. -/
abbrev Places (b : TossBroker) (req : OrderRequest) {α : Type}
    (fin : OrderStage → Except Exc α → Prop) (p : Prog α) (g : OrderStage) : Prop :=
  Along (next (.place b req)) (Asks (.place b req)) fin p g

theorem out_of_parse_error {r : Response} {ambiguous : Bool} {e : TossError}
    (h : parseToss r ambiguous = .error e) (g : OrderStage) : g.out (.answered r) = g :=
  if_neg fun hnamed => (of_parseToss_error h).1 hnamed.1

theorem canPost_order (hc : req.clientOrderId ≠ "") :
    Posting.CanPost (next (.place b req)) (Asks (.place b req)) ordersPath
      (.order (buildBody req)) true (· = .waiting) out (fun g _ => g) :=
  canPost_waiting (fun headers => ⟨.order hc headers, fun _ => rfl⟩) rfl
    fun _ _ h => out_of_parse_error h _

/-- Before Toss named the order, no call of the ledger says anything. -/
theorem next_ledger (op : LedgerOp) (x : Reply) :
    next (.place b req) .waiting ⟨.ledger op, x⟩ = .waiting := by
  cases op <;> rfl

/-- A call of the ledger that knows no order id. -/
theorem places_blank {op : LedgerOp} (h : op.Blank) :
    Places b req (fun g _ => g = .waiting) (ledgerCall op) .waiting := by
  refine ⟨.blank h, fun x => ?_⟩
  rw [next_ledger]
  cases x with
  | raised e => exact rfl
  | done => exact rfl
  | verdict v => exact rfl

theorem places_unwind (reserved sellRecorded : Bool) :
    Places b req (fun _ _ => True) (TossBroker.unwind req reserved sellRecorded) .waiting := by
  have hrelease : Places b req (fun g _ => g = .waiting)
      (discard <| ledgerCall (.release req.clientOrderId)) .waiting :=
    .bind (places_blank (by simp [LedgerOp.Blank, LedgerOp.registers])) (fun _ _ h => h)
      fun _ _ h => h
  have hmark : Places b req (fun g _ => g = .waiting)
      (discard <| ledgerCall (.markOrderTerminal req.clientOrderId .REJECTED)) .waiting :=
    .bind (places_blank (by simp [LedgerOp.Blank, LedgerOp.registers])) (fun _ _ h => h)
      fun _ _ h => h
  have hsecond : Places b req (fun _ _ => True) (if sellRecorded then
      discard <| ledgerCall (.markOrderTerminal req.clientOrderId .REJECTED) else .ret ())
      .waiting := by
    cases sellRecorded with
    | false => exact trivial
    | true => exact .mono (fun _ _ _ => trivial) hmark
  unfold TossBroker.unwind
  split
  · exact trivial
  · cases reserved with
    | false => exact hsecond
    | true =>
      refine .bind hrelease (fun g _ hg => ?_) fun _ _ _ => trivial
      subst hg
      exact hsecond

/-- An `_unwind`, and then an end that is no acceptance. -/
theorem places_unwind_end (reserved sellRecorded : Bool) {k : Prog OrderAck}
    (hk : ∀ g, Places b req Acked k g) :
    Places b req Acked (do TossBroker.unwind req reserved sellRecorded; k) .waiting :=
  .bind (places_unwind reserved sellRecorded) (fun g _ _ => hk g) fun _ _ _ => trivial

theorem places_accept (hc : req.clientOrderId ≠ "") (reserved sellRecorded : Bool) {r : Response}
    (hr : r.Success) : Places b req Acked (b.accept req reserved sellRecorded r.result)
      (out .waiting (.answered r)) := by
  unfold TossBroker.accept
  dsimp only
  split
  · next ho =>
    have hout : out .waiting (.answered r) = .waiting := if_neg fun h => h.2 ho
    rw [hout]
    exact places_unwind_end reserved sellRecorded fun _ => trivial
  · next ho =>
    have hout : out .waiting (.answered r) = .named (orderIdIn r.result) := if_pos ⟨hr, ho⟩
    rw [hout]
    refine ⟨.record _ hc, fun x => ?_⟩
    cases x with
    | raised e => exact trivial
    | done => exact ⟨.cache _, fun _ _ => .inl rfl⟩
    | verdict v => exact ⟨.cache _, fun _ _ => .inl rfl⟩

theorem places_cached (g : OrderStage) :
    Places b req (Looked g) (b.cached req.clientOrderId) g := by
  unfold TossBroker.cached
  split
  · rfl
  · refine ⟨.look g, fun x => ?_⟩
    cases x with
    | none => rfl
    | some ack => rfl

theorem places_handleOrderError (reserved sellRecorded : Bool) (e : TossError) :
    Places b req Acked (b.handleOrderError e req reserved sellRecorded) .waiting := by
  unfold TossBroker.handleOrderError
  split
  · refine .bind (places_cached .waiting) (fun g x hlook => ?_) fun _ _ _ => trivial
    cases x with
    | none => exact trivial
    | some ack => exact fun _ => .inr hlook
  · split
    · refine places_unwind_end reserved sellRecorded fun _ => ?_
      exact fun h => absurd h (by simp [reject])
    · split
      · exact trivial
      · exact places_unwind_end reserved sellRecorded fun _ => trivial

theorem places_submit (hc : req.clientOrderId ≠ "") (reserved sellRecorded : Bool) :
    Places b req Acked (b.submit req reserved sellRecorded) .waiting := by
  refine .attempt ?_ ?_ (Posting.post_along (canPost_order hc) rfl)
  · intro g payload hend
    cases hend with
    | payload hg hr =>
      rw [hg]
      exact places_accept hc reserved sellRecorded hr
  · intro g e hend
    obtain rfl := waiting_of_postEnd rfl (fun _ _ h => out_of_parse_error h _) hend
    cases e with
    | toss e => exact places_handleOrderError reserved sellRecorded e
    | http => exact places_unwind_end reserved sellRecorded fun _ => trivial
    | python e => exact trivial
    | ledger e => exact trivial

/-- The question of a guard, and what follows from the answer. -/
theorem places_guard (hc : req.clientOrderId ≠ "") {op : LedgerOp} (hop : op.Blank)
    (reserved sellRecorded : Bool) (message : String) : Places b req Acked (do
      if (← ledgerCall op) = .verdict true then b.submit req reserved sellRecorded
      else .ret (reject req message)) .waiting := by
  refine .bind (places_blank hop) (fun g x hg => ?_) fun _ _ _ => trivial
  subst hg
  split
  · exact places_submit hc reserved sellRecorded
  · exact fun h => absurd h (by simp [reject])

theorem places_reject (message : String) (g : OrderStage) :
    Places b req Acked (.ret (reject req message)) g :=
  fun h => absurd h (by simp [reject])

/-- **An accepted ack is linked**, or was cached. -/
theorem place_asks (b : TossBroker) (req : OrderRequest) :
    Places b req Acked (b.place req) .waiting := by
  refine .bind (places_cached .waiting) (fun g x hlook => ?_) fun _ _ _ => trivial
  cases x with
  | some ack => exact fun _ => .inr hlook
  | none =>
    obtain rfl : g = .waiting := hlook
    show Places b req Acked (b.placeGuarded req) .waiting
    unfold TossBroker.placeGuarded
    split
    · unfold TossBroker.placeBuy
      split
      · exact places_reject _ _
      · split
        · exact places_reject _ _
        · next hc =>
          split
          · exact places_reject _ _
          · exact places_guard hc (by simp [LedgerOp.Blank, LedgerOp.registers]) _ _ _
    · unfold TossBroker.placeSell
      split
      · exact places_reject _ _
      · next hc =>
        split
        · exact places_reject _ _
        · exact places_guard hc (by simp [LedgerOp.Blank, LedgerOp.registers]) _ _ _

end Place

section Cancel

variable {b : TossBroker} {o : String}

theorem canPost_cancel : Posting.CanPost (next (.cancel b o)) (Asks (.cancel b o)) (cancelPath o)
    .empty false (· = .waiting) (fun g _ => g) (fun g _ => g) :=
  canPost_waiting (fun headers => ⟨.cancel headers, fun _ => rfl⟩) rfl fun _ _ _ => rfl

/-- **A cancellation that succeeded marked the order it found**, if it found one. -/
theorem cancel_asks (b : TossBroker) (o : String) :
    Along (next (.cancel b o)) (Asks (.cancel b o)) Confirmed (b.cancel o) .waiting := by
  refine .attempt ?_ ?_ (Posting.post_along canPost_cancel rfl)
  · intro g payload hend
    obtain rfl : g = .waiting := by
      cases hend with
      | payload hg _ => exact hg
    refine ⟨.lookUp, fun x => ?_⟩
    cases x with
    | none => exact .inr (.inl rfl)
    | some c =>
      show Along _ _ _ (if c = "" then _ else _) _
      split
      · next hc =>
        rw [hc]
        exact .inr (.inr rfl)
      · next hc =>
        refine ⟨.mark hc, fun x => ?_⟩
        cases x with
        | raised e => exact fun _ h => absurd h (by simp [next])
        | done => exact .inl ⟨c, rfl⟩
        | verdict v => exact .inl ⟨c, rfl⟩
  · intro g e hend
    obtain rfl := waiting_of_postEnd rfl (fun _ _ _ => rfl) hend
    cases e with
    | toss e =>
      show Along _ _ _ (if isBusinessRejection e then _ else _) _
      split
      · exact fun _ h => absurd h (by simp)
      · exact fun _ h => absurd h (by simp)
    | http => exact fun _ h => absurd h (by simp)
    | python e => exact fun _ h => absurd h (by simp)
    | ledger e => exact fun _ h => absurd h (by simp)

/-! Nothing else goes on in a `cancel`. -/

theorem requesting_ask (q : BrokerReq) : (ask q).Requesting := fun _ => trivial

theorem requesting_lookup {α : Type} (x : Except LookupFailure α) :
    (Prog.lookup x).Requesting := by
  cases x <;> exact trivial

theorem requesting_sendLoop {makeRequest : Prog PostOutcome} (h : makeRequest.Requesting)
    (ambiguous : Bool) (n : ℕ) : (b.sendLoop makeRequest ambiguous n).Requesting := by
  induction n with
  | zero => exact trivial
  | succ n ih =>
    refine .bind (requesting_ask .acquire) fun _ => .bind h fun x => ?_
    cases x with
    | answered r => exact trivial
    | sendFailed => exact trivial
    | connectFailed => exact ih

theorem requesting_reauth {send : String → Prog Response} (h : ∀ s, (send s).Requesting)
    (ambiguous : Bool) : (requestWithReauth send ambiguous).Requesting := by
  have hheaders : authHeaders.Requesting := fun x => requesting_lookup x
  unfold requestWithReauth
  refine .bind hheaders fun headers => .bind (h headers) fun r => ?_
  split
  · exact trivial
  · split
    · refine .bind (requesting_ask .invalidate) fun _ => .bind hheaders fun headers =>
        .bind (h headers) fun r => ?_
      split
      · exact trivial
      · exact trivial
    · exact trivial

theorem requesting_post (b : TossBroker) (path : String) (payload : Payload) (ambiguous : Bool) :
    (b.post path payload ambiguous).Requesting := by
  refine requesting_reauth (fun s => ?_) ambiguous
  have haccount : accountSeq.Requesting := fun x => requesting_lookup x
  exact .bind haccount fun account => requesting_sendLoop (requesting_ask _) ambiguous _

theorem requesting_ledgerCall (op : LedgerOp) : (ledgerCall op).Requesting := by
  refine .bind (requesting_ask (.ledger op)) fun x => ?_
  cases x with
  | raised e => exact trivial
  | done => exact trivial
  | verdict v => exact trivial

theorem requesting_cancel (b : TossBroker) (o : String) : (b.cancel o).Requesting := by
  unfold TossBroker.cancel
  apply Requesting.attempt ?_ ?_ (requesting_post b (cancelPath o) .empty false)
  · intro payload
    refine .bind (requesting_ask (.clientOrderIdFor o)) fun x => ?_
    cases x with
    | none => exact trivial
    | some c =>
      dsimp only
      split
      · exact trivial
      · exact .bind (.bind (requesting_ledgerCall _) fun _ => trivial) fun _ => trivial
  · intro e
    cases e with
    | toss e =>
      dsimp only
      split
      · exact trivial
      · exact trivial
    | http => exact trivial
    | python e => exact trivial
    | ledger e => exact trivial

end Cancel

/-- **Every call keeps to its stages.** -/
theorem call_asks (call : OrderCall) :
    Along (next call) (Asks call) (Ends call) call.run .waiting := by
  cases call with
  | place b req => exact .bind (place_asks b req) (fun _ _ h => h) fun _ _ _ => trivial
  | cancel b o =>
    refine .bind (cancel_asks b o) (fun g done h => ?_) fun _ _ h => h
    cases done with
    | false => exact h
    | true => exact h

end Proof.Cancelling

end TossSleeve
