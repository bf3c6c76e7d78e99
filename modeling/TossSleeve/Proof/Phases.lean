import TossSleeve.Proof.Posting
import TossSleeve.Lib.Pool

/-!
# `Proof/Phases.lean` — the phases of a `place`

What the cover of an order owes to `place` does not depend on how its retries are nested. Seen from
the ledger a call goes through few phases: it looks and asks (`guarding`); it holds a cover and
transmits (`covered`); a transmission ended in a way that leaves open whether Toss took the order
(`undecided`); it gave the cover back (`unwound`). `Permitted` says which requests a call can make
in which phase, and `place_follows` that `place` keeps to it, whatever it is answered.

That is all the later files know about the code of `place`. They put any number of calls into one
`World` — the ledger, the day, the caches of acks — and derive from the phases of the calls what the
ledger holds.
-/

set_option autoImplicit false

namespace TossSleeve

open Lib Lib.Proc

/-! ## 1. The world -/

/-- What the broker's calls act on. -/
structure World where
  ledger : InMemorySleeveLedger
  today : String
  /-- `_acks`, of each broker. -/
  acks : ℕ → String → Option OrderAck

namespace World

/-- Can this be the answer? The ledger and the caches answer for themselves; what comes over the
    network is anyone's guess. -/
def Gives (w : World) : Event BrokerReq.Resp → Prop
  | ⟨.cachedAck b c, x⟩ => x = w.acks b c
  | ⟨.ledger op, x⟩ => x = (w.ledger.step w.today op).2
  | ⟨.clientOrderIdFor o, x⟩ => x = w.ledger.clientOrderIdFor o
  | _ => True

/-- The world after a request was answered. -/
def after (w : World) : Event BrokerReq.Resp → World
  | ⟨.ledger op, _⟩ => { w with ledger := (w.ledger.step w.today op).1 }
  | ⟨.cacheAck b c ack, _⟩ =>
    { w with acks := fun b' c' => if b' = b ∧ c' = c then some ack else w.acks b' c' }
  | _ => w

/-- The answers of a concrete run: a POST ends as the script says, a lookup succeeds, a poll finds
    what Toss has. -/
def respond (w : World) (outcome : PostOutcome) (polled : Option Fill) :
    (q : BrokerReq) → q.Resp
  | .cachedAck b c => w.acks b c
  | .cacheAck _ _ _ => ()
  | .ledger op => (w.ledger.step w.today op).2
  | .clientOrderIdFor o => w.ledger.clientOrderIdFor o
  | .authHeaders => .ok "Bearer t"
  | .invalidate => ()
  | .accountSeq => .ok "7"
  | .acquire => ()
  | .post _ _ _ => outcome
  | .orderFill _ => .ok polled
  | .cachedToken => some "t"
  | .cacheToken _ => ()
  | .postToken => .connectFailed
  | .cachedAccountSeq => some "7"
  | .cacheAccountSeq _ => ()
  | .acquireRead => ()
  | .get _ _ _ _ => .connectFailed

theorem gives_respond (w : World) (outcome : PostOutcome) (polled : Option Fill)
    (q : BrokerReq) : w.Gives ⟨q, w.respond outcome polled q⟩ := by
  cases q <;> trivial

end World

/-! ## 2. Outcomes and phases -/

/-- The outcome says that Toss has not taken the order. -/
def PostOutcome.Definitive : PostOutcome → Prop
  | .connectFailed => True
  | .sendFailed => False
  | .answered r => r.Refuses

instance : DecidablePred PostOutcome.Definitive
  | .connectFailed => inferInstanceAs (Decidable True)
  | .sendFailed => inferInstanceAs (Decidable False)
  | .answered r => inferInstanceAs (Decidable r.Refuses)

inductive Phase where
  | guarding
  | covered
  | undecided (x : PostOutcome)
  /-- The cover was given back, after the outcome if one was open. -/
  | unwound (x : Option PostOutcome)

/-- What `_unwind` does to the ledger. -/
def unwindOp (req : OrderRequest) : LedgerOp :=
  match req.side with
  | .BUY => .release req.clientOrderId
  | .SELL => .markOrderTerminal req.clientOrderId .REJECTED

namespace Phase

def unwind : Phase → Phase
  | .undecided x => .unwound (some x)
  | .unwound x => .unwound x
  | _ => .unwound none

/-- How a request and its answer move a call of `place req`. -/
def next (req : OrderRequest) (p : Phase) : Event BrokerReq.Resp → Phase
  | ⟨.post _ _ _, x⟩ => if x.Definitive then p else .undecided x
  | ⟨.ledger op, reply⟩ =>
    if op = unwindOp req then p.unwind
    else match p, reply with
      | .guarding, .verdict true => .covered
      | p, _ => p
  | _ => p

/-- The phases in which a call holds a cover. -/
def Holds : Phase → Prop
  | .covered => True
  | .undecided _ => True
  | _ => False

end Phase

/-- The order id a success names; `""` if none. -/
def Response.orderId (r : Response) : String := orderIdIn r.result

/-- The guard's question to the ledger, which takes the cover if the answer is yes. -/
inductive Covers (b : TossBroker) (req : OrderRequest) : LedgerOp → Prop
  | reserve {amount : Decimal} (hside : req.side = .BUY) (hdeny : req.ticker ∉ b.denylist)
      (hamount : reserveAmount req = some amount) :
      Covers b req (.reserve req.clientOrderId amount req.currency)
  | reserveSell {quantity : Decimal} (hside : req.side = .SELL)
      (hquantity : req.quantity = some quantity) :
      Covers b req (.reserveSell req.clientOrderId "" req.ticker req.currency quantity)

/-- A success that names no order id. -/
def PostOutcome.Nameless : PostOutcome → Prop
  | .answered r => r.Success ∧ r.orderId = ""
  | _ => False

instance : DecidablePred PostOutcome.Nameless
  | .connectFailed => inferInstanceAs (Decidable False)
  | .sendFailed => inferInstanceAs (Decidable False)
  | .answered r => inferInstanceAs (Decidable (r.Success ∧ r.orderId = ""))

/-- What a call of `place req` asks for, phase by phase. -/
inductive Permitted (b : TossBroker) (req : OrderRequest) : Phase → BrokerReq → Prop
  | look (p : Phase) : Permitted b req p (.cachedAck b.id req.clientOrderId)
  | cover {op : LedgerOp} (hc : req.clientOrderId ≠ "") (h : Covers b req op) :
      Permitted b req .guarding (.ledger op)
  | authHeaders : Permitted b req .covered .authHeaders
  | invalidate : Permitted b req .covered .invalidate
  | accountSeq : Permitted b req .covered .accountSeq
  | acquire : Permitted b req .covered .acquire
  | post (headers : Headers) :
      Permitted b req .covered (.post ordersPath (.order (buildBody req)) headers)
  | unwind : Permitted b req .covered (.ledger (unwindOp req))
  | unwindLost {x : PostOutcome} (hx : x.Nameless) :
      Permitted b req (.undecided x) (.ledger (unwindOp req))
  | record {r : Response} (hr : r.Success) (ho : r.orderId ≠ "") :
      Permitted b req (.undecided (.answered r)) (.ledger (.recordOrder req.clientOrderId r.orderId
        req.ticker req.side req.currency (req.quantity.getD 0)))
  | cache {r : Response} (hr : r.Success) (ho : r.orderId ≠ "") (ack : OrderAck) :
      Permitted b req (.undecided (.answered r)) (.cacheAck b.id req.clientOrderId ack)

/-! ## 3. `place` keeps to its phases -/

namespace Proof

variable {b : TossBroker} {req : OrderRequest}

/-- `place`'s discipline, with what holds at the end. -/
abbrev Follows (b : TossBroker) (req : OrderRequest) {α : Type} (fin : Phase → Except Exc α → Prop)
    (p : Prog α) (g : Phase) : Prop :=
  Along (Phase.next req) (Permitted b req) fin p g

abbrev anyEnd {α : Type} : Phase → Except Exc α → Prop := fun _ _ => True

theorem Follows.at {α : Type} {fin : Phase → Except Exc α → Prop} {p : Prog α} {g g' : Phase}
    (h : g' = g) (hp : Follows b req fin p g) : Follows b req fin p g' := h ▸ hp

/-- A dead token is a refusal. -/
theorem refuses_of_invalidToken {r : Response} {ambiguous : Bool} {e : TossError}
    (hparse : parseToss r ambiguous = .error e) (h : e.InvalidToken) : r.Refuses := by
  obtain ⟨hstatus, hcode⟩ := of_decide_eq_true (turnedAway_of_invalidToken hparse h)
  have hno : ¬ r.Success := (of_parseToss_error hparse).1
  refine ⟨hno, fun hnull => ?_, by omega, by omega, by omega⟩
  -- A body that is `None` has no code.
  have hnone : errorField r "code" = none := by
    unfold errorField
    cases hbody : jsonOrNone r with
    | null => rfl
    | bool _ => rfl
    | num _ => rfl
    | str _ => rfl
    | arr _ => rfl
    | obj fields => rw [hbody] at hnull; exact absurd hnull Bool.false_ne_true
  rw [hnone] at hcode
  exact absurd hcode nofun

/-- A `_post` that did not return left the matter open only with an error that says so. -/
def PostPhase (p : Phase) : Except Exc Json → Prop
  | .ok payload => ∃ r, r.Success ∧ payload = r.result ∧ p = .undecided (.answered r)
  | .error e => p = .covered ∨ ∃ x, p = .undecided x ∧
      ∃ err, e = .toss err ∧ (err.status = some 409 ∨ err.cls = .ambiguous)

/-- Where an outcome leads from a covered phase. -/
def outcomePhase (x : PostOutcome) : Phase := if x.Definitive then .covered else .undecided x

/-- A covered call may post its body, and stays covered if a lookup fails. -/
theorem canPost_covered : Posting.CanPost (Phase.next req) (Permitted b req) ordersPath
    (.order (buildBody req)) true (· = .covered) (fun _ => outcomePhase) (fun p _ => p) where
  authHeaders := by rintro _ rfl; exact ⟨.authHeaders, fun x => by cases x <;> rfl⟩
  invalidate := by rintro _ rfl; exact ⟨.invalidate, fun _ => rfl⟩
  accountSeq := by rintro _ rfl; exact ⟨.accountSeq, fun x => by cases x <;> rfl⟩
  acquire := by rintro _ rfl; exact ⟨.acquire, fun _ => rfl⟩
  post := by rintro _ rfl headers; exact ⟨.post headers, fun _ => rfl⟩
  unsent _ _ := rfl
  deadToken _ _ _ _ hparse htoken := if_pos (refuses_of_invalidToken hparse htoken)

/-- An answer that `parse_toss` takes for an error, and that is no refusal, leaves an error that
    says so. -/
theorem open_of_not_refuses {r : Response} {e : TossError} (hparse : parseToss r true = .error e)
    (hrefuses : ¬ r.Refuses) : e.status = some 409 ∨ e.cls = .ambiguous := by
  obtain ⟨hs, hof⟩ := of_parseToss_error hparse
  rw [hof.status, Option.some.injEq, hof.ambiguous, hof.transport]
  by_contra hcon
  rw [not_or, not_and_or, not_or, not_or] at hcon
  obtain ⟨h409, habs | ⟨h500, h429, hnull⟩⟩ := hcon
  · exact habs rfl
  · exact hrefuses ⟨hs, hnull, not_le.mp h500, h409, h429⟩

theorem postPhase_of_postEnd {p : Phase} {x : Except Exc Json}
    (h : Posting.PostEnd true (· = .covered) (fun _ => outcomePhase) (fun p _ => p) p x) :
    PostPhase p x := by
  cases h with
  | @payload _ _ r hs => exact ⟨r, hs, rfl, if_neg fun hrefuses => hrefuses.1 hs⟩
  | @refused _ _ r e hparse =>
    by_cases hrefuses : r.Refuses
    · exact .inl (if_pos hrefuses)
    · exact .inr ⟨_, if_neg hrefuses, e, rfl, open_of_not_refuses hparse hrefuses⟩
  | @sendFailed _ _ e hcls => exact .inr ⟨_, rfl, e, rfl, .inr hcls⟩
  | exhausted hg => exact .inl hg
  | lost hg => exact .inl hg

theorem post_follows : Follows b req PostPhase
    (b.post ordersPath (.order (buildBody req)) true) .covered :=
  .mono (fun _ _ h => postPhase_of_postEnd h) (Posting.post_along canPost_covered rfl)

theorem unwindOp_eq_of_buy (h : req.side = .BUY) : unwindOp req = .release req.clientOrderId := by
  rw [unwindOp, h]

theorem unwindOp_eq_of_sell (h : req.side = .SELL) :
    unwindOp req = .markOrderTerminal req.clientOrderId .REJECTED := by
  rw [unwindOp, h]

/-- A guard asks for nothing that `_unwind` does. -/
theorem covers_ne_unwindOp {op : LedgerOp} (h : Covers b req op) : op ≠ unwindOp req := by
  unfold unwindOp
  cases h with
  | reserve hside _ _ => rw [hside]; exact nofun
  | reserveSell hside _ => rw [hside]; exact nofun

theorem recordOrder_ne_unwindOp (c o sym : String) (side : OrderSide) (cur : Currency)
    (q : Decimal) : .recordOrder c o sym side cur q ≠ unwindOp req := by
  unfold unwindOp
  split <;> exact nofun

/-- A guard that says yes covers the call. -/
theorem next_cover {op : LedgerOp} (h : Covers b req op) (reply : Reply) :
    Phase.next req .guarding ⟨.ledger op, reply⟩ =
      if reply = .verdict true then .covered else .guarding := by
  show (if op = unwindOp req then _ else _) = _
  rw [if_neg (covers_ne_unwindOp h)]
  rcases reply with _ | v | e
  · rfl
  · cases v <;> rfl
  · rfl

/-- A recording moves no phase, whatever the ledger replies. -/
theorem next_record (x : PostOutcome) (c o sym : String) (side : OrderSide) (cur : Currency)
    (q : Decimal) (reply : Reply) :
    Phase.next req (.undecided x) ⟨.ledger (.recordOrder c o sym side cur q), reply⟩ =
      .undecided x := by
  show (if _ = unwindOp req then _ else _) = _
  rw [if_neg (recordOrder_ne_unwindOp c o sym side cur q)]

theorem next_unwind (p : Phase) (reply : Reply) :
    Phase.next req p ⟨.ledger (unwindOp req), reply⟩ = p.unwind := if_pos rfl

/-- The two flags of `place`, in the only ways it sets them. -/
def Flags (req : OrderRequest) (reserved sellRecorded : Bool) : Prop :=
  (req.side = .BUY ∧ reserved = true ∧ sellRecorded = false) ∨
    (req.side = .SELL ∧ reserved = false ∧ sellRecorded = true)

theorem unwind_follows {reserved sellRecorded : Bool} (hflags : Flags req reserved sellRecorded)
    {p : Phase} (hp : Permitted b req p (.ledger (unwindOp req))) :
    Follows b req anyEnd (TossBroker.unwind req reserved sellRecorded) p := by
  have hcall : Follows b req anyEnd (discard <| ledgerCall (unwindOp req)) p := by
    refine ⟨hp, fun x => ?_⟩
    cases x <;> exact trivial
  unfold TossBroker.unwind
  split
  · exact trivial
  · rcases hflags with ⟨hside, rfl, rfl⟩ | ⟨hside, rfl, rfl⟩
    · rw [unwindOp_eq_of_buy hside] at hcall
      exact .bind hcall (fun _ _ _ => trivial) (fun _ _ _ => trivial)
    · rw [unwindOp_eq_of_sell hside] at hcall
      exact hcall

/-- An `_unwind` and then the end of the call. -/
theorem unwind_end_follows {reserved sellRecorded : Bool} (hflags : Flags req reserved sellRecorded)
    {p : Phase} (hp : Permitted b req p (.ledger (unwindOp req))) {k : Prog OrderAck}
    (hk : ∀ p, Follows b req anyEnd k p) :
    Follows b req anyEnd (do TossBroker.unwind req reserved sellRecorded; k) p :=
  .bind (unwind_follows hflags hp) (fun p _ _ => hk p) (fun _ _ _ => trivial)

theorem accept_follows {reserved sellRecorded : Bool} (hflags : Flags req reserved sellRecorded)
    {r : Response} (hr : r.Success) :
    Follows b req anyEnd (b.accept req reserved sellRecorded r.result)
      (.undecided (.answered r)) := by
  unfold TossBroker.accept
  dsimp only
  split
  · next ho =>
    have hlost : (PostOutcome.answered r).Nameless := ⟨hr, ho⟩
    exact unwind_end_follows hflags (.unwindLost hlost) (fun _ => trivial)
  · next ho =>
    split
    · exact trivial
    · refine ⟨.record hr ho, fun x => ?_⟩
      refine Follows.at (next_record (.answered r) _ _ _ _ _ _ x) ?_
      cases x with
      | raised e => exact trivial
      | done => exact ⟨.cache hr ho _, fun _ => trivial⟩
      | verdict v => exact ⟨.cache hr ho _, fun _ => trivial⟩

theorem cached_follows (p : Phase) :
    Follows b req (fun p' r => p' = p ∧ ∃ ack, r = .ok ack) (b.cached req.clientOrderId) p := by
  unfold TossBroker.cached
  split
  · exact ⟨rfl, _, rfl⟩
  · exact ⟨.look p, fun x => ⟨rfl, _, rfl⟩⟩

/-- The dispatch of an error: it gives the cover back only from a covered phase, or from one that
    the error does not leave open. -/
theorem handleOrderError_follows {reserved sellRecorded : Bool}
    (hflags : Flags req reserved sellRecorded) {e : TossError} {p : Phase}
    (hp : PostPhase p (.error (.toss e))) :
    Follows b req anyEnd (b.handleOrderError e req reserved sellRecorded) p := by
  unfold TossBroker.handleOrderError
  split
  · refine .bind (cached_follows p) (fun p' ack hp => ?_) (fun _ _ _ => trivial)
    cases ack <;> exact trivial
  · next h409 =>
    have hunwind : e.cls ≠ .ambiguous → Permitted b req p (.ledger (unwindOp req)) := by
      intro hcls
      rcases hp with rfl | ⟨x, rfl, err, herr, hopen⟩
      · exact .unwind
      · obtain rfl := Exc.toss.inj herr
        rcases hopen with h | h
        · exact absurd h h409
        · exact absurd h hcls
    split
    · next hbusiness =>
      have hcls : e.cls ≠ .ambiguous := by simp [cls_of_isBusinessRejection hbusiness]
      exact unwind_end_follows hflags (hunwind hcls) (fun _ => trivial)
    · split
      · exact trivial
      · next hcls => exact unwind_end_follows hflags (hunwind hcls) (fun _ => trivial)

theorem submit_follows {reserved sellRecorded : Bool} (hflags : Flags req reserved sellRecorded) :
    Follows b req anyEnd (b.submit req reserved sellRecorded) .covered := by
  refine .attempt (fun p payload hp => ?_) (fun p e hp => ?_)
    post_follows
  · obtain ⟨r, hr, rfl, rfl⟩ := hp
    exact accept_follows hflags hr
  · cases e with
    | toss e => exact handleOrderError_follows hflags hp
    | http =>
      rcases hp with rfl | ⟨x, -, err, habs, -⟩
      · exact unwind_end_follows hflags .unwind (fun _ => trivial)
      · exact absurd habs nofun
    | python e => exact trivial
    | ledger e => exact trivial

/-- The question of a guard, and what follows from the answer. -/
theorem guard_follows {op : LedgerOp} {reserved sellRecorded : Bool} (message : String)
    (hc : req.clientOrderId ≠ "") (hop : Covers b req op)
    (hflags : Flags req reserved sellRecorded) : Follows b req anyEnd (do
      if (← ledgerCall op) = .verdict true then b.submit req reserved sellRecorded
      else .ret (reject req message)) .guarding := by
  refine ⟨.cover hc hop, fun x => ?_⟩
  cases x with
  | done => exact trivial
  | raised e => exact trivial
  | verdict v =>
    cases v with
    | false => exact trivial
    | true => exact Follows.at ((next_cover hop _).trans (if_pos rfl)) (submit_follows hflags)

/-- **`place` keeps to its phases.** -/
theorem place_follows (b : TossBroker) (req : OrderRequest) :
    Follows b req anyEnd (b.place req) .guarding := by
  refine .bind (cached_follows .guarding) (fun p ack hp => ?_) (fun _ _ _ => trivial)
  obtain ⟨rfl, -⟩ := hp
  cases ack with
  | some ack => exact trivial
  | none =>
    show Follows b req anyEnd (b.placeGuarded req) .guarding
    unfold TossBroker.placeGuarded
    split
    · next hside =>
      unfold TossBroker.placeBuy
      split
      · exact trivial
      · next hdeny =>
        split
        · exact trivial
        · next hc =>
          split
          · exact trivial
          · next amount hamount =>
            exact guard_follows _ hc (.reserve hside hdeny hamount) (.inl ⟨hside, rfl, rfl⟩)
    · next hside =>
      unfold TossBroker.placeSell
      split
      · exact trivial
      · next hc =>
        split
        · exact trivial
        · next quantity hquantity =>
          exact guard_follows _ hc (.reserveSell hside hquantity) (.inr ⟨hside, rfl, rfl⟩)

end Proof

end TossSleeve
