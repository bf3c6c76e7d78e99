import TossSleeve.Proof.Cover

/-!
# `Proof/Outcomes.lean` — what a `place` leaves behind

A call of `place` takes a cover before it sends anything, and whether it gives the cover back
depends on how it ends. That the cover is there while the order may be live is in
`Proof/Cover.lean`. A caller asks the other question: the call is over, it returned an ack or raised
this or that; what is on the ledger now? If a reservation stays behind under an order that was never
sent, the cash is gone until somebody notices; if none stays behind under an order that may be live,
the cap is gone.

The answer is a function of where the call stands (`Standing.entry`): the reservation and the row
under its id, column by column. So each of the ways a call can end says what the ledger holds
(`Tells`), and one of them is no good: an exception nobody thought of leaves the cover behind, and
the caller does not learn whether the order was sent.
-/

set_option autoImplicit false

namespace TossSleeve

open Lib Lib.Proc InMemorySleeveLedger

/-! ## 1. Where a call stands -/

/-- What a call of `place` has seen, and what it has done. -/
structure Standing where
  phase : Phase
  /-- The ack it found in `_acks`. -/
  told : Option OrderAck := none
  /-- The order id it recorded. -/
  recorded : Option String := none
  /-- The ack it put into `_acks`. -/
  kept : Option OrderAck := none
  /-- What the ledger raised. -/
  failed : Option LedgerError := none

/-- The order id of a `record_order`. -/
def LedgerOp.links : LedgerOp → Option String
  | .recordOrder _ orderId _ _ _ _ => some orderId
  | _ => none

def Reply.error : Reply → Option LedgerError
  | .raised e => some e
  | _ => none

namespace Standing

def next (req : OrderRequest) (g : Standing) : Event BrokerReq.Resp → Standing
  | ⟨.cachedAck _ _, x⟩ => { g with told := x.or g.told }
  | ⟨.cacheAck _ _ ack, _⟩ => { g with kept := some ack }
  | ⟨.ledger op, reply⟩ => { g with
      phase := g.phase.next req ⟨.ledger op, reply⟩
      recorded := op.links.or g.recorded
      failed := reply.error.or g.failed }
  | e => { g with phase := g.phase.next req e }

/-- What a call asks for: what its phase permits, and after the recording only to cache the ack. -/
structure Asks (b : TossBroker) (req : OrderRequest) (g : Standing) (q : BrokerReq) : Prop where
  permitted : Permitted b req g.phase q
  recorded : g.recorded.isSome → ∃ ack, q = .cacheAck b.id req.clientOrderId ack
  kept : g.kept = none

/-- What an end says of the standing it was reached in. -/
def Ends (g : Standing) : Except Exc OrderAck → Prop
  | .ok ack => g.told = some ack ∨ (ack.accepted = false ∧ ¬ g.phase.Holds) ∨
      (ack.accepted = true ∧ g.phase.Holds ∧ g.recorded = some ack.orderId ∧ g.kept = some ack)
  | .error (.toss e) => e.cls = .ambiguous ↔ g.phase.Holds
  | .error .http => False
  | .error (.python _) => g.phase.Holds
  | .error (.ledger e) => g.failed = some e

/-- The row of the request, under an order id. -/
def row (req : OrderRequest) (orderId : String) (status : OrderStatus) : Order :=
  { orderId, symbol := req.ticker, side := req.side, currency := req.currency
    quantity := req.quantity.getD 0, status }

/-- The reservation under the id of the request. -/
def reservation (req : OrderRequest) (p : Phase) : Option (Currency × Decimal) :=
  match req.side, p with
  | .BUY, .covered => (reserveAmount req).map (req.currency, ·)
  | .BUY, .undecided _ => (reserveAmount req).map (req.currency, ·)
  | _, _ => none

/-- The row under the id of the request. -/
def order (req : OrderRequest) (p : Phase) (recorded : Option String) : Option Order :=
  match recorded, req.side, p with
  | some o, _, _ => some (row req o .PENDING)
  | none, .SELL, .covered => some (row req "" .PENDING)
  | none, .SELL, .undecided _ => some (row req "" .PENDING)
  | none, .SELL, .unwound _ => some (row req "" .REJECTED)
  | none, _, _ => none

/-- **What the ledger holds under the id of the request**: the reservation, and the row. -/
def entry (req : OrderRequest) : Option Standing → Option (Currency × Decimal) × Option Order
  | none => (none, none)
  | some g => (reservation req g.phase, order req g.phase g.recorded)

end Standing

/-- What the ledger holds under an id. -/
def InMemorySleeveLedger.entry (l : InMemorySleeveLedger) (c : String) :
    Option (Currency × Decimal) × Option Order :=
  (l.reserved.get? c, l.orders.get? c)

/-- Nothing is held for the request, and its row, if there is one, is closed. -/
def Uncovered (l : InMemorySleeveLedger) (req : OrderRequest) : Prop :=
  l.reserved.get? req.clientOrderId = none ∧
    ∀ o, l.orders.get? req.clientOrderId = some o → o.status = .REJECTED

/-- **What the end of a call says of the ledger.** -/
inductive Tells (b : TossBroker) (w : World) (req : OrderRequest) : Except Exc OrderAck → Prop
  | accepted {ack : OrderAck} (hacc : ack.accepted = true) (hcovered : Covered w.ledger req)
      (hrow : w.ledger.orders.get? req.clientOrderId = some (Standing.row req ack.orderId .PENDING))
      (hack : w.acks b.id req.clientOrderId = some ack) : Tells b w req (.ok ack)
  | rejected {ack : OrderAck} (hacc : ack.accepted = false) (h : Uncovered w.ledger req) :
      Tells b w req (.ok ack)
  /-- The order may be live. -/
  | ambiguous {e : TossError} (hcls : e.cls = .ambiguous) (h : Covered w.ledger req) :
      Tells b w req (.error (.toss e))
  | failed {e : TossError} (hcls : e.cls ≠ .ambiguous) (h : Uncovered w.ledger req) :
      Tells b w req (.error (.toss e))
  /-- Nobody thought of this one, and the cover stays. -/
  | python {e : PyError} (h : Covered w.ledger req) : Tells b w req (.error (.python e))

/-- Calls of `place` on one broker, one for each request, while others use the ledger under other
    ids. -/
def placingAmid {ι : Type} (b : TossBroker) (req : ι → OrderRequest) :
    Pool World ι BrokerReq.Resp Exc OrderAck where
  program i := b.place (req i)
  Answer w _ e w' := w.Gives e ∧ w' = w.after e
  Env w w' := ∃ op today, (∀ i, ¬ LedgerOp.Concerns (req i).clientOrderId op) ∧
    w' = { w with ledger := (w.ledger.step w.today op).1, today }

/-- The ids of the requests have not been used. -/
def World.Fresh {ι : Type} (b : TossBroker) (req : ι → OrderRequest) (w : World) : Prop :=
  ∀ i, w.ledger.entry (req i).clientOrderId = (none, none) ∧
    w.acks b.id (req i).clientOrderId = none

namespace Proof.Outcomes

open Standing

variable {b : TossBroker} {req : OrderRequest}

/-! ## 2. `place` keeps to its standing -/

abbrev Stands (b : TossBroker) (req : OrderRequest) {α : Type} (fin : Standing → Except Exc α → Prop)
    (p : Prog α) (g : Standing) : Prop :=
  Along (next req) (Asks b req) fin p g

/-- A call in this phase that has found, recorded and cached nothing. -/
abbrev inPhase (p : Phase) : Standing := { phase := p }

theorem asks_at {p : Phase} {q : BrokerReq} (h : Permitted b req p q) : Asks b req (inPhase p) q :=
  ⟨h, fun hr => absurd hr (by simp), rfl⟩

theorem canPost_at : Posting.CanPost (next req) (Asks b req) ordersPath (.order (buildBody req)) true
    (· = inPhase .covered) (fun _ x => inPhase (outcomePhase x)) (fun g _ => g) where
  authHeaders := by
    rintro _ rfl
    exact ⟨asks_at .authHeaders, fun x => by cases x <;> rfl⟩
  invalidate := by
    rintro _ rfl
    exact ⟨asks_at .invalidate, fun _ => rfl⟩
  accountSeq := by
    rintro _ rfl
    exact ⟨asks_at .accountSeq, fun x => by cases x <;> rfl⟩
  acquire := by
    rintro _ rfl
    exact ⟨asks_at .acquire, fun _ => rfl⟩
  post := by
    rintro _ rfl headers
    exact ⟨asks_at (.post headers), fun _ => rfl⟩
  unsent := by
    rintro _ rfl
    rfl
  deadToken := by
    rintro _ rfl r e hparse htoken
    exact congrArg inPhase (if_pos (refuses_of_invalidToken hparse htoken))

/-- Where a `_post` ends, there has been nothing but phases. -/
theorem of_postEnd {g : Standing} {x : Except Exc Json}
    (h : Posting.PostEnd true (· = inPhase .covered) (fun _ x => inPhase (outcomePhase x))
      (fun g _ => g) g x) :
    ∃ p, g = inPhase p ∧ PostPhase p x ∧ ∀ e, x ≠ .error (.ledger e) := by
  cases h with
  | @payload _ _ r hs =>
    exact ⟨_, rfl, ⟨r, hs, rfl, if_neg fun hrefuses => hrefuses.1 hs⟩, fun _ => by simp⟩
  | @refused _ _ r e hparse =>
    refine ⟨_, rfl, ?_, fun _ => by simp⟩
    by_cases hrefuses : r.Refuses
    · exact .inl (if_pos hrefuses)
    · exact .inr ⟨_, if_neg hrefuses, e, rfl, open_of_not_refuses hparse hrefuses⟩
  | @sendFailed _ _ e hcls =>
    exact ⟨_, rfl, .inr ⟨_, rfl, e, rfl, .inr hcls⟩, fun _ => by simp⟩
  | exhausted hg => exact ⟨_, hg, .inl rfl, fun _ => by simp⟩
  | lost hg f => exact ⟨_, hg, .inl rfl, fun _ => by cases f <;> simp [LookupFailure.exc]⟩

theorem stands_unwind (hc : req.clientOrderId ≠ "") {reserved sellRecorded : Bool}
    (hflags : Flags req reserved sellRecorded) {p : Phase}
    (hp : Permitted b req p (.ledger (unwindOp req))) :
    Stands b req (fun g r => match r with
      | .ok _ => g.phase = p.unwind
      | .error e => Ends g (.error e)) (TossBroker.unwind req reserved sellRecorded) (inPhase p) := by
  have hcall : Stands b req (fun g r => match r with
      | .ok _ => g.phase = p.unwind
      | .error e => Ends g (.error e)) (discard <| ledgerCall (unwindOp req)) (inPhase p) := by
    refine ⟨asks_at hp, fun x => ?_⟩
    cases x with
    | done => exact next_unwind p _
    | verdict v => exact next_unwind p _
    | raised e => exact rfl
  unfold TossBroker.unwind
  rw [if_neg hc]
  rcases hflags with ⟨hside, rfl, rfl⟩ | ⟨hside, rfl, rfl⟩
  · rw [unwindOp_eq_of_buy hside] at hcall
    exact .bind hcall (fun _ _ h => h) (fun _ _ h => h)
  · rw [unwindOp_eq_of_sell hside] at hcall
    exact hcall

/-- An `_unwind`, and then the end of the call. -/
theorem stands_unwind_end (hc : req.clientOrderId ≠ "") {reserved sellRecorded : Bool}
    (hflags : Flags req reserved sellRecorded) {p : Phase}
    (hp : Permitted b req p (.ledger (unwindOp req))) {k : Prog OrderAck}
    (hk : ∀ g : Standing, g.phase = p.unwind → Stands b req Ends k g) :
    Stands b req Ends (do TossBroker.unwind req reserved sellRecorded; k) (inPhase p) :=
  .bind (stands_unwind hc hflags hp) (fun g _ hg => hk g hg) (fun _ _ he => he)

/-- A cover that was given back is not held. -/
theorem not_holds_unwind (p : Phase) : ¬ p.unwind.Holds := by
  cases p <;> exact id

theorem stands_reject {g : Standing} (hg : ¬ g.phase.Holds) (message : String) :
    Stands b req Ends (.ret (reject req message)) g :=
  .inr (.inl ⟨rfl, hg⟩)

theorem stands_accept (hc : req.clientOrderId ≠ "") {reserved sellRecorded : Bool}
    (hflags : Flags req reserved sellRecorded) {r : Response} (hr : r.Success) :
    Stands b req Ends (b.accept req reserved sellRecorded r.result)
      (inPhase (.undecided (.answered r))) := by
  unfold TossBroker.accept
  dsimp only
  split
  · next ho =>
    have hlost : (PostOutcome.answered r).Nameless := ⟨hr, ho⟩
    refine stands_unwind_end hc hflags (.unwindLost hlost) fun g hg => ?_
    refine ⟨fun h => absurd h (by simp), fun h => ?_⟩
    rw [hg] at h
    exact absurd h (not_holds_unwind _)
  · next ho =>
    refine ⟨asks_at (.record hr ho), fun x => ?_⟩
    have hnext : next req (inPhase (.undecided (.answered r))) ⟨.ledger (.recordOrder
        req.clientOrderId (orderIdIn r.result) req.ticker req.side req.currency
        (req.quantity.getD 0)), x⟩ = { phase := .undecided (.answered r)
                                       recorded := some (orderIdIn r.result), failed := x.error } := by
      simp only [next, next_record, LedgerOp.links, Option.or_none]
    have hcache : ∀ ack : OrderAck, ack.accepted = true → ack.orderId = orderIdIn r.result →
        Stands b req Ends (do ask (.cacheAck b.id req.clientOrderId ack); .ret ack)
          { phase := .undecided (.answered r), recorded := some (orderIdIn r.result)
            failed := x.error } := by
      intro ack hacc hack
      have hasks : Asks b req { phase := .undecided (.answered r)
                                recorded := some (orderIdIn r.result)
                                failed := x.error } (.cacheAck b.id req.clientOrderId ack) :=
        ⟨.cache hr ho ack, fun _ => ⟨ack, rfl⟩, rfl⟩
      exact ⟨hasks, fun _ => .inr (.inr ⟨hacc, trivial, congrArg some hack.symm, rfl⟩)⟩
    rw [← hnext] at hcache
    cases x with
    | raised e => exact rfl
    | done => exact hcache _ rfl rfl
    | verdict v => exact hcache _ rfl rfl

theorem stands_cached (p : Phase) :
    Stands b req (fun g r => g.phase = p ∧ match r with
      | .ok (some ack) => g.told = some ack
      | .ok none => g = inPhase p
      | .error _ => False) (b.cached req.clientOrderId) (inPhase p) := by
  unfold TossBroker.cached
  split
  · exact ⟨rfl, rfl⟩
  · refine ⟨asks_at (.look p), fun x => ?_⟩
    cases x with
    | none => exact ⟨rfl, rfl⟩
    | some ack => exact ⟨rfl, rfl⟩

/-- An error of the transmission is dispatched: the ambiguous ones keep the cover. -/
theorem stands_handleOrderError (hc : req.clientOrderId ≠ "") {reserved sellRecorded : Bool}
    (hflags : Flags req reserved sellRecorded) {e : TossError} {p : Phase}
    (hp : PostPhase p (.error (.toss e))) :
    Stands b req Ends (b.handleOrderError e req reserved sellRecorded) (inPhase p) := by
  have hholds : p.Holds := by
    rcases hp with rfl | ⟨x, rfl, -⟩
    · exact trivial
    · exact trivial
  unfold TossBroker.handleOrderError
  split
  · refine .bind (stands_cached p) (fun g ack hg => ?_) (fun _ _ h => h.2.elim)
    cases ack with
    | some ack => exact .inl hg.2
    | none =>
      refine ⟨fun _ => ?_, fun _ => rfl⟩
      rw [hg.1]
      exact hholds
  · next h409 =>
    have hunwind : e.cls ≠ .ambiguous → Permitted b req p (.ledger (unwindOp req)) := by
      intro hcls
      rcases hp with rfl | ⟨x, rfl, err, herr, hopen⟩
      · exact .unwind
      · obtain rfl := Exc.toss.inj herr
        rcases hopen with h | h
        · exact absurd h h409
        · exact absurd h hcls
    split
    · next hbusiness =>
      have hcls : e.cls ≠ .ambiguous := by simp [cls_of_isBusinessRejection hbusiness]
      refine stands_unwind_end hc hflags (hunwind hcls) fun g hg => stands_reject ?_ _
      rw [hg]
      exact not_holds_unwind p
    · split
      · next hcls => exact ⟨fun _ => hholds, fun _ => hcls⟩
      · next hcls =>
        refine stands_unwind_end hc hflags (hunwind hcls) fun g hg => ?_
        refine ⟨fun h => absurd h hcls, fun h => ?_⟩
        rw [hg] at h
        exact absurd h (not_holds_unwind p)

theorem stands_submit (hc : req.clientOrderId ≠ "") {reserved sellRecorded : Bool}
    (hflags : Flags req reserved sellRecorded) :
    Stands b req Ends (b.submit req reserved sellRecorded) (inPhase .covered) := by
  refine .attempt (fun g payload hend => ?_) (fun g e hend => ?_) (Posting.post_along canPost_at rfl)
  · obtain ⟨p, rfl, ⟨r, hr, rfl, rfl⟩, -⟩ := of_postEnd hend
    exact stands_accept hc hflags hr
  · obtain ⟨p, rfl, hp, hledger⟩ := of_postEnd hend
    cases e with
    | toss e => exact stands_handleOrderError hc hflags hp
    | http =>
      rcases hp with rfl | ⟨x, -, err, habs, -⟩
      · refine stands_unwind_end hc hflags .unwind fun g hg => ?_
        refine ⟨fun h => absurd h (by simp), fun h => ?_⟩
        rw [hg] at h
        exact absurd h (not_holds_unwind _)
      · exact absurd habs nofun
    | python e =>
      rcases hp with rfl | ⟨x, -, err, habs, -⟩
      · exact trivial
      · exact absurd habs nofun
    | ledger e => exact absurd rfl (hledger e)

/-- The question of a guard, and what follows from the answer. -/
theorem stands_guard {op : LedgerOp} {reserved sellRecorded : Bool} (message : String)
    (hc : req.clientOrderId ≠ "") (hop : Covers b req op)
    (hflags : Flags req reserved sellRecorded) : Stands b req Ends (do
      if (← ledgerCall op) = .verdict true then b.submit req reserved sellRecorded
      else .ret (reject req message)) (inPhase .guarding) := by
  refine ⟨asks_at (.cover hc hop), fun x => ?_⟩
  have hphase := next_cover hop x
  have hlinks : op.links = none := by
    cases hop with
    | reserve => rfl
    | reserveSell => rfl
  have hnext : next req (inPhase .guarding) ⟨.ledger op, x⟩ =
      { phase := if x = .verdict true then .covered else .guarding, failed := x.error } := by
    simp only [next, hphase, hlinks, Option.or_none]
  rw [hnext]
  cases x with
  | done => exact stands_reject id _
  | raised e => exact rfl
  | verdict v =>
    cases v with
    | false => exact stands_reject id _
    | true => exact stands_submit hc hflags

/-- **`place` ends as it stands.** -/
theorem place_stands (b : TossBroker) (req : OrderRequest) :
    Stands b req Ends (b.place req) (inPhase .guarding) := by
  refine .bind (stands_cached .guarding) (fun g ack hg => ?_) (fun _ _ h => h.2.elim)
  cases ack with
  | some ack => exact .inl hg.2
  | none =>
    obtain rfl : g = inPhase .guarding := hg.2
    show Stands b req Ends (b.placeGuarded req) _
    unfold TossBroker.placeGuarded
    split
    · next hside =>
      unfold TossBroker.placeBuy
      split
      · exact stands_reject id _
      · next hdeny =>
        split
        · exact stands_reject id _
        · next hc =>
          split
          · exact stands_reject id _
          · next amount hamount =>
            exact stands_guard _ hc (.reserve hside hdeny hamount) (.inl ⟨hside, rfl, rfl⟩)
    · next hside =>
      unfold TossBroker.placeSell
      split
      · exact stands_reject id _
      · next hc =>
        split
        · exact stands_reject id _
        · next quantity hquantity =>
          exact stands_guard _ hc (.reserveSell hside hquantity) (.inr ⟨hside, rfl, rfl⟩)

/-! ## 3. The entry under an id -/

variable {l : InMemorySleeveLedger} {w : World}

/-- A call that holds no cover, and never did, has no entry. -/
theorem entry_guarding (req : OrderRequest) (told kept : Option OrderAck)
    (failed : Option LedgerError) :
    Standing.entry req (some ⟨.guarding, told, none, kept, failed⟩) = (none, none) := by
  simp only [Standing.entry, reservation, order]
  cases req.side <;> rfl

theorem entry_of_not_concerns {c : String} {op : LedgerOp} (today : String)
    (h : ¬ op.Concerns c) : (l.step today op).1.entry c = l.entry c := by
  obtain ⟨hreserved, horders⟩ := @step_of_not_concerns l today c op h
  exact Prod.ext hreserved horders

theorem entry_unwindOp (l : InMemorySleeveLedger) (today : String) (req : OrderRequest) :
    (l.step today (unwindOp req)).1.entry req.clientOrderId =
      (none, match req.side with
        | .BUY => l.orders.get? req.clientOrderId
        | .SELL => (l.orders.get? req.clientOrderId).map ({ · with status := .REJECTED })) := by
  unfold InMemorySleeveLedger.entry unwindOp
  cases req.side with
  | BUY =>
    show ((l.release _).reserved.get? _, _) = _
    rw [release, Dict.get?_erase, if_pos rfl]
    rfl
  | SELL =>
    show ((l.markOrderTerminal _ _).reserved.get? _, (l.markOrderTerminal _ _).orders.get? _) = _
    rw [reserved_markOrderTerminal, orders_markOrderTerminal, Dict.get?_erase, if_pos rfl, if_pos rfl]

theorem reply_unwindOp (l : InMemorySleeveLedger) (today : String) (req : OrderRequest) :
    (l.step today (unwindOp req)).2 = .done := by
  unfold unwindOp
  cases req.side <;> rfl

/-- An order costs something. -/
theorem reserveAmount_nonneg {amount : Decimal} (h : reserveAmount req = some amount) :
    0 ≤ amount := by
  unfold reserveAmount at h
  split at h
  · next price quantity _ hprice hquantity =>
    obtain rfl := Option.some.inj h
    exact le_of_lt (mul_pos (req.price_pos price hprice) (req.quantity_pos quantity hquantity))
  · exact le_of_lt (req.amount_pos amount h)

/-- A guard that is asked under a key, for what an order can cost, raises nothing. -/
theorem reply_cover {op : LedgerOp} (hop : Covers b req op) (hc : req.clientOrderId ≠ "")
    (today : String) : (l.step today op).2.error = none := by
  cases hop with
  | @reserve amount hside hdeny hamount =>
    have hpos : ¬ amount < 0 := not_lt.mpr (reserveAmount_nonneg hamount)
    simp only [InMemorySleeveLedger.step, InMemorySleeveLedger.reserve, if_neg hc, if_neg hpos]
    generalize (if _ = req.currency then _ else _ : Decimal) = held
    split <;> rfl
  | reserveSell hside hquantity =>
    simp only [InMemorySleeveLedger.step, InMemorySleeveLedger.reserveSell, if_neg hc]
    split <;> rfl

/-- A guard takes the cover, or nothing. -/
theorem entry_cover {op : LedgerOp} (hop : Covers b req op) (today : String)
    (hnone : l.entry req.clientOrderId = (none, none)) :
    (l.step today op).1.entry req.clientOrderId = if (l.step today op).2 = .verdict true then
      (reservation req .covered, order req .covered none) else (none, none) := by
  obtain ⟨hreserved, horders⟩ := Prod.mk.inj hnone
  have heffect := l.step_effect today op
  generalize (l.step today op).1 = l' at heffect ⊢
  generalize (l.step today op).2 = reply at heffect ⊢
  cases hop with
  | reserve hside hdeny hamount =>
    cases heffect with
    | reserveRaised => rw [if_neg (by simp), hnone]
    | reserveRefused => rw [if_neg (by simp), hnone]
    | reserved =>
      rw [if_pos rfl]
      simp [InMemorySleeveLedger.entry, reservation, order, hside, hamount, horders]
  | @reserveSell quantity hside hquantity =>
    cases heffect with
    | sellRaised => rw [if_neg (by simp), hnone]
    | sellRefused => rw [if_neg (by simp), hnone]
    | sellReserved =>
      rw [if_pos rfl]
      have hreserved' : (l.recordOrder req.clientOrderId "" req.ticker .SELL req.currency
          quantity).reserved = l.reserved := rfl
      simp [InMemorySleeveLedger.entry, reservation, order, hside, hquantity, hreserved', hreserved,
        get?_recordOrder, keptOrderId, horders, row]

/-- A cover is given back. -/
theorem entry_unwound {p : Phase} {told kept : Option OrderAck} {failed : Option LedgerError}
    {x : Reply} (hentry : w.ledger.entry req.clientOrderId =
      Standing.entry req (some ⟨p, told, none, kept, failed⟩))
    (hp : p = .covered ∨ ∃ y, p = .undecided y) (hfailed : failed = none)
    (hx : w.Gives ⟨.ledger (unwindOp req), x⟩) :
    (w.after ⟨.ledger (unwindOp req), x⟩).ledger.entry req.clientOrderId =
        Standing.entry req (some (next req ⟨p, told, none, kept, failed⟩
          ⟨.ledger (unwindOp req), x⟩)) ∧
      (next req ⟨p, told, none, kept, failed⟩ ⟨.ledger (unwindOp req), x⟩).failed = none := by
  have hlinks : (unwindOp req).links = none := by
    unfold unwindOp
    cases req.side <;> rfl
  obtain rfl : x = .done := Eq.trans hx (reply_unwindOp w.ledger w.today req)
  have horders : w.ledger.orders.get? req.clientOrderId = order req p none :=
    congrArg Prod.snd hentry
  refine ⟨(entry_unwindOp w.ledger w.today req).trans ?_, ?_⟩
  · simp only [Standing.entry, next, next_unwind, hlinks, Option.or_none, horders]
    rcases hp with rfl | ⟨y, rfl⟩
    · simp only [reservation, order, Phase.unwind]
      cases req.side <;> rfl
    · simp only [reservation, order, Phase.unwind]
      cases req.side <;> rfl
  · simp only [next, hfailed]
    rfl

/-- **The ledger and the standing of a call move together.** -/
theorem entry_after {g : Standing} {q : BrokerReq} {x : q.Resp} (h : Asks b req g q)
    (hx : w.Gives ⟨q, x⟩) (hentry : w.ledger.entry req.clientOrderId = Standing.entry req (some g))
    (hfailed : g.failed = none) :
    (w.after ⟨q, x⟩).ledger.entry req.clientOrderId = Standing.entry req (some (next req g ⟨q, x⟩)) ∧
      (next req g ⟨q, x⟩).failed = none := by
  obtain ⟨p, told, recorded, kept, failed⟩ := g
  obtain ⟨hpermitted, hrecorded, hkept⟩ := h
  change Permitted b req p q at hpermitted
  obtain rfl : failed = none := hfailed
  have hunrecorded : ∀ op, q = .ledger op → recorded = none := by
    rintro op rfl
    cases recorded with
    | none => rfl
    | some o => exact absurd (hrecorded rfl) (by simp)
  cases hpermitted with
  | look => exact ⟨hentry, rfl⟩
  | authHeaders => exact ⟨hentry, rfl⟩
  | invalidate => exact ⟨hentry, rfl⟩
  | accountSeq => exact ⟨hentry, rfl⟩
  | acquire => exact ⟨hentry, rfl⟩
  | cache => exact ⟨hentry, rfl⟩
  | post headers =>
    refine ⟨hentry.trans ?_, rfl⟩
    have hnext : next req ⟨.covered, told, recorded, kept, none⟩
        ⟨.post ordersPath (.order (buildBody req)) headers, x⟩ =
        ⟨if x.Definitive then .covered else .undecided x, told, recorded, kept, none⟩ := rfl
    rw [hnext]
    split
    · rfl
    · simp only [Standing.entry, reservation, order]
      cases req.side <;> cases recorded <;> rfl
  | @cover op hc hop =>
    obtain rfl := hunrecorded _ rfl
    have hnone : w.ledger.entry req.clientOrderId = (none, none) := by
      rw [hentry, entry_guarding]
    have hreply := reply_cover (l := w.ledger) hop hc w.today
    have hlinks : op.links = none := by
      cases hop with
      | reserve => rfl
      | reserveSell => rfl
    obtain rfl : x = (w.ledger.step w.today op).2 := hx
    refine ⟨(entry_cover hop w.today hnone).trans ?_, ?_⟩
    · simp only [Standing.entry, next, next_cover hop, hlinks, Option.or_none]
      split
      · rfl
      · exact (entry_guarding req told kept none).symm
    · simp only [next, hreply, Option.or_none]
  | unwind =>
    obtain rfl := hunrecorded _ rfl
    exact entry_unwound hentry (.inl rfl) rfl hx
  | @unwindLost y hlost =>
    obtain rfl := hunrecorded _ rfl
    exact entry_unwound hentry (.inr ⟨y, rfl⟩) rfl hx
  | @record r hr ho =>
    obtain rfl := hunrecorded _ rfl
    obtain ⟨hreserved, horders⟩ := Prod.mk.inj hentry
    obtain rfl : x = .done := hx
    refine ⟨?_, rfl⟩
    simp only [Standing.entry, next, next_record, LedgerOp.links, Option.some_or]
    refine Prod.ext hreserved ?_
    show ((w.ledger.recordOrder _ _ _ _ _ _).orders.get? _) = _
    rw [get?_recordOrder, if_pos rfl, keptOrderId, if_neg ho]
    rfl

/-! ## 4. Many calls -/

section Pool

variable {ι : Type} [DecidableEq ι] {reqs : ι → OrderRequest}

/-- What a call that holds a cover has asked for can be computed. -/
def Priced (req : OrderRequest) : Prop :=
  (req.side = .BUY → (reserveAmount req).isSome) ∧ (req.side = .SELL → req.quantity.isSome)

theorem priced_of_covers {op : LedgerOp} (hop : Covers b req op) : Priced req := by
  cases hop with
  | reserve hside hdeny hamount =>
    exact ⟨fun _ => by simp [hamount], fun h => absurd (hside.symm.trans h) nofun⟩
  | reserveSell hside hquantity =>
    exact ⟨fun h => absurd (hside.symm.trans h) nofun, fun _ => by simp [hquantity]⟩

/-- A call that holds a cover has been told yes. -/
theorem priced_next {g : Standing} {q : BrokerReq} (h : Asks b req g q) (x : q.Resp)
    (hpriced : g.phase.Holds → Priced req) (hholds : (next req g ⟨q, x⟩).phase.Holds) :
    Priced req := by
  have hpermitted := h.permitted
  generalize hp : g.phase = p at hpermitted hpriced
  cases hpermitted with
  | cover _ hop => exact priced_of_covers hop
  | look => exact hpriced (hp ▸ hholds)
  | authHeaders => exact hpriced trivial
  | invalidate => exact hpriced trivial
  | accountSeq => exact hpriced trivial
  | acquire => exact hpriced trivial
  | post => exact hpriced trivial
  | unwind => exact hpriced trivial
  | unwindLost => exact hpriced trivial
  | record => exact hpriced trivial
  | cache => exact hpriced trivial

/-- What was recorded is not given back. -/
theorem holds_next {g : Standing} {q : BrokerReq} (h : Asks b req g q) (x : q.Resp)
    (hholds : g.recorded.isSome → g.phase.Holds)
    (hrecorded : (next req g ⟨q, x⟩).recorded.isSome) : (next req g ⟨q, x⟩).phase.Holds := by
  by_cases hsome : g.recorded.isSome
  · obtain ⟨ack, rfl⟩ := h.recorded hsome
    exact hholds hsome
  · have hnone : g.recorded = none := by simpa using hsome
    have hpermitted := h.permitted
    obtain ⟨p, told, recorded, kept, failed⟩ := g
    obtain rfl : recorded = none := hnone
    change Permitted b req p q at hpermitted
    cases hpermitted with
    | record =>
      simp only [next, next_record]
      exact trivial
    | cover _ hop => cases hop <;> exact absurd hrecorded (by simp [next, LedgerOp.links])
    | unwind =>
      unfold unwindOp at hrecorded
      split at hrecorded <;> exact absurd hrecorded (by simp [next, LedgerOp.links])
    | unwindLost =>
      unfold unwindOp at hrecorded
      split at hrecorded <;> exact absurd hrecorded (by simp [next, LedgerOp.links])
    | look => exact absurd hrecorded (by simp [next])
    | cache => exact absurd hrecorded (by simp [next])
    | authHeaders => exact absurd hrecorded (by simp [next])
    | invalidate => exact absurd hrecorded (by simp [next])
    | accountSeq => exact absurd hrecorded (by simp [next])
    | acquire => exact absurd hrecorded (by simp [next])
    | post => exact absurd hrecorded (by simp [next])

/-- The ledger and the cache are what the standings of the calls say. -/
structure OutcomeInv (b : TossBroker) (reqs : ι → OrderRequest) (w : World)
    (ph : ι → Option Standing) : Prop where
  entry : ∀ i, w.ledger.entry (reqs i).clientOrderId = Standing.entry (reqs i) (ph i)
  cached : ∀ i, w.acks b.id (reqs i).clientOrderId = (ph i).bind Standing.kept
  told : ∀ i g, ph i = some g → g.told = none
  failed : ∀ i g, ph i = some g → g.failed = none
  priced : ∀ i g, ph i = some g → g.phase.Holds → Priced (reqs i)
  linked : ∀ i g, ph i = some g → g.recorded.isSome → g.phase.Holds

abbrev standings (reqs : ι → OrderRequest) (s : Pool.State World ι BrokerReq.Resp Exc OrderAck) :
    ι → Option Standing :=
  Pool.phase (fun i => next (reqs i)) (fun _ => inPhase .guarding) s

/-- The entries of other ids are out of a call's reach. -/
theorem entry_of_other {g : Standing} {q : BrokerReq} (h : Asks b req g q) (x : q.Resp) {c : String}
    (hne : c ≠ req.clientOrderId) : (w.after ⟨q, x⟩).ledger.entry c = w.ledger.entry c ∧
      (w.after ⟨q, x⟩).acks b.id c = w.acks b.id c := by
  cases q with
  | ledger op =>
    exact ⟨entry_of_not_concerns w.today fun hc => hne (concerns_of_permitted h.permitted hc), rfl⟩
  | cacheAck b' c' ack =>
    refine ⟨rfl, if_neg fun hkey => ?_⟩
    have hpermitted := h.permitted
    generalize g.phase = p at hpermitted
    cases hpermitted with
    | cache => exact hne hkey.2
  | _ => exact ⟨rfl, rfl⟩

/-- The cache, and what the call found there. -/
theorem cached_after {g : Standing} {q : BrokerReq} {x : q.Resp} (h : Asks b req g q)
    (hx : w.Gives ⟨q, x⟩) (hcached : w.acks b.id req.clientOrderId = g.kept) (htold : g.told = none) :
    (w.after ⟨q, x⟩).acks b.id req.clientOrderId = (next req g ⟨q, x⟩).kept ∧
      (next req g ⟨q, x⟩).told = none := by
  have hpermitted := h.permitted
  generalize g.phase = p at hpermitted
  cases hpermitted with
  | look =>
    refine ⟨hcached, ?_⟩
    have hnone : x = none := Eq.trans hx (hcached.trans h.kept)
    simp only [next, hnone, htold, Option.or_none]
  | cache hr ho ack => exact ⟨if_pos ⟨rfl, rfl⟩, htold⟩
  | cover => exact ⟨hcached, htold⟩
  | authHeaders => exact ⟨hcached, htold⟩
  | invalidate => exact ⟨hcached, htold⟩
  | accountSeq => exact ⟨hcached, htold⟩
  | acquire => exact ⟨hcached, htold⟩
  | post => exact ⟨hcached, htold⟩
  | unwind => exact ⟨hcached, htold⟩
  | unwindLost => exact ⟨hcached, htold⟩
  | record => exact ⟨hcached, htold⟩

theorem outcomeInv (hdistinct : Function.Injective fun i => (reqs i).clientOrderId)
    {s : Pool.State World ι BrokerReq.Resp Exc OrderAck}
    (hs : Reachable (Pool.Start (World.Fresh b reqs)) (placingAmid b reqs).Step s) :
    OutcomeInv b reqs s.world (standings reqs s) := by
  refine Pool.inv (P := placingAmid b reqs) (fun i => Asks b (reqs i))
    (fun i => place_stands b (reqs i)) (OutcomeInv b reqs) ?_ ?_ ?_ ?_ hs
  · intro w hw
    exact ⟨fun i => (hw i).1, fun i => (hw i).2, fun _ _ h => absurd h (by simp),
      fun _ _ h => absurd h (by simp), fun _ _ h => absurd h (by simp),
      fun _ _ h => absurd h (by simp)⟩
  · intro w ph i h hi
    refine ⟨fun j => ?_, fun j => ?_, ?_, ?_, ?_, ?_⟩
    · by_cases hj : j = i
      · subst hj
        rw [Function.update_self, entry_guarding, h.entry j, hi]
        rfl
      · rw [Function.update_of_ne hj]
        exact h.entry j
    · by_cases hj : j = i
      · subst hj
        rw [Function.update_self, h.cached j, hi]
        rfl
      · rw [Function.update_of_ne hj]
        exact h.cached j
    · exact Pool.forall_update rfl fun j p _ hj => h.told j p hj
    · exact Pool.forall_update rfl fun j p _ hj => h.failed j p hj
    · exact Pool.forall_update (fun hp => hp.elim) fun j p _ hj => h.priced j p hj
    · exact Pool.forall_update (fun hp => absurd hp (by simp)) fun j p _ hj => h.linked j p hj
  · intro w ph i g q x w' h hg hasks hw
    obtain ⟨hx, rfl⟩ := hw
    have hentry := h.entry i
    have hcached := h.cached i
    rw [hg] at hentry hcached
    obtain ⟨hentry', hfailed'⟩ := entry_after hasks hx hentry (h.failed i g hg)
    obtain ⟨hcached', htold'⟩ := cached_after hasks hx hcached (h.told i g hg)
    refine ⟨fun j => ?_, fun j => ?_, ?_, ?_, ?_, ?_⟩
    · by_cases hj : j = i
      · subst hj
        rw [Function.update_self]
        exact hentry'
      · rw [Function.update_of_ne hj, (entry_of_other hasks x fun hc => hj (hdistinct hc)).1]
        exact h.entry j
    · by_cases hj : j = i
      · subst hj
        rw [Function.update_self]
        exact hcached'
      · rw [Function.update_of_ne hj, (entry_of_other hasks x fun hc => hj (hdistinct hc)).2]
        exact h.cached j
    · exact Pool.forall_update htold' fun j p _ hj => h.told j p hj
    · exact Pool.forall_update hfailed' fun j p _ hj => h.failed j p hj
    · exact Pool.forall_update (priced_next hasks x (h.priced i g hg)) fun j p _ hj => h.priced j p hj
    · exact Pool.forall_update (holds_next hasks x (h.linked i g hg)) fun j p _ hj => h.linked j p hj
  · intro w ph w' h hmoves
    obtain ⟨op, today, hop, rfl⟩ := hmoves
    refine ⟨fun i => ?_, h.cached, h.told, h.failed, h.priced, h.linked⟩
    exact (entry_of_not_concerns w.today (hop i)).trans (h.entry i)

/-- A call that holds its cover is covered, down to the row. -/
theorem covered_of_holds {g : Standing} (hpriced : Priced req) (hholds : g.phase.Holds)
    (hentry : l.entry req.clientOrderId = Standing.entry req (some g)) : Covered l req := by
  obtain ⟨hreserved, horders⟩ := Prod.mk.inj hentry
  obtain ⟨p, told, recorded, kept, failed⟩ := g
  have hphase : p = .covered ∨ ∃ y, p = .undecided y := by
    cases p with
    | covered => exact .inl rfl
    | undecided y => exact .inr ⟨y, rfl⟩
    | guarding => exact hholds.elim
    | unwound y => exact hholds.elim
  cases hside : req.side with
  | BUY =>
    obtain ⟨amount, hamount⟩ := Option.isSome_iff_exists.mp (hpriced.1 hside)
    refine .reserved hside hamount (hreserved.trans ?_)
    rcases hphase with rfl | ⟨y, rfl⟩ <;> simp [reservation, hside, hamount]
  | SELL =>
    obtain ⟨quantity, hquantity⟩ := Option.isSome_iff_exists.mp (hpriced.2 hside)
    have hrow : ∃ o, l.orders.get? req.clientOrderId = some (row req o .PENDING) := by
      cases recorded with
      | some o => exact ⟨o, horders⟩
      | none =>
        refine ⟨"", horders.trans ?_⟩
        rcases hphase with rfl | ⟨y, rfl⟩ <;> simp [order, hside]
    obtain ⟨o, ho⟩ := hrow
    exact .registered hside ho rfl hside pending_mem_openStatuses (by simp [row, hquantity])

/-- A call that holds none is not, if it recorded nothing. -/
theorem uncovered_of_not_holds {g : Standing} (hlinked : g.recorded.isSome → g.phase.Holds)
    (hholds : ¬ g.phase.Holds)
    (hentry : l.entry req.clientOrderId = Standing.entry req (some g)) : Uncovered l req := by
  obtain ⟨hreserved, horders⟩ := Prod.mk.inj hentry
  have hrecorded : g.recorded = none := by simpa using mt hlinked hholds
  obtain ⟨p, told, recorded, kept, failed⟩ := g
  obtain rfl : recorded = none := hrecorded
  constructor
  · rw [hreserved]
    cases p with
    | covered => exact absurd trivial hholds
    | undecided y => exact absurd trivial hholds
    | guarding => cases hside : req.side <;> simp [reservation]
    | unwound y => cases hside : req.side <;> simp [reservation]
  · intro o ho
    rw [horders] at ho
    cases p with
    | covered => exact absurd trivial hholds
    | undecided y => exact absurd trivial hholds
    | guarding => cases hside : req.side <;> simp [order, hside] at ho
    | unwound y =>
      cases hside : req.side with
      | BUY => simp [order, hside] at ho
      | SELL =>
        simp only [order, hside, Option.some.injEq] at ho
        rw [← ho]
        rfl

/-- **The outcome of a call says what the ledger holds for it**, whatever other calls do. -/
theorem outcome_tells (b : TossBroker) (reqs : ι → OrderRequest)
    (hdistinct : Function.Injective fun i => (reqs i).clientOrderId)
    {s : Pool.State World ι BrokerReq.Resp Exc OrderAck}
    (hs : Reachable (Pool.Start (World.Fresh b reqs)) (placingAmid b reqs).Step s) (i : ι) :
    (∀ ack, s.returned i = some ack → Tells b s.world (reqs i) (.ok ack)) ∧
      ∀ e, s.raised i = some e → Tells b s.world (reqs i) (.error e) := by
  have hinv := outcomeInv hdistinct hs
  have hentry := hinv.entry i
  have hcached := hinv.cached i
  constructor
  · intro ack hack
    obtain ⟨g, hg, hends⟩ := Pool.fin_returned (fun i => Asks b (reqs i))
      (fun i => place_stands b (reqs i)) hs hack
    change standings reqs s i = some g at hg
    rw [hg] at hentry hcached
    rcases hends with htold | ⟨hacc, hholds⟩ | ⟨hacc, hholds, hrecorded, hkept⟩
    · exact absurd ((hinv.told i g hg).symm.trans htold) (by simp)
    · exact .rejected hacc (uncovered_of_not_holds (hinv.linked i g hg) hholds hentry)
    · refine .accepted hacc (covered_of_holds (hinv.priced i g hg hholds) hholds hentry) ?_ ?_
      · refine (congrArg Prod.snd hentry).trans ?_
        simp only [Standing.entry, order, hrecorded]
      · rw [hcached]
        exact hkept
  · intro e he
    obtain ⟨g, hg, hends⟩ := Pool.fin_raised (fun i => Asks b (reqs i))
      (fun i => place_stands b (reqs i)) hs he
    change standings reqs s i = some g at hg
    rw [hg] at hentry hcached
    cases e with
    | toss e =>
      by_cases hcls : e.cls = .ambiguous
      · have hholds := hends.mp hcls
        exact .ambiguous hcls (covered_of_holds (hinv.priced i g hg hholds) hholds hentry)
      · have hholds := mt hends.mpr hcls
        exact .failed hcls (uncovered_of_not_holds (hinv.linked i g hg) hholds hentry)
    | http => exact hends.elim
    | python e => exact .python (covered_of_holds (hinv.priced i g hg hends) hends hentry)
    | ledger e => exact absurd ((hinv.failed i g hg).symm.trans hends) (by simp)

end Pool

/-! Two purchases: one is accepted, the other turned down by Toss. -/

def boughtAndRejected : Pool.State World Bool BrokerReq.Resp Exc OrderAck :=
  (placingAmid { id := 0 } (twoBuys 100)).play answering (fun (m : Empty) _ => m.elim)
    (cashOnly 1000) (toPost false ++ toPost true ++
      [.go false (.answered (.of 200 (some (.obj [("orderId", .str "o-1")])))),
       .go true (.answered (.of 400 (some (.obj [])))), .go false .connectFailed,
       .go true .connectFailed, .go false .connectFailed])

theorem outcome_tells_boughtAndRejected :
    Tells { id := 0 } boughtAndRejected.world (twoBuys 100 false)
        (.ok { accepted := true, orderId := "o-1", clientOrderId := "gd:1" }) ∧
      ∃ ack, ack.accepted = false ∧
        Tells { id := 0 } boughtAndRejected.world (twoBuys 100 true) (.ok ack) := by
  have hs : Reachable (Pool.Start (World.Fresh { id := 0 } (twoBuys 100)))
      (placingAmid { id := 0 } (twoBuys 100)).Step boughtAndRejected := by
    refine Pool.play_reachable (World.Fresh { id := 0 } (twoBuys 100)) ?_ (fun m => m.elim)
      (fun i => ⟨rfl, rfl⟩) _
    intro outcome w i q _ _ h
    cases h
    exact ⟨w.gives_respond outcome none q, rfl⟩
  have htells := outcome_tells { id := 0 } (twoBuys 100) (twoBuys_distinct 100) hs
  refine ⟨(htells false).1 _ (by decide +kernel), ?_⟩
  obtain ⟨ack, hack⟩ := Option.isSome_iff_exists.mp
    (show (boughtAndRejected.returned true).isSome by decide +kernel)
  refine ⟨ack, ?_, (htells true).1 ack hack⟩
  have hrejected : (boughtAndRejected.returned true).map (·.accepted) = some false := by
    decide +kernel
  rw [hack] at hrejected
  exact Option.some.inj hrejected

end Proof.Outcomes

end TossSleeve
