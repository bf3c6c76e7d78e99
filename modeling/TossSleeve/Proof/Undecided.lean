import TossSleeve.Proof.Cover

/-!
# `Proof/Undecided.lean` — a cover outlives an open question

Once a transmission of an order ended in a way that leaves open whether Toss took it, the order may
be live, and its cover has to stay until the consumer finds out. `place` decides about the cover
by the outcome of the *current* call, and that is where it goes wrong: a retry of the same order
under the same id, by the same broker or by one started since, takes the cover over and gives it
back when it fails for a reason of its own; and a success that names no order id is treated as if
nothing had been sent.

§1 puts any number of calls of one order, on any number of brokers, next to a consumer who may do
anything to the ledger, and watches two things: whether the matter is open (`undecided`), and
whether the cover was taken away since it was last taken (`removed`). §2 shows that nothing else
goes wrong: where no call gives the cover back while the matter is open, and a transmission that
ends open ends with its cover in place, the cover stays. §3 has the two ways in which it does go.
-/

set_option autoImplicit false

namespace TossSleeve.Proof

open Lib Lib.Proc InMemorySleeveLedger

/-! ## 1. Calls of one order, watched -/

structure Watch where
  world : World
  /-- A transmission of the order ended open, and the consumer has not acted on it since. -/
  undecided : Bool := false
  /-- Since a call last took the cover, another gave it back, or the consumer acted on the
      order. -/
  removed : Bool := false

namespace Watch

def after (req : OrderRequest) (w : Watch) (e : Event BrokerReq.Resp) : Watch :=
  match e with
  | ⟨.post _ _ _, x⟩ =>
    { w with undecided := w.undecided || !decide x.Definitive }
  | ⟨.ledger op, reply⟩ =>
    { w with
      world := w.world.after e
      removed := if op = unwindOp req then true
        else if reply = .verdict true then false else w.removed }
  | _ => { w with world := w.world.after e }

/-- The ledger after an operation that no call asked for. -/
def act (w : Watch) (op : LedgerOp) : World :=
  { w.world with ledger := (w.world.ledger.step w.world.today op).1 }

/-- Everything that is not a call of the order: the consumer and the calls of other orders use the
    ledger, and days pass. A cancellation shows here as what it does to the ledger. -/
inductive Elsewhere (req : OrderRequest) : Watch → Watch → Prop
  | other {w : Watch} {op : LedgerOp} (h : ¬ op.Concerns req.clientOrderId) :
      Elsewhere req w { w with world := w.act op }
  | consumer {w : Watch} {op : LedgerOp} (h : op.Concerns req.clientOrderId) :
      Elsewhere req w { world := w.act op, undecided := false, removed := true }
  | day {w : Watch} (today : String) :
      Elsewhere req w { w with world := { w.world with today } }

/-- What a careful run avoids: giving the cover back while the matter is open, and a transmission
    that ends open after its cover was taken away. -/
def Careful (req : OrderRequest) (w : Watch) : Event BrokerReq.Resp → Prop
  | ⟨.ledger op, _⟩ => op = unwindOp req → w.undecided = false
  | ⟨.post _ _ _, x⟩ => ¬ x.Definitive → w.removed = false
  | _ => True

end Watch

section Retrying

variable {ι : Type} [DecidableEq ι]

/-- Calls of `place req`, each on a broker of its own or on a shared one; their steps satisfy
    `C`. -/
def retrying (brokers : ι → TossBroker) (req : OrderRequest)
    (C : Watch → Event BrokerReq.Resp → Prop) : Pool Watch ι BrokerReq.Resp Exc OrderAck where
  program i := (brokers i).place req
  Answer w _ e w' := w.world.Gives e ∧ C w e ∧ w' = w.after req e
  Env := Watch.Elsewhere req

/-- Nothing is open, and nothing has happened. -/
def Unwatched (w : Watch) : Prop := w.undecided = false ∧ w.removed = false

/-! ## 2. Careful runs keep the cover -/

/-- While the matter is open the order is covered; so is it while a call holds a cover that nobody
    took away. -/
structure KeptInv (req : OrderRequest) (w : Watch) (ph : ι → Option Phase) : Prop where
  undecided : w.undecided = true → Covered w.world.ledger req
  held : ∀ i p, ph i = some p → p.Holds → w.removed = false → Covered w.world.ledger req

/-- A guard that does not say yes changes nothing. -/
theorem ledger_of_not_verdict {l : InMemorySleeveLedger} {b : TossBroker} {req : OrderRequest}
    {today : String} {op : LedgerOp} (h : Covers b req op)
    (hno : (l.step today op).2 ≠ .verdict true) : (l.step today op).1 = l := by
  have heffect := l.step_effect today op
  generalize (l.step today op).1 = l' at heffect ⊢
  generalize (l.step today op).2 = reply at heffect hno
  cases h with
  | reserve =>
    cases heffect with
    | reserveRaised => rfl
    | reserveRefused => rfl
    | reserved => exact absurd rfl hno
  | reserveSell =>
    cases heffect with
    | sellRaised => rfl
    | sellRefused => rfl
    | sellReserved => exact absurd rfl hno

variable {brokers : ι → TossBroker} {req : OrderRequest}

/-- One request of one call. -/
theorem keptInv_answer {b : TossBroker} {w : Watch} {ph : ι → Option Phase} {i : ι} {p : Phase}
    {q : BrokerReq} {x : q.Resp} (hinv : KeptInv req w ph) (hp : ph i = some p)
    (hok : Permitted b req p q) (hx : w.world.Gives ⟨q, x⟩) (hc : w.Careful req ⟨q, x⟩) :
    KeptInv req (w.after req ⟨q, x⟩) (Function.update ph i (some (p.next req ⟨q, x⟩))) := by
  -- A request that touches neither flag, cover nor phase.
  have hquiet : ∀ w' : Watch, w'.undecided = w.undecided → w'.removed = w.removed →
      (Covered w.world.ledger req → Covered w'.world.ledger req) →
      KeptInv req w' (Function.update ph i (some p)) := by
    intro w' hu hr hcov
    rw [Function.update_eq_self_iff.mpr hp.symm]
    refine ⟨fun h => hcov (hinv.undecided (hu ▸ h)), fun j p' hj hholds h => ?_⟩
    exact hcov (hinv.held j p' hj hholds (hr ▸ h))
  have hunwind : w.undecided = false → ∀ reply, KeptInv req
      (w.after req ⟨.ledger (unwindOp req), reply⟩)
      (Function.update ph i (some (p.next req ⟨.ledger (unwindOp req), reply⟩))) := by
    intro hu reply
    refine ⟨fun h => ?_, fun j p' _ _ h => ?_⟩
    · exact absurd (hu.symm.trans h) Bool.false_ne_true
    · have htrue : (if unwindOp req = unwindOp req then true else _ : Bool) = false := h
      rw [if_pos rfl] at htrue
      exact absurd htrue.symm Bool.false_ne_true
  cases hok with
  | look => exact hquiet _ rfl rfl id
  | @cover op _ hop =>
    rw [next_cover hop]
    split
    · next hyes =>
      have hcov : Covered (w.after req ⟨.ledger op, x⟩).world.ledger req :=
        covered_of_verdict hop (hyes ▸ (show x = _ from hx).symm)
      exact ⟨fun _ => hcov, fun _ _ _ _ _ => hcov⟩
    · next hno =>
      refine hquiet _ rfl ?_ ?_
      · show (if op = unwindOp req then _ else _) = _
        rw [if_neg (covers_ne_unwindOp hop), if_neg hno]
      · have hsame : (w.after req ⟨.ledger op, x⟩).world.ledger = w.world.ledger :=
          ledger_of_not_verdict hop (fun h => hno ((show x = _ from hx).trans h))
        rw [hsame]
        exact id
  | authHeaders => exact hquiet _ rfl rfl id
  | invalidate => exact hquiet _ rfl rfl id
  | accountSeq => exact hquiet _ rfl rfl id
  | acquire => exact hquiet _ rfl rfl id
  | post headers =>
    show KeptInv req { w with undecided := w.undecided || !decide x.Definitive }
      (Function.update ph i (some (if x.Definitive then _ else _)))
    by_cases hdef : x.Definitive
    · rw [if_pos hdef]
      refine hquiet _ ?_ rfl id
      rw [decide_eq_true hdef, Bool.not_true, Bool.or_false]
    · -- An open outcome: the call holds its cover, and it is still there.
      have hcov := hinv.held i _ hp trivial (hc hdef)
      exact ⟨fun _ => hcov, fun _ _ _ _ _ => hcov⟩
  | unwind => exact hunwind (hc rfl) x
  | unwindLost => exact hunwind (hc rfl) x
  | record =>
    rw [next_record]
    refine hquiet _ rfl ?_ (covered_recordOrder _)
    show (if _ = unwindOp req then _ else _) = _
    have hdone : x = .done := hx
    rw [if_neg (recordOrder_ne_unwindOp _ _ _ _ _ _), hdone]
    exact if_neg nofun
  | cache => exact hquiet _ rfl rfl id

theorem keptInv {s : Pool.State Watch ι BrokerReq.Resp Exc OrderAck}
    (hs : Reachable (Pool.Start Unwatched)
      (retrying brokers req (Watch.Careful req)).Step s) :
    KeptInv req s.world
      (Pool.phase (fun _ => Phase.next req) (fun _ => .guarding) s) := by
  refine Pool.inv (P := retrying brokers req (Watch.Careful req))
    (fun i => Permitted (brokers i) req) (fun i => place_follows (brokers i) req)
    (KeptInv req) ?_ ?_ ?_ ?_ hs
  · intro w hw
    obtain ⟨hu, -⟩ := hw
    exact ⟨fun h => absurd (hu.symm.trans h) Bool.false_ne_true, fun _ _ h => absurd h nofun⟩
  · intro w ph i hinv _
    exact ⟨hinv.undecided,
      Pool.forall_update (fun h => h.elim) (fun j p _ hj => hinv.held j p hj)⟩
  · intro w ph i p q x _ hinv hp hok hw
    obtain ⟨hx, hc, rfl⟩ := hw
    exact keptInv_answer hinv hp hok hx hc
  · intro w ph w' hinv henv
    cases henv with
    | other h =>
      exact ⟨fun hu => covered_of_not_concerns h (hinv.undecided hu),
        fun i p hp hholds hr => covered_of_not_concerns h (hinv.held i p hp hholds hr)⟩
    | consumer => exact ⟨fun h => absurd h nofun, fun _ _ _ _ h => absurd h nofun⟩
    | day => exact ⟨hinv.undecided, hinv.held⟩

/-- `_unwind` leaves no cover. -/
theorem not_covered_unwindOp (l : InMemorySleeveLedger) (today : String) :
    ¬ Covered (l.step today (unwindOp req)).1 req := by
  intro h
  cases h with
  | reserved hside _ hget =>
    rw [unwindOp_eq_of_buy hside] at hget
    have hnone : (l.reserved.erase req.clientOrderId).get? req.clientOrderId = some _ := hget
    rw [Dict.get?_erase, if_pos rfl] at hnone
    exact absurd hnone nofun
  | registered hside hget _ _ hopen =>
    rw [unwindOp_eq_of_sell hside] at hget
    have hrow : (l.markOrderTerminal req.clientOrderId .REJECTED).orders.get? req.clientOrderId =
      some _ := hget
    rw [orders_markOrderTerminal, if_pos rfl] at hrow
    obtain ⟨o, -, rfl⟩ := Option.map_eq_some_iff.mp hrow
    exact absurd hopen (show OrderStatus.REJECTED ∉ openStatuses by decide)

/-- **While the matter is open the cover stays**, in every run in which no call gives it back while
    the matter is open and no transmission ends open after its cover was taken away. The first
    condition is exact: a call that gives the cover back leaves none. -/
theorem cover_kept (brokers : ι → TossBroker) (req : OrderRequest) :
    (∀ s : Pool.State Watch ι BrokerReq.Resp Exc OrderAck,
      Reachable (Pool.Start Unwatched) (retrying brokers req (Watch.Careful req)).Step s →
      s.world.undecided = true → Covered s.world.world.ledger req) ∧
    ∀ (l : InMemorySleeveLedger) (today : String),
      ¬ Covered (l.step today (unwindOp req)).1 req :=
  ⟨fun _ hs hu => (keptInv hs).undecided hu, fun l today => not_covered_unwindOp l today⟩

end Retrying

/-! ## 3. Two ways to lose it -/

instance (req : OrderRequest) (w : Watch) : DecidablePred (w.Careful req)
  | ⟨.ledger op, _⟩ => inferInstanceAs (Decidable (op = unwindOp req → w.undecided = false))
  | ⟨.post _ _ _, x⟩ => inferInstanceAs (Decidable (¬ x.Definitive → w.removed = false))
  | ⟨.cachedAck _ _, _⟩ => inferInstanceAs (Decidable True)
  | ⟨.cacheAck _ _ _, _⟩ => inferInstanceAs (Decidable True)
  | ⟨.clientOrderIdFor _, _⟩ => inferInstanceAs (Decidable True)
  | ⟨.authHeaders, _⟩ => inferInstanceAs (Decidable True)
  | ⟨.invalidate, _⟩ => inferInstanceAs (Decidable True)
  | ⟨.accountSeq, _⟩ => inferInstanceAs (Decidable True)
  | ⟨.acquire, _⟩ => inferInstanceAs (Decidable True)
  | ⟨.orderFill _, _⟩ => inferInstanceAs (Decidable True)
  | ⟨.cachedToken, _⟩ => inferInstanceAs (Decidable True)
  | ⟨.cacheToken _, _⟩ => inferInstanceAs (Decidable True)
  | ⟨.postToken, _⟩ => inferInstanceAs (Decidable True)
  | ⟨.cachedAccountSeq, _⟩ => inferInstanceAs (Decidable True)
  | ⟨.cacheAccountSeq _, _⟩ => inferInstanceAs (Decidable True)
  | ⟨.acquireRead, _⟩ => inferInstanceAs (Decidable True)
  | ⟨.get _ _ _ _, _⟩ => inferInstanceAs (Decidable True)

/-- The answers of a concrete run, as far as `C` lets them pass. -/
def answeringWatched (req : OrderRequest) (C : Watch → Event BrokerReq.Resp → Prop)
    [∀ w, DecidablePred (C w)] :
    PostOutcome → Watch → Bool → (q : BrokerReq) → Option (q.Resp × Watch) :=
  Pool.scripted (fun outcome w q => some (w.world.respond outcome none q)) C
    fun w _ => w.after req

/-- A BUY for all the cash there is. -/
def onlyBuy : OrderRequest := .limit .BUY 1 100000 "gd:1"

/-- Two calls of it: the second on a broker started since, which tries to connect once. -/
def twoBrokers (second : Bool) : TossBroker :=
  if second then { id := 1, transportRetries := 0 } else { id := 0 }

def retried (C : Watch → Event BrokerReq.Resp → Prop) [∀ w, DecidablePred (C w)]
    (turns : List (Pool.Turn Bool PostOutcome Empty)) :
    Pool.State Watch Bool BrokerReq.Resp Exc OrderAck :=
  (retrying twoBrokers onlyBuy C).play (answeringWatched onlyBuy C) (fun m _ => m.elim)
    { world := cashOnly 100000 } turns

theorem retried_reachable (C : Watch → Event BrokerReq.Resp → Prop) [∀ w, DecidablePred (C w)]
    (turns : List (Pool.Turn Bool PostOutcome Empty)) :
    Reachable (Pool.Start Unwatched) (retrying twoBrokers onlyBuy C).Step (retried C turns) := by
  refine Pool.play_reachable Unwatched ?_ (fun m => m.elim) ⟨rfl, rfl⟩ turns
  intro outcome w i q x w' h
  obtain ⟨hrespond, hc, rfl⟩ := Pool.of_scripted h
  obtain rfl := Option.some.inj hrespond
  exact ⟨w.world.gives_respond outcome none q, hc, rfl⟩

/-- The first call times out after sending. -/
def timesOut : List (Pool.Turn Bool PostOutcome Empty) := toPost false ++ [.go false .sendFailed]

/-- The second call is on its way again, and the cover is there. -/
theorem cover_kept_retriedOnce :
    Covered (retried (Watch.Careful onlyBuy) (timesOut ++ toPost true)).world.world.ledger
      onlyBuy :=
  (cover_kept twoBrokers onlyBuy).1 _ (retried_reachable _ _) (by decide +kernel)

/-- The run ends with the matter open and no cover. -/
def LosesCover (turns : List (Pool.Turn Bool PostOutcome Empty)) : Prop :=
  Reachable (Pool.Start Unwatched) (retrying twoBrokers onlyBuy fun _ _ => True).Step
    (retried (fun _ _ => True) turns) ∧
  (retried (fun _ _ => True) turns).world.undecided = true ∧
  ¬ Covered (retried (fun _ _ => True) turns).world.world.ledger onlyBuy

theorem losesCover {turns : List (Pool.Turn Bool PostOutcome Empty)}
    (hu : (retried (fun _ _ => True) turns).world.undecided = true)
    (hr : (retried (fun _ _ => True) turns).world.world.ledger.reserved.get? "gd:1" = none) :
    LosesCover turns := by
  refine ⟨retried_reachable _ _, hu, fun h => ?_⟩
  cases h with
  | reserved _ _ hget => exact absurd (hr.symm.trans hget) nofun
  | registered hside => exact absurd hside nofun

/-- The retry cannot connect, and gives the cover of the first transmission back; and a success
    without an order id gives it back at once. -/
theorem cover_lost :
    LosesCover (timesOut ++ toPost true ++ [.go true .connectFailed, .go true .connectFailed]) ∧
      LosesCover (toPost false ++
        [.go false (.answered (.of 200 (some (.obj [])))), .go false .connectFailed]) :=
  ⟨losesCover (by decide +kernel) (by decide +kernel),
    losesCover (by decide +kernel) (by decide +kernel)⟩

end TossSleeve.Proof
