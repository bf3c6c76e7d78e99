import TossSleeve.Proof.Cancelling

/-!
# `Proof/Repeats.lean` — an order is placed once, however often it is asked for

A caller that does not know whether its order was placed asks for it again, under the same client
order id. Two things make that harmless. The broker keeps the ack of what was accepted, and looks
there first; and Toss knows the client order id as well, so that a request that does get through is
acknowledged with the order there is.

§1 is what a `place` has done last when it returns an accepted ack: it has put it into `_acks`, or
found it there. §2 is what `_acks` holds, §3 what a `place` makes of it. Until the broker is
restarted no call that comes later asks for anything else; and acks of one client order id name one
order, whichever broker returned them.
-/

set_option autoImplicit false

namespace TossSleeve

open Lib Lib.Proc

namespace Proof.Repeats

open Cancelling OrderStage

/-! ## 1. What was done last -/

/-- The ack that was put into `_acks`, or found there. -/
def lastAck (_ : Option OrderAck) : Event BrokerReq.Resp → Option OrderAck
  | ⟨.cacheAck _ _ ack, _⟩ => some ack
  | ⟨.cachedAck _ _, x⟩ => x
  | _ => none

/-- An accepted ack is the last thing seen in `_acks`. -/
def Remembered (g : Option OrderAck) : Except Exc OrderAck → Prop
  | .ok ack => ack.accepted = true → g = some ack
  | .error _ => True

/-- The program only asks, and ends so. -/
structure Remembers {α : Type} (fin : Option OrderAck → Except Exc α → Prop) (p : Prog α)
    (g : Option OrderAck) : Prop where
  along : Along lastAck (fun _ _ => True) fin p g
  asks : p.Requesting

theorem along_any {α : Type} (p : Prog α) (g : Option OrderAck) :
    Along lastAck (fun _ _ => True) (fun _ _ => True) p g :=
  Along.of_absorbing (Q := fun _ => True) (fun _ _ h => h) (fun _ _ _ => trivial)
    (fun _ _ _ => trivial) p trivial

/-- Something is done, and then comes an end. -/
theorem remembers_then {α : Type} {p : Prog α} {k : α → Prog OrderAck} {g : Option OrderAck}
    (hp : p.Requesting) (hk : ∀ a g, Remembers Remembered (k a) g) :
    Remembers Remembered (p >>= k) g :=
  ⟨.bind (along_any p g) (fun g a _ => (hk a g).along) fun _ _ _ => trivial,
    .bind hp fun a => (hk a none).asks⟩

theorem remembers_raise (e : Exc) (g : Option OrderAck) : Remembers Remembered (.raise e) g :=
  ⟨trivial, trivial⟩

theorem remembers_reject (req : OrderRequest) (message : String) (g : Option OrderAck) :
    Remembers Remembered (.ret (reject req message)) g :=
  ⟨fun h => absurd h (by simp [reject]), trivial⟩

variable {b : TossBroker} {req : OrderRequest}

/-- A look into `_acks`, whose ack is returned if there is one. -/
theorem remembers_look {k : Option OrderAck → Prog OrderAck} (hsome : ∀ ack, k (some ack) = .ret ack)
    (hnone : ∀ g, Remembers Remembered (k none) g) (c : String) (g : Option OrderAck) :
    Remembers Remembered (b.cached c >>= k) g := by
  unfold TossBroker.cached
  split
  · exact hnone g
  · refine ⟨⟨trivial, fun x => ?_⟩, fun x => ?_⟩
    · show Along lastAck _ Remembered (k x) x
      cases x with
      | none => exact (hnone none).along
      | some ack =>
        rw [hsome]
        exact fun _ => rfl
    · show (k x).Requesting
      cases x with
      | none => exact (hnone none).asks
      | some ack =>
        rw [hsome]
        exact trivial

theorem requesting_unwind (req : OrderRequest) (reserved sellRecorded : Bool) :
    (TossBroker.unwind req reserved sellRecorded).Requesting := by
  have hcall : ∀ op, (discard (ledgerCall op)).Requesting := fun op =>
    .bind (requesting_ledgerCall op) fun _ => trivial
  unfold TossBroker.unwind
  split
  · exact trivial
  · cases reserved with
    | false =>
      cases sellRecorded with
      | false => exact trivial
      | true => exact hcall _
    | true =>
      refine .bind (hcall _) fun _ => ?_
      cases sellRecorded with
      | false => exact trivial
      | true => exact hcall _

theorem remembers_accept (hc : req.clientOrderId ≠ "") (reserved sellRecorded : Bool)
    (result : Json) (g : Option OrderAck) :
    Remembers Remembered (b.accept req reserved sellRecorded result) g := by
  unfold TossBroker.accept
  simp only [if_neg hc]
  split
  · exact remembers_then (requesting_unwind req reserved sellRecorded) fun _ g => remembers_raise _ g
  · refine remembers_then (.bind (requesting_ledgerCall _) fun _ => trivial) fun _ g => ?_
    exact ⟨⟨trivial, fun _ _ => rfl⟩, fun _ => trivial⟩

theorem remembers_handleOrderError (reserved sellRecorded : Bool) (e : TossError)
    (g : Option OrderAck) :
    Remembers Remembered (b.handleOrderError e req reserved sellRecorded) g := by
  have hunwind := requesting_unwind req reserved sellRecorded
  unfold TossBroker.handleOrderError
  split
  · exact remembers_look (fun _ => rfl) (fun g => remembers_raise _ g) req.clientOrderId g
  · split
    · exact remembers_then hunwind fun _ g => remembers_reject req e.text g
    · split
      · exact remembers_raise _ g
      · exact remembers_then hunwind fun _ g => remembers_raise _ g

theorem remembers_submit (hc : req.clientOrderId ≠ "") (reserved sellRecorded : Bool)
    (g : Option OrderAck) : Remembers Remembered (b.submit req reserved sellRecorded) g := by
  have hunwind := requesting_unwind req reserved sellRecorded
  have hhttp : ∀ g, Remembers Remembered (do
      TossBroker.unwind req reserved sellRecorded
      .raise (.toss { cls := .transport, message := "발주 전 인증/계좌조회 전송 실패" } : Exc) :
      Prog OrderAck) g :=
    fun g => remembers_then hunwind fun _ g => remembers_raise _ g
  constructor
  · refine .attempt (fun g payload _ => (remembers_accept hc reserved sellRecorded payload g).along)
      (fun g e _ => ?_) (along_any _ g)
    cases e with
    | toss e => exact (remembers_handleOrderError reserved sellRecorded e g).along
    | http => exact (hhttp g).along
    | python e => exact (remembers_raise _ g).along
    | ledger e => exact (remembers_raise _ g).along
  · refine .attempt (fun payload => (remembers_accept hc reserved sellRecorded payload none).asks)
      (fun e => ?_) (requesting_post b ordersPath (.order (buildBody req)) true)
    cases e with
    | toss e => exact (remembers_handleOrderError reserved sellRecorded e none).asks
    | http => exact (hhttp none).asks
    | python e => exact (remembers_raise _ none).asks
    | ledger e => exact (remembers_raise _ none).asks

theorem remembers_guard (hc : req.clientOrderId ≠ "") (op : LedgerOp)
    (reserved sellRecorded : Bool) (message : String) (g : Option OrderAck) :
    Remembers Remembered (do
      if (← ledgerCall op) = .verdict true then b.submit req reserved sellRecorded
      else .ret (reject req message)) g := by
  refine remembers_then (requesting_ledgerCall op) fun x g => ?_
  split
  · exact remembers_submit hc reserved sellRecorded g
  · exact remembers_reject req message g

theorem remembers_placeGuarded (g : Option OrderAck) :
    Remembers Remembered (b.placeGuarded req) g := by
  unfold TossBroker.placeGuarded
  split
  · unfold TossBroker.placeBuy
    split
    · exact remembers_reject req _ g
    · split
      · exact remembers_reject req _ g
      · next hc =>
        split
        · exact remembers_reject req _ g
        · exact remembers_guard hc _ _ _ _ g
  · unfold TossBroker.placeSell
    split
    · exact remembers_reject req _ g
    · next hc =>
      split
      · exact remembers_reject req _ g
      · exact remembers_guard hc _ _ _ _ g

/-- **Whoever returns an accepted ack has just seen it in `_acks`.** -/
theorem remembers_place (b : TossBroker) (req : OrderRequest) :
    Remembers Remembered (b.place req) none :=
  remembers_look (fun _ => rfl) remembers_placeGuarded req.clientOrderId none

/-- The same of a call. -/
def Kept (g : Option OrderAck) : Except Exc OrderResult → Prop
  | .ok (.ack ack) => ack.accepted = true → g = some ack
  | _ => True

theorem call_remembers (call : OrderCall) : Remembers Kept call.run none := by
  cases call with
  | place b req =>
    have hplace := remembers_place b req
    exact ⟨.bind hplace.along (fun _ _ h => h) fun _ _ _ => trivial,
      .bind hplace.asks fun _ => trivial⟩
  | cancel b o =>
    exact ⟨.bind (along_any _ _) (fun _ _ _ => trivial) fun _ _ _ => trivial,
      .bind (requesting_cancel b o) fun _ => trivial⟩

/-! ## 2. What is in `_acks` -/

variable {ι : Type} [DecidableEq ι] {kind : LedgerKind} {toss : String → String}
  {calls : ι → OrderCall} {s s₁ s' : OrderState kind ι} {i j : ι} {c : String} {ack : OrderAck}

/-- The ack of an order that was accepted. -/
def ackOf (toss : String → String) (c : String) : OrderAck :=
  { accepted := true, orderId := toss c, clientOrderId := c }

/-- Nothing but accepted orders is kept, each under its client order id. -/
theorem acks_shape
    (hs : Reachable (Pool.Start SleeveWorld.Opening) (ordering kind toss calls).Step s) :
    ∀ n c ack, s.world.acks n c = some ack →
      ack = { accepted := true, orderId := ack.orderId, clientOrderId := c } := by
  refine Pool.inv (P := ordering kind toss calls) (fun i => Asks (calls i))
    (fun i => call_asks (calls i)) (fun w _ => ∀ n c ack, w.acks n c = some ack →
      ack = { accepted := true, orderId := ack.orderId, clientOrderId := c }) ?_ ?_ ?_ ?_ hs
  · intro w hw n c ack hack
    rw [hw.2 n c] at hack
    exact absurd hack (by simp)
  · intro w ph i h _
    exact h
  · intro w ph i g q x w' h hg hok hw
    obtain ⟨-, -, rfl⟩ := hw
    intro n c ack hack
    generalize calls i = call at hok
    cases hok with
    | @cache b req o =>
      change (if n = b.id ∧ c = req.clientOrderId then _ else _) = some ack at hack
      split at hack
      · next hkey =>
        obtain rfl := Option.some.inj hack
        rw [hkey.2]
      · exact h n c ack hack
    | _ => exact h n c ack hack
  · intro w ph w' h hmoves n c ack hack
    cases hmoves with
    | call hop => exact h n c ack hack
    | day today => exact h n c ack hack
    | restart m =>
      change (if n = m then none else w.acks n c) = some ack at hack
      split at hack
      · exact absurd hack (by simp)
      · exact h n c ack hack

/-- **What is kept under a client order id is the ack of its order.** -/
theorem acks_eq (hnamed : ∀ c, toss c ≠ "")
    (hs : Reachable (Pool.Start SleeveWorld.Opening) (ordering kind toss calls).Step s) {n : ℕ}
    (hack : s.world.acks n c = some ack) : ack = ackOf toss c := by
  have hshape := acks_shape hs n c ack hack
  have hlinks := (orderInv hnamed hs).acks n c ack hack (by rw [hshape])
  rw [hshape, hlinks.orderId]
  rfl

/-- The step with which an accepted ack is returned leaves it in `_acks`. -/
theorem kept_of_returns
    (hs : Reachable (Pool.Start SleeveWorld.Opening) (ordering kind toss calls).Step s)
    (hcall : calls i = .place b req) (hstep : (ordering kind toss calls).Step s s₁)
    (hbefore : s.returned i = none) (hreturned : s₁.returned i = some (.ack ack))
    (hacc : ack.accepted = true) : s₁.world.acks b.id req.clientOrderId = some ack := by
  have hmoved : s₁.thread i ≠ s.thread i := by
    intro hsame
    rw [Pool.State.returned, hsame, ← Pool.State.returned, hbefore] at hreturned
    exact absurd hreturned (by simp)
  obtain ⟨g, hg, hkept⟩ : ∃ g, Pool.phase (fun _ => lastAck) (fun _ => none) s₁ i = some g ∧
      Kept g (.ok (.ack ack)) := Pool.fin_returned (P := ordering kind toss calls)
    (fun _ _ _ => True) (fun i => (call_remembers (calls i)).along) (hs.step hstep) hreturned
  have hlast : g = some ack := hkept hacc
  rcases hstep.of_moved hmoved with ⟨-, rfl⟩ | ⟨past, upd, k, hi, rfl⟩ |
    ⟨past, q, k, x, w, hi, hw, rfl⟩
  · -- Before anything was asked nothing was found.
    rw [Pool.phase_put, Function.update_self] at hg
    obtain rfl := Option.some.inj hg
    exact absurd hlast (by simp [Pool.phaseOf])
  · exact (Pool.requesting hs i _ hi (call_remembers (calls i)).asks).elim
  · obtain ⟨hgives, -, rfl⟩ := hw
    obtain ⟨stage, -, hok⟩ := Pool.ok_of_await (fun i => Asks (calls i))
      (fun i => call_asks (calls i)) hs hi
    have hg' : Pool.phase (fun _ => lastAck) (fun _ => none) s i ≠ none := by
      simp [Pool.phase, hi]
    obtain ⟨g₀, hg₀⟩ := Option.ne_none_iff_exists'.mp hg'
    rw [Pool.phase_answered hi hg₀ x] at hg
    obtain rfl := Option.some.inj hg
    rw [hcall] at hok
    cases hok with
    | look => exact Eq.trans (Eq.symm hgives) hlast
    | cache o =>
      show (if b.id = b.id ∧ req.clientOrderId = req.clientOrderId then _ else _) = some ack
      rw [if_pos ⟨rfl, rfl⟩]
      exact hlast
    | _ => exact absurd hlast (by simp [lastAck])

/-! ## 3. The calls that come later -/

/-- The broker is restarted: what it kept is gone, and nothing else has happened. -/
def restarted (n : ℕ) (w : SleeveWorld kind) : SleeveWorld kind :=
  { w with acks := fun m c => if m = n then none else w.acks m c }

/-- A step with which the broker is not restarted. -/
def Keeping (kind : LedgerKind) (toss : String → String) (calls : ι → OrderCall) (n : ℕ)
    (s s' : OrderState kind ι) : Prop :=
  (ordering kind toss calls).Step s s' ∧ s'.world ≠ restarted n s.world

theorem reachable_of_keeping {n : ℕ}
    (h : Reachable (· = s) (Keeping kind toss calls n) s') :
    Reachable (· = s) (ordering kind toss calls).Step s' := by
  induction h with
  | start heq => exact .start heq
  | step _ hstep ih => exact ih.step hstep.1

/-- Nobody takes an ack away: it is replaced, or gone with a restart. -/
theorem Keeping.acks {n : ℕ} (h : Keeping kind toss calls n s s')
    (hack : (s.world.acks n c).isSome) : (s'.world.acks n c).isSome := by
  obtain ⟨hstep, hup⟩ := h
  cases hstep with
  | start i hi => exact hack
  | silent hi => exact hack
  | @answered i past q k w x hi hw =>
    obtain ⟨-, -, rfl⟩ := hw
    cases q with
    | cacheAck b c' ack =>
      show (if n = b ∧ c = c' then some ack else s.world.acks n c).isSome
      split
      · rfl
      · exact hack
    | _ => exact hack
  | env hw =>
    cases hw with
    | call hop => exact hack
    | day today => exact hack
    | restart m =>
      have hne : n ≠ m := fun heq => hup (by rw [heq]; rfl)
      show (if n = m then none else s.world.acks n c).isSome
      rw [if_neg hne]
      exact hack

/-- The call has not looked yet; or it has, and has returned what it found. -/
def Settled (run : Prog OrderResult) (n : ℕ) (c : String) (ack : OrderAck)
    (th : Thread BrokerReq.Resp Exc OrderResult) : Prop :=
  th = ⟨[], run⟩ ∨ th = ⟨[⟨.cachedAck n c, some ack⟩], .ret (.ack ack)⟩

/-- A `place` looks first, and returns what it finds. -/
theorem run_looks (b : TossBroker) (hc : req.clientOrderId ≠ "") :
    ∃ k, (OrderCall.place b req).run = .await (.cachedAck b.id req.clientOrderId) k ∧
      ∀ ack, k (some ack) = .ret (.ack ack) := by
  unfold OrderCall.run TossBroker.place TossBroker.cached
  simp only [if_neg hc]
  exact ⟨_, rfl, fun _ => rfl⟩

omit [DecidableEq ι] in
/-- One step of a call that came later. -/
theorem settled_answered {past : List (Event BrokerReq.Resp)} {q : BrokerReq}
    {k : q.Resp → Prog OrderResult} {x : q.Resp} (hc : req.clientOrderId ≠ "")
    (hack : s.world.acks b.id req.clientOrderId = some ack) (hgives : s.world.Gives ⟨q, x⟩)
    (h : Settled (OrderCall.place b req).run b.id req.clientOrderId ack ⟨past, .await q k⟩) :
    Settled (OrderCall.place b req).run b.id req.clientOrderId ack
      ⟨past ++ [(⟨q, x⟩ : Event BrokerReq.Resp)], k x⟩ := by
  rcases h with hnew | hdone
  · obtain ⟨look, hrun, hlook⟩ := run_looks b hc
    rw [hrun] at hnew
    cases hnew
    obtain rfl : x = some ack := Eq.trans hgives hack
    exact .inr (by rw [hlook]; rfl)
  · exact absurd (congrArg Thread.rest hdone) (by simp)

/-- What is known of the calls that had not started. -/
theorem settled_since (hnamed : ∀ c, toss c ≠ "")
    (hs : Reachable (Pool.Start SleeveWorld.Opening) (ordering kind toss calls).Step s)
    (hc : c ≠ "") {n : ℕ} (hack : s.world.acks n c = some ack)
    (hlater : Reachable (· = s) (Keeping kind toss calls n) s') :
    s'.world.acks n c = some ack ∧ ∀ j th, s'.thread j = some th → ∀ b req,
      calls j = .place b req → b.id = n → req.clientOrderId = c → s.thread j = none →
        Settled (calls j).run n c ack th := by
  induction hlater with
  | @start t heq =>
    obtain rfl : t = s := heq
    refine ⟨hack, fun j th hth b req _ _ _ hnone => ?_⟩
    rw [hnone] at hth
    exact absurd hth (by simp)
  | @step t t' hlater hstep ih =>
    obtain ⟨hack', ih⟩ := ih
    have hkept : (t'.world.acks n c).isSome := hstep.acks (by rw [hack']; rfl)
    obtain ⟨hstep, -⟩ := hstep
    refine ⟨?_, ?_⟩
    · -- What is under the id afterwards is the ack of the same order.
      obtain ⟨ack', hnow⟩ := Option.isSome_iff_exists.mp hkept
      have hreach := (hs.trans (reachable_of_keeping hlater)).step hstep
      rw [hnow, acks_eq hnamed hreach hnow, ← acks_eq hnamed hs hack]
    · cases hstep with
      | start i hi => exact Pool.forall_put rfl ih fun b req _ _ _ _ => .inl rfl
      | @silent i past upd k hi =>
        refine Pool.forall_put (u := .mk past (k ())) rfl ih fun b req _ _ _ _ => ?_
        have honly := (call_remembers (calls i)).asks
        exact (Pool.requesting (hs.trans (reachable_of_keeping hlater)) i _ hi honly).elim
      | @answered i past q k w x hi hw =>
        refine Pool.forall_put (u := .mk (past ++ [⟨q, x⟩]) (k x)) (t := { t with world := w })
          rfl ih fun b req hcall hn hkey hnone => ?_
        have hbefore := ih i _ hi b req hcall hn hkey hnone
        subst hn hkey
        rw [hcall] at hbefore ⊢
        exact settled_answered hc hack' hw.1 hbefore
      | env hw => exact ih

/-- **An order is placed once.** With the step with which a `place` returns an accepted ack the
    broker has it; from then on, and until that broker is restarted, every call of `place` that
    starts for the same client order id returns that ack and asks for nothing but that; and whatever
    is accepted under the id, by any broker and after any restart, is the same order. -/
theorem place_repeats (hnamed : ∀ c, toss c ≠ "")
    (hs : Reachable (Pool.Start SleeveWorld.Opening) (ordering kind toss calls).Step s)
    (hcall : calls i = .place b req) (hstep : (ordering kind toss calls).Step s s₁)
    (hbefore : s.returned i = none) (hreturned : s₁.returned i = some (.ack ack))
    (hacc : ack.accepted = true) : s₁.world.acks b.id req.clientOrderId = some ack ∧
    (∀ s', Reachable (· = s₁) (Keeping kind toss calls b.id) s' →
      ∀ j b' req' th, calls j = .place b' req' → b'.id = b.id →
        req'.clientOrderId = req.clientOrderId → s₁.thread j = none → s'.thread j = some th →
        Settled (calls j).run b.id req.clientOrderId ack th) ∧
    ∀ s', Reachable (· = s₁) (ordering kind toss calls).Step s' →
      ∀ j b' req' ack', calls j = .place b' req' → req'.clientOrderId = req.clientOrderId →
        s'.returned j = some (.ack ack') → ack'.accepted = true → ack'.orderId = ack.orderId := by
  have hs₁ := hs.step hstep
  have hlinks := links_of_accepted hnamed hs₁ hcall hreturned hacc
  have hkept := kept_of_returns hs hcall hstep hbefore hreturned hacc
  refine ⟨hkept, ?_, ?_⟩
  · intro s' hlater j b' req' th hcall' hn hkey hnone hth
    exact (settled_since hnamed hs₁ hlinks.keyed hkept hlater).2 j th hth b' req' hcall' hn hkey
      hnone
  · intro s' hlater j b' req' ack' hcall' hkey hreturned' hacc'
    have hlinks' := links_of_accepted hnamed (hs₁.trans hlater) hcall' hreturned' hacc'
    rw [hlinks'.orderId, hlinks.orderId, hkey]

/-! The sale is asked for three times: by its broker twice, and by another. -/

inductive Insistence where
  | first | again | elsewhere
  deriving DecidableEq

def Insistence.call : Insistence → OrderCall
  | .elsewhere => .place { id := 1 } (.limit .SELL 10 100 "gd:s")
  | _ => .place { id := 0 } (.limit .SELL 10 100 "gd:s")

def insistOn (s : OrderState database Insistence)
    (turns : List (Pool.Turn Insistence PostOutcome SaleMove)) : OrderState database Insistence :=
  turns.foldl ((ordering database prefixed Insistence.call).turn answeringSale saleMove) s

theorem insistOn_reachable {start : OrderState database Insistence → Prop}
    {s : OrderState database Insistence}
    (hs : Reachable start (ordering database prefixed Insistence.call).Step s)
    (turns : List (Pool.Turn Insistence PostOutcome SaleMove)) :
    Reachable start (ordering database prefixed Insistence.call).Step (insistOn s turns) :=
  Pool.turns_reachable answeringSale_answers saleMove_moves turns s hs

/-- The call goes on once. -/
def insist (i : Insistence) (s : OrderState database Insistence) :
    OrderState database Insistence := insistOn s [.go i .connectFailed]

/-- What changed anything is a step. -/
theorem insist_step {γ : Type} (f : OrderState database Insistence → γ) {i : Insistence}
    {s : OrderState database Insistence} (h : f (insist i s) ≠ f s) :
    (ordering database prefixed Insistence.call).Step s (insist i s) := by
  rcases Pool.turn_step (P := ordering database prefixed Insistence.call)
    answeringSale_answers saleMove_moves s (.go i .connectFailed) with hsame | hstep
  · exact absurd (congrArg f hsame) h
  · exact hstep

/-- Toss has acknowledged the sale, and it is recorded; the ack is about to be kept. -/
def recorded (i : Insistence) : List (Pool.Turn Insistence PostOutcome SaleMove) :=
  List.replicate 6 (.go i .connectFailed) ++ [.go i (.answered (.of 200
    (some (.obj [("result", .obj [("orderId", .str "o-gd:s")])])))), .go i .connectFailed]

def unsaid : OrderState database Insistence :=
  insistOn { world := shares.world, thread := fun _ => none } (recorded .first)

/-- The first call returns. -/
def told : OrderState database Insistence := insist .first unsaid

def ordered : OrderAck := { accepted := true, orderId := "o-gd:s", clientOrderId := "gd:s" }

/-- The other broker is told of the sale. -/
def toldElsewhere : OrderState database Insistence :=
  insistOn told (recorded .elsewhere ++ [.go .elsewhere .connectFailed])

/-- The second call starts, and is done after one request; the other broker is told of the same
    order. -/
theorem place_repeats_told :
    told.world.acks 0 "gd:s" = some ordered ∧
    (∀ th, (insist .again (insist .again told)).thread .again = some th →
      Settled (Insistence.call .again).run 0 "gd:s" ordered th) ∧
    toldElsewhere.returned .elsewhere = some (.ack ordered) ∧
    ∀ ack, toldElsewhere.returned .elsewhere = some (.ack ack) → ack.accepted = true →
      ack.orderId = "o-gd:s" := by
  have hunsaid : Reachable (Pool.Start SleeveWorld.Opening)
      (ordering database prefixed Insistence.call).Step unsaid :=
    insistOn_reachable (.start ⟨⟨fun _ => rfl, fun _ _ => rfl⟩, fun _ => rfl⟩) _
  have htold : (ordering database prefixed Insistence.call).Step unsaid told :=
    insist_step (Pool.State.returned · .first) (by decide +kernel)
  have hcall : Insistence.first.call = .place { id := 0 } (.limit .SELL 10 100 "gd:s") := rfl
  have hreturned : told.returned .first = some (.ack ordered) := by decide +kernel
  obtain ⟨hkept, hsettled, hsame⟩ := place_repeats prefixed_ne hunsaid hcall htold
    (by decide +kernel) hreturned rfl
  refine ⟨hkept, fun th hth => ?_, by decide +kernel, fun ack hreturned hacc => ?_⟩
  · -- Two steps, after each of which the broker has the ack.
    have hup : ∀ s : OrderState database Insistence, (s.world.acks 0 "gd:s").isSome = true →
        ∀ w, s.world ≠ restarted 0 w := fun s hacks w heq => by
      rw [heq] at hacks
      exact Bool.false_ne_true hacks
    have hstarts := insist_step (s := told) (i := .again)
      (fun s => (s.thread .again).isSome) (by decide +kernel)
    have hlooks := insist_step (s := insist .again told) (i := .again)
      (Pool.State.returned · .again) (by decide +kernel)
    have hfrom : Reachable (· = told) (Keeping database prefixed Insistence.call 0) told :=
      .start rfl
    exact hsettled _ ((hfrom.step ⟨hstarts, hup _ (by decide +kernel) _⟩).step
      ⟨hlooks, hup _ (by decide +kernel) _⟩) .again _ _ th rfl rfl rfl (by decide +kernel) hth
  · have hfrom : Reachable (· = told) (ordering database prefixed Insistence.call).Step told :=
      .start rfl
    exact hsame _ (insistOn_reachable hfrom _) .elsewhere _ _ ack rfl rfl hreturned hacc

end Proof.Repeats
end TossSleeve
