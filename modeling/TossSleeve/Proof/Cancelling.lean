import TossSleeve.Proof.Stages

/-!
# `Proof/Cancelling.lean` — an accepted order can be cancelled

`cancel` is told an order id of Toss, and the ledger knows orders by their client order ids. The
link is a column of the rows of `orders`, and nothing protects it: a retry registers the order
again, with no order id; so does whoever calls the ledger past the broker; and the cache of acks,
which knows the id as well, is lost with every restart.

§1 is the invariant: the ids of the rows are a `Register` that is faithful to Toss. From an accepted
ack on, a cancellation that succeeds therefore finds its order, and §2 is what it does to it.
-/

set_option autoImplicit false

namespace TossSleeve

open Lib Lib.Proc

namespace Proof.Cancelling

open OrderStage

/-! ## 1. The ids of the rows -/

variable {kind : LedgerKind} {toss : String → String} {l l' : kind.State} {c o : String}

/-- The row of the order has the order id that Toss has for it. -/
structure Links (toss : String → String) (l : kind.State) (c o : String) : Prop where
  keyed : c ≠ ""
  orderId : o = toss c
  named : kind.names l c = some o

theorem Links.keeps (h : Links toss l c o) (hnamed : ∀ c, toss c ≠ "")
    (hkeeps : Register.Keeps "" (kind.names l) (kind.names l')) : Links toss l' c o :=
  ⟨h.keyed, h.orderId, hkeeps c o h.named (h.orderId ▸ hnamed c)⟩

/-- **An operation that knows no order id, or the right one, keeps the ids.** -/
theorem names_kept (h : Register.Faithful "" toss (kind.names l)) (today : String) {op : LedgerOp}
    (hop : ∀ e ∈ op.registers, e.2 = "" ∨ e.2 = toss e.1) :
    Register.Faithful "" toss (kind.names (kind.step l today op).1) ∧
      Register.Keeps "" (kind.names l) (kind.names (kind.step l today op).1) := by
  rcases kind.names_step l today op with hsame | ⟨c, o, hreg, hwrite⟩
  · rw [hsame]
    exact ⟨h, .refl _⟩
  · have ho : o = "" ∨ o = toss c := hop (c, o) hreg
    rw [hwrite]
    exact ⟨h.write ho, h.keeps ho⟩

/-- What a call knows of the ledger. -/
def Knows (toss : String → String) (l : kind.State) : OrderCall → OrderStage → Prop
  | .place _ req, .named o => o = toss req.clientOrderId
  | .place _ req, .linked o => Links toss l req.clientOrderId o
  | .place _ req, .cached ack => ack.accepted = true → Links toss l req.clientOrderId ack.orderId
  | _, _ => True

theorem knows_waiting (call : OrderCall) : Knows toss l call .waiting := by
  cases call <;> exact trivial

theorem knows_cancel (b : TossBroker) (o : String) (g : OrderStage) :
    Knows toss l (.cancel b o) g := by
  cases g <;> exact trivial

theorem Knows.keeps {call : OrderCall} {g : OrderStage} (h : Knows toss l call g)
    (hnamed : ∀ c, toss c ≠ "") (hkeeps : Register.Keeps "" (kind.names l) (kind.names l')) :
    Knows toss l' call g := by
  cases call with
  | cancel b o => exact knows_cancel b o g
  | place b req =>
    cases g with
    | named o => exact h
    | linked o => exact Links.keeps h hnamed hkeeps
    | cached ack => exact fun hack => (h hack).keeps hnamed hkeeps
    | waiting => exact trivial
    | found x => exact trivial
    | marked c => exact trivial

variable {ι : Type} {calls : ι → OrderCall} {w w' : SleeveWorld kind} {ph : ι → Option OrderStage}

/-- The ids of the rows are those of Toss, and whoever has an accepted ack finds its order. -/
structure OrderInv (toss : String → String) (calls : ι → OrderCall) (w : SleeveWorld kind)
    (ph : ι → Option OrderStage) : Prop where
  faithful : Register.Faithful "" toss (kind.names w.ledger)
  acks : ∀ b c ack, w.acks b c = some ack → ack.accepted = true → Links toss w.ledger c ack.orderId
  knows : ∀ i g, ph i = some g → Knows toss w.ledger (calls i) g

namespace OrderInv

/-- The ledger did something that keeps the ids. -/
theorem operate (h : OrderInv toss calls w ph) (hnamed : ∀ c, toss c ≠ "") (today : String)
    {op : LedgerOp} (hop : ∀ e ∈ op.registers, e.2 = "" ∨ e.2 = toss e.1) :
    OrderInv toss calls { w with ledger := (kind.step w.ledger today op).1 } ph := by
  obtain ⟨hfaithful, hkeeps⟩ := names_kept h.faithful today hop
  refine ⟨hfaithful, fun b c ack hack hacc => ?_, fun i g hg => ?_⟩
  · exact (h.acks b c ack hack hacc).keeps hnamed hkeeps
  · exact (h.knows i g hg).keeps hnamed hkeeps

variable [DecidableEq ι]

/-- One call has moved. -/
theorem move (h : OrderInv toss calls w ph) {i : ι} {g : OrderStage}
    (hg : Knows toss w.ledger (calls i) g) :
    OrderInv toss calls w (Function.update ph i (some g)) :=
  ⟨h.faithful, h.acks, Pool.forall_update hg fun j p _ hj => h.knows j p hj⟩

end OrderInv

theorem blank_or (toss : String → String) {op : LedgerOp} (h : op.Blank) :
    ∀ e ∈ op.registers, e.2 = "" ∨ e.2 = toss e.1 :=
  fun e he => .inl (h e he)

theorem orderInv_moves (hnamed : ∀ c, toss c ≠ "") (h : OrderInv toss calls w ph)
    (hmoves : w.Moves w') : OrderInv toss calls w' ph := by
  cases hmoves with
  | call hop => exact h.operate hnamed w.today (blank_or toss hop)
  | day today => exact ⟨h.faithful, h.acks, h.knows⟩
  | restart b =>
    refine ⟨h.faithful, fun b' c ack hack hacc => ?_, h.knows⟩
    change (if b' = b then none else w.acks b' c) = some ack at hack
    split at hack
    · exact absurd hack (by simp)
    · exact h.acks b' c ack hack hacc

/-- A call names an order with the order id that Toss has for it. -/
theorem registers_of_asks {call : OrderCall} {g : OrderStage} {op : LedgerOp}
    (hok : Asks call g (.ledger op)) (hknows : Knows toss l call g) :
    ∀ e ∈ op.registers, e.2 = "" ∨ e.2 = toss e.1 := by
  cases hok with
  | blank hop => exact blank_or toss hop
  | record o hc =>
    intro e he
    obtain rfl := Option.some.inj he
    exact .inr hknows
  | mark hc => exact fun e he => absurd he (by simp [LedgerOp.registers])

variable [DecidableEq ι]

/-- A request of a `place`. -/
theorem orderInv_place (hnamed : ∀ c, toss c ≠ "") {b : TossBroker} {req : OrderRequest} {i : ι}
    (hcall : calls i = .place b req) (h : OrderInv toss calls w ph) {g : OrderStage}
    (hg : ph i = some g) {q : BrokerReq} {x : q.Resp} (hok : Asks (.place b req) g q)
    (hgives : w.Gives ⟨q, x⟩) (htrue : Truthful toss ⟨q, x⟩) :
    OrderInv toss calls (w.after ⟨q, x⟩)
      (Function.update ph i (some (next (.place b req) g ⟨q, x⟩))) := by
  have hknows := h.knows i g hg
  rw [hcall] at hknows
  have hwait : ∀ w' : SleeveWorld kind, OrderInv toss calls w' ph →
      OrderInv toss calls w' (Function.update ph i (some .waiting)) :=
    fun w' h' => h'.move (knows_waiting (calls i))
  cases hok with
  | look =>
    refine h.move ?_
    rw [hcall]
    cases x with
    | none => exact hknows
    | some ack => exact h.acks b.id req.clientOrderId ack (hgives : _ = _).symm
  | @blank _ _ op hop =>
    rw [next_ledger]
    exact hwait _ (h.operate hnamed w.today (blank_or toss hop))
  | record o hc =>
    have hregisters := registers_of_asks (l := w.ledger) (Asks.record (b := b) o hc) hknows
    refine (h.operate hnamed w.today hregisters).move ?_
    obtain rfl : o = toss req.clientOrderId := hknows
    rw [hcall]
    refine ⟨hc, rfl, ?_⟩
    show kind.names (kind.step w.ledger w.today _).1 _ = _
    rw [LedgerKind.names_recordOrder, Register.write, Function.update_self, if_neg (hnamed _)]
  | cache o =>
    refine OrderInv.move (w := w.after ⟨.cacheAck _ _ _, x⟩)
      ⟨h.faithful, fun b' c ack hack hacc => ?_, h.knows⟩ ?_
    · change (if b' = b.id ∧ c = req.clientOrderId then _ else _) = some ack at hack
      split at hack
      · next hkey =>
        obtain rfl := Option.some.inj hack
        rw [hkey.2]
        exact hknows
      · exact h.acks b' c ack hack hacc
    · rw [hcall]
      exact hknows
  | authHeaders => exact hwait _ h
  | invalidate => exact hwait _ h
  | accountSeq => exact hwait _ h
  | acquire => exact hwait _ h
  | order hc headers =>
    refine h.move ?_
    rw [hcall]
    cases x with
    | connectFailed => exact trivial
    | sendFailed => exact trivial
    | answered r =>
      show Knows toss w.ledger (.place b req) (if _ then _ else _)
      split
      · next hr =>
        refine htrue (buildBody req, r) rfl hr.1 hr.2 req.clientOrderId ?_
        rw [buildBody, if_neg hc]
        rfl
      · exact trivial

/-- A request of a `cancel`. -/
theorem orderInv_cancel (hnamed : ∀ c, toss c ≠ "") {b : TossBroker} {orderId : String} {i : ι}
    (hcall : calls i = .cancel b orderId) (h : OrderInv toss calls w ph) {g g' : OrderStage}
    {q : BrokerReq} {x : q.Resp} (hok : Asks (.cancel b orderId) g q) :
    OrderInv toss calls (w.after ⟨q, x⟩) (Function.update ph i (some g')) := by
  have hany : ∀ w' : SleeveWorld kind, OrderInv toss calls w' ph →
      OrderInv toss calls w' (Function.update ph i (some g')) :=
    fun w' h' => h'.move (hcall ▸ knows_cancel b orderId g')
  cases hok with
  | @mark _ _ c hc =>
    have hblank : (LedgerOp.markOrderTerminal c .CANCELLED).Blank := by
      simp [LedgerOp.Blank, LedgerOp.registers]
    exact hany _ (h.operate hnamed w.today (blank_or toss hblank))
  | lookUp => exact hany _ h
  | authHeaders => exact hany _ h
  | invalidate => exact hany _ h
  | accountSeq => exact hany _ h
  | acquire => exact hany _ h
  | cancel headers => exact hany _ h

theorem orderInv_answered (hnamed : ∀ c, toss c ≠ "") {i : ι} {g : OrderStage} {q : BrokerReq}
    {x : q.Resp} (h : OrderInv toss calls w ph) (hg : ph i = some g) (hok : Asks (calls i) g q)
    (hgives : w.Gives ⟨q, x⟩) (htrue : Truthful toss ⟨q, x⟩) : OrderInv toss calls (w.after ⟨q, x⟩)
      (Function.update ph i (some (next (calls i) g ⟨q, x⟩))) := by
  generalize hcall : calls i = call at hok ⊢
  cases call with
  | place b req => exact orderInv_place hnamed hcall h hg hok hgives htrue
  | cancel b orderId => exact orderInv_cancel hnamed hcall h hok

section Runs

abbrev OrderState (kind : LedgerKind) (ι : Type) : Type :=
  Pool.State (SleeveWorld kind) ι BrokerReq.Resp Exc OrderResult

/-- The stages of the calls. -/
abbrev stages (calls : ι → OrderCall) (s : OrderState kind ι) : ι → Option OrderStage :=
  Pool.phase (fun i => next (calls i)) (fun _ => .waiting) s

variable {s s' s'' : OrderState kind ι}

theorem orderInv (hnamed : ∀ c, toss c ≠ "")
    (hs : Reachable (Pool.Start SleeveWorld.Opening) (ordering kind toss calls).Step s) :
    OrderInv toss calls s.world (stages calls s) := by
  refine Pool.inv (fun i => Asks (calls i)) (fun i => call_asks (calls i)) (OrderInv toss calls)
    ?_ ?_ ?_ ?_ hs
  · intro w hw
    refine ⟨?_, ?_, fun _ _ h => absurd h (by simp)⟩
    · intro c o h
      change (kind.order w.ledger c).map _ = some o at h
      rw [hw.1 c] at h
      exact absurd h (by simp)
    · intro b c ack h
      rw [hw.2 b c] at h
      exact absurd h (by simp)
  · intro w ph i h _
    exact h.move (knows_waiting (calls i))
  · intro w ph i g q x w' h hg hok hw
    obtain ⟨hgives, htrue, rfl⟩ := hw
    exact orderInv_answered hnamed h hg hok hgives htrue
  · intro w ph w' h hmoves
    exact orderInv_moves hnamed h hmoves

/-- An accepted ack names the order, and the ledger knows. -/
theorem links_of_accepted (hnamed : ∀ c, toss c ≠ "")
    (hs : Reachable (Pool.Start SleeveWorld.Opening) (ordering kind toss calls).Step s) {i : ι}
    {b : TossBroker} {req : OrderRequest} {ack : OrderAck} (hcall : calls i = .place b req)
    (hreturned : s.returned i = some (.ack ack)) (hacc : ack.accepted = true) :
    Links toss s.world.ledger req.clientOrderId ack.orderId := by
  obtain ⟨g, hg, hends⟩ := Pool.fin_returned (fun i => Asks (calls i))
    (fun i => call_asks (calls i)) hs hreturned
  have hknows := (orderInv hnamed hs).knows i g hg
  rw [hcall] at hknows hends
  rcases hends hacc with rfl | rfl
  · exact hknows
  · exact hknows hacc

/-! ## 2. What a cancellation does -/

/-- The order is closed and holds nothing back, and no other was touched. -/
structure Closes (kind : LedgerKind) (c : String) (l l' : kind.State) : Prop where
  reservation : kind.reservation l' c = none
  status : kind.orderStatus l' c = .ok (some .CANCELLED)
  openQty : ∀ ticker, kind.openQty l' ticker c = 0
  others : ∀ k, k ≠ c → kind.reservation l' k = kind.reservation l k ∧
    kind.orderStatus l' k = kind.orderStatus l k ∧
    ∀ ticker, kind.openQty l' ticker k = kind.openQty l ticker k

omit [DecidableEq ι] in
theorem closes_mark (h : kind.names l c = some o) (today : String) :
    Closes kind c l (kind.step l today (.markOrderTerminal c .CANCELLED)).1 := by
  obtain ⟨row, hrow, -⟩ := LedgerKind.names_some h
  have horder : kind.order (kind.step l today (.markOrderTerminal c .CANCELLED)).1 c =
      some { row with status := .CANCELLED } := by
    rw [LedgerKind.order_markOrderTerminal, if_pos rfl, hrow]
    rfl
  constructor
  · rw [LedgerKind.reservation_markOrderTerminal, if_pos rfl]
  · rw [LedgerKind.orderStatus_eq, horder]
    rfl
  · intro ticker
    rw [LedgerKind.openQty_eq, horder]
    have hclosed : OrderStatus.CANCELLED ∉ openStatuses := by decide
    exact LedgerKind.share_of_status hclosed
  · intro k hk
    refine ⟨?_, ?_, fun ticker => ?_⟩
    · rw [LedgerKind.reservation_markOrderTerminal, if_neg hk]
    · rw [LedgerKind.orderStatus_eq, LedgerKind.orderStatus_eq, LedgerKind.order_markOrderTerminal,
        if_neg hk]
    · rw [LedgerKind.openQty_eq, LedgerKind.openQty_eq, LedgerKind.order_markOrderTerminal,
        if_neg hk, LedgerKind.filled_markOrderTerminal]

/-- What a cancellation has found, once the ledger knows whose the order is. -/
def Finds (c : String) : OrderStage → Prop
  | .found x => x = some c
  | .marked c' => c' = c
  | _ => True

/-- The ledger knows the order, and whoever of these looked it up has found it. -/
structure Known (toss : String → String) (calls : ι → OrderCall) (c o : String) (later : ι → Prop)
    (w : SleeveWorld kind) (ph : ι → Option OrderStage) : Prop where
  inv : OrderInv toss calls w ph
  links : Links toss w.ledger c o
  finds : ∀ j b g, calls j = .cancel b o → later j → ph j = some g → Finds c g

omit [DecidableEq ι] in
/-- **The order id of a linked order is found.** -/
theorem OrderInv.clientOrderIdFor (h : OrderInv toss calls w ph)
    (hinj : Function.Injective toss) (hnamed : ∀ c, toss c ≠ "")
    (hlinks : Links toss w.ledger c o) : kind.clientOrderIdFor w.ledger o = .ok (some c) := by
  refine LedgerKind.clientOrderIdFor_eq hlinks.named fun k hk => ?_
  rw [hlinks.orderId] at hk
  exact h.faithful.unique hinj (hnamed c) hk

omit [DecidableEq ι] in
theorem keeps_after (h : OrderInv toss calls w ph) {i : ι} {g : OrderStage} (hg : ph i = some g)
    {q : BrokerReq} (hok : Asks (calls i) g q) (x : q.Resp) :
    Register.Keeps "" (kind.names w.ledger) (kind.names (w.after ⟨q, x⟩).ledger) := by
  cases q with
  | ledger op =>
    exact (names_kept h.faithful w.today (registers_of_asks hok (h.knows i g hg))).2
  | _ => exact .refl _

omit [DecidableEq ι] in
theorem keeps_moves (h : OrderInv toss calls w ph) (hmoves : w.Moves w') :
    Register.Keeps "" (kind.names w.ledger) (kind.names w'.ledger) := by
  cases hmoves with
  | call hop => exact (names_kept h.faithful w.today (blank_or toss hop)).2
  | day today => exact .refl _
  | restart b => exact .refl _

/-- What is found is what the ledger knows. -/
theorem finds_next {b : TossBroker} {g : OrderStage} {q : BrokerReq} {x : q.Resp}
    (hknown : kind.clientOrderIdFor w.ledger o = .ok (some c)) (hg : Finds c g)
    (hok : Asks (.cancel b o) g q) (hgives : w.Gives ⟨q, x⟩) :
    Finds c (next (.cancel b o) g ⟨q, x⟩) := by
  cases hok with
  | lookUp => exact Except.ok.inj (Eq.trans (Eq.symm hgives) hknown)
  | mark hc =>
    cases x with
    | raised e => exact hg
    | done => exact Option.some.inj hg
    | verdict v => exact Option.some.inj hg
  | authHeaders => exact trivial
  | invalidate => exact trivial
  | accountSeq => exact trivial
  | acquire => exact trivial
  | cancel headers => exact trivial

/-- **From an accepted ack on, the order is known.** -/
theorem known_since (hinj : Function.Injective toss) (hnamed : ∀ c, toss c ≠ "")
    (hs : Reachable (Pool.Start SleeveWorld.Opening) (ordering kind toss calls).Step s)
    (hlinks : Links toss s.world.ledger c o)
    (hlater : Reachable (· = s) (ordering kind toss calls).Step s') :
    Known toss calls c o (fun j => s.thread j = none) s'.world (stages calls s') := by
  refine Pool.inv_since (fun i => Asks (calls i)) (fun i => call_asks (calls i))
    (Known toss calls c o fun j => s.thread j = none) ?_ ?_ ?_ hs
    ⟨orderInv hnamed hs, hlinks, ?_⟩ hlater
  · intro w ph i h _
    refine ⟨h.inv.move (knows_waiting (calls i)), h.links, ?_⟩
    intro j b g hcall hnone hg
    by_cases hji : j = i
    · subst hji
      rw [Function.update_self] at hg
      obtain rfl := Option.some.inj hg
      exact trivial
    · rw [Function.update_of_ne hji] at hg
      exact h.finds j b g hcall hnone hg
  · intro w ph i g q x w' h hg hok hw
    obtain ⟨hgives, htrue, rfl⟩ := hw
    refine ⟨orderInv_answered hnamed h.inv hg hok hgives htrue,
      h.links.keeps hnamed (keeps_after h.inv hg hok x), ?_⟩
    intro j b g' hcall hnone hg'
    by_cases hji : j = i
    · subst hji
      rw [Function.update_self] at hg'
      obtain rfl := Option.some.inj hg'
      have hfinds := h.finds j b g hcall hnone hg
      rw [hcall] at hok ⊢
      exact finds_next (h.inv.clientOrderIdFor hinj hnamed h.links) hfinds hok hgives
    · rw [Function.update_of_ne hji] at hg'
      exact h.finds j b g' hcall hnone hg'
  · intro w ph w' h hmoves
    exact ⟨orderInv_moves hnamed h.inv hmoves,
      h.links.keeps hnamed (keeps_moves h.inv hmoves), h.finds⟩
  · intro j b g _ hnone hg
    change (s.thread j).map _ = some g at hg
    rw [hnone] at hg
    exact absurd hg (by simp)

omit [DecidableEq ι] in
theorem requesting_run {j : ι} {b : TossBroker} (hcall : calls j = .cancel b o) :
    (calls j).run.Requesting := by
  rw [hcall]
  exact .bind (requesting_cancel b o) fun _ => trivial

/-- A cancellation that marked its order has returned. -/
theorem returned_of_marked
    (hs : Reachable (Pool.Start SleeveWorld.Opening) (ordering kind toss calls).Step s) {j : ι}
    {b : TossBroker} (hcall : calls j = .cancel b o) (hg : stages calls s j = some (.marked c)) :
    s.returned j = some (.cancelled true) := by
  have hprog : ∀ i, ((ordering kind toss calls).program i).Along (next (calls i)) (Asks (calls i))
      (Ends (calls i)) .waiting := fun i => call_asks (calls i)
  obtain ⟨⟨past, rest⟩, hth, hphase⟩ := Option.map_eq_some_iff.mp hg
  have halong := Pool.disciplined (fun i => Asks (calls i)) hprog hs j _ hth
  have hasks := Pool.requesting hs j _ hth (requesting_run hcall)
  rw [hphase, hcall] at halong
  cases rest with
  | ret r =>
    cases r with
    | ack ack => exact absurd rfl (halong c)
    | cancelled done =>
      cases done with
      | false => exact absurd rfl (halong c)
      | true => rw [Pool.State.returned, hth]
  | raise e => exact absurd rfl (halong c)
  | act upd k => exact hasks.elim
  | await q k => cases halong.1

/-- A cancellation that has not marked its order has not returned `True`. -/
theorem not_returned {later : ι → Prop}
    (hs : Reachable (Pool.Start SleeveWorld.Opening) (ordering kind toss calls).Step s)
    (hknown : Known toss calls c o later s.world (stages calls s)) {j : ι} {b : TossBroker}
    (hcall : calls j = .cancel b o) (hnone : later j) {g : OrderStage}
    (hg : stages calls s j = some g) (hmarked : ∀ c, g ≠ .marked c) :
    s.returned j ≠ some (.cancelled true) := by
  intro hreturned
  obtain ⟨g', hg', hends⟩ := Pool.fin_returned (fun i => Asks (calls i))
    (fun i => call_asks (calls i)) hs hreturned
  obtain rfl : g = g' := Option.some.inj (hg.symm.trans hg')
  have hfinds := hknown.finds j b g hcall hnone hg
  rw [hcall] at hends
  rcases hends with ⟨c', hc'⟩ | rfl | rfl
  · exact hmarked c' hc'
  · exact absurd hfinds (by simp [Finds])
  · exact hknown.links.keyed (Option.some.inj hfinds).symm

/-- **One step of a cancellation** leaves the ledger alone, or closes the order and is the last. -/
theorem cancel_step {later : ι → Prop}
    (hs : Reachable (Pool.Start SleeveWorld.Opening) (ordering kind toss calls).Step s)
    (hknown : Known toss calls c o later s.world (stages calls s))
    (hstep : (ordering kind toss calls).Step s s')
    (hknown' : Known toss calls c o later s'.world (stages calls s')) {j : ι} {b : TossBroker}
    (hcall : calls j = .cancel b o) (hnone : later j) (hmoved : s'.thread j ≠ s.thread j) :
    if s'.returned j = some (.cancelled true) then Closes kind c s.world.ledger s'.world.ledger
    else s'.world.ledger = s.world.ledger := by
  have hs' := hs.step hstep
  have hquiet : ∀ g, stages calls s' j = some g → (∀ c, g ≠ .marked c) →
      s'.world.ledger = s.world.ledger →
      if s'.returned j = some (.cancelled true) then Closes kind c s.world.ledger s'.world.ledger
      else s'.world.ledger = s.world.ledger := by
    intro g hg hmarked hsame
    rw [if_neg (not_returned hs' hknown' hcall hnone hg hmarked)]
    exact hsame
  rcases hstep.of_moved hmoved with ⟨-, rfl⟩ | ⟨past, upd, k, hj, -⟩ |
    ⟨past, q, k, x, w, hj, hw, rfl⟩
  · refine hquiet .waiting ?_ (by simp) rfl
    rw [stages, Pool.phase_put, Function.update_self]
    rfl
  · exact (Pool.requesting hs j _ hj (requesting_run hcall)).elim
  · obtain ⟨hgives, -, rfl⟩ := hw
    obtain ⟨g, hg, hok⟩ := Pool.ok_of_await (fun i => Asks (calls i))
      (fun i => call_asks (calls i)) hs hj
    have hg' := Pool.phase_answered hj hg x (s.world.after ⟨q, x⟩)
    have hfinds := hknown.finds j b g hcall hnone hg
    rw [hcall] at hok hg'
    cases hok with
    | mark hc =>
      obtain rfl := Option.some.inj hfinds
      obtain rfl : x = .done := Eq.trans hgives (LedgerKind.reply_markOrderTerminal ..)
      rw [if_pos (returned_of_marked hs' hcall hg')]
      exact closes_mark hknown.links.named s.world.today
    | lookUp => exact hquiet _ hg' (by simp [next]) rfl
    | authHeaders => exact hquiet _ hg' (by simp [next]) rfl
    | invalidate => exact hquiet _ hg' (by simp [next]) rfl
    | accountSeq => exact hquiet _ hg' (by simp [next]) rfl
    | acquire => exact hquiet _ hg' (by simp [next]) rfl
    | cancel headers => exact hquiet _ hg' (by simp [next]) rfl

/-- **An accepted order can be cancelled.** From the acceptance on, the ledger knows whose the order
    id is, whatever else is registered and whichever acks are lost; and of a cancellation that comes
    later no step touches the ledger, unless it is the last one, and the order is cancelled. -/
theorem accepted_stays_cancellable (hinj : Function.Injective toss) (hnamed : ∀ c, toss c ≠ "")
    (hs : Reachable (Pool.Start SleeveWorld.Opening) (ordering kind toss calls).Step s) {i : ι}
    {b : TossBroker} {req : OrderRequest} {ack : OrderAck} (hcall : calls i = .place b req)
    (hreturned : s.returned i = some (.ack ack)) (hacc : ack.accepted = true)
    (hlater : Reachable (· = s) (ordering kind toss calls).Step s') :
    kind.clientOrderIdFor s'.world.ledger ack.orderId = .ok (some req.clientOrderId) ∧
      ∀ j b s'', calls j = .cancel b ack.orderId → s.thread j = none →
        (ordering kind toss calls).Step s' s'' → s''.thread j ≠ s'.thread j →
        if s''.returned j = some (.cancelled true) then
          Closes kind req.clientOrderId s'.world.ledger s''.world.ledger
        else s''.world.ledger = s'.world.ledger := by
  have hlinks := links_of_accepted hnamed hs hcall hreturned hacc
  have hknown := known_since hinj hnamed hs hlinks hlater
  refine ⟨hknown.inv.clientOrderIdFor hinj hnamed hknown.links, ?_⟩
  intro j b s'' hcancel hnone hstep hmoved
  have hknown' := known_since hinj hnamed hs hlinks (hlater.step hstep)
  exact cancel_step (hs.trans hlater) hknown hstep hknown' hcancel hnone hmoved

/-! A sale, on a database. The shares are there; the broker is restarted, and somebody registers the
order again; it is cancelled. -/

inductive Sale where
  | sell | cancel
  deriving DecidableEq

def Sale.call : Sale → OrderCall
  | .sell => .place { id := 0 } (.limit .SELL 10 100 "gd:s")
  | .cancel => .cancel { id := 1 } "o-gd:s"

/-- Toss puts something in front. -/
def prefixed (c : String) : String := "o-" ++ c

theorem prefixed_injective : Function.Injective prefixed :=
  fun _ _ h => (String.append_right_inj "o-").mp h

theorem prefixed_ne (c : String) : prefixed c ≠ "" := by
  simp [prefixed]

inductive SaleMove where
  | call (op : LedgerOp)
  | restart (b : ℕ)

abbrev database : LedgerKind := .sqlite ⟨"a"⟩ .first

/-- The answers of a concrete run, as far as Toss tells the truth. -/
def answeringSale {ι : Type} : PostOutcome → SleeveWorld database → ι → (q : BrokerReq) →
    Option (q.Resp × SleeveWorld database) :=
  Pool.scripted (fun outcome w => w.respond outcome) (fun _ => Truthful prefixed)
    fun w _ => w.after

def saleMove (m : SaleMove) (w : SleeveWorld database) : Option (SleeveWorld database) :=
  match m with
  | .call op =>
    if op.Blank then some { w with ledger := (database.step w.ledger w.today op).1 } else none
  | .restart b => some { w with acks := fun b' c => if b' = b then none else w.acks b' c }

theorem answeringSale_answers {ι : Type} (outcome : PostOutcome) (w : SleeveWorld database) (i : ι)
    (q : BrokerReq) (x : q.Resp) (w' : SleeveWorld database)
    (h : answeringSale outcome w i q = some (x, w')) :
    w.Gives ⟨q, x⟩ ∧ Truthful prefixed ⟨q, x⟩ ∧ w' = w.after ⟨q, x⟩ := by
  obtain ⟨hrespond, htrue, rfl⟩ := Pool.of_scripted h
  exact ⟨SleeveWorld.gives_respond hrespond, htrue, rfl⟩

theorem saleMove_moves (m : SaleMove) (w w' : SleeveWorld database)
    (h : saleMove m w = some w') : w.Moves w' := by
  cases m with
  | call op =>
    unfold saleMove at h
    dsimp only at h
    split at h
    · next hop =>
      obtain rfl := Option.some.inj h
      exact .call hop
    · exact absurd h (by simp)
  | restart b =>
    obtain rfl := Option.some.inj h
    exact .restart b

/-- The run on from a state. -/
def saleOn (s : OrderState database Sale) (turns : List (Pool.Turn Sale PostOutcome SaleMove)) :
    OrderState database Sale :=
  turns.foldl ((ordering database prefixed Sale.call).turn answeringSale saleMove) s

/-- Ten shares, and nothing recorded. -/
def shares : OrderState database Sale where
  world :=
    { ledger := ((SqliteSleeveLedger.mk "a").handle
        ((SqliteSleeveLedger.mk "a").handle .empty (.opened 1000 .KRW)).1
        (.called "2024-01-02" (.applyFill (.whole "o-b" "" "005930" .BUY .KRW 10 100 0 "")))).1
      today := "2024-01-02"
      acks := fun _ _ => none }
  thread _ := none

theorem saleOn_reachable {start : OrderState database Sale → Prop} {s : OrderState database Sale}
    (hs : Reachable start (ordering database prefixed Sale.call).Step s)
    (turns : List (Pool.Turn Sale PostOutcome SaleMove)) :
    Reachable start (ordering database prefixed Sale.call).Step (saleOn s turns) :=
  Pool.turns_reachable answeringSale_answers saleMove_moves turns s hs

/-- The call goes on, so many times. -/
def going (i : Sale) (n : ℕ) : List (Pool.Turn Sale PostOutcome SaleMove) :=
  List.replicate n (.go i .connectFailed)

/-- The order is accepted. -/
def offered : OrderState database Sale :=
  saleOn shares (going .sell 6 ++ [.go .sell (.answered (.of 200
    (some (.obj [("result", .obj [("orderId", .str "o-gd:s")])]))))] ++ going .sell 2)

/-- The broker was restarted and the order registered again, and Toss has confirmed the
    cancellation. -/
def confirmed : OrderState database Sale :=
  saleOn offered ([.world (.restart 0), .world (.call (.reserveSell "gd:s" "" "005930" .KRW 10))] ++
    going .cancel 4 ++ [.go .cancel (.answered (.of 200 none))] ++ going .cancel 1)

/-- The last step of the cancellation. -/
def withdrawn : OrderState database Sale := saleOn confirmed (going .cancel 1)

theorem accepted_stays_cancellable_sale :
    database.clientOrderIdFor confirmed.world.ledger "o-gd:s" = .ok (some "gd:s") ∧
      Closes database "gd:s" confirmed.world.ledger withdrawn.world.ledger := by
  have hoffered : Reachable (Pool.Start SleeveWorld.Opening)
      (ordering database prefixed Sale.call).Step offered :=
    saleOn_reachable (.start ⟨⟨fun _ => rfl, fun _ _ => rfl⟩, fun _ => rfl⟩) _
  have hreturned : offered.returned .sell =
      some (.ack { accepted := true, orderId := "o-gd:s", clientOrderId := "gd:s" }) := by
    decide +kernel
  have hfrom : Reachable (· = offered) (ordering database prefixed Sale.call).Step offered :=
    .start rfl
  have hconfirmed : Reachable (· = offered) (ordering database prefixed Sale.call).Step confirmed :=
    saleOn_reachable hfrom _
  have hlast : confirmed.returned .cancel ≠ withdrawn.returned .cancel := by decide +kernel
  have hstep : (ordering database prefixed Sale.call).Step confirmed withdrawn := by
    rcases Pool.turn_step (P := ordering database prefixed Sale.call) answeringSale_answers
        saleMove_moves confirmed
      (.go .cancel .connectFailed) with hsame | hstep
    · exact absurd (congrArg (fun s => Pool.State.returned s .cancel) hsame).symm hlast
    · exact hstep
  have hcall : Sale.sell.call = .place { id := 0 } (.limit .SELL 10 100 "gd:s") := rfl
  obtain ⟨hfor, hcancel⟩ := accepted_stays_cancellable prefixed_injective prefixed_ne hoffered
    hcall hreturned rfl hconfirmed
  refine ⟨hfor, ?_⟩
  have hclose := hcancel .cancel { id := 1 } _ rfl (by decide +kernel) hstep ?_
  · rw [if_pos (by decide +kernel)] at hclose
    exact hclose
  · intro hsame
    rw [Pool.State.returned, Pool.State.returned, hsame] at hlast
    exact hlast rfl

end Runs

end Proof.Cancelling

end TossSleeve
