import TossSleeve.Proof.Cancelling
import TossSleeve.Proof.Equivalence
import TossSleeve.Proof.Phases
import TossSleeve.Lib.Simulation

/-!
# `Proof/Interchange.lean` — a broker cannot tell which ledger it has

`Proof/Equivalence.lean` compares the two ledgers call by call. A broker does not call them in a
line: any number of `place` and `cancel` go on at once, each of them anywhere between two awaits,
while others call the ledger, days pass, brokers are restarted, and the database is closed and
opened again. §1 puts the same calls over either ledger. §2 relates the two worlds (`Twins`), and §3
shows that each can do what the other does; so every run over the database is, request for request,
a run over the dictionaries, and the other way round.

One answer is not a function of what the ledger stores: whose an order id is, where several orders
are recorded with it. That Toss gives every order an id of its own keeps the broker from asking.
-/

set_option autoImplicit false

namespace TossSleeve

open Lib Lib.Proc

/-! ## 1. The calls over either ledger -/

/-- What an order id of Toss stands for. -/
abbrev OrderTerms : Type := String → String × OrderSide × Currency

/-- The snapshot is one of its order's. -/
def Fill.On (terms : OrderTerms) (f : Fill) : Prop :=
  terms f.orderId = (f.symbol, f.side, f.currency)

instance (terms : OrderTerms) (f : Fill) : Decidable (f.On terms) :=
  inferInstanceAs (Decidable (_ = _))

/-- What others than the broker may ask of its ledger. They register no order without a key, and
    know no order id; what they poll is of one order. -/
def LedgerOp.Proper (terms : OrderTerms) : LedgerOp → Prop
  | .recordOrder c orderId _ _ _ _ => c ≠ "" ∧ orderId = ""
  | .reserveSell _ orderId _ _ _ => orderId = ""
  | .applyFill f => f.On terms
  | _ => True

theorem LedgerOp.Proper.blank {terms : OrderTerms} {op : LedgerOp} (h : op.Proper terms) :
    op.Blank := by
  cases op <;> simp_all [LedgerOp.Blank, LedgerOp.registers, LedgerOp.Proper]

namespace LedgerKind

/-- The ledger as its constructor leaves it. -/
def New (sid : String) (cap : Decimal) (base : Currency) : (kind : LedgerKind) → kind.State → Prop
  | .inMemory, l => l = .fresh sid cap base
  | .sqlite self _, db => ∃ db₀ : SleeveDb, db₀.only self.sleeveId = .empty ∧
      db = (self.handle db₀ (.opened cap base)).1

/-- The ledger closed and opened again. Dictionaries are not. -/
def reopen (cap : Decimal) (base : Currency) : (kind : LedgerKind) → kind.State → kind.State
  | .inMemory, l => l
  | .sqlite self _, db => (self.handle db (.opened cap base)).1

end LedgerKind

/-- The capital of a sleeve, the currency it is in, and the orders there may be. -/
structure Endowment where
  cap : Decimal
  base : Currency
  terms : OrderTerms

namespace SleeveWorld

variable {kind : LedgerKind}

/-- A new sleeve, and new brokers. -/
def New (e : Endowment) (sid : String) (w : SleeveWorld kind) : Prop :=
  kind.New sid e.cap e.base w.ledger ∧ ∀ b c, w.acks b c = none

/-- What else happens. -/
inductive Serves (e : Endowment) (w : SleeveWorld kind) : SleeveWorld kind → Prop
  | call {op : LedgerOp} (h : op.Proper e.terms) :
      Serves e w { w with ledger := (kind.step w.ledger w.today op).1 }
  | day (today : String) : Serves e w { w with today }
  | restart (b : ℕ) :
      Serves e w { w with acks := fun b' c => if b' = b then none else w.acks b' c }
  | reopen : Serves e w { w with ledger := kind.reopen e.cap e.base w.ledger }

end SleeveWorld

/-- The calls, over a ledger that others use too. -/
def serving {ι : Type} (kind : LedgerKind) (e : Endowment) (toss : String → String)
    (calls : ι → OrderCall) : Pool (SleeveWorld kind) ι BrokerReq.Resp Exc OrderResult where
  program i := (calls i).run
  Answer w _ ev w' := w.Gives ev ∧ Truthful toss ev ∧ w' = w.after ev
  Env := SleeveWorld.Serves e

/-- A cancellation is of an order id. -/
def OrderCall.Named : OrderCall → Prop
  | .place _ _ => True
  | .cancel _ orderId => orderId ≠ ""

namespace Proof.Interchange

open Cancelling OrderStage

variable {ι : Type} [DecidableEq ι] {kind : LedgerKind} {e : Endowment} {sid : String}
  {toss : String → String} {calls : ι → OrderCall}

/-! ## 2. What the calls ask of a ledger -/

/-- The phase of a `place`; a `cancel` has none. -/
def phaseNext : OrderCall → Phase → Event BrokerReq.Resp → Phase
  | .place _ req => Phase.next req
  | .cancel _ _ => fun p _ => p

def Permits : OrderCall → Phase → BrokerReq → Prop
  | .place b req => Permitted b req
  | .cancel _ _ => fun _ _ => True

theorem call_permits (call : OrderCall) :
    call.run.Along (phaseNext call) (Permits call) (fun _ _ => True) .guarding := by
  cases call with
  | place b req =>
    refine .bind (place_follows b req) (fun _ _ _ => trivial) (fun _ _ _ => trivial)
  | cancel b o =>
    exact Along.of_absorbing (Q := fun _ => True) (fun _ _ h => h) (fun _ _ _ => trivial)
      (fun _ _ _ => trivial) _ trivial

/-- What a call asks of the ledger: no snapshot, and no row without a key. -/
def OwnOp : LedgerOp → Prop
  | .recordOrder c _ _ _ _ _ => c ≠ ""
  | .applyFill _ => False
  | _ => True

theorem ownOp_of_asked {call : OrderCall} {g : OrderStage} {p : Phase} {op : LedgerOp}
    (hasks : Asks call g (.ledger op)) (hpermits : Permits call p (.ledger op)) : OwnOp op := by
  cases call with
  | cancel b o =>
    cases hasks with
    | mark => exact trivial
  | place b req =>
    have hunwind : OwnOp (unwindOp req) := by
      unfold unwindOp
      cases req.side <;> exact trivial
    cases hpermits with
    | cover _ hop => cases hop <;> exact trivial
    | unwind => exact hunwind
    | unwindLost => exact hunwind
    | @record r hr ho =>
      cases hasks with
      | blank hblank =>
        have hnone : r.orderId = "" := hblank (req.clientOrderId, r.orderId) rfl
        exact absurd hnone ho
      | record _ hc => exact hc

/-! ## 3. The two worlds -/

variable {sql : SqliteSleeveLedger} {choice : RowChoice}

/-- **The dictionaries are what the rows of the sleeve say**, and all else is the same. -/
structure Twins (e : Endowment) (w : SleeveWorld (.sqlite sql choice))
    (m : SleeveWorld .inMemory) : Prop where
  represents : Represents sql.sleeveId m.ledger w.ledger
  base : (m.ledger.cash.get? e.base).isSome
  polled : ∀ i p, m.ledger.snapshots.get? i = some p → p.On e.terms
  today : m.today = w.today
  acks : m.acks = w.acks

namespace Twins

variable {w : SleeveWorld (.sqlite sql choice)} {m : SleeveWorld .inMemory}

theorem order (h : Twins e w m) (c : String) :
    LedgerKind.order (.sqlite sql choice) w.ledger c = LedgerKind.order .inMemory m.ledger c :=
  h.represents.orders c

theorem names (h : Twins e w m) :
    LedgerKind.names (.sqlite sql choice) w.ledger = LedgerKind.names .inMemory m.ledger :=
  funext fun c => congrArg (Option.map Order.orderId) (h.order c)

/-- An operation of a call, or one that others may ask for. -/
theorem wellKeyed (h : Twins e w m) {op : LedgerOp} (hop : OwnOp op ∨ op.Proper e.terms) :
    WellKeyed m.ledger op := by
  cases op with
  | recordOrder c o sym side cur q => exact hop.elim id And.left
  | applyFill f =>
    rcases hop with hown | hproper
    · exact False.elim hown
    · intro p hp
      have hkeyed := h.represents.keyed f.orderId p hp
      have hterms := h.polled f.orderId p hp
      rw [Fill.On, hkeyed, show e.terms f.orderId = _ from hproper] at hterms
      simp only [Prod.mk.injEq] at hterms
      exact ⟨hterms.1.symm, hterms.2.1.symm, hterms.2.2.symm⟩
  | _ => trivial

/-- The same operation on both. -/
theorem step (h : Twins e w m) {op : LedgerOp} (hop : OwnOp op ∨ op.Proper e.terms) :
    Twins e
        { w with ledger := (LedgerKind.step (.sqlite sql choice) w.ledger w.today op).1 }
        { m with ledger := (LedgerKind.step .inMemory m.ledger m.today op).1 } ∧
      (LedgerKind.step (.sqlite sql choice) w.ledger w.today op).2 =
        (LedgerKind.step .inMemory m.ledger m.today op).2 := by
  obtain ⟨hrepresents, hreply⟩ := exec_call h.represents m.today (h.wellKeyed hop)
  rw [h.today] at hrepresents hreply
  refine ⟨⟨?_, isSome_cash_step m.ledger m.today op h.base, fun i p hp => ?_, h.today, h.acks⟩, ?_⟩
  · rw [h.today]
    exact hrepresents
  · rcases snapshots_step hp with hold | ⟨rfl, -⟩
    · exact h.polled i p hold
    · exact hop.elim False.elim id
  · rw [h.today]
    exact hreply

/-- Closing the database and opening it again shows nothing. -/
theorem reopen (h : Twins e w m) (hsid : sql.sleeveId ≠ "") (hcap : 0 ≤ e.cap) :
    Twins e { w with ledger := LedgerKind.reopen e.cap e.base (.sqlite sql choice) w.ledger }
      m :=
  ⟨(exec_opened h.represents hsid hcap h.base).1, h.base, h.polled, h.today, h.acks⟩

/-- New sleeves are twins. -/
theorem new (hsid : sql.sleeveId ≠ "") (hcap : 0 ≤ e.cap) {db : SleeveDb}
    (hfresh : db.only sql.sleeveId = .empty)
    (hw : w.ledger = (sql.handle db (.opened e.cap e.base)).1)
    (hm : m.ledger = .fresh sql.sleeveId e.cap e.base) (htoday : m.today = w.today)
    (hacks : m.acks = w.acks) : Twins e w m := by
  refine ⟨?_, ?_, ?_, htoday, hacks⟩
  · rw [hw, hm]
    exact (represents_fresh hfresh hsid hcap e.base).1
  · rw [hm]
    simp [InMemorySleeveLedger.fresh]
  · intro i p hp
    rw [hm] at hp
    exact absurd hp (by simp [InMemorySleeveLedger.fresh])

/-- Whose an order id is, where Toss gives every order its own. -/
theorem clientOrderIdFor (h : Twins e w m) (hinj : Function.Injective toss)
    (hfaithful : Register.Faithful "" toss (LedgerKind.names .inMemory m.ledger)) {o : String}
    (ho : o ≠ "") : LedgerKind.clientOrderIdFor (.sqlite sql choice) w.ledger o =
      LedgerKind.clientOrderIdFor .inMemory m.ledger o := by
  have hname : ∀ c row, m.ledger.orders.get? c = some row → row.orderId = o → o = toss c := by
    intro c row hrow hid
    have hnamed : LedgerKind.names .inMemory m.ledger c = some o := by
      show (m.ledger.orders.get? c).map _ = some o
      rw [hrow, ← hid]
      rfl
    exact (hfaithful c o hnamed).resolve_left ho
  have honce : RecordedOnce m.ledger o := by
    intro c c' row row' hrow hrow' hid hid'
    exact hinj ((hname c row hrow hid).symm.trans (hname c' row' hrow' hid'))
  exact congrArg Except.ok (h.represents.clientOrderIdFor choice honce)

end Twins

/-! ## 4. What the calls know, here -/

/-- What a call may ask for. -/
def Asked : BrokerReq → Prop
  | .ledger op => OwnOp op
  | .clientOrderIdFor orderId => orderId ≠ ""
  | _ => True

theorem names_reopen (cap : Decimal) (base : Currency) (l : kind.State) :
    kind.names (kind.reopen cap base l) = kind.names l := by
  cases kind with
  | inMemory => rfl
  | sqlite self choice =>
    have horders : (self.handle l (.opened cap base)).1.orders = l.orders := by
      simp only [SqliteSleeveLedger.handle, SqliteSleeveLedger.eventCall, SqliteSleeveLedger.init]
      split
      · rfl
      · split <;> rfl
    funext c
    simp only [LedgerKind.names, LedgerKind.order, LedgerKind.reopen, horders]

/-- A new sleeve has no orders. -/
theorem order_new {l : kind.State} {cap : Decimal} {base : Currency}
    (h : kind.New sid cap base l) (c : String) : kind.order l c = none := by
  cases kind with
  | inMemory =>
    rw [show l = _ from h]
    rfl
  | sqlite self choice =>
    obtain ⟨db₀, hfresh, rfl⟩ := h
    have hnone : LedgerKind.order (.sqlite self choice) db₀ c = none := by
      show (db₀.orders.find? (self.sleeveId, c)).map _ = none
      rw [← Table.find?_part, show db₀.orders.part self.sleeveId = ∅ from
        congrArg SleeveDb.orders hfresh]
      rfl
    have hnames := congrFun (@names_reopen (.sqlite self choice) cap base db₀) c
    simp only [LedgerKind.names, hnone, Option.map_none, Option.map_eq_none_iff] at hnames
    exact hnames

abbrev ServedState (kind : LedgerKind) (ι : Type) : Type :=
  Pool.State (SleeveWorld kind) ι BrokerReq.Resp Exc OrderResult

variable {s : ServedState kind ι}

/-- The ids of the rows are those of Toss, here too. -/
theorem orderInv_serving (hnamed : ∀ c, toss c ≠ "")
    (hs : Reachable (Pool.Start (SleeveWorld.New e sid)) (serving kind e toss calls).Step s) :
    OrderInv toss calls s.world (stages calls s) := by
  refine Pool.inv (fun i => Asks (calls i)) (fun i => call_asks (calls i)) (OrderInv toss calls)
    ?_ ?_ ?_ ?_ hs
  · intro w hw
    refine ⟨fun c o h => ?_, fun b c ack h => ?_, fun _ _ h => absurd h (by simp)⟩
    · rw [LedgerKind.names, order_new hw.1 c] at h
      exact absurd h (by simp)
    · rw [hw.2 b c] at h
      exact absurd h (by simp)
  · intro w ph i h _
    exact h.move (knows_waiting (calls i))
  · intro w ph i g q x w' h hg hok hw
    obtain ⟨hgives, htrue, rfl⟩ := hw
    exact orderInv_answered hnamed h hg hok hgives htrue
  · intro w ph w' h hserves
    cases hserves with
    | call hop => exact orderInv_moves hnamed h (.call hop.blank)
    | day today => exact orderInv_moves hnamed h (.day today)
    | restart b => exact orderInv_moves hnamed h (.restart b)
    | reopen =>
      have hnames := names_reopen e.cap e.base w.ledger
      refine ⟨?_, fun b c ack hack hacc => ?_, fun i g hg => ?_⟩
      · rw [hnames]
        exact h.faithful
      · exact (h.acks b c ack hack hacc).keeps hnamed (hnames ▸ .refl _)
      · exact (h.knows i g hg).keeps hnamed (hnames ▸ .refl _)

/-- What a call waits for, it may ask for. -/
theorem asked_of_waits (hcalls : ∀ i, (calls i).Named) {start : SleeveWorld kind → Prop}
    (hs : Reachable (Pool.Start start) (serving kind e toss calls).Step s) {i : ι} {q : BrokerReq}
    (h : s.Waits i q) : Asked q := by
  obtain ⟨past, k, hi⟩ := h
  obtain ⟨g, -, hasks⟩ := Pool.ok_of_await (fun i => Asks (calls i))
    (fun i => call_asks (calls i)) hs hi
  obtain ⟨p, -, hpermits⟩ := Pool.ok_of_await (fun i => Permits (calls i))
    (fun i => call_permits (calls i)) hs hi
  cases q with
  | ledger op => exact ownOp_of_asked hasks hpermits
  | clientOrderIdFor o =>
    have hnamed := hcalls i
    generalize calls i = call at hasks hnamed
    cases hasks
    exact hnamed
  | _ => exact trivial

/-! ## 5. Each can do what the other does -/

variable {w : SleeveWorld (.sqlite sql choice)} {m : SleeveWorld .inMemory}

/-- Twins give the same answers, and are twins afterwards. -/
theorem Twins.answer (h : Twins e w m) (hinj : Function.Injective toss)
    (hfaithful : Register.Faithful "" toss (LedgerKind.names .inMemory m.ledger)) {q : BrokerReq}
    (hq : Asked q) (x : q.Resp) :
    (w.Gives ⟨q, x⟩ ↔ m.Gives ⟨q, x⟩) ∧ Twins e (w.after ⟨q, x⟩) (m.after ⟨q, x⟩) := by
  cases q with
  | cachedAck b c =>
    refine ⟨?_, h⟩
    show x = w.acks b c ↔ x = m.acks b c
    rw [h.acks]
  | ledger op =>
    obtain ⟨htwins, hreply⟩ := h.step (.inl hq)
    refine ⟨?_, htwins⟩
    show x = _ ↔ x = _
    rw [hreply]
  | clientOrderIdFor o =>
    refine ⟨?_, h⟩
    show LedgerKind.clientOrderIdFor _ w.ledger o = _ ↔ LedgerKind.clientOrderIdFor _ m.ledger o = _
    rw [h.clientOrderIdFor hinj hfaithful hq]
  | cacheAck b c ack =>
    refine ⟨Iff.rfl, h.represents, h.base, h.polled, h.today, ?_⟩
    simp only [SleeveWorld.after, h.acks]
  | _ => exact ⟨Iff.rfl, h⟩

/-- What else happens to a database can happen to dictionaries. -/
theorem Twins.serves (h : Twins e w m) (hsid : sql.sleeveId ≠ "") (hcap : 0 ≤ e.cap)
    {w' : SleeveWorld (.sqlite sql choice)} (hw : w.Serves e w') :
    ∃ m', m.Serves e m' ∧ Twins e w' m' := by
  cases hw with
  | call hop => exact ⟨_, .call hop, (h.step (.inr hop)).1⟩
  | day today => exact ⟨_, .day today, h.represents, h.base, h.polled, rfl, h.acks⟩
  | restart b =>
    refine ⟨_, .restart b, h.represents, h.base, h.polled, h.today, ?_⟩
    rw [h.acks]
  | reopen => exact ⟨_, .reopen, h.reopen hsid hcap⟩

/-- And the other way round. -/
theorem Twins.serves_back (h : Twins e w m) (hsid : sql.sleeveId ≠ "") (hcap : 0 ≤ e.cap)
    {m' : SleeveWorld .inMemory} (hm : m.Serves e m') :
    ∃ w', w.Serves e w' ∧ Twins e w' m' := by
  cases hm with
  | call hop => exact ⟨_, .call hop, (h.step (.inr hop)).1⟩
  | day today => exact ⟨_, .day today, h.represents, h.base, h.polled, rfl, h.acks⟩
  | restart b =>
    refine ⟨_, .restart b, h.represents, h.base, h.polled, h.today, ?_⟩
    rw [h.acks]
  | reopen => exact ⟨_, .reopen, h.reopen hsid hcap⟩

theorem simulates (hsid : sql.sleeveId ≠ "") (hcap : 0 ≤ e.cap) (hinj : Function.Injective toss)
    (hnamed : ∀ c, toss c ≠ "") (hcalls : ∀ i, (calls i).Named) :
    Pool.Simulates (serving (.sqlite sql choice) e toss calls) (serving .inMemory e toss calls)
      (SleeveWorld.New e sql.sleeveId) (SleeveWorld.New e sql.sleeveId) (Twins e) where
  program := rfl
  begins w hw := by
    obtain ⟨⟨db₀, hfresh, hledger⟩, hacks⟩ := hw
    exact ⟨⟨.fresh sql.sleeveId e.cap e.base, w.today, w.acks⟩, ⟨rfl, hacks⟩,
      .new hsid hcap hfresh hledger rfl rfl rfl⟩
  answer s hs i q x v m hwaits hanswer htwins := by
    obtain ⟨hgives, htrue, rfl⟩ := hanswer
    have hfaithful := (orderInv_serving hnamed hs).faithful
    rw [htwins.names] at hfaithful
    have hboth := htwins.answer hinj hfaithful (asked_of_waits hcalls hs hwaits) x
    exact ⟨_, ⟨hboth.1.mp hgives, htrue, rfl⟩, hboth.2⟩
  env s _ v m hserves htwins := htwins.serves hsid hcap hserves

variable (choice) in
theorem simulates_back (hsid : sql.sleeveId ≠ "") (hcap : 0 ≤ e.cap)
    (hinj : Function.Injective toss) (hnamed : ∀ c, toss c ≠ "") (hcalls : ∀ i, (calls i).Named) :
    Pool.Simulates (serving .inMemory e toss calls) (serving (.sqlite sql choice) e toss calls)
      (SleeveWorld.New e sql.sleeveId) (SleeveWorld.New e sql.sleeveId) fun m w => Twins e w m where
  program := rfl
  begins m hm := by
    obtain ⟨hledger, hacks⟩ := hm
    refine ⟨⟨(sql.handle .empty (.opened e.cap e.base)).1, m.today, m.acks⟩,
      ⟨⟨.empty, rfl, rfl⟩, hacks⟩, ?_⟩
    exact .new hsid hcap rfl rfl hledger rfl rfl
  answer s hs i q x v w hwaits hanswer htwins := by
    obtain ⟨hgives, htrue, rfl⟩ := hanswer
    have hboth := htwins.answer hinj (orderInv_serving hnamed hs).faithful
      (asked_of_waits hcalls hs hwaits) x
    exact ⟨_, ⟨hboth.1.mpr hgives, htrue, rfl⟩, hboth.2⟩
  env s _ v w hserves htwins := htwins.serves_back hsid hcap hserves

variable (choice) in
/-- **A broker cannot tell which ledger it has.** Whatever any number of `place` and `cancel` go
    through over the database, they can go through over dictionaries, request for request, and the
    two ledgers show the same then; and the other way round. -/
theorem ledger_unseen (hsid : sql.sleeveId ≠ "") (hcap : 0 ≤ e.cap)
    (hinj : Function.Injective toss) (hnamed : ∀ c, toss c ≠ "") (hcalls : ∀ i, (calls i).Named) :
    (∀ s, Reachable (Pool.Start (SleeveWorld.New e sql.sleeveId))
        (serving (.sqlite sql choice) e toss calls).Step s →
      ∃ t, Reachable (Pool.Start (SleeveWorld.New e sql.sleeveId))
        (serving .inMemory e toss calls).Step t ∧ t.thread = s.thread ∧
        t.world.acks = s.world.acks ∧ ShowsAlike t.world.ledger (sql.observed choice s.world.ledger)) ∧
    ∀ t, Reachable (Pool.Start (SleeveWorld.New e sql.sleeveId))
        (serving .inMemory e toss calls).Step t →
      ∃ s, Reachable (Pool.Start (SleeveWorld.New e sql.sleeveId))
        (serving (.sqlite sql choice) e toss calls).Step s ∧ s.thread = t.thread ∧
        s.world.acks = t.world.acks ∧
        ShowsAlike t.world.ledger (sql.observed choice s.world.ledger) := by
  constructor
  · intro s hs
    obtain ⟨t, ht, htwins, hthread⟩ := (simulates hsid hcap hinj hnamed hcalls).run hs
    exact ⟨t, ht, hthread, htwins.acks, htwins.represents.showsAlike choice⟩
  · intro t ht
    obtain ⟨s, hs, htwins, hthread⟩ := (simulates_back choice hsid hcap hinj hnamed hcalls).run ht
    exact ⟨s, hs, hthread, htwins.acks.symm, htwins.represents.showsAlike choice⟩

/-! A sale over a database, which is opened again in the middle of it. -/

/-- Whatever there is, is shares of one kind, bought. -/
def sharesOnly : Endowment := ⟨1000, .KRW, fun _ => ("005930", .BUY, .KRW)⟩

inductive ServedMove where
  | polled (f : Fill)
  | reopen

def servedMove (move : ServedMove) (w : SleeveWorld database) : Option (SleeveWorld database) :=
  match move with
  | .polled f =>
    if f.On sharesOnly.terms then
      some { w with ledger := (database.step w.ledger w.today (.applyFill f)).1 }
    else none
  | .reopen => some { w with
      ledger := database.reopen sharesOnly.cap sharesOnly.base w.ledger }

theorem servedMove_serves (move : ServedMove) (w w' : SleeveWorld database)
    (h : servedMove move w = some w') : w.Serves sharesOnly w' := by
  cases move with
  | polled f =>
    unfold servedMove at h
    dsimp only at h
    split at h
    · next hf =>
      obtain rfl := Option.some.inj h
      exact .call hf
    · exact absurd h (by simp)
  | reopen =>
    obtain rfl := Option.some.inj h
    exact .reopen

/-- Shares are bought, and the sale is accepted. -/
def soldOver : ServedState database Sale :=
  (serving database sharesOnly prefixed Sale.call).play answeringSale servedMove
    { ledger := database.reopen 1000 .KRW SleeveDb.empty, today := "2024-01-02"
      acks := fun _ _ => none }
    ([.world (.polled (.whole "o-b" "" "005930" .BUY .KRW 10 100 0 ""))] ++
      List.replicate 4 (.go .sell .connectFailed) ++ [.world .reopen] ++
      List.replicate 2 (.go .sell .connectFailed) ++ [.go .sell (.answered (.of 200
        (some (.obj [("result", .obj [("orderId", .str "o-gd:s")])]))))] ++
      List.replicate 2 (.go .sell .connectFailed))

theorem ledger_unseen_soldOver :
    ∃ t, Reachable (Pool.Start (SleeveWorld.New sharesOnly "a"))
        (serving .inMemory sharesOnly prefixed Sale.call).Step t ∧
      t.returned .sell =
        some (.ack { accepted := true, orderId := "o-gd:s", clientOrderId := "gd:s" }) := by
  have hsold : Reachable (Pool.Start (SleeveWorld.New sharesOnly "a"))
      (serving database sharesOnly prefixed Sale.call).Step soldOver :=
    Pool.play_reachable (P := serving database sharesOnly prefixed Sale.call)
      (SleeveWorld.New sharesOnly "a") answeringSale_answers servedMove_serves
      ⟨⟨.empty, rfl, rfl⟩, fun _ _ => rfl⟩ _
  have hcalls : ∀ i, (Sale.call i).Named := by
    intro i
    cases i with
    | sell => trivial
    | cancel => simp [Sale.call, OrderCall.Named]
  obtain ⟨t, ht, hthread, -⟩ := (ledger_unseen .first (by simp) (by decide +kernel)
    prefixed_injective prefixed_ne hcalls).1 soldOver hsold
  refine ⟨t, ht, ?_⟩
  rw [Pool.State.returned, hthread, ← Pool.State.returned]
  decide +kernel

end Proof.Interchange
end TossSleeve
