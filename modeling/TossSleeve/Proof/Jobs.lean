import TossSleeve.Proof.Cover
import TossSleeve.Proof.Market
import TossSleeve.Proof.Stages

/-!
# `Proof/Jobs.lean` — calls, polls and executions, interleaved

Any number of calls of `place` and `cancel`, on any number of brokers, and of polls by the consumer,
run next to each other on one ledger, while Toss accepts, executes and ends orders as it likes. The
ledger is of either kind (§2), and what else may happen to it is a parameter of the market, as are
the conditions under which answers come and orders arrive.

Whatever these are, a job keeps to its phases (§3) and knows what it does (§4). So to show that
something holds of the ledger and the book in every run, it is enough to show that it bears the six
things that jobs do to them (`Upheld`) and what happens by itself; §5 is that rule. §6 has the means
to write a concrete run down.
-/

set_option autoImplicit false

namespace TossSleeve

open Lib Lib.Proc

/-! ## 1. What the consumer runs -/

inductive Job where
  | place (b : TossBroker) (req : OrderRequest)
  | cancel (b : TossBroker) (orderId : String)
  | poll (orderId : String)

/-- Where a job is. -/
inductive JobPhase where
  | placing (p : Phase)
  | cancelling
  | polling
  /-- A report is about to be applied. -/
  | polled (f : Fill)

namespace Job

def run : Job → Prog Unit
  | .place b req => discard (b.place req)
  | .cancel b orderId => discard (b.cancel orderId)
  | .poll orderId => pollFill orderId

def start : Job → JobPhase
  | .place _ _ => .placing .guarding
  | .cancel _ _ => .cancelling
  | .poll _ => .polling

def next : Job → JobPhase → Event BrokerReq.Resp → JobPhase
  | .place _ req, .placing p, e => .placing (p.next req e)
  | .poll _, .polling, ⟨.orderFill _, .ok (some f)⟩ => .polled f
  | _, g, _ => g

/-- What a job asks for. -/
inductive Asks : Job → JobPhase → BrokerReq → Prop
  | place {b : TossBroker} {req : OrderRequest} {p : Phase} {q : BrokerReq}
      (h : Permitted b req p q) : Asks (.place b req) (.placing p) q
  | authHeaders {b : TossBroker} {o : String} : Asks (.cancel b o) .cancelling .authHeaders
  | invalidate {b : TossBroker} {o : String} : Asks (.cancel b o) .cancelling .invalidate
  | accountSeq {b : TossBroker} {o : String} : Asks (.cancel b o) .cancelling .accountSeq
  | acquire {b : TossBroker} {o : String} : Asks (.cancel b o) .cancelling .acquire
  | post {b : TossBroker} {o : String} (headers : Headers) :
      Asks (.cancel b o) .cancelling (.post (cancelPath o) .empty headers)
  | lookUp {b : TossBroker} {o : String} : Asks (.cancel b o) .cancelling (.clientOrderIdFor o)
  | cancelled {b : TossBroker} {o : String} (c : String) :
      Asks (.cancel b o) .cancelling (.ledger (.markOrderTerminal c .CANCELLED))
  | orderFill {o : String} : Asks (.poll o) .polling (.orderFill o)
  | applyFill {o : String} (f : Fill) : Asks (.poll o) (.polled f) (.ledger (.applyFill f))

end Job

/-- The report that comes with an answer. -/
def reportIn : Event BrokerReq.Resp → Option Fill
  | ⟨.orderFill _, .ok fill⟩ => fill
  | _ => none

/-! ## 2. The market -/

/-- What the jobs act on, and Toss. -/
structure Market (kind : LedgerKind) (ι : Type) where
  world : SleeveWorld kind
  book : Book := ∅
  /-- The order of the call may have left for Toss, and nothing says that it did not arrive. -/
  departed : ι → Bool

namespace Listing

/-- Toss stops executing an order when it confirms the cancellation at this path. -/
def stop (path : String) (l : Listing) : Listing :=
  if cancelPath l.orderId = path then { l with live := false } else l

end Listing

/-- The calendar. -/
def NextDay {kind : LedgerKind} (w w' : SleeveWorld kind) : Prop :=
  ∃ today, w' = { w with today }

namespace Market

variable {kind : LedgerKind} {ι : Type}

/-- The market after a request of a job was answered. A slot of the rate limiter is what a call
    takes last before it transmits. -/
def after [DecidableEq ι] (m : Market kind ι) (job : Job) (i : ι) (e : Event BrokerReq.Resp) :
    Market kind ι :=
  match job, e with
  | .place _ _, ⟨.acquire, _⟩ => { m with departed := Function.update m.departed i true }
  | .place _ _, ⟨.post _ _ _, x⟩ =>
    { m with
      departed := if x.Definitive then Function.update m.departed i false else m.departed }
  | .cancel _ _, ⟨.post path _ _, .answered r⟩ =>
    if r.Success then { m with book := m.book.mapVal (Listing.stop path) } else m
  | _, e => { m with world := m.world.after e }

/-- Toss tells the truth: a success names the order that it accepted, and a report says what was
    executed. Whether the report says the client order id, Toss may decide. -/
def Truthful (m : Market kind ι) : Event BrokerReq.Resp → Prop
  | ⟨.post _ (.order body) _, .answered r⟩ => r.Success → r.orderId ≠ "" →
      ∃ c ∈ body.clientOrderId, ∃ l ∈ m.book.get? c, l.orderId = r.orderId
  | ⟨.orderFill orderId, .ok (some f)⟩ => f.orderId = orderId ∧
      ∃ e ∈ m.book.rows, Proof.Reports m.book f e.1 e.2 ∧ f.filledQuantity = e.2.executed
  | _ => True

/-- Reports are in the currencies of their orders. -/
def Denominated (m : Market kind ι) (e : Event BrokerReq.Resp) : Prop :=
  ∀ f ∈ reportIn e, ∀ entry ∈ m.book.rows, entry.2.orderId = f.orderId →
    f.currency = entry.2.req.currency

/-- What happens by itself, with the order and the shares that are executed with it. Of the orders
    that have left, Toss accepts those that are as `D` says; `E` is what happens to the ledger, and
    the calendar. -/
inductive Moves (jobs : ι → Job) (E : SleeveWorld kind → SleeveWorld kind → Prop)
    (D : Market kind ι → OrderRequest → Prop) (m : Market kind ι) :
    Option (String × Decimal) → Market kind ι → Prop
  | accept {i : ι} {b : TossBroker} {req : OrderRequest} {orderId : String}
      (hjob : jobs i = .place b req) (hdeparted : m.departed i = true)
      (hnew : m.book.get? req.clientOrderId = none) (hnamed : orderId ≠ "")
      (hunused : ∀ e ∈ m.book.rows, e.2.orderId ≠ orderId) (hD : D m req) :
      Moves jobs E D m none { m with book := m.book.set req.clientOrderId { orderId, req } }
  | execute {c : String} {l : Listing} {d : Decimal} (hl : m.book.get? c = some l)
      (hlive : l.live = true) (hd : 0 < d) (hle : ∀ q ∈ l.req.quantity, l.executed + d ≤ q) :
      Moves jobs E D m (some (c, d))
        { m with book := m.book.set c { l with executed := l.executed + d } }
  | lapse {c : String} {l : Listing} (hl : m.book.get? c = some l) :
      Moves jobs E D m none { m with book := m.book.set c { l with live := false } }
  | ledger {w : SleeveWorld kind} (hw : E m.world w) : Moves jobs E D m none { m with world := w }

/-- The row of a SELL is closed only when the ledger was told all that Toss has executed of it or
    may still execute. -/
def Careful (m : Market kind ι) : Event BrokerReq.Resp → Prop
  | ⟨.ledger (.markOrderTerminal c _), _⟩ =>
      ∀ l ∈ m.book.get? c, l.req.side = .SELL → l.committed ≤ kind.filled m.world.ledger l.orderId
  | _ => True

/-- A SELL arrives while its row is open. -/
def StillOpen (m : Market kind ι) (req : OrderRequest) : Prop :=
  req.side = .SELL → ∃ o ∈ kind.order m.world.ledger req.clientOrderId, o.status ∈ openStatuses

/-- A sleeve that has done nothing yet, its ledger as `N` says. -/
def Opening (N : kind.State → Prop) (m : Market kind ι) : Prop :=
  N m.world.ledger ∧ m.book = ∅ ∧ ∀ i, m.departed i = false

end Market

/-- The jobs, in a market where the ledger goes on as `E`, events are as `C` and arrivals as `D`
    says. -/
def trading {kind : LedgerKind} {ι : Type} [DecidableEq ι] (jobs : ι → Job)
    (E : SleeveWorld kind → SleeveWorld kind → Prop)
    (C : Market kind ι → Event BrokerReq.Resp → Prop) (D : Market kind ι → OrderRequest → Prop) :
    Pool (Market kind ι) ι BrokerReq.Resp Exc Unit where
  program i := (jobs i).run
  Answer m i e m' := m.world.Gives e ∧ m.Truthful e ∧ C m e ∧ m' = m.after (jobs i) i e
  Env m m' := ∃ executed, Market.Moves jobs E D m executed m'

namespace Proof

/-! ## 3. The jobs keep to their phases -/

theorem place_asks (b : TossBroker) (req : OrderRequest) :
    Along (Job.next (.place b req)) (Job.Asks (.place b req)) (fun _ _ => True)
      (Job.run (.place b req)) (Job.start (.place b req)) := by
  have hplace : Along (Job.next (.place b req)) (Job.Asks (.place b req))
      (fun _ (_ : Except Exc OrderAck) => True) (b.place req) (.placing .guarding) :=
    Along.lift (fun _ _ _ => rfl) (fun _ _ h => .place h) (fun _ _ _ => trivial)
      (place_follows b req)
  exact .bind hplace (fun _ _ _ => trivial) fun _ _ _ => trivial

theorem canPost_cancelling (b : TossBroker) (o : String) :
    Posting.CanPost (Job.next (.cancel b o)) (Job.Asks (.cancel b o)) (cancelPath o) .empty false
      (· = .cancelling) (fun g _ => g) fun g _ => g where
  authHeaders := by
    rintro _ rfl
    exact ⟨.authHeaders, fun x => by cases x <;> rfl⟩
  invalidate := by
    rintro _ rfl
    exact ⟨.invalidate, fun _ => rfl⟩
  accountSeq := by
    rintro _ rfl
    exact ⟨.accountSeq, fun x => by cases x <;> rfl⟩
  acquire := by
    rintro _ rfl
    exact ⟨.acquire, fun _ => rfl⟩
  post := by
    rintro _ rfl headers
    exact ⟨.post headers, fun _ => rfl⟩
  unsent _ h := h
  deadToken _ h _ _ _ _ := h

theorem cancel_asks (b : TossBroker) (o : String) :
    Along (Job.next (.cancel b o)) (Job.Asks (.cancel b o)) (fun _ _ => True)
      (Job.run (.cancel b o)) (Job.start (.cancel b o)) := by
  have hpost := Posting.post_along (b := b) (canPost_cancelling b o) (g := .cancelling) rfl
  have hcancel : Along (Job.next (.cancel b o)) (Job.Asks (.cancel b o))
      (fun _ (_ : Except Exc Bool) => True) (b.cancel o) .cancelling := by
    refine .attempt (fun g payload hend => ?_) (fun g e _ => ?_) hpost
    · have hg : g = .cancelling := by
        cases hend with
        | payload hg => exact hg
      subst hg
      refine ⟨.lookUp, fun x => ?_⟩
      cases x with
      | none => exact trivial
      | some c =>
        show Along _ _ _ (if c = "" then _ else _) _
        split
        · exact trivial
        · refine ⟨.cancelled c, fun x => ?_⟩
          cases x <;> exact trivial
    · cases e with
      | toss e =>
        show Along _ _ _ (if isBusinessRejection e then _ else _) _
        split
        · exact trivial
        · exact trivial
      | http => exact trivial
      | python e => exact trivial
      | ledger e => exact trivial
  exact .bind hcancel (fun _ _ _ => trivial) fun _ _ _ => trivial

theorem poll_asks (o : String) :
    Along (Job.next (.poll o)) (Job.Asks (.poll o)) (fun _ _ => True) (Job.run (.poll o))
      (Job.start (.poll o)) := by
  refine ⟨.orderFill, fun x => ?_⟩
  cases x with
  | error f => exact trivial
  | ok fill =>
    cases fill with
    | none => exact trivial
    | some f =>
      refine ⟨.applyFill f, fun x => ?_⟩
      cases x <;> exact trivial

/-- **Every job keeps to its phases.** -/
theorem job_asks (job : Job) : Along job.next job.Asks (fun _ _ => True) job.run job.start := by
  cases job with
  | place b req => exact place_asks b req
  | cancel b o => exact cancel_asks b o
  | poll o => exact poll_asks o

/-! ## 4. What the jobs know -/

variable {kind : LedgerKind} {ι : Type} {jobs : ι → Job} {m m' : Market kind ι}
  {ph : ι → Option JobPhase} {i : ι} {g : JobPhase} {b : TossBroker} {req : OrderRequest}
  {book book' : Book} {H H' : Fill → Prop} {q : BrokerReq} {x : q.Resp}

/-- A report comes with the answer to a poll. -/
theorem of_reportIn {e : Event BrokerReq.Resp} {f : Fill} (h : f ∈ reportIn e) :
    ∃ o, e = ⟨.orderFill o, .ok (some f)⟩ := by
  obtain ⟨q, x⟩ := e
  cases q with
  | orderFill o =>
    cases x with
    | error _ => exact absurd h (by simp [reportIn])
    | ok fill =>
      obtain rfl : fill = some f := h
      exact ⟨o, rfl⟩
  | _ => exact absurd h (by simp [reportIn])

/-- The order under the id, as the calls have it. -/
def Requested (jobs : ι → Job) (c : String) (req : OrderRequest) : Prop :=
  ∃ i b, jobs i = .place b req ∧ req.clientOrderId = c

/-- Calls under one id are calls of one order. -/
def OneOrder (jobs : ι → Job) : Prop :=
  ∀ c req req', Requested jobs c req → Requested jobs c req' → req = req'

/-- Listings stay, under their order ids. -/
def Lasts (book book' : Book) : Prop :=
  ∀ c l, book.get? c = some l → ∃ l', book'.get? c = some l' ∧ l'.orderId = l.orderId ∧
    l'.req = l.req ∧ l.executed ≤ l'.executed

theorem Lasts.refl (book : Book) : Lasts book book :=
  fun _ l hl => ⟨l, hl, rfl, rfl, le_refl _⟩

/-- Toss confirms a cancellation. -/
theorem lasts_stop (book : Book) (path : String) : Lasts book (book.mapVal (Listing.stop path)) := by
  intro c l hl
  refine ⟨Listing.stop path l, by rw [Dict.get?_mapVal, hl, Option.map_some], ?_⟩
  unfold Listing.stop
  split
  · exact ⟨rfl, rfl, le_refl _⟩
  · exact ⟨rfl, rfl, le_refl _⟩

theorem lasts_set {c : String} {l l' : Listing} (hl : book.get? c = some l)
    (hid : l'.orderId = l.orderId) (hreq : l'.req = l.req) (hle : l.executed ≤ l'.executed) :
    Lasts book (book.set c l') := by
  intro k k' hk
  rw [Dict.get?_set]
  split
  · next heq =>
    obtain rfl := heq
    obtain rfl := Option.some.inj (hl.symm.trans hk)
    exact ⟨l', rfl, hid, hreq, hle⟩
  · exact ⟨k', hk, rfl, rfl, le_refl _⟩

theorem lasts_new {c : String} (hnew : book.get? c = none) (l : Listing) :
    Lasts book (book.set c l) := by
  intro k k' hk
  have hne : k ≠ c := by
    intro heq
    rw [heq, hnew] at hk
    exact absurd hk (by simp)
  rw [Dict.get?_set, if_neg hne]
  exact ⟨k', hk, rfl, rfl, le_refl _⟩

theorem lasts_of_market {E : SleeveWorld kind → SleeveWorld kind → Prop}
    {D : Market kind ι → OrderRequest → Prop} {executed : Option (String × Decimal)}
    (h : Market.Moves jobs E D m executed m') : Lasts m.book m'.book := by
  cases h with
  | accept hjob hdeparted hnew => exact lasts_new hnew _
  | execute hl hlive hd => exact lasts_set hl rfl rfl (le_add_of_nonneg_right (le_of_lt hd))
  | lapse hl => exact lasts_set hl rfl rfl (le_refl _)
  | ledger hw => exact Lasts.refl _

/-- A report stays one. -/
theorem Reports.lasts {f : Fill} {c : String} {l : Listing} (h : Reports book f c l)
    (hbook : Lasts book book') : ∃ l', Reports book' f c l' ∧ l'.req = l.req := by
  obtain ⟨l', hl', hid, hreq, hle⟩ := hbook c l h.listed
  exact ⟨l', ⟨hl', h.orderId.trans hid.symm, hreq ▸ h.symbol, hreq ▸ h.side,
    le_trans h.executed hle, h.clientOrderId⟩, hreq⟩

/-- What a job knows. Of a report it knows `H`. -/
def Knows (H : Fill → Prop) (book : Book) : Job → JobPhase → Prop
  | .place b req, .placing p => Sound b req p ∧ ∀ r, p = .undecided (.answered r) → r.Success →
      r.orderId ≠ "" → ∃ l, book.get? req.clientOrderId = some l ∧ l.orderId = r.orderId
  | .poll _, .polled f => H f
  | _, _ => True

theorem Knows.mono (hbook : Lasts book book') (hH : ∀ f, H f → H' f) {job : Job}
    (h : Knows H book job g) : Knows H' book' job g := by
  cases job with
  | place b req =>
    cases g with
    | placing p =>
      refine ⟨h.1, fun r hp hs ho => ?_⟩
      obtain ⟨l, hl, hid⟩ := h.2 r hp hs ho
      obtain ⟨l', hl', hid', -⟩ := hbook _ l hl
      exact ⟨l', hl', hid'.trans hid⟩
    | _ => exact trivial
  | cancel b o => exact trivial
  | poll o =>
    cases g with
    | polled f => exact hH f h
    | _ => exact trivial

/-- What the guard of a call has made sure of before it transmits. -/
structure Vetted (req : OrderRequest) : Prop where
  keyed : req.clientOrderId ≠ ""
  priced : req.side = .BUY → (reserveAmount req).isSome

structure JobsInv (jobs : ι → Job) (H : Fill → Prop) (m : Market kind ι)
    (ph : ι → Option JobPhase) : Prop where
  vetted : ∀ i b req, jobs i = .place b req → m.departed i = true → Vetted req
  knows : ∀ i g, ph i = some g → Knows H m.book (jobs i) g

/-- A phase that leaves nothing open. -/
theorem knows_of_settled {p : Phase} (hsound : Sound b req p) (hp : ∀ y, p ≠ .undecided y) :
    Knows H book (.place b req) (.placing p) :=
  ⟨hsound, fun _ h => absurd h (hp _)⟩

theorem knows_start (H : Fill → Prop) (book : Book) (job : Job) : Knows H book job job.start := by
  cases job with
  | place b req => exact knows_of_settled (sound_guarding b req) (by simp)
  | cancel b o => exact trivial
  | poll o => exact trivial

/-- An open outcome that names an order names the one that Toss accepted. -/
theorem knows_post {headers : Headers} {x : PostOutcome} (hc : req.clientOrderId ≠ "")
    (hsound : Sound b req (if x.Definitive then Phase.covered else .undecided x))
    (htrue : m.Truthful ⟨.post ordersPath (.order (buildBody req)) headers, x⟩) :
    Knows H m.book (.place b req)
      (.placing (if x.Definitive then Phase.covered else .undecided x)) := by
  refine ⟨hsound, fun r hx hs ho => ?_⟩
  split at hx
  · exact absurd hx (by simp)
  · obtain rfl := Phase.undecided.inj hx
    obtain ⟨c, hcoid, l, hl, hid⟩ := htrue hs ho
    have hcoid' : (if req.clientOrderId = "" then none else some req.clientOrderId) = some c :=
      hcoid
    rw [if_neg hc] at hcoid'
    obtain rfl := Option.some.inj hcoid'
    exact ⟨l, hl, hid⟩

/-- What a `place` knows after a request. -/
theorem knows_place {p : Phase} (hok : Permitted b req p q)
    (h : Knows H m.book (.place b req) (.placing p)) (htrue : m.Truthful ⟨q, x⟩) :
    Knows H m.book (.place b req) (.placing (p.next req ⟨q, x⟩)) := by
  have hsound' : Sound b req (p.next req ⟨q, x⟩) := sound_next hok x h.1
  cases hok with
  | look => exact h
  | cover hc hop =>
    refine knows_of_settled hsound' fun y => ?_
    rw [next_cover hop]
    split <;> simp
  | authHeaders => exact h
  | invalidate => exact h
  | accountSeq => exact h
  | acquire => exact h
  | post headers => exact knows_post (h.1.keyed trivial) hsound' htrue
  | unwind =>
    refine knows_of_settled hsound' fun y => ?_
    rw [next_unwind]
    exact Phase.noConfusion
  | unwindLost =>
    refine knows_of_settled hsound' fun y => ?_
    rw [next_unwind]
    exact Phase.noConfusion
  | record hs ho =>
    rw [next_record]
    exact h
  | cache => exact h

/-- What any job knows after a request. -/
theorem knows_next {job : Job} (hok : job.Asks g q) (h : Knows H m.book job g)
    (htrue : m.Truthful ⟨q, x⟩) (hnew : ∀ f ∈ reportIn ⟨q, x⟩, H f) :
    Knows H m.book job (job.next g ⟨q, x⟩) := by
  cases job with
  | place b req =>
    cases hok with
    | place hpermits => exact knows_place hpermits h htrue
  | cancel b o =>
    obtain rfl : g = .cancelling := by cases hok <;> rfl
    exact trivial
  | poll o =>
    cases hok with
    | orderFill =>
      cases x with
      | error f => exact trivial
      | ok fill =>
        cases fill with
        | none => exact trivial
        | some f => exact hnew f rfl
    | applyFill f => exact h

/-- An order leaves when its call has its cover and takes a slot. -/
theorem departed_after [DecidableEq ι] {job : Job} (hok : job.Asks g q) {j : ι}
    (h : (m.after job i ⟨q, x⟩).departed j = true) :
    m.departed j = true ∨ j = i ∧ g = .placing .covered := by
  cases hok with
  | place hpermits =>
    cases hpermits with
    | acquire =>
      by_cases hji : j = i
      · exact .inr ⟨hji, rfl⟩
      · change Function.update m.departed i true j = true at h
        rw [Function.update_of_ne hji] at h
        exact .inl h
    | post headers =>
      change (if x.Definitive then Function.update m.departed i false else m.departed) j = true at h
      split at h
      · by_cases hji : j = i
        · exact .inr ⟨hji, rfl⟩
        · rw [Function.update_of_ne hji] at h
          exact .inl h
      · exact .inl h
    | _ => exact .inl h
  | post headers =>
    cases x with
    | answered r =>
      change (if r.Success then _ else m).departed j = true at h
      split at h
      · exact .inl h
      · exact .inl h
    | _ => exact .inl h
  | _ => exact .inl h

/-- What an answer to a job leaves of the book. -/
theorem lasts_after [DecidableEq ι] (m : Market kind ι) (job : Job) (i : ι)
    (e : Event BrokerReq.Resp) : Lasts m.book (m.after job i e).book := by
  obtain ⟨q, x⟩ := e
  cases q with
  | post path payload headers =>
    cases job with
    | place b req => exact Lasts.refl _
    | poll o => exact Lasts.refl _
    | cancel b o =>
      cases x with
      | connectFailed => exact Lasts.refl _
      | sendFailed => exact Lasts.refl _
      | answered r =>
        show Lasts m.book (if r.Success then _ else m).book
        split
        · exact lasts_stop m.book path
        · exact Lasts.refl _
  | _ => cases job <;> exact Lasts.refl _

/-- Only a call of the ledger changes it. -/
theorem ledger_after [DecidableEq ι] (m : Market kind ι) (job : Job) (i : ι) (x : q.Resp)
    (hq : ∀ op, q ≠ .ledger op) : (m.after job i ⟨q, x⟩).world.ledger = m.world.ledger := by
  cases q with
  | ledger op => exact absurd rfl (hq op)
  | post path payload headers =>
    cases job with
    | place b req => rfl
    | poll o => rfl
    | cancel b o =>
      cases x with
      | connectFailed => rfl
      | sendFailed => rfl
      | answered r =>
        show (if r.Success then _ else m).world.ledger = _
        split <;> rfl
  | _ => cases job <;> rfl

namespace JobsInv

/-- What happens to the book and not to the calls. -/
theorem mono (h : JobsInv jobs H m ph) (hdeparted : m'.departed = m.departed)
    (hbook : Lasts m.book m'.book) (hH : ∀ f, H f → H' f) : JobsInv jobs H' m' ph :=
  ⟨fun i b req hjob => hdeparted ▸ h.vetted i b req hjob,
    fun i g hg => (h.knows i g hg).mono hbook hH⟩

/-- What happens by itself. -/
theorem moves {E : SleeveWorld kind → SleeveWorld kind → Prop}
    {D : Market kind ι → OrderRequest → Prop} {executed : Option (String × Decimal)}
    (h : JobsInv jobs H m ph) (hmoves : Market.Moves jobs E D m executed m')
    (hH : ∀ f, H f → H' f) : JobsInv jobs H' m' ph :=
  h.mono (by cases hmoves <;> rfl) (lasts_of_market hmoves) hH

variable [DecidableEq ι]

theorem start (h : JobsInv jobs H m ph) (i : ι) :
    JobsInv jobs H m (Function.update ph i (some (jobs i).start)) :=
  ⟨h.vetted, Pool.forall_update (knows_start H m.book (jobs i)) fun j g _ hj => h.knows j g hj⟩

/-- **One answer**, to a job that asks what it may. -/
theorem answered (h : JobsInv jobs H m ph) (hg : ph i = some g) (hok : (jobs i).Asks g q)
    (htrue : m.Truthful ⟨q, x⟩) (hnew : ∀ f ∈ reportIn ⟨q, x⟩, H f) (hH : ∀ f, H f → H' f) :
    JobsInv jobs H' (m.after (jobs i) i ⟨q, x⟩)
      (Function.update ph i (some ((jobs i).next g ⟨q, x⟩))) := by
  have hlasts := lasts_after m (jobs i) i ⟨q, x⟩
  have hknows := h.knows i g hg
  have hnext := knows_next hok hknows htrue hnew
  refine ⟨fun j b req hjob hdeparted => ?_, Pool.forall_update (hnext.mono hlasts hH)
    fun j p _ hj => (h.knows j p hj).mono hlasts hH⟩
  rcases departed_after hok hdeparted with hbefore | ⟨rfl, rfl⟩
  · exact h.vetted j b req hjob hbefore
  · rw [hjob] at hknows
    exact ⟨hknows.1.keyed trivial, hknows.1.priced trivial⟩

end JobsInv

/-! ## 5. The rule -/

/-- **What an invariant of the ledger and the book has to bear** of the jobs: the question of a
    guard, `_unwind`, the recording of the order id, the closing of a row, a report, and a
    cancellation that Toss confirms. Answers are as `C` says, and of a report `H` is known. -/
structure Upheld (jobs : ι → Job) (C : Market kind ι → Event BrokerReq.Resp → Prop)
    (H : Book → Fill → Prop) (I : kind.State → Book → Prop) : Prop where
  cover : ∀ (m : Market kind ι) b req op, I m.world.ledger m.book →
    Requested jobs req.clientOrderId req → Vetted req → Covers b req op →
    I (kind.step m.world.ledger m.world.today op).1 m.book
  unwind : ∀ (m : Market kind ι) req x, I m.world.ledger m.book → C m ⟨.ledger (unwindOp req), x⟩ →
    I (kind.step m.world.ledger m.world.today (unwindOp req)).1 m.book
  record : ∀ (m : Market kind ι) req l, I m.world.ledger m.book →
    Requested jobs req.clientOrderId req → m.book.get? req.clientOrderId = some l →
    I (kind.step m.world.ledger m.world.today (.recordOrder req.clientOrderId l.orderId req.ticker
      req.side req.currency (req.quantity.getD 0))).1 m.book
  close : ∀ (m : Market kind ι) c x, I m.world.ledger m.book →
    C m ⟨.ledger (.markOrderTerminal c .CANCELLED), x⟩ →
    I (kind.step m.world.ledger m.world.today (.markOrderTerminal c .CANCELLED)).1 m.book
  applyFill : ∀ (m : Market kind ι) f, I m.world.ledger m.book → H m.book f →
    I (kind.step m.world.ledger m.world.today (.applyFill f)).1 m.book
  stop : ∀ (m : Market kind ι) path, I m.world.ledger m.book →
    I m.world.ledger (m.book.mapVal (Listing.stop path))

/-- The question of a guard is asked for an order that has an id and, if it is a BUY, a price. -/
theorem vetted_of_covers (hc : req.clientOrderId ≠ "") {op : LedgerOp} (h : Covers b req op) :
    Vetted req := by
  refine ⟨hc, fun hside => ?_⟩
  cases h with
  | reserve _ _ hamount => rw [hamount, Option.isSome_some]
  | reserveSell hsell _ => exact absurd (hside.symm.trans hsell) nofun

namespace Upheld

variable [DecidableEq ι] {C : Market kind ι → Event BrokerReq.Resp → Prop}
  {D : Market kind ι → OrderRequest → Prop} {E : SleeveWorld kind → SleeveWorld kind → Prop}
  {K : Book → Fill → Prop} {I : kind.State → Book → Prop}

/-- A request of a `place`. -/
theorem place (h : Upheld jobs C K I) {p : Phase} (hjob : jobs i = .place b req)
    (hknows : Knows (K m.book) m.book (.place b req) (.placing p)) (hok : Permitted b req p q)
    (hC : C m ⟨q, x⟩) (hI : I m.world.ledger m.book) :
    I (m.after (.place b req) i ⟨q, x⟩).world.ledger (m.after (.place b req) i ⟨q, x⟩).book := by
  have hreq : Requested jobs req.clientOrderId req := ⟨i, b, hjob, rfl⟩
  cases hok with
  | look => exact hI
  | cover hc hop => exact h.cover m b req _ hI hreq (vetted_of_covers hc hop) hop
  | authHeaders => exact hI
  | invalidate => exact hI
  | accountSeq => exact hI
  | acquire => exact hI
  | post headers => exact hI
  | unwind => exact h.unwind m req x hI hC
  | unwindLost hlost => exact h.unwind m req x hI hC
  | @record r hs ho =>
    obtain ⟨l, hl, hid⟩ := hknows.2 r rfl hs ho
    rw [← hid]
    exact h.record m req l hI hreq hl
  | cache => exact hI

/-- A request of a `cancel`. -/
theorem cancel (h : Upheld jobs C K I) {o : String} (hok : Job.Asks (.cancel b o) g q)
    (hC : C m ⟨q, x⟩) (hI : I m.world.ledger m.book) :
    I (m.after (.cancel b o) i ⟨q, x⟩).world.ledger (m.after (.cancel b o) i ⟨q, x⟩).book := by
  cases hok with
  | authHeaders => exact hI
  | invalidate => exact hI
  | accountSeq => exact hI
  | acquire => exact hI
  | post headers =>
    cases x with
    | connectFailed => exact hI
    | sendFailed => exact hI
    | answered r =>
      show I (if r.Success then _ else m).world.ledger (if r.Success then _ else m).book
      split
      · exact h.stop m (cancelPath o) hI
      · exact hI
  | lookUp => exact hI
  | cancelled c => exact h.close m c x hI hC

/-- A request of a poll. -/
theorem poll (h : Upheld jobs C K I) {o : String} (hok : Job.Asks (.poll o) g q)
    (hknows : Knows (K m.book) m.book (.poll o) g) (hI : I m.world.ledger m.book) :
    I (m.after (.poll o) i ⟨q, x⟩).world.ledger (m.after (.poll o) i ⟨q, x⟩).book := by
  cases hok with
  | orderFill => exact hI
  | applyFill f => exact h.applyFill m f hI hknows

/-- **One answer**, to a job that asks what it may. -/
theorem answered (h : Upheld jobs C K I) (hjobs : JobsInv jobs (K m.book) m ph)
    (hg : ph i = some g) (hok : (jobs i).Asks g q) (hC : C m ⟨q, x⟩) (hI : I m.world.ledger m.book) :
    I (m.after (jobs i) i ⟨q, x⟩).world.ledger (m.after (jobs i) i ⟨q, x⟩).book := by
  have hknows := hjobs.knows i g hg
  generalize hjob : jobs i = job at hok hknows
  cases job with
  | place b req =>
    cases hok with
    | place hpermits => exact h.place hjob hknows hpermits hC hI
  | cancel b o => exact h.cancel hok hC hI
  | poll o => exact h.poll hok hknows hI

/-- **Every run.** What bears the jobs and what happens by itself holds wherever it held at the
    start. -/
theorem run (h : Upheld jobs C K I) (hK : ∀ book book' f, Lasts book book' → K book f → K book' f)
    (hhears : ∀ m e, m.Truthful e → C m e → ∀ f ∈ reportIn e, K m.book f)
    {N : kind.State → Prop} (hstart : ∀ l, N l → I l ∅)
    (hmoves : ∀ m m' executed, (∀ i b req, jobs i = .place b req → m.departed i = true →
      Vetted req) → I m.world.ledger m.book → Market.Moves jobs E D m executed m' →
        I m'.world.ledger m'.book)
    {s : Pool.State (Market kind ι) ι BrokerReq.Resp Exc Unit}
    (hs : Reachable (Pool.Start (Market.Opening N)) (trading jobs E C D).Step s) :
    JobsInv jobs (K s.world.book) s.world
        (Pool.phase (fun i => (jobs i).next) (fun i => (jobs i).start) s) ∧
      I s.world.world.ledger s.world.book := by
  refine Pool.inv (P := trading jobs E C D) (fun i => (jobs i).Asks) (fun i => job_asks (jobs i))
    (fun m ph => JobsInv jobs (K m.book) m ph ∧ I m.world.ledger m.book) ?_ ?_ ?_ ?_ hs
  · intro m hm
    obtain ⟨hN, hbook, hdeparted⟩ := hm
    refine ⟨⟨fun i b req _ h => ?_, fun _ _ h => absurd h (by simp)⟩, hbook ▸ hstart _ hN⟩
    exact absurd ((hdeparted i).symm.trans h) Bool.false_ne_true
  · intro m ph i hinv _
    exact ⟨hinv.1.start i, hinv.2⟩
  · intro m ph i g q x _ hinv hg hok hw
    obtain ⟨-, htrue, hC, rfl⟩ := hw
    have hlasts := lasts_after m (jobs i) i ⟨q, x⟩
    exact ⟨hinv.1.answered hg hok htrue (hhears m _ htrue hC) fun f => hK _ _ f hlasts,
      h.answered hinv.1 hg hok hC hinv.2⟩
  · intro m ph m' hinv hw
    obtain ⟨executed, hmove⟩ := hw
    exact ⟨hinv.1.moves hmove fun f => hK _ _ f (lasts_of_market hmove),
      hmoves m m' executed hinv.1.vetted hinv.2 hmove⟩

end Upheld

/-! ## 6. Concrete runs -/

instance (book : Book) (f : Fill) (c : String) (l : Listing) : Decidable (Reports book f c l) :=
  decidable_of_iff (book.get? c = some l ∧ f.orderId = l.orderId ∧ f.symbol = l.req.ticker ∧
      f.side = l.req.side ∧ f.filledQuantity ≤ l.executed ∧
      (f.clientOrderId = c ∨ f.clientOrderId = ""))
    ⟨fun h => ⟨h.1, h.2.1, h.2.2.1, h.2.2.2.1, h.2.2.2.2.1, h.2.2.2.2.2⟩,
      fun h => ⟨h.1, h.2, h.3, h.4, h.5, h.6⟩⟩

instance decidableTruthful (m : Market kind ι) : DecidablePred m.Truthful
  | ⟨.post _ (.order _) _, .answered _⟩ =>
    inferInstanceAs (Decidable (_ → _ → ∃ _ ∈ _, ∃ _ ∈ _, _ = _))
  | ⟨.orderFill _, .ok (some _)⟩ => inferInstanceAs (Decidable (_ ∧ ∃ _ ∈ _, _ ∧ _))
  | ⟨.post _ (.order _) _, .connectFailed⟩ | ⟨.post _ (.order _) _, .sendFailed⟩
  | ⟨.post _ .empty _, _⟩ | ⟨.orderFill _, .ok none⟩ | ⟨.orderFill _, .error _⟩
  | ⟨.cachedAck _ _, _⟩ | ⟨.cacheAck _ _ _, _⟩ | ⟨.ledger _, _⟩ | ⟨.clientOrderIdFor _, _⟩
  | ⟨.authHeaders, _⟩ | ⟨.invalidate, _⟩ | ⟨.accountSeq, _⟩ | ⟨.acquire, _⟩ | ⟨.cachedToken, _⟩
  | ⟨.cacheToken _, _⟩ | ⟨.postToken, _⟩ | ⟨.cachedAccountSeq, _⟩ | ⟨.cacheAccountSeq _, _⟩
  | ⟨.acquireRead, _⟩ | ⟨.get _ _ _ _, _⟩ => .isTrue trivial

instance decidableCareful (m : Market kind ι) : DecidablePred m.Careful
  | ⟨.ledger (.markOrderTerminal _ _), _⟩ => inferInstanceAs (Decidable (∀ _ ∈ _, _ → _))
  | ⟨.ledger (.reserve _ _ _), _⟩ | ⟨.ledger (.release _), _⟩
  | ⟨.ledger (.recordOrder _ _ _ _ _ _), _⟩ | ⟨.ledger (.reserveSell _ _ _ _ _), _⟩
  | ⟨.ledger (.applyFill _), _⟩ | ⟨.ledger (.recordCashflow _ _ _), _⟩
  | ⟨.cachedAck _ _, _⟩ | ⟨.cacheAck _ _ _, _⟩ | ⟨.clientOrderIdFor _, _⟩
  | ⟨.authHeaders, _⟩ | ⟨.invalidate, _⟩ | ⟨.accountSeq, _⟩ | ⟨.acquire, _⟩ | ⟨.post _ _ _, _⟩
  | ⟨.orderFill _, _⟩ | ⟨.cachedToken, _⟩ | ⟨.cacheToken _, _⟩ | ⟨.postToken, _⟩
  | ⟨.cachedAccountSeq, _⟩ | ⟨.cacheAccountSeq _, _⟩ | ⟨.acquireRead, _⟩
  | ⟨.get _ _ _ _, _⟩ => .isTrue trivial

instance (m : Market kind ι) : DecidablePred m.Denominated :=
  fun _ => inferInstanceAs (Decidable (∀ _ ∈ _, ∀ _ ∈ _, _ → _))

instance (m : Market kind ι) : DecidablePred m.StillOpen :=
  fun _ => inferInstanceAs (Decidable (_ → ∃ _ ∈ _, _))

/-- What the script has for a job: how a POST ends, and what a poll finds. -/
abbrev Script : Type := PostOutcome × Option Fill

def found (script : Script) (w : SleeveWorld kind) : (q : BrokerReq) → Option q.Resp
  | .orderFill _ => some (.ok script.2)
  | q => w.respond script.1 q

theorem gives_found {script : Script} {w : SleeveWorld kind} (h : found script w q = some x) :
    w.Gives ⟨q, x⟩ := by
  have hrespond : ∀ {q : BrokerReq} {x : q.Resp}, w.respond script.1 q = some x → w.Gives ⟨q, x⟩ :=
    fun h => SleeveWorld.gives_respond h
  cases q with
  | orderFill o => exact trivial
  | _ => exact hrespond h

/-- What Toss can be told to do. -/
inductive Stir (ι : Type) where
  | accept (i : ι) (orderId : String)
  | execute (c : String) (shares : ℕ)

/-- What is executed with it. -/
def Stir.executed : Stir ι → Option (String × Decimal)
  | .accept _ _ => none
  | .execute c shares => some (c, shares)

/-- Toss does as it is told, if it can. -/
def stirred (jobs : ι → Job) (D : Market kind ι → OrderRequest → Prop) [∀ m, DecidablePred (D m)]
    (stir : Stir ι) (m : Market kind ι) : Option (Market kind ι) :=
  match stir with
  | .accept i orderId =>
    match jobs i with
    | .place _ req =>
      if m.departed i = true ∧ m.book.get? req.clientOrderId = none ∧ orderId ≠ "" ∧
          (∀ e ∈ m.book.rows, e.2.orderId ≠ orderId) ∧ D m req then
        some { m with book := m.book.set req.clientOrderId { orderId, req } }
      else none
    | _ => none
  | .execute c shares =>
    match m.book.get? c with
    | some l =>
      if l.live = true ∧ 0 < shares ∧ ∀ q ∈ l.req.quantity, l.executed + shares ≤ q then
        some { m with book := m.book.set c { l with executed := l.executed + shares } }
      else none
    | none => none

theorem stirred_moves {E : SleeveWorld kind → SleeveWorld kind → Prop}
    {D : Market kind ι → OrderRequest → Prop} [∀ m, DecidablePred (D m)] {stir : Stir ι}
    (h : stirred jobs D stir m = some m') : Market.Moves jobs E D m stir.executed m' := by
  unfold stirred at h
  cases stir with
  | accept i orderId =>
    dsimp only at h
    split at h
    · next b req hjob =>
      obtain ⟨hpass, heq⟩ := Option.ite_none_right_eq_some.mp h
      obtain rfl := Option.some.inj heq
      exact .accept hjob hpass.1 hpass.2.1 hpass.2.2.1 hpass.2.2.2.1 hpass.2.2.2.2
    · exact absurd h (by simp)
  | execute c shares =>
    dsimp only at h
    split at h
    · next l hl =>
      obtain ⟨hpass, heq⟩ := Option.ite_none_right_eq_some.mp h
      obtain rfl := Option.some.inj heq
      exact .execute hl hpass.1 (by exact_mod_cast hpass.2.1) hpass.2.2
    · exact absurd h (by simp)

/-- The job goes on, so many times. -/
def goes {M : Type} (i : ι) (n : ℕ) : List (Pool.Turn ι Script M) :=
  List.replicate n (.go i (.connectFailed, none))

/-- The order leaves, is accepted, and the call is told so. -/
def placed {M : Type} (accept : ι → String → M) (i : ι) (orderId : String) :
    List (Pool.Turn ι Script M) :=
  goes i 6 ++ [.world (accept i orderId),
    .go i (.answered (.of 200 (some (.obj [("result", .obj [("orderId", .str orderId)])]))), none)] ++
  goes i 2

variable [DecidableEq ι]

/-- The answers of a concrete run, as far as `C` lets them pass. -/
def answeringJobs (jobs : ι → Job) (C : Market kind ι → Event BrokerReq.Resp → Prop)
    [∀ m, DecidablePred (C m)] :
    Script → Market kind ι → ι → (q : BrokerReq) → Option (q.Resp × Market kind ι) :=
  Pool.scripted (fun script m => found script m.world) (fun m e => m.Truthful e ∧ C m e)
    fun m i e => m.after (jobs i) i e

theorem answeringJobs_answers {E : SleeveWorld kind → SleeveWorld kind → Prop}
    {C : Market kind ι → Event BrokerReq.Resp → Prop} [∀ m, DecidablePred (C m)]
    {D : Market kind ι → OrderRequest → Prop} (script : Script) (m : Market kind ι) (i : ι)
    (q : BrokerReq) (x : q.Resp) (m' : Market kind ι)
    (h : answeringJobs jobs C script m i q = some (x, m')) :
    (trading jobs E C D).Answer m i ⟨q, x⟩ m' := by
  obtain ⟨hfound, hpass, rfl⟩ := Pool.of_scripted h
  exact ⟨gives_found hfound, hpass.1, hpass.2, rfl⟩

theorem stirred_env {E : SleeveWorld kind → SleeveWorld kind → Prop}
    {C : Market kind ι → Event BrokerReq.Resp → Prop} {D : Market kind ι → OrderRequest → Prop}
    [∀ m, DecidablePred (D m)] (stir : Stir ι) (m m' : Market kind ι)
    (h : stirred jobs D stir m = some m') : (trading jobs E C D).Env m m' :=
  ⟨stir.executed, stirred_moves h⟩

end Proof
end TossSleeve
