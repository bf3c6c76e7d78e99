import TossSleeve.Proof.EndToEnd
import TossSleeve.Proof.Interchange
import TossSleeve.Proof.Isolation

/-!
# `Proof/Durable.lean` — no oversell, over a database

`Proof/EndToEnd.lean` follows a sleeve that keeps its ledger in dictionaries. One that trades keeps
it in a database: it shares the file with other sleeves, and it is opened again after every crash.
Nothing of the argument has to be repeated. What the jobs go through over the database they go
through over dictionaries as well (`Lib/Simulation.lean`), in a market with the same book; and there
nothing is oversold.

§1 is what happens to the file. §2 is what holds of the order ids in the meantime: they are Toss's,
each of one order. Toss reports every order in its own currency, without which the two ledgers would
part. §3 relates the two markets, and §4 is the result.
-/

set_option autoImplicit false

namespace TossSleeve

open Lib Lib.Proc InMemorySleeveLedger

/-! ## 1. A market over a database -/

/-- The calendar, and what happens to the file: another sleeve writes to it, or it is opened
    again. -/
inductive FileMoves {sql : SqliteSleeveLedger} {choice : RowChoice} (cap : Decimal)
    (base : Currency) (w : SleeveWorld (.sqlite sql choice)) :
    SleeveWorld (.sqlite sql choice) → Prop
  | day (today : String) : FileMoves cap base w { w with today }
  | neighbour {other : String} (hother : sql.sleeveId ≠ other) (ev : LedgerEvent) :
      FileMoves cap base w
        { w with ledger := ((SqliteSleeveLedger.mk other).handle w.ledger ev).1 }
  | reopen : FileMoves cap base w
      { w with ledger := LedgerKind.reopen cap base (.sqlite sql choice) w.ledger }

/-- The jobs, over a database. -/
abbrev storing {ι : Type} [DecidableEq ι] (sql : SqliteSleeveLedger) (choice : RowChoice)
    (cap : Decimal) (base : Currency) (jobs : ι → Job) :
    Pool (Market (.sqlite sql choice) ι) ι BrokerReq.Resp Exc Unit :=
  trading jobs (FileMoves cap base) (fun m e => m.Careful e ∧ m.Denominated e) Market.StillOpen

/-- A sleeve that has done nothing yet, in a database that may have others. -/
abbrev StoredOpening (sql : SqliteSleeveLedger) (choice : RowChoice) (ι : Type) (cap : Decimal)
    (base : Currency) : Market (.sqlite sql choice) ι → Prop :=
  Market.Opening (LedgerKind.New sql.sleeveId cap base (.sqlite sql choice))

/-- A cancellation is of an order id. -/
def Job.Named : Job → Prop
  | .cancel _ orderId => orderId ≠ ""
  | _ => True

namespace Proof.Durable

open Cancelling

variable {sql : SqliteSleeveLedger} {choice : RowChoice} {ι : Type} {jobs : ι → Job}
  {cap : Decimal} {base : Currency} {m m' : Market (.sqlite sql choice) ι}
  {led : InMemorySleeveLedger} {i : ι} {g : JobPhase} {book book' : Book}

/-! ## 2. Whose the order ids are -/

/-- The order id that Toss has for a client order id. -/
def nameIn (book : Book) (c : String) : String := ((book.get? c).map (·.orderId)).getD ""

theorem nameIn_listed {c : String} {l : Listing} (h : book.get? c = some l) :
    nameIn book c = l.orderId := by
  rw [nameIn, h]
  rfl

/-- A report in the currency of its order. -/
def Priced (book : Book) (f : Fill) : Prop :=
  ∃ c l, Reports book f c l ∧ f.currency = l.req.currency

theorem Priced.lasts {f : Fill} (h : Priced book f) (hbook : Lasts book book') :
    Priced book' f := by
  obtain ⟨c, l, hf, hcur⟩ := h
  obtain ⟨l', hf', hreq⟩ := hf.lasts hbook
  exact ⟨c, l', hf', hreq ▸ hcur⟩

theorem priced_of_truthful {e : Event BrokerReq.Resp} (htrue : m.Truthful e)
    (hdenominated : m.Denominated e) : ∀ f ∈ reportIn e, Priced m.book f := by
  intro f hf
  obtain ⟨c, l, hreports⟩ := reported_of_truthful htrue f hf
  exact ⟨c, l, hreports, hdenominated f hf (c, l) (Dict.mem_rows_iff.mpr hreports.listed)
    hreports.orderId.symm⟩

/-- The orders of the book have names, each its own. -/
structure Distinct (book : Book) : Prop where
  named : ∀ c l, book.get? c = some l → l.orderId ≠ ""
  unique : ∀ c c' l l', book.get? c = some l → book.get? c' = some l' → l.orderId = l'.orderId →
    c = c'

/-- The orders keep their names. -/
theorem Distinct.of_back {book book' : Book} (h : Distinct book)
    (hback : ∀ c l', book'.get? c = some l' → ∃ l, book.get? c = some l ∧ l'.orderId = l.orderId) :
    Distinct book' := by
  constructor
  · intro c l' hl'
    obtain ⟨l, hl, hid⟩ := hback c l' hl'
    exact hid ▸ h.named c l hl
  · intro c c' l l' hl hl' hid
    obtain ⟨k, hk, hkid⟩ := hback c l hl
    obtain ⟨k', hk', hkid'⟩ := hback c' l' hl'
    exact h.unique c c' k k' hk hk' (hkid.symm.trans (hid.trans hkid'))

theorem distinct_stop {book : Book} (h : Distinct book) (path : String) :
    Distinct (book.mapVal (Listing.stop path)) := by
  refine h.of_back fun c l' hl' => ?_
  rw [Dict.get?_mapVal] at hl'
  obtain ⟨l, hl, rfl⟩ := Option.map_eq_some_iff.mp hl'
  refine ⟨l, hl, ?_⟩
  unfold Listing.stop
  split <;> rfl

theorem distinct_set (h : Distinct book) {c : String} {l l' : Listing} (hl : book.get? c = some l)
    (hid : l'.orderId = l.orderId) : Distinct (book.set c l') := by
  refine h.of_back fun k k' hk => ?_
  rw [Dict.get?_set] at hk
  split at hk
  · next heq =>
    obtain rfl := heq
    obtain rfl := Option.some.inj hk
    exact ⟨l, hl, hid⟩
  · exact ⟨k', hk, rfl⟩

/-- Toss accepts an order, under a name of its own. -/
theorem distinct_new (h : Distinct book) {req : OrderRequest} {orderId : String}
    (hnamed : orderId ≠ "") (hunused : ∀ e ∈ book.rows, e.2.orderId ≠ orderId) :
    Distinct (book.set req.clientOrderId { orderId, req }) := by
  have hold : ∀ k l, book.get? k = some l → l.orderId ≠ orderId :=
    fun k l hk => hunused (k, l) (Dict.mem_rows_iff.mpr hk)
  constructor
  · intro k l hk
    rw [Dict.get?_set] at hk
    split at hk
    · obtain rfl := Option.some.inj hk
      exact hnamed
    · exact h.named k l hk
  · intro k k' l l' hk hk' hid
    rw [Dict.get?_set] at hk hk'
    split at hk
    · next heq =>
      obtain rfl := Option.some.inj hk
      split at hk'
      · next heq' => exact heq.trans heq'.symm
      · exact absurd hid.symm (hold k' l' hk')
    · split at hk'
      · obtain rfl := Option.some.inj hk'
        exact absurd hid (hold k l hk)
      · exact h.unique k k' l l' hk hk' hid

/-- A book that goes on names no order otherwise. -/
theorem faithful_lasts {r : Register String String} (h : Register.Faithful "" (nameIn book) r)
    (hlasts : Lasts book book') : Register.Faithful "" (nameIn book') r := by
  intro c o hc
  rcases h c o hc with hblank | hname
  · exact .inl hblank
  · cases hl : book.get? c with
    | none =>
      rw [nameIn, hl] at hname
      exact .inl hname
    | some l =>
      obtain ⟨l', hl', hid, -⟩ := hlasts c l hl
      rw [nameIn_listed hl, ← hid, ← nameIn_listed hl'] at hname
      exact .inr hname

/-- **The order ids**: each is of one order of the book, and the rows know no others. -/
structure Filed (kind : LedgerKind) (l : kind.State) (book : Book) : Prop where
  distinct : Distinct book
  faithful : Register.Faithful "" (nameIn book) (kind.names l)

namespace Filed

variable {kind : LedgerKind} {l l' : kind.State}

/-- The book goes on. -/
theorem lasts (h : Filed kind l book) (hlasts : Lasts book book') (hdistinct : Distinct book') :
    Filed kind l book' :=
  ⟨hdistinct, faithful_lasts h.faithful hlasts⟩

/-- The rows have the ids they had. -/
theorem renamed (h : Filed kind l book) (hnames : kind.names l' = kind.names l) :
    Filed kind l' book :=
  ⟨h.distinct, by rw [hnames]; exact h.faithful⟩

/-- A call of the ledger that registers no order id, or the one that Toss has. -/
theorem call (h : Filed kind l book) (today : String) {op : LedgerOp}
    (hop : ∀ e ∈ op.registers, e.2 = "" ∨ e.2 = nameIn book e.1) :
    Filed kind (kind.step l today op).1 book :=
  ⟨h.distinct, (names_kept h.faithful today hop).1⟩

end Filed

/-- **What the jobs do**, the order ids are Toss's. -/
theorem filed_upheld (kind : LedgerKind) (jobs : ι → Job)
    (C : Market kind ι → Event BrokerReq.Resp → Prop) (K : Book → Fill → Prop) :
    Upheld jobs C K (Filed kind) where
  cover m b req op h _ _ hop := by
    refine h.call m.world.today fun e he => ?_
    cases hop with
    | reserve => exact absurd he (by simp [LedgerOp.registers])
    | reserveSell =>
      obtain rfl := Option.some.inj he
      exact .inl rfl
  unwind m req _ h _ := by
    refine h.call m.world.today fun e he => absurd he ?_
    unfold unwindOp
    cases req.side <;> simp [LedgerOp.registers]
  record m req l h _ hl := by
    refine h.call m.world.today fun e he => ?_
    obtain rfl := Option.some.inj he
    exact .inr (nameIn_listed hl).symm
  close m _ _ h _ := h.call m.world.today fun _ he => absurd he (by simp [LedgerOp.registers])
  applyFill m _ h _ := h.call m.world.today fun _ he => absurd he (by simp [LedgerOp.registers])
  stop m path h := h.lasts (lasts_stop m.book path) (distinct_stop h.distinct path)

/-- The names of the rows are the sleeve's own. -/
theorem names_of_only {db db' : SleeveDb} (h : db'.only sql.sleeveId = db.only sql.sleeveId) :
    LedgerKind.names (.sqlite sql choice) db' = LedgerKind.names (.sqlite sql choice) db := by
  funext c
  have horders : db'.orders.part sql.sleeveId = db.orders.part sql.sleeveId :=
    congrArg SleeveDb.orders h
  show ((db'.orders.find? (sql.sleeveId, c)).map _).map _ =
    ((db.orders.find? (sql.sleeveId, c)).map _).map _
  rw [Table.find?_of_part horders]

/-- What happens by itself. -/
theorem filed_moves {executed : Option (String × Decimal)}
    (h : Filed (.sqlite sql choice) m.world.ledger m.book)
    (hmoves : Market.Moves jobs (FileMoves cap base) Market.StillOpen m executed m') :
    Filed (.sqlite sql choice) m'.world.ledger m'.book := by
  have hlasts := lasts_of_market hmoves
  cases hmoves with
  | accept hjob hdeparted hnew hnamed hunused hopen =>
    exact h.lasts hlasts (distinct_new h.distinct hnamed hunused)
  | execute hl hlive hd hle => exact h.lasts hlasts (distinct_set h.distinct hl rfl)
  | lapse hl => exact h.lasts hlasts (distinct_set h.distinct hl rfl)
  | ledger hw =>
    cases hw with
    | day today => exact h
    | neighbour hother ev =>
      exact h.renamed (names_of_only (handle_others hother m.world.ledger ev))
    | reopen => exact h.renamed (Interchange.names_reopen cap base m.world.ledger)

theorem filed_run [DecidableEq ι]
    {s : Pool.State (Market (.sqlite sql choice) ι) ι BrokerReq.Resp Exc Unit}
    (hs : Reachable (Pool.Start (StoredOpening sql choice ι cap base))
      (storing sql choice cap base jobs).Step s) :
    JobsInv jobs (Priced s.world.book) s.world
        (Pool.phase (fun i => (jobs i).next) (fun i => (jobs i).start) s) ∧
      Filed (.sqlite sql choice) s.world.world.ledger s.world.book := by
  refine (filed_upheld _ jobs _ Priced).run (fun _ _ _ hbook h => h.lasts hbook)
    (fun _ _ htrue hC => priced_of_truthful htrue hC.2) (fun db hnew => ⟨?_, fun c o hc => ?_⟩)
    (fun _ _ _ _ h hmoves => filed_moves h hmoves) hs
  · exact ⟨fun _ _ h => absurd h (by simp), fun _ _ _ _ h => absurd h (by simp)⟩
  · rw [LedgerKind.names, Interchange.order_new hnew c] at hc
    exact absurd hc (by simp)

/-! ## 3. The two markets -/

/-- The same market over dictionaries. -/
def inMemory (m : Market (.sqlite sql choice) ι) (led : InMemorySleeveLedger) :
    Market .inMemory ι where
  world := { ledger := led, today := m.world.today, acks := m.world.acks }
  book := m.book
  departed := m.departed

/-- **The dictionaries are what the rows of the sleeve say**, and every snapshot is of an order of
    the book. -/
structure Mirrors (base : Currency) (m : Market (.sqlite sql choice) ι)
    (led : InMemorySleeveLedger) : Prop where
  represents : Represents sql.sleeveId led m.world.ledger
  base : (led.cash.get? base).isSome
  snapshots : ∀ orderId p, led.snapshots.get? orderId = some p →
    ∃ c l, m.book.get? c = some l ∧ l.orderId = orderId ∧ p.symbol = l.req.ticker ∧
      p.side = l.req.side ∧ p.currency = l.req.currency

namespace Mirrors

/-- The book goes on. -/
theorem lasts (h : Mirrors base m led) (hledger : m'.world.ledger = m.world.ledger)
    (hlasts : Lasts m.book m'.book) : Mirrors base m' led := by
  refine ⟨hledger ▸ h.represents, h.base, fun orderId p hp => ?_⟩
  obtain ⟨c, l, hl, hid, hsym, hside, hcur⟩ := h.snapshots orderId p hp
  obtain ⟨l', hl', hid', hreq, -⟩ := hlasts c l hl
  exact ⟨c, l', hl', hid'.trans hid, hreq ▸ hsym, hreq ▸ hside, hreq ▸ hcur⟩

/-- What a job asks of the ledger, the two ledgers answer alike. -/
theorem wellKeyed (h : Mirrors base m led) (hdistinct : Distinct m.book) {job : Job} {op : LedgerOp}
    (hok : job.Asks g (.ledger op)) (hknows : Knows (Priced m.book) m.book job g) :
    WellKeyed led op := by
  cases hok with
  | @place b req p _ hpermits =>
    have hunwind : WellKeyed led (unwindOp req) := by
      unfold unwindOp
      cases req.side <;> exact trivial
    cases hpermits with
    | cover hc hop => cases hop <;> exact trivial
    | unwind => exact hunwind
    | unwindLost => exact hunwind
    | record hs ho => exact hknows.1.keyed trivial
  | cancelled c => exact trivial
  | applyFill f =>
    -- The snapshot that is there and the report are of one order of the book.
    intro p hp
    obtain ⟨c, l, hl, hid, hsym, hside, hcur⟩ := h.snapshots f.orderId p hp
    obtain ⟨c', l', hf, hcur'⟩ := hknows
    obtain rfl := hdistinct.unique c c' l l' hl hf.listed (hid.trans hf.orderId)
    obtain rfl := Option.some.inj (hl.symm.trans hf.listed)
    exact ⟨hsym.trans hf.symbol.symm, hside.trans hf.side.symm, hcur.trans hcur'.symm⟩

/-- A `place` applies no snapshots. -/
theorem not_applyFill {b : TossBroker} {req : OrderRequest} {p : Phase} {f : Fill} :
    ¬ Permitted b req p (.ledger (.applyFill f)) := by
  intro h
  have hunwind : LedgerOp.applyFill f ≠ unwindOp req := by
    unfold unwindOp
    cases req.side <;> simp
  generalize hop : LedgerOp.applyFill f = op at h hunwind
  cases h with
  | cover hc hcovers => cases hcovers <;> cases hop
  | unwind => exact hunwind rfl
  | unwindLost => exact hunwind rfl
  | record => cases hop

/-- The same call of both ledgers. -/
theorem call (h : Mirrors base m led) (hdistinct : Distinct m.book) {job : Job} {op : LedgerOp}
    (hok : job.Asks g (.ledger op)) (hknows : Knows (Priced m.book) m.book job g) (x : Reply) :
    Mirrors base { m with world := m.world.after ⟨.ledger op, x⟩ }
        (led.step m.world.today op).1 ∧
      (LedgerKind.step (.sqlite sql choice) m.world.ledger m.world.today op).2 =
        (led.step m.world.today op).2 := by
  obtain ⟨hrepresents, hreply⟩ := exec_call h.represents m.world.today
    (h.wellKeyed hdistinct hok hknows)
  refine ⟨⟨hrepresents, isSome_cash_step led m.world.today op h.base, fun o p hp => ?_⟩, hreply⟩
  rcases snapshots_step hp with hold | ⟨rfl, hid⟩
  · exact h.snapshots o p hold
  · cases hok with
    | place hpermits => exact (not_applyFill hpermits).elim
    | applyFill =>
      obtain ⟨c, l, hf, hcur⟩ := hknows
      exact ⟨c, l, hf.listed, hf.orderId.symm.trans hid, hf.symbol, hf.side, hcur⟩

/-- Whose an order id is. -/
theorem clientOrderIdFor (h : Mirrors base m led)
    (hfiled : Filed (.sqlite sql choice) m.world.ledger m.book) {o : String} (ho : o ≠ "") :
    LedgerKind.clientOrderIdFor (.sqlite sql choice) m.world.ledger o =
      .ok (led.clientOrderIdFor o) := by
  have hlisted : ∀ c row, led.orders.get? c = some row → row.orderId = o →
      ∃ l, m.book.get? c = some l ∧ l.orderId = o := by
    intro c row hrow hid
    have hnamed : LedgerKind.names (.sqlite sql choice) m.world.ledger c = some o := by
      show ((m.world.ledger.orders.find? (sql.sleeveId, c)).map _).map _ = some o
      rw [h.represents.orders c, hrow, ← hid]
      rfl
    have hname := (hfiled.faithful c o hnamed).resolve_left ho
    cases hl : m.book.get? c with
    | none =>
      rw [nameIn, hl] at hname
      exact absurd hname ho
    | some l => exact ⟨l, rfl, (nameIn_listed hl).symm.trans hname.symm⟩
  have honce : RecordedOnce led o := by
    intro c c' row row' hrow hrow' hid hid'
    obtain ⟨l, hl, hlid⟩ := hlisted c row hrow hid
    obtain ⟨l', hl', hlid'⟩ := hlisted c' row' hrow' hid'
    exact hfiled.distinct.unique c c' l l' hl hl' (hlid.trans hlid'.symm)
  exact congrArg Except.ok (h.represents.clientOrderIdFor choice honce)

end Mirrors

/-- Whether Toss tells the truth is a question about the book. -/
theorem truthful_over {e : Event BrokerReq.Resp} (h : m.Truthful e) (led : InMemorySleeveLedger) :
    (inMemory m led).Truthful e := h

/-- A careful request is careful over dictionaries. -/
theorem careful_over (h : Mirrors base m led) {e : Event BrokerReq.Resp} (hcareful : m.Careful e) :
    (inMemory m led).Careful e := by
  obtain ⟨q, x⟩ := e
  cases q with
  | ledger op =>
    cases op with
    | markOrderTerminal c st =>
      intro l hl hside
      have hle := hcareful l hl hside
      have hfilled : LedgerKind.filled (.sqlite sql choice) m.world.ledger l.orderId =
        led.filledByOrderId l.orderId := h.represents.filledByOrderId l.orderId
      rw [hfilled] at hle
      exact hle
    | _ => exact trivial
  | _ => exact trivial

/-- What happens over the database happens over dictionaries, or is not seen there. -/
theorem mirrors_moves {executed : Option (String × Decimal)} (hsid : sql.sleeveId ≠ "")
    (hcap : 0 ≤ cap) (h : Mirrors base m led)
    (hmoves : Market.Moves jobs (FileMoves cap base) Market.StillOpen m executed m') :
    Market.Moves jobs NextDay Market.StillOpen (inMemory m led) executed (inMemory m' led) ∧
      Mirrors base m' led := by
  have hlasts := lasts_of_market hmoves
  cases hmoves with
  | accept hjob hdeparted hnew hnamed hunused hopen =>
    refine ⟨.accept hjob hdeparted hnew hnamed hunused fun hside => ?_, h.lasts rfl hlasts⟩
    obtain ⟨o, ho, hstatus⟩ := hopen hside
    exact ⟨o, (h.represents.orders _).symm.trans ho, hstatus⟩
  | execute hl hlive hd hle => exact ⟨.execute hl hlive hd hle, h.lasts rfl hlasts⟩
  | lapse hl => exact ⟨.lapse hl, h.lasts rfl hlasts⟩
  | @ledger w hw =>
    -- Over dictionaries at most a day passes.
    refine ⟨.ledger ⟨w.today, by cases hw <;> rfl⟩, ?_⟩
    cases hw with
    | day today => exact h.lasts rfl hlasts
    | neighbour hother ev =>
      have honly := handle_others hother m.world.ledger ev
      exact ⟨h.represents.congr honly.symm, h.base, h.snapshots⟩
    | reopen => exact ⟨(exec_opened h.represents hsid hcap h.base).1, h.base, h.snapshots⟩

variable [DecidableEq ι]

/-- The ledger of dictionaries after a request. -/
def ledgerAfter (led : InMemorySleeveLedger) (today : String) :
    Event BrokerReq.Resp → InMemorySleeveLedger
  | ⟨.ledger op, _⟩ => (led.step today op).1
  | _ => led

/-- The market over dictionaries goes on as the one over the database does. -/
theorem over_after (m : Market (.sqlite sql choice) ι) (led : InMemorySleeveLedger) (job : Job)
    (i : ι) (e : Event BrokerReq.Resp) :
    (inMemory m led).after job i e = inMemory (m.after job i e) (ledgerAfter led m.world.today e) := by
  obtain ⟨q, x⟩ := e
  cases q with
  | post path payload headers =>
    cases job with
    | place b req => rfl
    | poll o => rfl
    | cancel b o =>
      cases x with
      | connectFailed => rfl
      | sendFailed => rfl
      | answered r =>
        show (if r.Success then _ else _) = inMemory (if r.Success then _ else _) _
        split <;> rfl
  | _ => cases job <;> rfl

/-- What a job waits for, and what it knows there. -/
theorem asks_of_waits {s : Pool.State (Market (.sqlite sql choice) ι) ι BrokerReq.Resp Exc Unit}
    (hs : Reachable (Pool.Start (StoredOpening sql choice ι cap base))
      (storing sql choice cap base jobs).Step s) {q : BrokerReq} (h : s.Waits i q) :
    ∃ g, (jobs i).Asks g q ∧ Knows (Priced s.world.book) s.world.book (jobs i) g := by
  obtain ⟨past, k, hi⟩ := h
  obtain ⟨g, hg, hok⟩ := Pool.ok_of_await (fun i => (jobs i).Asks) (fun i => job_asks (jobs i)) hs hi
  exact ⟨g, hok, (filed_run hs).1.knows i g hg⟩

/-- What one ledger answers, so does the other. -/
theorem mirrors_answer {s : Pool.State (Market (.sqlite sql choice) ι) ι BrokerReq.Resp Exc Unit}
    (hs : Reachable (Pool.Start (StoredOpening sql choice ι cap base))
      (storing sql choice cap base jobs).Step s) (hjobs : ∀ i, (jobs i).Named) {q : BrokerReq}
    {x : q.Resp} (hwaits : s.Waits i q) (h : Mirrors base s.world led)
    (hgives : s.world.world.Gives ⟨q, x⟩) :
    (inMemory s.world led).world.Gives ⟨q, x⟩ ∧ Mirrors base (s.world.after (jobs i) i ⟨q, x⟩)
      (ledgerAfter led s.world.world.today ⟨q, x⟩) := by
  obtain ⟨g, hok, hknows⟩ := asks_of_waits hs hwaits
  have hfiled := (filed_run hs).2
  have hquiet : (∀ op, q ≠ .ledger op) → Mirrors base (s.world.after (jobs i) i ⟨q, x⟩) led :=
    fun hq => h.lasts (ledger_after _ _ _ x hq) (lasts_after _ _ _ _)
  cases q with
  | ledger op =>
    obtain ⟨hmirrors, hreply⟩ := h.call hfiled.distinct hok hknows x
    refine ⟨Eq.trans hgives hreply, ?_⟩
    cases jobs i with
    | place b req => exact hmirrors
    | cancel b o => exact hmirrors
    | poll o => exact hmirrors
  | clientOrderIdFor o =>
    have ho : o ≠ "" := by
      have hnamed := hjobs i
      generalize jobs i = job at hok hnamed
      cases hok with
      | place hpermits => cases hpermits
      | lookUp => exact hnamed
    have hfound := h.clientOrderIdFor hfiled ho
    exact ⟨hfound.symm.trans hgives, hquiet (by simp)⟩
  | cachedAck b c => exact ⟨hgives, hquiet (by simp)⟩
  | _ => exact ⟨trivial, hquiet (by simp)⟩

/-- **A market over a database is one over dictionaries.** -/
theorem simulates (hsid : sql.sleeveId ≠ "") (hcap : 0 ≤ cap) (hjobs : ∀ i, (jobs i).Named) :
    Pool.Simulates (storing sql choice cap base jobs)
      (trading jobs NextDay Market.Careful Market.StillOpen) (StoredOpening sql choice ι cap base)
      (Market.Opening Untouched) fun m n => ∃ led, n = inMemory m led ∧ Mirrors base m led where
  program := rfl
  begins m hm := by
    obtain ⟨⟨db, hfresh, hledger⟩, hbook, hdeparted⟩ := hm
    refine ⟨inMemory m (fresh sql.sleeveId cap base), ⟨⟨_, _, _, rfl⟩, hbook, hdeparted⟩, _, rfl, ?_⟩
    refine ⟨?_, by simp [fresh], fun o p hp => absurd hp (by simp [fresh])⟩
    rw [hledger]
    exact (represents_fresh hfresh hsid hcap base).1
  answer s hs i q x m' n hwaits hanswer hR := by
    obtain ⟨led, rfl, hmirrors⟩ := hR
    obtain ⟨hgives, htrue, hcareful, rfl⟩ := hanswer
    obtain ⟨hgives', hmirrors'⟩ := mirrors_answer hs hjobs hwaits hmirrors hgives
    exact ⟨_, ⟨hgives', truthful_over htrue led, careful_over hmirrors hcareful.1, rfl⟩, _,
      over_after s.world led (jobs i) i ⟨q, x⟩, hmirrors'⟩
  env s _ m' n hmoves hR := by
    obtain ⟨led, rfl, hmirrors⟩ := hR
    obtain ⟨executed, hmoves⟩ := hmoves
    obtain ⟨hmoves', hmirrors'⟩ := mirrors_moves hsid hcap hmirrors hmoves
    exact ⟨_, ⟨executed, hmoves'⟩, led, rfl, hmirrors'⟩

/-! ## 4. No oversell -/

/-- **A sleeve that keeps its ledger in a database never sells what it has not bought**, whatever
    other sleeves write to it and however often it is opened again, in every run in which the row of
    a SELL is closed only when the ledger knows all that Toss has executed or may execute of it, and
    a SELL arrives only while its row is open. Every such run is one over dictionaries. -/
theorem durable_noOversell (hsid : sql.sleeveId ≠ "") (hcap : 0 ≤ cap)
    (hjobs : ∀ i, (jobs i).Named) (hone : OneOrder jobs)
    {s : Pool.State (Market (.sqlite sql choice) ι) ι BrokerReq.Resp Exc Unit}
    (hs : Reachable (Pool.Start (StoredOpening sql choice ι cap base))
      (storing sql choice cap base jobs).Step s) : NoOversell s.world.book ∧
    ∃ t : Pool.State (Market .inMemory ι) ι BrokerReq.Resp Exc Unit,
      Reachable (Pool.Start (Market.Opening Untouched))
        (trading jobs NextDay Market.Careful Market.StillOpen).Step t ∧
      t.world.book = s.world.book ∧ t.thread = s.thread := by
  obtain ⟨t, ht, ⟨led, heq, -⟩, hthread⟩ := (simulates hsid hcap hjobs).run hs
  have hbook : t.world.book = s.world.book := congrArg Market.book heq
  refine ⟨?_, t, ht, hbook, hthread⟩
  rw [← hbook]
  exact (agree_run hone ht).noOversell

/-! The desk again: the file is opened again after the purchase, and another sleeve writes to it. -/

/-- The desk's sleeve. -/
abbrev sleeve : SqliteSleeveLedger := ⟨"sleeve"⟩

/-- What Toss can be told to do, and what can happen to the file. -/
inductive FileStir where
  | toss (stir : Stir Desk)
  | reopen
  | neighbour (ev : LedgerEvent)

def stirredStored (stir : FileStir) (m : Market (.sqlite sleeve .first) Desk) :
    Option (Market (.sqlite sleeve .first) Desk) :=
  match stir with
  | .toss stir => stirred Desk.job Market.StillOpen stir m
  | .reopen => some { m with world := { m.world with
      ledger := LedgerKind.reopen 1000 .KRW (.sqlite sleeve .first) m.world.ledger } }
  | .neighbour ev => some { m with world := { m.world with
      ledger := ((SqliteSleeveLedger.mk "other").handle m.world.ledger ev).1 } }

/-- A day at the desk. -/
def storedDay (turns : List (Pool.Turn Desk Script FileStir)) :
    Pool.State (Market (.sqlite sleeve .first) Desk) Desk BrokerReq.Resp Exc Unit :=
  (storing sleeve .first 1000 .KRW Desk.job).play
    (answeringJobs Desk.job fun m e => m.Careful e ∧ m.Denominated e) stirredStored
    { world :=
        { ledger := (sleeve.handle .empty (.opened 1000 .KRW)).1
          today := "2024-01-02"
          acks := fun _ _ => none }
      departed := fun _ => false }
    turns

theorem storedDay_reachable (turns : List (Pool.Turn Desk Script FileStir)) :
    Reachable (Pool.Start (StoredOpening sleeve .first Desk 1000 .KRW))
      (storing sleeve .first 1000 .KRW Desk.job).Step (storedDay turns) := by
  refine Pool.play_reachable _ answeringJobs_answers (fun stir m m' h => ?_) ?_ turns
  · cases stir with
    | toss stir => exact ⟨_, stirred_moves h⟩
    | reopen =>
      obtain rfl := Option.some.inj h
      exact ⟨none, .ledger .reopen⟩
    | neighbour ev =>
      obtain rfl := Option.some.inj h
      exact ⟨none, .ledger (.neighbour (by decide) ev)⟩
  · exact ⟨⟨.empty, rfl, rfl⟩, rfl, fun _ => rfl⟩

/-- The file is opened again, and another sleeve appears in it. -/
def movedIn : List (Pool.Turn Desk Script FileStir) :=
  [.world .reopen, .world (.neighbour (.opened 500 .KRW))]

/-- A turn of the desk, here. -/
def filed : Pool.Turn Desk Script (Stir Desk) → Pool.Turn Desk Script FileStir
  | .go i script => .go i script
  | .world stir => .world (.toss stir)

/-- The shares are bought; the file is opened again, and another sleeve appears in it; they are
    offered, and four of them sold. -/
def soldFromFile : Pool.State (Market (.sqlite sleeve .first) Desk) Desk BrokerReq.Resp Exc Unit :=
  storedDay (bought.map filed ++ movedIn ++
    List.map filed (placed .accept .sell "o-s" ++ [.world (.execute "gd:s" 4)]))

theorem durable_noOversell_sale :
    soldFromFile.world.book.total .SELL "005930" Listing.remainder = 6 ∧
      NoOversell soldFromFile.world.book :=
  ⟨by decide +kernel, (durable_noOversell (by decide) (by decide +kernel)
    (fun i => by cases i <;> simp [Desk.job, Job.Named]) oneOrder_desk (storedDay_reachable _)).1⟩

end Proof.Durable
end TossSleeve
