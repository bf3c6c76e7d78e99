import TossSleeve.Proof.Serial
import TossSleeve.Proof.Isolation
import TossSleeve.Proof.Equivalence
import TossSleeve.Proof.HardCap
import TossSleeve.Proof.Oversell

/-!
# `Proof/Processes.lean` — many processes, one ledger each sleeve can trust

What is known of the dictionary ledger — that it never admits more than its cash, that it never
sells what it has not — is known of calls made one after the other. A deployed sleeve is a number
of processes on one database file, next to those of other sleeves, and their statements interleave.

§1 puts the three comparisons together: the calls serialise, the other sleeves do not show, and
the rows of a sleeve are its dictionaries. What is committed is what *one* dictionary ledger holds
after the sleeve's committed calls in the order of their commits, and every one of them was
answered as by it (`processes_refine`). So whatever holds of a dictionary ledger holds of all the
processes together; §2 draws the two conclusions that matter, the cap and the shares.

Constructing a ledger is one of the calls here: a process may start, or be started again, at any
time.
-/

set_option autoImplicit false

namespace TossSleeve

open Lib

/-! ## 1. One ledger -/

/-- A call of one of the processes, or the opening of its ledger. -/
structure Issued where
  ledger : SqliteSleeveLedger
  event : LedgerEvent

def Issued.program (c : Issued) : SqlCall Reply := c.ledger.eventCall c.event

/-- The calls there have been, in the order of their commits, and what they returned. -/
abbrev CommitLog : Type := List (Issued × Reply)

abbrev ProcessState : Type := Txn.State SleeveDb NoAnswer LedgerError Reply Issued

/-- The processes on a database. No transaction is left open with writes in it. -/
abbrev Sharing (db₀ : SleeveDb) : ProcessState → Prop :=
  Reachable (Txn.Start db₀) (Txn.Step Issued.program False)

/-- The part of a log that is a sleeve's. -/
def CommitLog.of (sid : String) (log : CommitLog) : CommitLog :=
  log.filter fun e => decide (e.1.ledger.sleeveId = sid)

def CommitLog.events (sid : String) (log : CommitLog) : List LedgerEvent :=
  (log.of sid).map fun e => e.1.event

def CommitLog.replies (sid : String) (log : CommitLog) : List Reply :=
  (log.of sid).map Prod.snd

namespace Proof

theorem events_concat (sid : String) (log : CommitLog) (c : Issued) (a : Reply) :
    CommitLog.events sid (log ++ [(c, a)]) = if c.ledger.sleeveId = sid then
      CommitLog.events sid log ++ [c.event] else CommitLog.events sid log := by
  by_cases h : c.ledger.sleeveId = sid <;> simp [CommitLog.events, CommitLog.of, h]

theorem replies_concat (sid : String) (log : CommitLog) (c : Issued) (a : Reply) :
    CommitLog.replies sid (log ++ [(c, a)]) = if c.ledger.sleeveId = sid then
      CommitLog.replies sid log ++ [a] else CommitLog.replies sid log := by
  by_cases h : c.ledger.sleeveId = sid <;> simp [CommitLog.replies, CommitLog.of, h]

section Sleeve

variable {self : SqliteSleeveLedger} {l : InMemorySleeveLedger} {db db' db₀ : SleeveDb}

theorem handleAll_concat (db : SleeveDb) (evs : List LedgerEvent) (ev : LedgerEvent) :
    self.handleAll db (evs ++ [ev]) = ((self.handle (self.handleAll db evs).1 ev).1,
      (self.handleAll db evs).2 ++ [(self.handle (self.handleAll db evs).1 ev).2]) := by
  induction evs generalizing db with
  | nil => rfl
  | cons e evs ih =>
    show ((self.handleAll (self.handle db e).1 (evs ++ [ev])).1,
      (self.handle db e).2 :: (self.handleAll (self.handle db e).1 (evs ++ [ev])).2) = _
    rw [ih]
    rfl

variable (self) in
/-- **The rows of a sleeve are those of its own calls**, whoever else has committed in between. -/
theorem own_of_serial {log : CommitLog} (h : Txn.Serial Issued.program db₀ log db) :
    (self.handleAll db₀ (log.events self.sleeveId)).1.only self.sleeveId =
        db.only self.sleeveId ∧
      (self.handleAll db₀ (log.events self.sleeveId)).2 = log.replies self.sleeveId := by
  induction h with
  | nil => exact ⟨rfl, rfl⟩
  | @snoc log db db' c a h hc ih =>
    obtain ⟨hdb, hreplies⟩ := ih
    have hhandle : c.ledger.handle db c.event = (db', a) := by
      show ((c.program.exec db).1, SqliteSleeveLedger.replyOf (c.program.exec db).2) = _
      rw [hc]
      rfl
    rw [events_concat, replies_concat]
    by_cases hsid : c.ledger.sleeveId = self.sleeveId
    · have hself : c.ledger = self := by
        cases hled : c.ledger
        cases self
        rw [hled] at hsid
        exact congrArg SqliteSleeveLedger.mk hsid
      rw [if_pos hsid, if_pos hsid, handleAll_concat]
      obtain ⟨hown, hreply⟩ := handle_own hdb c.event
      rw [hself] at hhandle
      refine ⟨hown.trans ?_, ?_⟩
      · exact congrArg (fun r => SleeveDb.only self.sleeveId r.1) hhandle
      · rw [hreplies]
        exact congrArg (fun r => _ ++ [r]) (hreply.trans (congrArg Prod.snd hhandle))
    · rw [if_neg hsid, if_neg hsid]
      have hother := handle_others (Ne.symm hsid) db c.event
      rw [show (SqliteSleeveLedger.mk c.ledger.sleeveId).handle db c.event = _ from hhandle] at hother
      exact ⟨hdb.trans hother.symm, hreplies⟩

/-- A ledger was opened with a name, and with a capital that is not negative. -/
theorem of_opened {cap : Decimal} {base : Currency} (r : SleeveDb × Reply)
    (h : self.handle db (.opened cap base) = r) (hr : ∀ e, r.2 ≠ .raised e) :
    self.sleeveId ≠ "" ∧ 0 ≤ cap := by
  subst h
  simp only [SqliteSleeveLedger.handle, SqliteSleeveLedger.eventCall, SqliteSleeveLedger.init] at hr
  split at hr
  · exact absurd rfl (hr _)
  · next hsid =>
    split at hr
    · exact absurd rfl (hr _)
    · next hcap => exact ⟨hsid, not_lt.mp hcap⟩

/-- The calls of the sleeve among those that were committed: it was opened, and what came then is as
    `Proof/Equivalence.lean` wants it. -/
structure Orderly (sid : String) (cap : Decimal) (base : Currency) (log : CommitLog)
    (evs : List LedgerEvent) : Prop where
  events : log.events sid = .opened cap base :: evs
  reopened : ReopenedAlike cap base evs
  keyed : RecordedUnderKey evs
  consistent : FillsConsistent evs

/-- The dictionary ledger after the calls. -/
abbrev after (sid : String) (cap : Decimal) (base : Currency) (evs : List LedgerEvent) :
    InMemorySleeveLedger :=
  (memHandleAll (.fresh sid cap base) evs).1

variable {cap : Decimal} {base : Currency} {evs : List LedgerEvent} {s : ProcessState}

/-- A call returns what its result is made into. -/
theorem exec_map_ok {α : Type} {f : α → Reply} {call : SqlCall α} {a : Reply}
    (h : (SqlCall.map f call).exec db = (db', .ok a)) : ∃ y, f y = a := by
  cases call with
  | rejects e => exact absurd (congrArg Prod.snd h) (by simp [SqlCall.map, Call.exec])
  | txn b body =>
    have hrun := Call.run_of_exec h
    rw [Proc.run_bind] at hrun
    split at hrun
    · next y _ => exact ⟨y, Except.ok.inj (congrArg Prod.snd hrun)⟩
    · exact absurd (congrArg Prod.snd hrun) (by simp)

/-- A call makes its result into a reply, and into no exception. -/
theorem program_eq_map (c : Issued) : ∃ (α : Type) (f : α → Reply) (call : SqlCall α),
    c.program = SqlCall.map f call ∧ ∀ y e, f y ≠ .raised e := by
  obtain ⟨ledger, event⟩ := c
  cases event with
  | opened cap base => exact ⟨Unit, fun _ => .done, _, rfl, by simp⟩
  | called today op =>
    cases op with
    | reserve => exact ⟨Bool, .verdict, _, rfl, by simp⟩
    | reserveSell => exact ⟨Bool, .verdict, _, rfl, by simp⟩
    | release c => exact ⟨Unit, fun _ => .done, ledger.release c, rfl, by simp⟩
    | recordOrder c o sym side cur q =>
      exact ⟨Unit, fun _ => .done, ledger.recordOrder c o sym side cur q, rfl, by simp⟩
    | applyFill f => exact ⟨Unit, fun _ => .done, ledger.applyFill f, rfl, by simp⟩
    | recordCashflow amount cur memo =>
      exact ⟨Unit, fun _ => .done, ledger.recordCashflow amount cur memo, rfl, by simp⟩
    | markOrderTerminal c st =>
      exact ⟨Unit, fun _ => .done, ledger.markOrderTerminal c st, rfl, by simp⟩

/-- What is committed has raised nothing. -/
theorem replies_ne_raised {log : CommitLog} (h : Txn.Serial Issued.program db₀ log db)
    (e : LedgerError) : .raised e ∉ log.replies self.sleeveId := by
  induction h with
  | nil => simp [CommitLog.replies, CommitLog.of]
  | snoc _ hc ih =>
    rw [replies_concat]
    split
    · obtain ⟨α, f, call, hmap, hne⟩ := program_eq_map _
      rw [hmap] at hc
      obtain ⟨y, rfl⟩ := exec_map_ok hc
      simpa [ih] using (hne y e).symm
    · exact ih

/-- A sleeve that has committed calls has a name, and a capital. -/
theorem opened_of_orderly (h : Sharing db₀ s) (hlog : Orderly self.sleeveId cap base s.log evs) :
    self.sleeveId ≠ "" ∧ 0 ≤ cap := by
  have hserial := Txn.serialisable h
  have hreplies := (own_of_serial self hserial).2
  rw [hlog.events] at hreplies
  change (self.handle db₀ (.opened cap base)).2 :: _ = _ at hreplies
  refine of_opened (self.handle db₀ (.opened cap base)) rfl fun e he => ?_
  have hnone : Reply.raised e ∉ CommitLog.replies self.sleeveId s.log :=
    replies_ne_raised hserial e
  rw [← hreplies, he] at hnone
  exact hnone List.mem_cons_self

theorem represents_committed (hfresh : db₀.only self.sleeveId = .empty) (h : Sharing db₀ s)
    (hlog : Orderly self.sleeveId cap base s.log evs) :
    Represents self.sleeveId (after self.sleeveId cap base evs) s.db ∧
      CommitLog.replies self.sleeveId s.log =
        .done :: (memHandleAll (.fresh self.sleeveId cap base) evs).2 := by
  obtain ⟨hsid, hcap⟩ := opened_of_orderly h hlog
  obtain ⟨hdb, hreplies⟩ := own_of_serial self (Txn.serialisable h)
  rw [hlog.events] at hdb hreplies
  change (self.handleAll (self.handle db₀ (.opened cap base)).1 evs).1.only self.sleeveId = _ at hdb
  change (self.handle db₀ (.opened cap base)).2 ::
    (self.handleAll (self.handle db₀ (.opened cap base)).1 evs).2 = _ at hreplies
  obtain ⟨hrep, hdone⟩ := represents_fresh hfresh hsid hcap base
  have halike : Alike self.sleeveId base evs (.fresh self.sleeveId cap base)
      (self.handle db₀ (.opened cap base)).1 := by
    refine ⟨hrep, by simp [InMemorySleeveLedger.fresh], fun o p hp => ?_⟩
    exact absurd hp (by simp [InMemorySleeveLedger.fresh])
  obtain ⟨hfinal, hsame⟩ := halike.run hsid hcap evs hlog.reopened hlog.keyed hlog.consistent
  rw [hdone, hsame] at hreplies
  exact ⟨hfinal.congr hdb, hreplies.symm⟩

variable (self) in
/-- **The processes refine one dictionary ledger.** However the statements of any number of
    processes of any number of sleeves are interleaved, and whichever calls raise: what a sleeve has
    committed shows what a dictionary ledger shows after the same calls, and each call was answered
    as that ledger answers it. -/
theorem processes_refine (choice : RowChoice) (hfresh : db₀.only self.sleeveId = .empty)
    (h : Sharing db₀ s) (hlog : Orderly self.sleeveId cap base s.log evs) :
    CommitLog.replies self.sleeveId s.log =
        .done :: (memHandleAll (.fresh self.sleeveId cap base) evs).2 ∧
      ShowsAlike (after self.sleeveId cap base evs) (self.observed choice s.db) := by
  obtain ⟨hrep, hreplies⟩ := represents_committed hfresh h hlog
  exact ⟨hreplies, hrep.showsAlike choice⟩

/-! ## 2. The cap, and the shares -/

/-- The operations among the events. -/
def operations : List LedgerEvent → List (String × LedgerOp)
  | [] => []
  | .opened _ _ :: evs => operations evs
  | .called today op :: evs => (today, op) :: operations evs

/-- Opening a ledger again is nothing to the dictionaries. -/
theorem run_operations (evs : List LedgerEvent) :
    ∀ w : CapWatch, (w.run (operations evs)).ledger = (memHandleAll w.ledger evs).1 := by
  induction evs with
  | nil => exact fun _ => rfl
  | cons ev evs ih =>
    intro w
    cases ev with
    | opened cap base => exact ih w
    | called today op => exact ih (w.after today op)

/-- A figure of a sleeve's executions, added up. -/
def sumFills (sid : String) (db : SleeveDb) (figure : Fill → Decimal) : Decimal :=
  db.fills.sum fun r => if r.sleeveId = sid then figure r.toFill else 0

/-- The client order id of an execution aside, the dictionaries have the same. -/
theorem sum_snapshots (h : Represents self.sleeveId l db) (figure : Fill → Decimal)
    (hfigure : ∀ f : Fill, figure f.forgetCoid = figure f) :
    (l.snapshots.sum fun e => figure e.2) = sumFills self.sleeveId db figure := by
  have hslice : (db.fills.slice (fun r => r.toFill) self.sleeveId).sum (fun e => figure e.2) =
      l.snapshots.sum fun e => figure e.2 := by
    refine Dict.sum_congr_weightAt fun o => ?_
    rw [Dict.weightAt, Dict.weightAt, Table.get?_slice, ← elim_forgetCoid hfigure,
      ← elim_forgetCoid hfigure (l.snapshots.get? o), Option.map_map]
    exact congrArg (Option.elim · 0 figure) (h.fills o)
  rw [← hslice, Table.sum_slice]
  rfl

/-- The fees of a BUY in a currency. -/
def buyFee (c : Currency) (f : Fill) : Decimal :=
  if f.side = .BUY ∧ f.currency = c then f.commission + f.tax else 0

variable (self) in
/-- **The cap binds all processes together.** If the committed calls of a sleeve are within the
    discipline of the hard cap, no committed state has less available than nothing, up to the fees
    of its BUY orders: whichever process reserved, and whichever was told of the executions. -/
theorem processes_within_cap (book : String → Option BuyTerms) (choice : RowChoice)
    (hfresh : db₀.only self.sleeveId = .empty) (h : Sharing db₀ s)
    (hlog : Orderly self.sleeveId cap base s.log evs) {w : CapWatch}
    (hw : CapStart self.sleeveId cap base w) (hwithin : RunWithin book Steady w (operations evs))
    (today : String) (hday : (w.run (operations evs)).day ≤ today) (c : Currency) :
    ∃ available, (self.observed choice s.db).available today c = .ok available ∧
      0 ≤ available + sumFills self.sleeveId s.db (buyFee c) := by
  obtain ⟨hrep, -⟩ := represents_committed hfresh h hlog
  have hledger : w.ledger = .fresh self.sleeveId cap base :=
    (InMemorySleeveLedger.init_inv hw.1).2.2
  have hrun := run_operations evs w
  rw [hledger] at hrun
  have hinv : CapInv book (w.run (operations evs)) := by
    refine (CapStep.reach _ (.start hw) hwithin).inv (CapInv book) (fun _ hw => CapInv.start hw) ?_
    intro w w' hi hs
    obtain ⟨today, op, hle, hcapped, hsteady, rfl⟩ := hs
    exact hi.step hle hcapped hsteady
  have hcap := hinv.cap today hday c
  have hfees : buyFees (after self.sleeveId cap base evs) c = sumFills self.sleeveId s.db (buyFee c) :=
    sum_snapshots hrep (buyFee c) fun _ => rfl
  rw [hrun, hfees] at hcap
  exact ⟨_, congrFun (congrFun (hrep.showsAlike choice).available today) c, hcap⟩

end Sleeve
/-! ## 3. Three processes

One opens the ledger and polls; the second buys; the third, of another sleeve, uses the same ids; the
shares are offered by the first. -/

/-- Nothing is going on, and this is what was committed. -/
def settledAt (db : SleeveDb) (log : CommitLog) : ProcessState := ⟨db, fun _ => .idle, log⟩

/-- A call that is let run to its end. -/
theorem sharing_next {db₀ db : SleeveDb} {log : CommitLog} (h : Sharing db₀ (settledAt db log))
    (i : ℕ) {c : Issued} {b : Bracket} {body : Sql Reply} {a : Reply}
    (hc : c.program = .txn b body) (ha : (c.program.exec db).2 = .ok a) :
    Sharing db₀ (settledAt (c.program.exec db).1 (log ++ [(c, a)])) :=
  Txn.undisturbed (i := i) h rfl (fun _ h => h) hc (Prod.ext rfl ha)

def sleeveA (event : LedgerEvent) : Issued := ⟨⟨"a"⟩, event⟩

def openA : Issued := sleeveA (.opened 1000 .KRW)

def openB : Issued := ⟨⟨"b"⟩, .opened 50 .KRW⟩

def reserveA : Issued := sleeveA (.called "2024-01-02" (.reserve "b1" 1000 .KRW))

def reserveB : Issued := ⟨⟨"b"⟩, .called "2024-01-02" (.reserve "b1" 50 .KRW)⟩

def pollA : Issued := sleeveA (.called "2024-01-02" (.applyFill boughtTen))

def offerA : Issued := sleeveA (.called "2024-01-03" (.reserveSell "s1" "" "AAA" .KRW 6))

/-- The tables after the calls. -/
def tablesAfter (calls : List Issued) : SleeveDb :=
  calls.foldl (fun db c => (c.program.exec db).1) .empty

def threeProcesses : ProcessState :=
  settledAt (tablesAfter [openA, openB, reserveA, reserveB, pollA, offerA])
    [(openA, .done), (openB, .done), (reserveA, .verdict true), (reserveB, .verdict true),
      (pollA, .done), (offerA, .verdict true)]

theorem sharing_threeProcesses : Sharing .empty threeProcesses := by
  have hstart : Sharing .empty (settledAt .empty []) := .start ⟨rfl, fun _ => rfl, rfl⟩
  have h₁ := sharing_next hstart 0 (c := openA) (a := .done) rfl (by decide +kernel)
  have h₂ := sharing_next h₁ 2 (c := openB) (a := .done) rfl (by decide +kernel)
  have h₃ := sharing_next h₂ 1 (c := reserveA) (a := .verdict true) rfl (by decide +kernel)
  have h₄ := sharing_next h₃ 2 (c := reserveB) (a := .verdict true) rfl (by decide +kernel)
  have h₅ := sharing_next h₄ 0 (c := pollA) (a := .done) rfl (by decide +kernel)
  exact sharing_next h₅ 0 (c := offerA) (a := .verdict true) rfl (by decide +kernel)

def eventsA : List LedgerEvent := [reserveA.event, pollA.event, offerA.event]

theorem orderly_threeProcesses : Orderly "a" 1000 .KRW threeProcesses.log eventsA where
  events := rfl
  reopened := by
    intro cap base h
    simp [eventsA, reserveA, pollA, offerA, sleeveA] at h
  keyed := by
    intro today c o sym side cur q h
    simp [eventsA, reserveA, pollA, offerA, sleeveA] at h
  consistent := by
    intro d d' f g hf hg _
    simp only [eventsA, reserveA, pollA, offerA, sleeveA, List.mem_cons, LedgerEvent.called.injEq,
      reduceCtorEq, and_false, LedgerOp.applyFill.injEq, false_or, or_false,
      List.not_mem_nil] at hf hg
    rw [hf.2, hg.2]
    exact ⟨rfl, rfl, rfl⟩

theorem processes_refine_three :
    CommitLog.replies "a" threeProcesses.log = [.done, .verdict true, .done, .verdict true] ∧
      ShowsAlike (after "a" 1000 .KRW eventsA)
        ((SqliteSleeveLedger.mk "a").observed .first threeProcesses.db) := by
  obtain ⟨hreplies, hshows⟩ := processes_refine ⟨"a"⟩ .first rfl sharing_threeProcesses
    orderly_threeProcesses
  refine ⟨hreplies.trans ?_, hshows⟩
  decide +kernel

/-- The BUY of it. -/
def buyA (c : String) : Option BuyTerms := if c = "b1" then some ⟨1000, .KRW, "o1"⟩ else none

def startA : CapWatch := ⟨.fresh "a" 1000 .KRW, "", [], []⟩

theorem processes_within_cap_three :
    ∃ available, ((SqliteSleeveLedger.mk "a").observed .first threeProcesses.db).available
      "2024-01-03" .KRW = .ok available ∧
        0 ≤ available + sumFills "a" threeProcesses.db (buyFee .KRW) :=
  processes_within_cap ⟨"a"⟩ buyA .first rfl sharing_threeProcesses
    orderly_threeProcesses (w := startA) ⟨InMemorySleeveLedger.init_ok "a" 1000 .KRW (by decide)
      (by decide +kernel), rfl, rfl, rfl⟩ (by decide +kernel) "2024-01-03" (by decide +kernel) .KRW

end Proof
end TossSleeve
