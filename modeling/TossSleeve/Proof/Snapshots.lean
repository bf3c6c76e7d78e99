import TossSleeve.Lib.Snapshot
import TossSleeve.Proof.Serial

/-!
# `Proof/Snapshots.lean` — figures read while others commit

`available` and `available_to_sell` are put together from three SELECTs, and outside of `reserve`
and `reserve_sell` no transaction holds the three together: each sees what is committed when it is
executed. A transaction of another process can commit in between, and one execution moves several
of the figures at once: the cash and the reservation, or the holdings and what is still to be sold.
Then the result is the figure of no state at all (`figures_tear`).

The committed state moves by whole calls, one at a time (`calls_serialise`), so `Commits` is all
that other processes can do to a reader. `figure_of_one_state` says when its result is the figure of
one state that was committed while it read: if what commits first leaves alone what was read, and
what commits then leaves alone what is still to be read. One process per sleeve, as recommended, is
the case that nothing commits.
-/

set_option autoImplicit false

namespace TossSleeve

open Lib

/-- What a caller of the ledger reads without a transaction. -/
inductive Figure where
  | available (currency : Currency)
  | availableToSell (ticker : String)

def Figure.program (self : SqliteSleeveLedger) (today : String) : Figure → Sql Decimal
  | .available currency => self.available today currency
  | .availableToSell ticker => self.availableToSell ticker

namespace Proof

theorem readOnly_figure (self : SqliteSleeveLedger) (today : String) (figure : Figure) :
    (figure.program self today).ReadOnly := by
  cases figure with
  | available currency =>
    apply Proc.ReadOnly.get
    intro cash
    apply Proc.ReadOnly.get
    intro reserved
    apply Proc.ReadOnly.get
    intro pending
    exact trivial
  | availableToSell ticker =>
    apply Proc.ReadOnly.get
    intro orders
    apply Proc.ReadOnly.get
    intro filled
    exact ⟨fun _ => rfl, fun _ => trivial⟩

/-- A call of some process commits. -/
def Commits (db db' : SleeveDb) : Prop :=
  ∃ (c : LedgerCall) (reply : Reply), c.program.exec db = (db', .ok reply)

/-- A process that reads a figure while the others commit. -/
abbrev Figuring : Type := Reading SleeveDb NoAnswer LedgerError Decimal

/-- What a reader can reach. `asked`: is there a moment such that what commits before it changes
    nothing that was read, and what commits after it nothing that is still to be read? -/
abbrev Reads (self : SqliteSleeveLedger) (today : String) (figure : Figure) (asked : Prop) :
    Figuring → Prop :=
  Reachable (Reading.Start (figure.program self today))
    (Reading.Step (figure.program self today) Commits asked)

/-- **A figure is that of one committed state**, if there is such a moment. -/
theorem figure_of_one_state {self : SqliteSleeveLedger} {today : String} {figure : Figure}
    {r : Figuring} (h : Reads self today figure True r) {a : Decimal} (hret : r.rest = .ret a) :
    ∃ db ∈ r.seen, (figure.program self today).run db = (db, .ok a) :=
  Reading.one_state (readOnly_figure self today figure) h hret

/-! ## Two processes -/

def deskLedger : SqliteSleeveLedger := ⟨"a"⟩

/-- A call of the other process. -/
def otherCall (op : LedgerOp) : LedgerCall := ⟨deskLedger, "2026-01-02", op⟩

/-- The tables after a call. -/
def commit (db : SleeveDb) (op : LedgerOp) : SleeveDb := ((otherCall op).program.exec db).1

theorem commits_commit {db : SleeveDb} {op : LedgerOp} (reply : Reply)
    (h : ((otherCall op).program.exec db).2 = .ok reply) : Commits db (commit db op) :=
  ⟨otherCall op, reply, Prod.ext rfl h⟩

/-- A capital of 1000, of which 600 are reserved for a purchase. -/
def reservedDb : SleeveDb :=
  commit (commit openedDb (.reserve "c1" 600 .USD)) (.recordOrder "c1" "o1" "AAPL" .BUY .USD 6)

/-- The purchase is executed. -/
def purchase : LedgerOp := .applyFill (.whole "o1" "c1" "AAPL" .BUY .USD 6 100 0 "")

/-- A reader that begins in these tables. -/
def begins (figure : Figure) (db : SleeveDb) : Figuring :=
  ⟨db, [db], 0, figure.program deskLedger "2026-01-02", false⟩

theorem reads_begins (figure : Figure) (db : SleeveDb) (asked : Prop) :
    Reads deskLedger "2026-01-02" figure asked (begins figure db) :=
  .start ⟨rfl, rfl, rfl, rfl⟩

/-- The reader sees the cash, and then the other process reserves some of it. -/
theorem figure_of_one_state_reserve :
    ∃ (r : Figuring) (a : Decimal), Reads deskLedger "2026-01-02" (.available .USD) True r ∧
      r.seen = [commit openedDb (.reserve "c1" 600 .USD), openedDb] ∧ r.rest = .ret a ∧
      ∃ db ∈ r.seen,
        ((Figure.available .USD).program deskLedger "2026-01-02").run db = (db, .ok a) := by
  have hcommits : Commits openedDb (commit openedDb (.reserve "c1" 600 .USD)) :=
    commits_commit (.verdict true) (by decide +kernel)
  have hcash : ((openedDb.cash.find? ("a", .USD)).map (·.virtualCash)).getD 0 =
      (((commit openedDb (.reserve "c1" 600 .USD)).cash.find? ("a", .USD)).map
        (·.virtualCash)).getD 0 := by
    decide +kernel
  -- What is left of the program depends on the cash that was read.
  have hsame := congrArg (fun cash : Decimal => (do
    let reserved ← deskLedger.reservedTotal .USD
    let pending ← deskLedger.settlementPending "2026-01-02" .USD
    return cash - reserved - pending : Sql Decimal)) hcash.symm
  have h₁ := (reads_begins (.available .USD) openedDb True).step (.read rfl)
  have h₂ := h₁.step (.changed false rfl hcommits fun _ => ⟨rfl, hsame⟩)
  have h₃ := (h₂.step (.read rfl)).step (.read rfl)
  exact ⟨_, _, h₃, rfl, rfl, figure_of_one_state h₃ rfl⟩

/-- The reader's result is the figure of no state it can have seen. -/
def Tears (figure : Figure) : Prop :=
  ∃ (r : Figuring) (a : Decimal), Reads deskLedger "2026-01-02" figure False r ∧
    r.rest = .ret a ∧ ∀ db ∈ r.seen, (figure.program deskLedger "2026-01-02").run db ≠ (db, .ok a)

/-- Of 1000 in cash 600 are reserved. The reader sees the cash; the purchase is executed; and there
    is no reservation any more: it takes the 600 for available, which are spent. -/
theorem tears_available : Tears (.available .USD) := by
  have hcommits : Commits reservedDb (commit reservedDb purchase) :=
    commits_commit .done (by decide +kernel)
  have h₁ := (reads_begins (.available .USD) reservedDb False).step (.read rfl)
  have h₂ := h₁.step (.changed false rfl hcommits fun h => h.elim)
  have h₃ := (h₂.step (.read rfl)).step (.read rfl)
  have hnone : ∀ db ∈ [commit reservedDb purchase, reservedDb],
      (((Figure.available .USD).program deskLedger "2026-01-02").run db).2 ≠ .ok 1000 := by
    decide +kernel
  refine ⟨_, 1000, h₃, congrArg Proc.ret ?_, fun db hdb hrun => ?_⟩
  · decide +kernel
  · exact hnone db hdb (congrArg Prod.snd hrun)

/-- Ten shares, all of them offered. -/
def offeredDb : SleeveDb :=
  commit (commit openedDb (.applyFill (.whole "o0" "c0" "AAPL" .BUY .USD 10 50 0 "")))
    (.reserveSell "c2" "o2" "AAPL" .USD 10)

/-- Four of them are sold. -/
def sale : LedgerOp := .applyFill (.whole "o2" "c2" "AAPL" .SELL .USD 4 100 0 "2026-01-05")

/-- The reader sees ten shares to be sold, and none sold; four are sold; and there are six left. -/
theorem tears_availableToSell : Tears (.availableToSell "AAPL") := by
  have hcommits : Commits offeredDb (commit offeredDb sale) :=
    commits_commit .done (by decide +kernel)
  have h₁ := ((reads_begins (.availableToSell "AAPL") offeredDb False).step (.read rfl)).step
    (.read rfl)
  have h₂ := h₁.step (.changed false rfl hcommits fun h => h.elim)
  have h₃ := h₂.step (.read rfl)
  have hnone : ∀ db ∈ [commit offeredDb sale, offeredDb],
      (((Figure.availableToSell "AAPL").program deskLedger "2026-01-02").run db).2 ≠ .ok (-4) := by
    decide +kernel
  refine ⟨_, -4, h₃, congrArg Proc.ret ?_, fun db hdb hrun => ?_⟩
  · decide +kernel
  · exact hnone db hdb (congrArg Prod.snd hrun)

/-- Either figure can be that of no committed state. -/
theorem figures_tear : Tears (.available .USD) ∧ Tears (.availableToSell "AAPL") :=
  ⟨tears_available, tears_availableToSell⟩

end Proof

end TossSleeve
