import TossSleeve.Proof.Jobs

/-!
# `Proof/EndToEnd.lean` — no oversell, at the exchange

The jobs of `Proof/Jobs.lean`, over a ledger of dictionaries. The ledger learns of an execution when
it is polled, but a cancelled order is closed at once. What was executed of it and not polled yet is
then neither held back by its row nor taken off the holdings, and the next SELL passes the guard for
shares that are gone (§3). §1 and §2 show that this, and an order that arrives after its cover was
given back, is all there is to fear: `Agree` bears everything else.
-/

set_option autoImplicit false

namespace TossSleeve

open Lib Lib.Proc InMemorySleeveLedger

/-- A sleeve that has done nothing yet. -/
def Untouched (l : InMemorySleeveLedger) : Prop := ∃ sleeveId cap cur, l = fresh sleeveId cap cur

namespace Proof

/-! ## 1. Ledger and exchange agree -/

variable {ι : Type} {jobs : ι → Job} {led : InMemorySleeveLedger} {book : Book} {b : TossBroker}
  {req : OrderRequest} {m m' : Market .inMemory ι}

/-- The question of a guard. -/
theorem agree_cover (hone : OneOrder jobs) (h : Agree (Requested jobs) led book)
    (hreq : Requested jobs req.clientOrderId req) (hc : req.clientOrderId ≠ "") {op : LedgerOp}
    (hop : Covers b req op) (today : String) :
    Agree (Requested jobs) (led.step today op).1 book := by
  have heffect := led.step_effect today op
  generalize (led.step today op).1 = led' at heffect ⊢
  generalize (led.step today op).2 = reply at heffect
  cases hop with
  | reserve =>
    cases heffect with
    | reserveRaised => exact h
    | reserveRefused => exact h
    | reserved => exact h.congr rfl rfl
  | reserveSell hside hquantity =>
    cases heffect with
    | sellRaised => exact h
    | sellRefused => exact h
    | sellReserved _ hcap => exact h.setAside hone hc hreq hside hquantity hcap req.currency

/-- `_unwind`, of an order that Toss has not got or that the ledger knows all of. -/
theorem agree_unwind (h : Agree (Requested jobs) led book)
    (hknown : req.side = .SELL → ∀ l ∈ book.get? req.clientOrderId, l.req.side = .SELL →
      l.committed ≤ polled led l) (today : String) :
    Agree (Requested jobs) (led.step today (unwindOp req)).1 book := by
  cases hside : req.side with
  | BUY =>
    rw [unwindOp_eq_of_buy hside]
    exact h.congr rfl rfl
  | SELL =>
    rw [unwindOp_eq_of_sell hside]
    exact h.close (by decide) (hknown hside)

/-- Toss confirms a cancellation. -/
theorem moves_stop (h : Agree (Requested jobs) led book) (path : String) :
    Book.Moves book (book.mapVal (Listing.stop path)) := by
  have hmoves : ∀ c l, book.get? c = some l → l.Moves (Listing.stop path l) := by
    intro c l hl
    have hlisting := h.listings c l hl
    unfold Listing.stop
    split
    · refine ⟨rfl, rfl, le_refl _, hlisting.executed_le, fun _ => ?_⟩
      have hrem := remainder_nonneg hlisting
      show l.executed + 0 ≤ l.executed + l.remainder
      linarith
    · exact ⟨rfl, rfl, le_refl _, hlisting.executed_le, fun _ => le_refl _⟩
  constructor
  · intro c l hl
    exact ⟨_, by rw [Dict.get?_mapVal, hl, Option.map_some], hmoves c l hl⟩
  · intro c l' hl'
    rw [Dict.get?_mapVal] at hl'
    obtain ⟨l, hl, rfl⟩ := Option.map_eq_some_iff.mp hl'
    exact ⟨l, hl, hmoves c l hl⟩

/-- A report about one of the listings. -/
def Reported (book : Book) (f : Fill) : Prop := ∃ c l, Reports book f c l

/-- **What the jobs do**, ledger and exchange still agree. -/
theorem agree_upheld (hone : OneOrder jobs) :
    @Upheld .inMemory ι jobs Market.Careful Reported (Agree (Requested jobs)) where
  cover m _ _ _ h hreq hvetted hop := agree_cover hone h hreq hvetted.keyed hop m.world.today
  unwind m req x h hcareful := by
    refine agree_unwind h (fun hside => ?_) m.world.today
    rw [unwindOp_eq_of_sell hside] at hcareful
    exact hcareful
  record m req l h hreq hl := by
    refine h.record hl hreq req.currency fun hside => ?_
    obtain ⟨q, hq⟩ := OrderRequest.sell_quantity hside
    rw [hq, Option.getD_some]
  close _ _ _ h hcareful := h.close (by decide) hcareful
  applyFill m f h hreported := by
    obtain ⟨c, l, hf⟩ := hreported
    exact h.applyFill hone hf m.world.today
  stop _ path h := h.move (moves_stop h path)

/-- **What Toss does by itself.** -/
theorem agree_moves (hone : OneOrder jobs) (hvetted : ∀ i b req, jobs i = .place b req →
      m.departed i = true → Vetted req) (h : Agree (Requested jobs) m.world.ledger m.book)
    {executed : Option (String × Decimal)}
    (hmoves : Market.Moves jobs NextDay Market.StillOpen m executed m') :
    Agree (Requested jobs) m'.world.ledger m'.book := by
  cases hmoves with
  | @accept i b req orderId hjob hdeparted hnew hnamed hunused hopen =>
    exact h.accept hone (hvetted i b req hjob hdeparted).keyed hnew (l := { orderId, req })
      ⟨i, b, hjob, rfl⟩ hnamed
      (fun k l' hl' => hunused (k, l') (Dict.mem_rows_iff.mpr hl')) rfl fun hside => by
        obtain ⟨o, ho, hstatus⟩ := hopen hside
        exact ⟨o, ho, hstatus⟩
  | @execute c l d hl hlive hd hle =>
    refine h.move (h.moves_set hl ⟨rfl, rfl, le_add_of_nonneg_right (le_of_lt hd), hle,
      fun hside => ?_⟩)
    -- What is executed of a SELL is taken off what remains.
    obtain ⟨q, hq⟩ := OrderRequest.sell_quantity hside
    unfold Listing.committed Listing.remainder
    rw [if_pos hlive, if_pos hlive, hq, Option.elim_some, Option.elim_some]
    linarith
  | @lapse c l hl =>
    have hlisting := h.listings c l hl
    refine h.move (h.moves_set hl ⟨rfl, rfl, le_refl _, hlisting.executed_le, fun _ => ?_⟩)
    have hrem := remainder_nonneg hlisting
    show l.executed + 0 ≤ l.executed + l.remainder
    linarith
  | ledger hday =>
    obtain ⟨today, rfl⟩ := hday
    exact h

theorem Reported.lasts {book' : Book} {f : Fill} (h : Reported book f) (hbook : Lasts book book') :
    Reported book' f := by
  obtain ⟨c, l, hf⟩ := h
  obtain ⟨l', hf', -⟩ := hf.lasts hbook
  exact ⟨c, l', hf'⟩

theorem reported_of_truthful {kind : LedgerKind} {m : Market kind ι} {e : Event BrokerReq.Resp}
    (h : m.Truthful e) : ∀ f ∈ reportIn e, Reported m.book f := by
  intro f hf
  obtain ⟨o, rfl⟩ := of_reportIn hf
  obtain ⟨-, e, -, hreports, -⟩ := h
  exact ⟨e.1, e.2, hreports⟩

variable [DecidableEq ι]

/-- Ledger and exchange agree in every run. -/
theorem agree_run (hone : OneOrder jobs)
    {s : Pool.State (Market .inMemory ι) ι BrokerReq.Resp Exc Unit}
    (hs : Reachable (Pool.Start (Market.Opening Untouched))
      (trading jobs NextDay Market.Careful Market.StillOpen).Step s) :
    Agree (Requested jobs) s.world.world.ledger s.world.book := by
  refine ((agree_upheld hone).run (fun _ _ _ hbook h => h.lasts hbook)
    (fun _ _ htrue _ => reported_of_truthful htrue) (fun l hl => ?_)
    (fun m m' executed hvetted h hmoves => agree_moves hone hvetted h hmoves) hs).2
  obtain ⟨sleeveId, cap, cur, rfl⟩ := hl
  exact agree_fresh _ sleeveId cap cur

/-! ## 2. No oversell, end to end -/

/-- **The sleeve never sells what it has not bought**, in every run in which the row of a SELL is
    closed only when the ledger knows all that Toss has executed or may execute of it, and a SELL
    arrives only while its row is open. -/
theorem end_to_end {jobs : ι → Job} (hone : OneOrder jobs)
    {s : Pool.State (Market .inMemory ι) ι BrokerReq.Resp Exc Unit}
    (hs : Reachable (Pool.Start (Market.Opening Untouched))
      (trading jobs NextDay Market.Careful Market.StillOpen).Step s) : NoOversell s.world.book :=
  (agree_run hone hs).noOversell

/-! ## 3. A desk -/

/-- Ten shares are bought and polled, and sold; the sale is cancelled, or tried again after a
    restart; and ten more are sold. -/
inductive Desk where
  | buy | poll | sell | cancel | retry | sellMore
  deriving DecidableEq

def Desk.job : Desk → Job
  | .buy => .place { id := 0 } (.limit .BUY 10 100 "gd:b")
  | .poll => .poll "o-b"
  | .sell => .place { id := 0 } (.limit .SELL 10 100 "gd:s")
  | .cancel => .cancel { id := 0 } "o-s"
  | .retry => .place { id := 1, transportRetries := 0 } (.limit .SELL 10 100 "gd:s")
  | .sellMore => .place { id := 1 } (.limit .SELL 10 100 "gd:t")

theorem oneOrder_desk : OneOrder Desk.job := by
  rintro c req req' ⟨i, b, hi, hc⟩ ⟨j, b', hj, hc'⟩
  have hid := hc.trans hc'.symm
  cases i <;> cases hi <;> cases j <;> cases hj <;> first | rfl | exact absurd hid (by decide)

/-- A day at the desk. -/
def dayAt (C : Market .inMemory Desk → Event BrokerReq.Resp → Prop) [∀ m, DecidablePred (C m)]
    (D : Market .inMemory Desk → OrderRequest → Prop) [∀ m, DecidablePred (D m)]
    (turns : List (Pool.Turn Desk Script (Stir Desk))) :
    Pool.State (Market .inMemory Desk) Desk BrokerReq.Resp Exc Unit :=
  (trading Desk.job NextDay C D).play (answeringJobs Desk.job C) (stirred Desk.job D)
    { world :=
        { ledger := fresh "sleeve" (1000 : ℕ) .KRW
          today := "2024-01-02"
          acks := fun _ _ => none }
      departed := fun _ => false }
    turns

theorem dayAt_reachable (C : Market .inMemory Desk → Event BrokerReq.Resp → Prop)
    [∀ m, DecidablePred (C m)] (D : Market .inMemory Desk → OrderRequest → Prop)
    [∀ m, DecidablePred (D m)] (turns : List (Pool.Turn Desk Script (Stir Desk))) :
    Reachable (Pool.Start (Market.Opening Untouched)) (trading Desk.job NextDay C D).Step
      (dayAt C D turns) := by
  refine Pool.play_reachable _ answeringJobs_answers stirred_env ?_ turns
  exact ⟨⟨"sleeve", _, .KRW, rfl⟩, rfl, fun _ => rfl⟩

/-- Ten shares are bought, and the ledger is told. -/
def bought : List (Pool.Turn Desk Script (Stir Desk)) :=
  placed .accept .buy "o-b" ++ [.world (.execute "gd:b" 10)] ++ goes .poll 1 ++
    [.go .poll (.connectFailed, some (.whole "o-b" "gd:b" "005930" .BUY .KRW 10 100 0 ""))] ++
    goes .poll 1

/-- The shares are offered, and four of them sold. -/
theorem end_to_end_sale :
    (dayAt Market.Careful Market.StillOpen (bought ++ placed .accept .sell "o-s" ++
      [.world (.execute "gd:s" 4)])).world.book.total .SELL "005930" Listing.remainder = 6 ∧
    NoOversell (dayAt Market.Careful Market.StillOpen (bought ++ placed .accept .sell "o-s" ++
      [.world (.execute "gd:s" 4)])).world.book :=
  ⟨by decide +kernel, end_to_end oneOrder_desk (dayAt_reachable _ _ _)⟩

/-- The run is one of the desk's, and more was sold, or may be, than was bought. -/
def Oversells (turns : List (Pool.Turn Desk Script (Stir Desk))) : Prop :=
  Reachable (Pool.Start (Market.Opening Untouched))
      (trading Desk.job NextDay (fun _ _ => True) fun _ _ => True).Step
      (dayAt (fun _ _ => True) (fun _ _ => True) turns) ∧
    ¬ NoOversell (dayAt (fun _ _ => True) (fun _ _ => True) turns).world.book

/-- Four shares are sold, the rest of the sale is cancelled before anybody polls, and ten more are
    offered; and a sale that timed out is given up by its retry, ten more are offered, and it
    arrives after all. -/
theorem oversells :
    Oversells (bought ++ placed .accept .sell "o-s" ++ [.world (.execute "gd:s" 4)] ++
      goes .cancel 4 ++ [.go .cancel (.answered (.of 200 none), none)] ++ goes .cancel 2 ++
      placed .accept .sellMore "o-t") ∧
    Oversells (bought ++ goes .sell 6 ++ [.go .sell (.sendFailed, none)] ++ goes .retry 9 ++
      placed .accept .sellMore "o-t" ++ [.world (.accept .sell "o-s")]) :=
  ⟨⟨dayAt_reachable _ _ _, fun h => absurd (h "005930") (by decide +kernel)⟩,
    ⟨dayAt_reachable _ _ _, fun h => absurd (h "005930") (by decide +kernel)⟩⟩

end Proof
end TossSleeve
