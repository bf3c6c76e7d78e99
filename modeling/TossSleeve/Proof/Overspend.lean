import TossSleeve.Proof.EndToEnd
import TossSleeve.Proof.Spending

/-!
# `Proof/Overspend.lean` — the hard cap, where the money is spent

The jobs of `Proof/Jobs.lean` again, in a market that has prices: Toss executes a BUY at its
limit or better, and the consumer may pay money in or take some out. `Proof/HardCap.lean` bounds what
one ledger says of itself, call by call; here the money is spent at Toss, by orders that calls
running next to each other have sent, and the ledger hears of it late.

What can go wrong is what can go wrong with shares: a reservation given back while the order may
still cost something that the ledger was not told of, and an order that arrives after its
reservation was given back. §2 shows that there is nothing else; §4 is a run of each.
-/

set_option autoImplicit false

namespace TossSleeve

open Lib Lib.Proc InMemorySleeveLedger

/-! ## 1. The market, with prices -/

/-- What the jobs act on, and Toss, with what its executions cost. -/
structure Account (ι : Type) extends Market .inMemory ι where
  /-- The executions of the order under each client order id, the last one first. -/
  trades : String → List Trade := fun _ => []
  /-- What the sleeve was given, and was paid in since. -/
  given : Currency → Decimal

/-- The client order id whose reservation is given back. -/
def givenBack : Event BrokerReq.Resp → Option String
  | ⟨.ledger (.release c), _⟩ => some c
  | ⟨.ledger (.markOrderTerminal c _), _⟩ => some c
  | _ => none

/-- A BUY arrives while its reservation stands. -/
def Market.StillReserved {kind : LedgerKind} {ι : Type} (m : Market kind ι) (req : OrderRequest) :
    Prop :=
  req.side = .BUY → ∀ amount ∈ reserveAmount req,
    kind.reservation m.world.ledger req.clientOrderId = some (req.currency, amount)

namespace Account

variable {ι : Type}

/-- The account after a request of a job was answered. -/
def after [DecidableEq ι] (a : Account ι) (job : Job) (i : ι) (e : Event BrokerReq.Resp) :
    Account ι :=
  { a with toMarket := a.toMarket.after job i e }

/-- Toss tells the truth, also about what the executions have cost: fees apart, and in the currency
    of the order. -/
def Truthful (a : Account ι) (e : Event BrokerReq.Resp) : Prop :=
  a.toMarket.Truthful e ∧ a.toMarket.Denominated e ∧ ∀ f ∈ reportIn e, ∀ entry ∈ a.book.rows,
    entry.2.orderId = f.orderId → f.costBasis = sumUp Trade.cost (a.trades entry.1)

/-- The reservation of a BUY is given back only when the ledger was told all that the order has cost
    or may still cost. -/
def Careful (a : Account ι) (e : Event BrokerReq.Resp) : Prop :=
  ∀ c ∈ givenBack e, ∀ l ∈ a.book.get? c, l.req.side = .BUY →
    l.outlay (a.trades c) ≤ Proof.Spending.told a.world.ledger l

/-- What happens in the market, with the price of what is executed; and the consumer pays money in,
    or takes out no more than is available. -/
inductive Moves (jobs : ι → Job) (D : Market .inMemory ι → OrderRequest → Prop) (a : Account ι) :
    Account ι → Prop
  | market {m : Market .inMemory ι} (hm : Market.Moves jobs NextDay D a.toMarket none m) :
      Moves jobs D a { a with toMarket := m }
  | execute {m : Market .inMemory ι} {c : String} {t : Trade}
      (hm : Market.Moves jobs NextDay D a.toMarket (some (c, t.shares)) m)
      (hallows : ∀ l ∈ a.book.get? c, l.req.Allows (a.trades c) t) :
      Moves jobs D a { a with
        toMarket := m
        trades := Function.update a.trades c (t :: a.trades c) }
  | cashflow {amount : Decimal} {cur : Currency}
      (hcareful : 0 ≤ amount ∨ -amount ≤ a.world.ledger.available a.world.today cur) :
      Moves jobs D a { a with
        world := { a.world with ledger := a.world.ledger.recordCashflow amount cur }
        given := fun k => a.given k + if k = cur then amount else 0 }

/-- A sleeve that has done nothing yet, with its capital. -/
def Opening (a : Account ι) : Prop :=
  (∃ sleeveId cap base, InMemorySleeveLedger.init sleeveId cap base = .ok a.world.ledger ∧
    a.given = fun cur => if cur = base then cap else 0) ∧ a.book = ∅ ∧
    (a.trades = fun _ => []) ∧ ∀ i, a.departed i = false

end Account

/-- The jobs, in a market with prices where events are as `C` and arrivals as `D` says. -/
def spending {ι : Type} [DecidableEq ι] (jobs : ι → Job)
    (C : Account ι → Event BrokerReq.Resp → Prop)
    (D : Market .inMemory ι → OrderRequest → Prop) :
    Pool (Account ι) ι BrokerReq.Resp Exc Unit where
  program i := (jobs i).run
  Answer a i e a' := a.world.Gives e ∧ a.Truthful e ∧ C a e ∧ a' = a.after (jobs i) i e
  Env := Account.Moves jobs D

namespace Proof.Spending

/-! ## 2. Ledger and account agree -/

variable {ι : Type} {jobs : ι → Job} {a a' : Account ι} {ph : ι → Option JobPhase} {i : ι}
  {b : TossBroker} {req : OrderRequest}

/-- A report of the first executions of its order. -/
def Heard (trades : String → List Trade) (book : Book) (f : Fill) : Prop :=
  ∃ c l, Reports book f c l ∧ Told f l (trades c)

theorem Heard.mono {book book' : Book} {trades trades' : String → List Trade} {f : Fill}
    (h : Heard trades book f) (hbook : Lasts book book')
    (htrades : ∀ c, trades c <:+ trades' c) : Heard trades' book' f := by
  obtain ⟨c, l, hf, htold⟩ := h
  obtain ⟨l', hf', hreq⟩ := hf.lasts hbook
  exact ⟨c, l', hf', htold.mono hreq (htrades c)⟩

/-- The question of a guard. -/
theorem solvent_cover {given : Currency → Decimal} {led : InMemorySleeveLedger} {book : Book}
    {trades : String → List Trade} (hone : OneOrder jobs)
    (h : Solvent (Requested jobs) given led book trades)
    (hreq : Requested jobs req.clientOrderId req) {op : LedgerOp} (hop : Covers b req op)
    (today : String) : Solvent (Requested jobs) given (led.step today op).1 book trades := by
  have heffect := led.step_effect today op
  generalize (led.step today op).1 = led' at heffect ⊢
  generalize (led.step today op).2 = reply at heffect
  cases hop with
  | reserve _ _ hamount =>
    cases heffect with
    | reserveRaised => exact h
    | reserveRefused => exact h
    | reserved _ hpos hcap => exact h.reserve hone hreq hamount hpos hcap rfl
  | reserveSell _ hquantity =>
    cases heffect with
    | sellRaised => exact h
    | sellRefused => exact h
    | sellReserved =>
      refine h.rerow hreq ?_
      rw [hquantity, Option.getD_some]

/-- `_unwind`, of an order that Toss has not got or that the ledger knows all of. -/
theorem solvent_unwind {given : Currency → Decimal} {led : InMemorySleeveLedger} {book : Book}
    {trades : String → List Trade} (h : Solvent (Requested jobs) given led book trades)
    (hknown : ∀ l ∈ book.get? req.clientOrderId, l.req.side = .BUY →
      l.outlay (trades req.clientOrderId) ≤ told led l) (today : String) :
    Solvent (Requested jobs) given (led.step today (unwindOp req)).1 book trades := by
  cases hside : req.side with
  | BUY =>
    rw [unwindOp_eq_of_buy hside]
    exact h.release hknown
  | SELL =>
    rw [unwindOp_eq_of_sell hside]
    exact h.markOrderTerminal hknown

/-- Toss confirms a cancellation. -/
theorem solvent_stop (h : Solvent (Requested jobs) a.given a.world.ledger a.book a.trades)
    (path : String) : Solvent (Requested jobs) a.given a.world.ledger
      (a.book.mapVal (Listing.stop path)) a.trades := by
  refine h.move (fun c l hl => ?_) fun c hc => ⟨by rw [Dict.get?_mapVal, hc]; rfl, rfl⟩
  refine ⟨Listing.stop path l, by rw [Dict.get?_mapVal, hl, Option.map_some], ?_⟩
  unfold Listing.stop
  split
  · exact .stop (h.priced c l hl)
  · exact .refl (h.priced c l hl)

theorem givenBack_unwindOp (req : OrderRequest) (y : Reply) :
    givenBack ⟨.ledger (unwindOp req), y⟩ = some req.clientOrderId := by
  cases hside : req.side with
  | BUY =>
    rw [unwindOp_eq_of_buy hside]
    rfl
  | SELL =>
    rw [unwindOp_eq_of_sell hside]
    rfl

/-- **What the jobs do**, ledger and account still agree. -/
theorem solvent_upheld (hone : OneOrder jobs) (a : Account ι) :
    Upheld jobs (fun m e => Account.Careful { a with toMarket := m } e) (Heard a.trades)
      fun (led : LedgerKind.State .inMemory) book =>
        Solvent (Requested jobs) a.given led book a.trades where
  cover m _ _ _ h hreq _ hop := solvent_cover hone h hreq hop m.world.today
  unwind m req y h hcareful :=
    solvent_unwind h (hcareful _ (givenBack_unwindOp req y)) m.world.today
  record _ _ _ h hreq _ := h.rerow hreq rfl
  close _ c _ h hcareful := h.markOrderTerminal (hcareful c rfl)
  applyFill m f h hheard := by
    obtain ⟨c, l, hf, htold⟩ := hheard
    exact h.applyFill hone hf htold m.world.today
  stop m path h := solvent_stop (a := { a with toMarket := m }) h path

/-- What is reported is all that was executed by then. -/
theorem heard_of_truthful
    (h : Solvent (Requested jobs) a.given a.world.ledger a.book a.trades)
    {e : Event BrokerReq.Resp} (htrue : a.Truthful e) : ∀ f ∈ reportIn e, Heard a.trades a.book f := by
  intro f hf
  obtain ⟨o, rfl⟩ := of_reportIn hf
  obtain ⟨⟨-, ⟨c, l⟩, hmem, hreports, hexecuted⟩, hdenominated, hpriced⟩ := htrue
  refine ⟨c, l, hreports, hreports.side, ?_, a.trades c, List.suffix_refl _, ?_, ?_⟩
  · exact hdenominated f hf (c, l) hmem hreports.orderId.symm
  · rw [hexecuted]
    exact (h.priced c l hreports.listed).executed
  · exact hpriced f hf (c, l) hmem hreports.orderId.symm

structure SpendingInv (jobs : ι → Job) (a : Account ι) (ph : ι → Option JobPhase) : Prop where
  calls : JobsInv jobs (Heard a.trades a.book) a.toMarket ph
  solvent : Solvent (Requested jobs) a.given a.world.ledger a.book a.trades

/-- What Toss does by itself, and nothing is executed. -/
theorem solvent_market (hvetted : ∀ i b req, jobs i = .place b req → a.departed i = true →
      Vetted req) (h : Solvent (Requested jobs) a.given a.world.ledger a.book a.trades)
    {m : Market .inMemory ι}
    (hm : Market.Moves jobs NextDay Market.StillReserved a.toMarket none m) :
    Solvent (Requested jobs) a.given m.world.ledger m.book a.trades := by
  cases hm with
  | @accept i b req orderId hjob hdeparted hnew hnamed hunused hstands =>
    obtain ⟨hkeyed, hpriced⟩ := hvetted i b req hjob hdeparted
    exact h.accept hkeyed hnew (l := { orderId, req }) ⟨i, b, hjob, rfl⟩ hnamed
      (fun k l' hl' => hunused (k, l') (Dict.mem_rows_iff.mpr hl')) rfl hpriced hstands
  | @lapse c l hl =>
    have hset := h.move_set hl (.stop (h.priced c l hl))
    rw [Function.update_eq_self] at hset
    exact hset
  | ledger hday =>
    obtain ⟨today, rfl⟩ := hday
    exact h

/-- Some shares are executed, at a price that the order allows. -/
theorem solvent_execute (h : Solvent (Requested jobs) a.given a.world.ledger a.book a.trades)
    {m : Market .inMemory ι} {c : String} {t : Trade}
    (hm : Market.Moves jobs NextDay Market.StillReserved a.toMarket (some (c, t.shares)) m)
    (hallows : ∀ l ∈ a.book.get? c, l.req.Allows (a.trades c) t) :
    Solvent (Requested jobs) a.given m.world.ledger m.book
      (Function.update a.trades c (t :: a.trades c)) := by
  cases hm with
  | @execute _ l _ hl hlive _ hle =>
    exact h.move_set hl (.execute (h.priced c l hl) hlive hle (hallows l hl))

/-- What Toss and the consumer do. -/
theorem spendingInv_moves (hinv : SpendingInv jobs a ph)
    (hmoves : Account.Moves jobs Market.StillReserved a a') : SpendingInv jobs a' ph := by
  obtain ⟨hjobs, hsolvent⟩ := hinv
  cases hmoves with
  | market hm =>
    have hlasts := lasts_of_market hm
    exact ⟨hjobs.moves hm fun f hf => hf.mono hlasts fun c => List.suffix_refl _,
      solvent_market hjobs.vetted hsolvent hm⟩
  | @execute m c t hm hallows =>
    have hlasts := lasts_of_market hm
    have htrades : ∀ k, a.trades k <:+ Function.update a.trades c (t :: a.trades c) k := by
      intro k
      by_cases hk : k = c
      · rw [hk, Function.update_self]
        exact List.suffix_cons _ _
      · rw [Function.update_of_ne hk]
    exact ⟨hjobs.moves hm fun f hf => hf.mono hlasts htrades,
      solvent_execute hsolvent hm hallows⟩
  | cashflow hcareful =>
    exact ⟨hjobs.mono rfl (Lasts.refl _) fun _ hf => hf, hsolvent.cashflow hcareful⟩

theorem spendingInv [DecidableEq ι] (hone : OneOrder jobs)
    {s : Pool.State (Account ι) ι BrokerReq.Resp Exc Unit}
    (hs : Reachable (Pool.Start Account.Opening)
      (spending jobs Account.Careful Market.StillReserved).Step s) :
    SpendingInv jobs s.world (Pool.phase (fun i => (jobs i).next) (fun i => (jobs i).start) s) := by
  refine Pool.inv (P := spending jobs Account.Careful Market.StillReserved)
    (fun i => (jobs i).Asks) (fun i => job_asks (jobs i)) (SpendingInv jobs) ?_ ?_ ?_ ?_ hs
  · intro a ha
    obtain ⟨⟨sleeveId, cap, base, hinit, hgiven⟩, hbook, htrades, hdeparted⟩ := ha
    obtain ⟨-, hcap, hledger⟩ := init_inv hinit
    refine ⟨⟨fun i b req _ h => ?_, fun _ _ h => absurd h (by simp)⟩, ?_⟩
    · exact absurd ((hdeparted i).symm.trans h) Bool.false_ne_true
    · rw [hledger, hbook, hgiven, htrades]
      exact solvent_fresh _ sleeveId hcap base
  · intro a ph i hinv _
    exact ⟨hinv.calls.start i, hinv.solvent⟩
  · intro a ph i g q x _ hinv hg hok hw
    obtain ⟨-, htrue, hcareful, rfl⟩ := hw
    have hlasts := lasts_after a.toMarket (jobs i) i ⟨q, x⟩
    exact ⟨hinv.calls.answered hg hok htrue.1 (heard_of_truthful hinv.solvent htrue)
        fun f hf => hf.mono hlasts fun c => List.suffix_refl _,
      (solvent_upheld hone a).answered hinv.calls hg hok hcareful hinv.solvent⟩
  · intro a ph a' hinv hmoves
    exact spendingInv_moves hinv hmoves

/-! ## 3. The hard cap, end to end -/

/-- **The sleeve never spends what it has not got**, in every run in which a reservation is given
    back only when the ledger knows all that the BUY has cost or may cost, and a BUY arrives only
    while its reservation stands. -/
theorem orders_within_funds [DecidableEq ι] {jobs : ι → Job} (hone : OneOrder jobs)
    {s : Pool.State (Account ι) ι BrokerReq.Resp Exc Unit}
    (hs : Reachable (Pool.Start Account.Opening)
      (spending jobs Account.Careful Market.StillReserved).Step s) :
    NoOverspend s.world.given s.world.book s.world.trades :=
  (spendingInv hone hs).solvent.noOverspend

/-! ## 4. Two orders, and money for one -/

instance (req : OrderRequest) (trades : List Trade) (t : Trade) :
    Decidable (req.Allows trades t) :=
  decidable_of_iff ((req.side = .BUY → req.orderType = .LIMIT →
      ∀ p ∈ req.price, t.cost ≤ p * t.shares) ∧
      ∀ a ∈ req.orderAmount, sumUp Trade.cost (t :: trades) ≤ a)
    ⟨fun h => ⟨h.1, h.2⟩, fun h => ⟨h.1, h.2⟩⟩

instance (a : Account ι) : DecidablePred a.Truthful :=
  fun _ => inferInstanceAs (Decidable (_ ∧ _ ∧ ∀ _ ∈ _, ∀ _ ∈ _, _ → _ = _))

instance (a : Account ι) : DecidablePred a.Careful :=
  fun _ => inferInstanceAs (Decidable (∀ _ ∈ _, ∀ _ ∈ _, _ → _))

instance {kind : LedgerKind} (m : Market kind ι) : DecidablePred m.StillReserved :=
  fun _ => inferInstanceAs (Decidable (_ → ∀ _ ∈ _, _))

theorem wholeTrade_ok (shares cost : ℕ) :
    (0 : Decimal) < (max shares 1 : ℕ) ∧ (0 : Decimal) ≤ cost :=
  ⟨by positivity, by positivity⟩

/-- An execution of whole shares, at least one. -/
def wholeTrade (shares cost : ℕ) : Trade where
  shares := (max shares 1 : ℕ)
  cost := cost
  shares_pos := (wholeTrade_ok shares cost).1
  cost_nonneg := (wholeTrade_ok shares cost).2

/-- Ten shares are bought for all the money there is, and polled; the order is cancelled, or tried
    again after a restart; and ten more are bought. -/
inductive Counter where
  | buy | poll | sell | cancel | retry | buyMore
  deriving DecidableEq

def Counter.job : Counter → Job
  | .buy => .place { id := 0 } (.limit .BUY 10 100 "gd:b")
  | .poll => .poll "o-b"
  | .sell => .place { id := 0 } (.limit .SELL 4 100 "gd:s")
  | .cancel => .cancel { id := 0 } "o-b"
  | .retry => .place { id := 1, transportRetries := 0 } (.limit .BUY 10 100 "gd:b")
  | .buyMore => .place { id := 1 } (.limit .BUY 10 100 "gd:t")

theorem oneOrder_counter : OneOrder Counter.job := by
  rintro c req req' ⟨i, b, hi, hc⟩ ⟨j, b', hj, hc'⟩
  have hid := hc.trans hc'.symm
  cases i <;> cases hi <;> cases j <;> cases hj <;> first | rfl | exact absurd hid (by decide)

/-- What Toss can be told to do. -/
inductive Fate where
  | accept (i : Counter) (orderId : String)
  | execute (c : String) (shares cost : ℕ)

/-- Toss does as it is told, if it can. -/
def fated (D : Market .inMemory Counter → OrderRequest → Prop) [∀ m, DecidablePred (D m)]
    (fate : Fate) (a : Account Counter) : Option (Account Counter) :=
  match fate with
  | .accept i orderId =>
    (stirred Counter.job D (.accept i orderId) a.toMarket).map fun m => { a with toMarket := m }
  | .execute c shares cost =>
    if ∀ l ∈ a.book.get? c, l.req.Allows (a.trades c) (wholeTrade shares cost) then
      (stirred Counter.job D (.execute c (max shares 1)) a.toMarket).map fun m => { a with
        toMarket := m
        trades := Function.update a.trades c (wholeTrade shares cost :: a.trades c) }
    else none

theorem fated_moves {D : Market .inMemory Counter → OrderRequest → Prop}
    [∀ m, DecidablePred (D m)] (fate : Fate) (a a' : Account Counter)
    (h : fated D fate a = some a') : Account.Moves Counter.job D a a' := by
  cases fate with
  | accept i orderId =>
    obtain ⟨m, hm, rfl⟩ := Option.map_eq_some_iff.mp h
    exact .market (stirred_moves hm)
  | execute c shares cost =>
    obtain ⟨hallows, h⟩ := Option.ite_none_right_eq_some.mp h
    obtain ⟨m, hm, rfl⟩ := Option.map_eq_some_iff.mp h
    exact .execute (stirred_moves hm) hallows

/-- A day at the counter, with a capital of 1000. -/
def counterAt (C : Account Counter → Event BrokerReq.Resp → Prop) [∀ a, DecidablePred (C a)]
    (D : Market .inMemory Counter → OrderRequest → Prop) [∀ m, DecidablePred (D m)]
    (turns : List (Pool.Turn Counter Script Fate)) :
    Pool.State (Account Counter) Counter BrokerReq.Resp Exc Unit :=
  (spending Counter.job C D).play
    (Pool.scripted (fun script a => found script a.world) (fun a e => a.Truthful e ∧ C a e)
      fun a i e => a.after i.job i e)
    (fated D)
    { world :=
        { ledger := fresh "sleeve" (1000 : ℕ) .KRW
          today := "2024-01-02"
          acks := fun _ _ => none }
      departed := fun _ => false
      given := fun cur => if cur = .KRW then (1000 : ℕ) else 0 }
    turns

theorem counterAt_reachable (C : Account Counter → Event BrokerReq.Resp → Prop)
    [∀ a, DecidablePred (C a)] (D : Market .inMemory Counter → OrderRequest → Prop)
    [∀ m, DecidablePred (D m)] (turns : List (Pool.Turn Counter Script Fate)) :
    Reachable (Pool.Start Account.Opening) (spending Counter.job C D).Step
      (counterAt C D turns) := by
  refine Pool.play_reachable Account.Opening (fun script a i q x a' h => ?_) fated_moves
    ⟨⟨"sleeve", (1000 : ℕ), .KRW, init_ok "sleeve" (1000 : ℕ) .KRW (by decide)
      (Nat.cast_nonneg _), rfl⟩, rfl, rfl, fun _ => rfl⟩ turns
  obtain ⟨hfound, hpass, rfl⟩ := Pool.of_scripted h
  exact ⟨gives_found hfound, hpass.1, hpass.2, rfl⟩

/-- Four of the ten shares are bought, below the limit, and the ledger is told; they are offered,
    and sold above it. -/
def turnedOver : List (Pool.Turn Counter Script Fate) :=
  placed .accept .buy "o-b" ++ [.world (.execute "gd:b" 4 380)] ++ goes .poll 1 ++
    [.go .poll (.connectFailed, some (.whole "o-b" "gd:b" "005930" .BUY .KRW 4 95 1 ""))] ++
    goes .poll 1 ++ placed .accept .sell "o-s" ++ [.world (.execute "gd:s" 4 410)]

theorem orders_within_funds_turnedOver :
    ((counterAt Account.Careful Market.StillReserved turnedOver).world.book.sumIn .BUY .KRW
      fun c l => l.exposure
        ((counterAt Account.Careful Market.StillReserved turnedOver).world.trades c)) = 600 ∧
    NoOverspend (counterAt Account.Careful Market.StillReserved turnedOver).world.given
      (counterAt Account.Careful Market.StillReserved turnedOver).world.book
      (counterAt Account.Careful Market.StillReserved turnedOver).world.trades :=
  ⟨by decide +kernel, orders_within_funds oneOrder_counter (counterAt_reachable _ _ _)⟩

/-- The run is one of the counter's, and more was spent, or may be, than there is. -/
def Overspends (turns : List (Pool.Turn Counter Script Fate)) : Prop :=
  Reachable (Pool.Start Account.Opening)
      (spending Counter.job (fun _ _ => True) fun _ _ => True).Step
      (counterAt (fun _ _ => True) (fun _ _ => True) turns) ∧
    ¬ NoOverspend (counterAt (fun _ _ => True) (fun _ _ => True) turns).world.given
      (counterAt (fun _ _ => True) (fun _ _ => True) turns).world.book
      (counterAt (fun _ _ => True) (fun _ _ => True) turns).world.trades

/-- Four shares are bought, the rest of the order is cancelled before anybody polls, and ten more
    are ordered; and an order that timed out is given up by its retry, ten more are ordered, and it
    arrives after all. -/
theorem overspends :
    Overspends (placed .accept .buy "o-b" ++ [.world (.execute "gd:b" 4 380)] ++ goes .cancel 4 ++
      [.go .cancel (.answered (.of 200 none), none)] ++ goes .cancel 2 ++
      placed .accept .buyMore "o-t") ∧
    Overspends (goes .buy 6 ++ [.go .buy (.sendFailed, none)] ++ goes .retry 9 ++
      placed .accept .buyMore "o-t" ++ [.world (.accept .buy "o-b")]) :=
  ⟨⟨counterAt_reachable _ _ _, fun h => absurd (h.within .KRW) (by decide +kernel)⟩,
    ⟨counterAt_reachable _ _ _, fun h => absurd (h.within .KRW) (by decide +kernel)⟩⟩

end Proof.Spending
end TossSleeve
