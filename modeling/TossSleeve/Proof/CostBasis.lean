import TossSleeve.Proof.Holdings

/-!
# `Proof/CostBasis.lean` — the cost basis against the executions as they happened

A ledger sees an order's executions through cumulative snapshots, and keeps the last of each order
only. What it reports is then the moving average of *orders*: each with all its executions, placed
where its last snapshot sorts.

The executions as they happened are a finer history: what each call adds to its order's last
snapshot, in the order of the calls. The two histories differ by merging an order's executions
into one and by re-ordering, and the averages agree (`costBasis_agrees`) as long as the
re-ordering moves no BUY past a SELL of its symbol (`KeepsOrder`).

Without that they need not. `costBasis_disagrees` is a BUY that goes on after a SELL: the ledger
books all of it before the SELL, whose cost is then taken at the wrong average.
-/

set_option autoImplicit false

namespace TossSleeve.Proof

open Lib

/-! ## 1. Executions -/

/-- What one call adds to its order. -/
structure Execution where
  orderId : String
  symbol : String
  trade : Trade Decimal

/-- The increase over the order's previous snapshot. -/
def Fill.execution (prev : Option Fill) (f : Fill) : Execution where
  orderId := f.orderId
  symbol := f.symbol
  trade :=
    { incoming := f.side = .BUY
      qty := f.filledQuantity - prev.elim 0 (·.filledQuantity)
      cost := f.costBasis - prev.elim 0 Fill.costBasis }

/-- The executions of a sequence of calls; `prev` is each order's snapshot before them. -/
def executionsFrom (prev : String → Option Fill) : List Fill → List Execution
  | [] => []
  | f :: fs =>
    Fill.execution (prev f.orderId) f ::
      executionsFrom (Function.update prev f.orderId (some f)) fs

def executions (calls : List Fill) : List Execution := executionsFrom (fun _ => none) calls

/-- Each order's snapshot after a sequence of calls. -/
def lastFillFrom (prev : String → Option Fill) : List Fill → String → Option Fill
  | [] => prev
  | f :: fs => lastFillFrom (Function.update prev f.orderId (some f)) fs

def lastFill (calls : List Fill) : String → Option Fill := lastFillFrom (fun _ => none) calls

/-- A symbol's history. -/
def historyOf (ticker : String) (es : List Execution) : List (Trade Decimal) :=
  (es.filter (·.symbol = ticker)).map (·.trade)

def boughtLessSold (ticker : String) (es : List Execution) : Decimal :=
  ((es.filter (·.symbol = ticker)).map (·.trade.signedQty)).sum

/-- What later snapshots of an order are to earlier ones. -/
def Progresses (f g : Fill) : Prop :=
  f.orderId = g.orderId →
    f.SameOrder g ∧ f.filledQuantity < g.filledQuantity ∧ f.costBasis < g.costBasis

/-- A sequence of calls that reports executions: every snapshot is a progress on its order's last
    one, time does not go back, and nothing is sold that is not held. -/
structure ReportsExecutions (calls : List Fill) : Prop where
  progress : calls.Pairwise Progresses
  filledAt : calls.Pairwise fun f g => f.filledAt ≤ g.filledAt
  covered : ∀ n ticker, 0 ≤ boughtLessSold ticker ((executions calls).take n)

/-- The ledger's order of two orders' snapshots is the order of their executions wherever it
    matters: between a BUY and a SELL of one symbol. -/
def KeepsOrder (calls : List Fill) : Prop :=
  calls.Pairwise fun f g => f.symbol = g.symbol → f.side ≠ g.side →
    ∀ f', lastFill calls f.orderId = some f' → ∀ g', lastFill calls g.orderId = some g' →
      FilledBefore f' g'

/-! ## 2. An order's executions add up to its last snapshot -/

/-- The snapshot of an order: its last one, or none of these and the one it had. -/
theorem lastFillFrom_cases (o : String) : ∀ (calls : List Fill) (prev : String → Option Fill),
    (∃ f ∈ calls, f.orderId = o ∧ lastFillFrom prev calls o = some f) ∨
      (∀ f ∈ calls, f.orderId ≠ o) ∧ lastFillFrom prev calls o = prev o := by
  intro calls
  induction calls with
  | nil => exact fun _ => Or.inr ⟨by simp, rfl⟩
  | cons f fs ih =>
    intro prev
    rcases ih (Function.update prev f.orderId (some f)) with ⟨g, hg, hgo, hlast⟩ | ⟨hne, hlast⟩
    · exact Or.inl ⟨g, List.mem_cons_of_mem _ hg, hgo, hlast⟩
    · by_cases ho : f.orderId = o
      · subst ho
        rw [Function.update_self] at hlast
        exact Or.inl ⟨f, List.mem_cons_self .., rfl, hlast⟩
      · rw [Function.update_of_ne (Ne.symm ho)] at hlast
        refine Or.inr ⟨?_, hlast⟩
        intro g hg
        rcases List.mem_cons.mp hg with rfl | hg
        · exact ho
        · exact hne g hg

theorem mem_of_lastFill {calls : List Fill} {o : String} {f : Fill}
    (h : lastFill calls o = some f) : f ∈ calls ∧ f.orderId = o := by
  rcases lastFillFrom_cases o calls (fun _ => none) with ⟨g, hg, hgo, hlast⟩ | ⟨-, hnone⟩
  · rw [← Option.some.inj (hlast.symm.trans h)]
    exact ⟨hg, hgo⟩
  · exact absurd (h.symm.trans hnone) (by simp)

/-- What came before a sequence of calls is progressed on by it. -/
def Precedes (prev : String → Option Fill) (calls : List Fill) : Prop :=
  ∀ o p, prev o = some p → p.orderId = o ∧ ∀ g ∈ calls, Progresses p g

theorem precedes_none (calls : List Fill) : Precedes (fun _ => none) calls := by
  intro o p h
  exact absurd h (by simp)

theorem Precedes.tail {prev : String → Option Fill} {f : Fill} {fs : List Fill}
    (h : Precedes prev (f :: fs)) (hf : ∀ g ∈ fs, Progresses f g) :
    Precedes (Function.update prev f.orderId (some f)) fs := by
  intro o p hp
  by_cases ho : o = f.orderId
  · subst ho
    rw [Function.update_self] at hp
    cases hp
    exact ⟨rfl, hf⟩
  · rw [Function.update_of_ne ho] at hp
    obtain ⟨hid, hprog⟩ := h o p hp
    exact ⟨hid, fun g hg => hprog g (List.mem_cons_of_mem _ hg)⟩

/-- A call that progresses executes something. -/
theorem execution_pos {prev : String → Option Fill} {f : Fill} {fs : List Fill}
    (h : Precedes prev (f :: fs)) : 0 < (Fill.execution (prev f.orderId) f).trade.qty := by
  show 0 < f.filledQuantity - (prev f.orderId).elim 0 (·.filledQuantity)
  cases hp : prev f.orderId with
  | none =>
    rw [Option.elim_none, sub_zero]
    exact f.filledQuantity_pos
  | some p =>
    obtain ⟨hid, hprog⟩ := h _ p hp
    exact sub_pos.mpr (hprog f (List.mem_cons_self ..) hid).2.1

/-- An execution comes from a call of its order, and is of its side and symbol. -/
structure IsExecutionOf (e : Execution) (f : Fill) : Prop where
  orderId : e.orderId = f.orderId
  symbol : e.symbol = f.symbol
  incoming : e.trade.incoming = decide (f.side = .BUY)
  qty_pos : 0 < e.trade.qty

theorem isExecutionOf {prev : String → Option Fill} {f : Fill} {fs : List Fill}
    (h : Precedes prev (f :: fs)) : IsExecutionOf (Fill.execution (prev f.orderId) f) f :=
  ⟨rfl, rfl, rfl, execution_pos h⟩

theorem mem_executionsFrom {e : Execution} : ∀ {calls : List Fill} {prev : String → Option Fill},
    Precedes prev calls → calls.Pairwise Progresses → e ∈ executionsFrom prev calls →
    ∃ f ∈ calls, IsExecutionOf e f := by
  intro calls
  induction calls with
  | nil => exact fun _ _ he => absurd he (by simp [executionsFrom])
  | cons f fs ih =>
    intro prev h hp he
    obtain ⟨hf, hfs⟩ := List.pairwise_cons.mp hp
    rcases List.mem_cons.mp he with rfl | he
    · exact ⟨f, List.mem_cons_self .., isExecutionOf h⟩
    · obtain ⟨g, hg, heg⟩ := ih (h.tail hf) hfs he
      exact ⟨g, List.mem_cons_of_mem _ hg, heg⟩

/-- What holds of the calls in their order holds of the executions in theirs. -/
theorem pairwise_executionsFrom {P : Fill → Fill → Prop} {Q : Execution → Execution → Prop}
    (hPQ : ∀ a f b g, IsExecutionOf a f → IsExecutionOf b g → P f g → Q a b) :
    ∀ {calls : List Fill} {prev : String → Option Fill}, Precedes prev calls →
    calls.Pairwise Progresses → calls.Pairwise P → (executionsFrom prev calls).Pairwise Q := by
  intro calls
  induction calls with
  | nil => exact fun _ _ _ => List.Pairwise.nil
  | cons f fs ih =>
    intro prev h hp hP
    obtain ⟨hf, hfs⟩ := List.pairwise_cons.mp hp
    obtain ⟨hPf, hPfs⟩ := List.pairwise_cons.mp hP
    refine List.pairwise_cons.mpr ⟨?_, ih (h.tail hf) hfs hPfs⟩
    intro b hb
    obtain ⟨g, hg, hbg⟩ := mem_executionsFrom (h.tail hf) hfs hb
    exact hPQ _ f b g (isExecutionOf h) hbg (hPf g hg)

theorem execution_merge {p : Option Fill} {f g : Fill} (hside : f.side = g.side) :
    (Fill.execution p f).trade.merge (Fill.execution (some f) g).trade =
      (Fill.execution p g).trade := by
  unfold Trade.merge Fill.execution
  simp [hside]

theorem filter_executionsFrom_nil {o : String} : ∀ {calls : List Fill}
    {prev : String → Option Fill}, (∀ f ∈ calls, f.orderId ≠ o) →
    (executionsFrom prev calls).filter (·.orderId = o) = [] := by
  intro calls
  induction calls with
  | nil => exact fun _ => rfl
  | cons f fs ih =>
    intro prev h
    have hne := h f (List.mem_cons_self ..)
    rw [executionsFrom, List.filter_cons_of_neg (by simp [Fill.execution, hne])]
    exact ih fun g hg => h g (List.mem_cons_of_mem _ hg)

/-- **An order's executions, one after another, are one trade**: what its last snapshot added to
    the one before them all. -/
theorem foldlM_order {o : String} : ∀ {calls : List Fill} {prev : String → Option Fill} {f : Fill},
    Precedes prev calls → calls.Pairwise Progresses → (∃ g ∈ calls, g.orderId = o) →
    lastFillFrom prev calls o = some f → ∀ h : Inventory Decimal,
    (((executionsFrom prev calls).filter (·.orderId = o)).map (·.trade)).foldlM Inventory.trade h =
      h.trade (Fill.execution (prev o) f).trade := by
  intro calls
  induction calls with
  | nil =>
    intro prev f _ _ hex
    obtain ⟨g, hg, -⟩ := hex
    exact absurd hg (by simp)
  | cons f₀ fs ih =>
    intro prev f hprec hp hex hlast h
    obtain ⟨hf₀, hfs⟩ := List.pairwise_cons.mp hp
    have htail := hprec.tail hf₀
    have hlast' : lastFillFrom (Function.update prev f₀.orderId (some f₀)) fs o = some f := hlast
    rw [executionsFrom]
    by_cases ho : f₀.orderId = o
    · subst ho
      rw [List.filter_cons_of_pos (by simp [Fill.execution]), List.map_cons, List.foldlM_cons]
      rcases lastFillFrom_cases f₀.orderId fs (Function.update prev f₀.orderId (some f₀)) with
        ⟨g, hg, hgo, hl⟩ | ⟨hne, hl⟩
      · -- The rest is one trade by induction, and merges with the first.
        obtain rfl : g = f := Option.some.inj (hl.symm.trans hlast')
        have hrest := ih htail hfs ⟨g, hg, hgo⟩ hlast'
        rw [Function.update_self] at hrest
        obtain ⟨hsame, hlt, -⟩ := hf₀ g hg hgo.symm
        have hpos : 0 < (Fill.execution (some f₀) g).trade.qty := sub_pos.mpr hlt
        have hside : (Fill.execution (prev f₀.orderId) f₀).trade.incoming =
            (Fill.execution (some f₀) g).trade.incoming := by
          show decide _ = decide _
          rw [hsame.2.1]
        calc (h.trade (Fill.execution (prev f₀.orderId) f₀).trade >>= fun h' =>
              (((executionsFrom _ fs).filter (·.orderId = f₀.orderId)).map
                (·.trade)).foldlM Inventory.trade h')
            = (h.trade (Fill.execution (prev f₀.orderId) f₀).trade >>= fun h' =>
                h'.trade (Fill.execution (some f₀) g).trade) :=
              congrArg (h.trade _ >>= ·) (funext hrest)
          _ = h.trade ((Fill.execution (prev f₀.orderId) f₀).trade.merge
                (Fill.execution (some f₀) g).trade) :=
              Inventory.trade_trade hside (execution_pos hprec) hpos
          _ = h.trade (Fill.execution (prev f₀.orderId) g).trade := by
              rw [execution_merge hsame.2.1]
      · rw [Function.update_self] at hl
        obtain rfl : f₀ = f := Option.some.inj (hl.symm.trans hlast')
        rw [filter_executionsFrom_nil hne]
        simp
    · rw [List.filter_cons_of_neg (by simp [Fill.execution, ho])]
      obtain ⟨g, hg, hgo⟩ := hex
      have hg' : g ∈ fs := by
        rcases List.mem_cons.mp hg with rfl | hg
        · exact absurd hgo ho
        · exact hg
      have hrest := ih htail hfs ⟨g, hg', hgo⟩ hlast' h
      rwa [Function.update_of_ne (Ne.symm ho)] at hrest

/-! ## 3. Orders one after another -/

/-- **The executions of several orders may be gathered order by order**, in an order of the orders
    that keeps BUYs and SELLs in place. By induction over the orders: the first one's executions
    move to the front, past executions of their own side only. -/
theorem foldlM_orders : ∀ {orders : List Fill} {es : List Execution},
    orders.Pairwise FilledBefore → (orders.map (·.orderId)).Nodup →
    (∀ e ∈ es, 0 < e.trade.qty ∧ ∃ s ∈ orders, s.orderId = e.orderId) →
    (∀ s ∈ orders, ∀ h : Inventory Decimal,
      ((es.filter (·.orderId = s.orderId)).map (·.trade)).foldlM Inventory.trade h =
        h.trade (Fill.trade s)) →
    es.Pairwise (fun a b => a.trade.incoming ≠ b.trade.incoming →
      ∀ s ∈ orders, s.orderId = a.orderId → ∀ s' ∈ orders, s'.orderId = b.orderId →
        FilledBefore s s') →
    ∀ h : Inventory Decimal, (es.map (·.trade)).foldlM Inventory.trade h =
      (orders.map Fill.trade).foldlM Inventory.trade h := by
  intro orders
  induction orders with
  | nil =>
    intro es _ _ hes _ _ h
    cases es with
    | nil => rfl
    | cons e es =>
      obtain ⟨-, s, hs, -⟩ := hes e (List.mem_cons_self ..)
      exact absurd hs (by simp)
  | cons s orders ih =>
    intro es hsorted hids hes htotal hkeep h
    obtain ⟨hfirst, hsorted'⟩ := List.pairwise_cons.mp hsorted
    obtain ⟨hnew, hids'⟩ := List.nodup_cons.mp hids
    have hmove : es.Pairwise fun a b =>
        decide (a.orderId = s.orderId) = false → decide (b.orderId = s.orderId) = true →
          StepsCommute (fun (h : Inventory Decimal) (e : Execution) => h.trade e.trade) a b := by
      refine hkeep.imp_of_mem ?_
      intro a b ha hb hab hna hb'
      have hna' : a.orderId ≠ s.orderId := of_decide_eq_false hna
      have hbs : s.orderId = b.orderId := (of_decide_eq_true hb').symm
      by_cases hside : a.trade.incoming = b.trade.incoming
      · exact fun t => stepsCommute_of_side hside (hes a ha).1 (hes b hb).1 t
      · -- The other side of the symbol, and before: then its order sorts before the first.
        obtain ⟨-, s', hs', hs'a⟩ := hes a ha
        have hs'mem : s' ∈ orders := by
          rcases List.mem_cons.mp hs' with rfl | hmem
          · exact absurd hs'a.symm hna'
          · exact hmem
        have hbefore := hab hside s' hs' hs'a s (List.mem_cons_self ..) hbs
        have heq := (hfirst s' hs'mem).orderId_eq hbefore
        exact absurd (heq.trans hs'a).symm hna'
    have hrest : ∀ h : Inventory Decimal,
        ((es.filter fun e => !decide (e.orderId = s.orderId)).map (·.trade)).foldlM
          Inventory.trade h = (orders.map Fill.trade).foldlM Inventory.trade h := by
      refine ih hsorted' hids' ?_ ?_ ?_
      · intro e he
        obtain ⟨hmem, hne⟩ := List.mem_filter.mp he
        obtain ⟨hpos, s', hs', hs'e⟩ := hes e hmem
        refine ⟨hpos, s', ?_, hs'e⟩
        rcases List.mem_cons.mp hs' with rfl | hmem'
        · exact absurd hs'e.symm (by simpa using hne)
        · exact hmem'
      · intro s' hs' h
        have hne : s'.orderId ≠ s.orderId := by
          intro he
          apply hnew
          show s.orderId ∈ orders.map (·.orderId)
          rw [← he]
          exact List.mem_map_of_mem hs'
        rw [List.filter_filter, ← htotal s' (List.mem_cons_of_mem _ hs') h]
        congr 2
        refine List.filter_congr ?_
        intro e _
        by_cases he : e.orderId = s'.orderId <;> simp [he, hne]
      · refine (hkeep.sublist List.filter_sublist).imp ?_
        intro a b hab hside s₁ h₁ e₁ s₂ h₂ e₂
        exact hab hside s₁ (List.mem_cons_of_mem _ h₁) e₁ s₂ (List.mem_cons_of_mem _ h₂) e₂
    calc (es.map (·.trade)).foldlM Inventory.trade h
        = es.foldlM (fun h e => h.trade e.trade) h := List.foldlM_map
      _ = (es.filter (·.orderId = s.orderId) ++
            es.filter fun e => !decide (e.orderId = s.orderId)).foldlM
              (fun h e => h.trade e.trade) h := foldlM_partition _ hmove h
      _ = (((es.filter (·.orderId = s.orderId)).map (·.trade)).foldlM Inventory.trade h >>=
            fun h' => ((es.filter fun e => !decide (e.orderId = s.orderId)).map
              (·.trade)).foldlM Inventory.trade h') := by
          rw [List.foldlM_append, List.foldlM_map]
          simp only [List.foldlM_map]
      _ = (h.trade (Fill.trade s) >>= fun h' =>
            (orders.map Fill.trade).foldlM Inventory.trade h') := by
          rw [htotal s (List.mem_cons_self ..)]
          exact congrArg (_ >>= ·) (funext hrest)
      _ = ((s :: orders).map Fill.trade).foldlM Inventory.trade h := by
          rw [List.map_cons, List.foldlM_cons]

/-! ## 4. The ledger -/

theorem applyFill_progress {l : InMemorySleeveLedger} {f : Fill}
    (h : ∀ p, l.snapshots.get? f.orderId = some p → p.filledQuantity < f.filledQuantity) :
    l.applyFill f = .ok (l.settle (l.snapshots.get? f.orderId) f) := by
  unfold InMemorySleeveLedger.applyFill
  cases hp : l.snapshots.get? f.orderId with
  | none => rfl
  | some p =>
    have hlt := h p hp
    have happly : fillProgress (some p) f = .apply := by
      unfold fillProgress
      simp only
      rw [if_neg (not_lt.mpr (le_of_lt hlt)), if_neg]
      intro he
      rw [he.1] at hlt
      exact lt_irrefl _ hlt
    simp only [happly]

/-- Calls that progress return, and leave each order's last snapshot. -/
theorem foldlM_applyFill : ∀ {calls : List Fill} {prev : String → Option Fill}
    {l : InMemorySleeveLedger}, Precedes prev calls → calls.Pairwise Progresses →
    (∀ o, l.snapshots.get? o = prev o) →
    ∃ l', calls.foldlM InMemorySleeveLedger.applyFill l = .ok l' ∧
      ∀ o, l'.snapshots.get? o = lastFillFrom prev calls o := by
  intro calls
  induction calls with
  | nil => exact fun {_ l} _ _ hl => ⟨l, rfl, hl⟩
  | cons f fs ih =>
    intro prev l hprec hp hl
    obtain ⟨hf, hfs⟩ := List.pairwise_cons.mp hp
    have happly : l.applyFill f = .ok (l.settle (l.snapshots.get? f.orderId) f) := by
      refine applyFill_progress ?_
      intro p hget
      rw [hl] at hget
      obtain ⟨hid, hprog⟩ := hprec _ p hget
      exact (hprog f (List.mem_cons_self ..) hid).2.1
    have hnext : ∀ o, (l.settle (l.snapshots.get? f.orderId) f).snapshots.get? o =
        Function.update prev f.orderId (some f) o := by
      intro o
      rw [InMemorySleeveLedger.get?_snapshots_settle, Function.update_apply, hl]
    obtain ⟨l', hrun, hl'⟩ := ih (hprec.tail hf) hfs hnext
    refine ⟨l', ?_, hl'⟩
    rw [List.foldlM_cons, happly]
    exact hrun

theorem mem_storedFills {l : InMemorySleeveLedger} {calls : List Fill}
    (hl : ∀ o, l.snapshots.get? o = lastFill calls o) {s : Fill} :
    s ∈ storedFills l ↔ lastFill calls s.orderId = some s := by
  constructor
  · intro hs
    obtain ⟨e, he, rfl⟩ := List.mem_map.mp hs
    have hget := Dict.mem_rows_iff.mp (show (e.1, e.2) ∈ l.snapshots.rows from he)
    rw [hl] at hget
    rw [(mem_of_lastFill hget).2]
    exact hget
  · intro hs
    rw [← hl] at hs
    exact List.mem_map.mpr ⟨(s.orderId, s), Dict.mem_rows_iff.mpr hs, rfl⟩

theorem nodup_storedFills {l : InMemorySleeveLedger} {calls : List Fill}
    (hl : ∀ o, l.snapshots.get? o = lastFill calls o) :
    ((storedFills l).map (·.orderId)).Nodup := by
  have hkeys : (storedFills l).map (·.orderId) = l.snapshots.rows.map Prod.fst := by
    unfold storedFills
    rw [List.map_map]
    refine List.map_congr_left ?_
    intro e he
    have hget := Dict.mem_rows_iff.mp (show (e.1, e.2) ∈ l.snapshots.rows from he)
    rw [hl] at hget
    exact (mem_of_lastFill hget).2
  rw [hkeys]
  exact l.snapshots.keys_nodup

/-- All snapshots of an order are of one symbol and side. -/
theorem sameOrder_of_mem {calls : List Fill} (hp : calls.Pairwise Progresses) {f g : Fill}
    (hf : f ∈ calls) (hg : g ∈ calls) (hid : f.orderId = g.orderId) :
    f.symbol = g.symbol ∧ f.side = g.side := by
  have hpair : calls.Pairwise fun f g =>
      f.orderId = g.orderId → f.symbol = g.symbol ∧ f.side = g.side := by
    refine hp.imp ?_
    intro a b hab he
    obtain ⟨hsame, -⟩ := hab he
    exact ⟨hsame.1, hsame.2.1⟩
  have hsymm : Std.Symm fun f g : Fill =>
      f.orderId = g.orderId → f.symbol = g.symbol ∧ f.side = g.side :=
    ⟨fun a b h he => ⟨(h he.symm).1.symm, (h he.symm).2.symm⟩⟩
  exact List.Pairwise.forall_of_forall (fun _ _ _ => ⟨rfl, rfl⟩) hpair hf hg hid

section Histories

variable {calls : List Fill} {l : InMemorySleeveLedger} {ticker : String}

/-- In a symbol's history, an order of the symbol has all its executions, and they are one trade. -/
theorem foldlM_order_history (hp : calls.Pairwise Progresses) {s : Fill}
    (hs : lastFill calls s.orderId = some s) (hticker : s.symbol = ticker)
    (held : Inventory Decimal) :
    ((((executions calls).filter (·.symbol = ticker)).filter (·.orderId = s.orderId)).map
      (·.trade)).foldlM Inventory.trade held = held.trade (Fill.trade s) := by
  obtain ⟨hscalls, -⟩ := mem_of_lastFill hs
  have hall : ((executions calls).filter (·.symbol = ticker)).filter (·.orderId = s.orderId) =
      (executions calls).filter (·.orderId = s.orderId) := by
    rw [List.filter_filter]
    refine List.filter_congr ?_
    intro e he
    by_cases heo : e.orderId = s.orderId
    · obtain ⟨f, hf, hef⟩ := mem_executionsFrom (precedes_none calls) hp he
      have hfs := sameOrder_of_mem hp hf hscalls (hef.orderId.symm.trans heo)
      have hes : e.symbol = ticker := (hef.symbol.trans hfs.1).trans hticker
      simp [heo, hes]
    · simp [heo]
  have htrade : (Fill.execution none s).trade = Fill.trade s := by
    unfold Fill.execution Fill.trade
    simp
  rw [hall, ← htrade]
  exact foldlM_order (precedes_none calls) hp ⟨s, hscalls, rfl⟩ hs held

/-- Of a BUY and a SELL execution of one symbol, the earlier one's order sorts first. -/
theorem KeepsOrder.executions (hp : calls.Pairwise Progresses) (hkeep : KeepsOrder calls) :
    (executions calls).Pairwise fun a b =>
      a.symbol = b.symbol → a.trade.incoming ≠ b.trade.incoming →
        ∀ s, lastFill calls a.orderId = some s → ∀ s', lastFill calls b.orderId = some s' →
          FilledBefore s s' := by
  refine pairwise_executionsFrom ?_ (precedes_none calls) hp hkeep
  intro a f b g haf hbg hfg hsymbol hside
  rw [haf.orderId, hbg.orderId]
  refine hfg (haf.symbol.symm.trans (hsymbol.trans hbg.symbol)) ?_
  intro he
  rw [haf.incoming, hbg.incoming, he] at hside
  exact hside rfl

/-- **A symbol's executions and its orders' snapshots have the same moving average.** -/
theorem movingAverage_history (hp : calls.Pairwise Progresses) (hkeep : KeepsOrder calls)
    (hl : ∀ o, l.snapshots.get? o = lastFill calls o) :
    movingAverage (historyOf ticker (executions calls)) =
      movingAverage ((fillsOf ticker (processed (storedFills l))).map Fill.trade) := by
  have hperm := processed_perm (storedFills l)
  have hlast : ∀ s ∈ fillsOf ticker (processed (storedFills l)),
      lastFill calls s.orderId = some s ∧ s.symbol = ticker := by
    intro s hs
    obtain ⟨hin, hticker⟩ := List.mem_filter.mp hs
    exact ⟨(mem_storedFills hl).mp (hperm.mem_iff.mp hin), by simpa using hticker⟩
  refine foldlM_orders ?_ ?_ ?_ ?_ ?_ ⟨0, 0⟩
  · exact (List.pairwise_insertionSort FilledBefore _).sublist List.filter_sublist
  · have hids := (hperm.map (·.orderId)).nodup_iff.mpr (nodup_storedFills hl)
    exact hids.sublist (List.filter_sublist.map _)
  · intro e he
    obtain ⟨hein, hticker⟩ := List.mem_filter.mp he
    obtain ⟨f, hf, hef⟩ := mem_executionsFrom (precedes_none calls) hp hein
    refine ⟨hef.qty_pos, ?_⟩
    rcases lastFillFrom_cases f.orderId calls (fun _ => none) with ⟨s, hs, hso, hls⟩ | ⟨hne, -⟩
    · have hsymbol := (sameOrder_of_mem hp hs hf hso).1
      have hstored : s ∈ processed (storedFills l) :=
        hperm.mem_iff.mpr ((mem_storedFills hl).mpr (by rw [hso]; exact hls))
      refine ⟨s, List.mem_filter.mpr ⟨hstored, ?_⟩, hso.trans hef.orderId.symm⟩
      rw [hsymbol, ← hef.symbol]
      exact hticker
    · exact absurd rfl (hne f hf)
  · intro s hs held
    obtain ⟨hls, hticker⟩ := hlast s hs
    exact foldlM_order_history hp hls hticker held
  · refine ((hkeep.executions hp).sublist List.filter_sublist).imp_of_mem ?_
    intro a b ha hb hab hside s hs hsa s' hs' hsb
    have hat : a.symbol = ticker := by simpa using (List.mem_filter.mp ha).2
    have hbt : b.symbol = ticker := by simpa using (List.mem_filter.mp hb).2
    refine hab (hat.trans hbt.symm) hside s ?_ s' ?_
    · rw [← hsa]
      exact (hlast s hs).1
    · rw [← hsb]
      exact (hlast s' hs').1

end Histories

/-! ## 5. The averages -/

/-- **The cost basis agrees with the executions as they happened**, when the order of the
    snapshots keeps BUYs and SELLs in place. -/
theorem costBasis_agrees (l : InMemorySleeveLedger) (hl : l.snapshots = ∅) (calls : List Fill)
    (h : ReportsExecutions calls) (hkeep : KeepsOrder calls) :
    ∃ l', calls.foldlM InMemorySleeveLedger.applyFill l = .ok l' ∧
      ∀ row ∈ l'.positions, ∃ held,
        movingAverage (historyOf row.ticker (executions calls)) = some held ∧
        row.quantity = held.qty ∧ row.avgPrice = held.average := by
  have hnone : ∀ o, l.snapshots.get? o = (none : Option Fill) := by
    intro o
    rw [hl]
    rfl
  obtain ⟨l', hrun, hlast⟩ := foldlM_applyFill (precedes_none calls) h.progress hnone
  refine ⟨l', hrun, ?_⟩
  intro row hrow
  have hcov : ∀ n, 0 ≤ (⟨0, 0⟩ : Inventory Decimal).qty + boughtLessSold row.ticker
      ((executions calls).take n) := by
    intro n
    rw [zero_add]
    exact h.covered n row.ticker
  obtain ⟨held, hheld⟩ := exists_foldlM_trade (fun e : Execution => decide (e.symbol = row.ticker))
    (·.trade) hcov
  have hheld' : movingAverage (historyOf row.ticker (executions calls)) = some held := hheld
  refine ⟨held, hheld', ?_⟩
  rw [movingAverage_history h.progress hkeep hlast] at hheld'
  exact row_of_movingAverage hrow hheld'

/-! ## 6. Two runs -/

instance (f g : Fill) : Decidable (Progresses f g) := by
  unfold Progresses
  infer_instance

/-- In a run of one symbol, its own prefixes are all there is to check. -/
theorem reportsExecutions_of_symbol {calls : List Fill} {symbol : String}
    (hp : calls.Pairwise Progresses) (ht : calls.Pairwise fun f g => f.filledAt ≤ g.filledAt)
    (hsymbol : ∀ f ∈ calls, f.symbol = symbol)
    (hcov : ∀ n ≤ (executions calls).length,
      0 ≤ boughtLessSold symbol ((executions calls).take n)) : ReportsExecutions calls := by
  refine ⟨hp, ht, ?_⟩
  intro n ticker
  by_cases hticker : symbol = ticker
  · subst hticker
    rcases le_total n (executions calls).length with hn | hn
    · exact hcov n hn
    · rw [List.take_of_length_le hn]
      have := hcov _ (le_refl (executions calls).length)
      rwa [List.take_length] at this
  · have hnone : ((executions calls).take n).filter (·.symbol = ticker) = [] := by
      refine List.filter_eq_nil_iff.mpr ?_
      intro e he
      obtain ⟨f, hf, hef⟩ := mem_executionsFrom (precedes_none calls) hp (List.mem_of_mem_take he)
      rw [hef.symbol, hsymbol f hf]
      simpa using hticker
    unfold boughtLessSold
    rw [hnone]
    exact le_refl _

/-- Two BUYs take turns, and a third order sells. -/
def turnsRun : List Fill :=
  [Fill.whole "o1" "c1" "005930" .BUY .KRW 10 100 0 "",
   Fill.whole "o2" "c2" "005930" .BUY .KRW 5 130 0 "",
   Fill.whole "o1" "c1" "005930" .BUY .KRW 20 110 0 "",
   Fill.whole "o3" "c3" "005930" .SELL .KRW 5 120 0 ""]

theorem turnsRun_reports : ReportsExecutions turnsRun :=
  reportsExecutions_of_symbol (by decide +kernel) (by decide +kernel)
    (show ∀ f ∈ turnsRun, f.symbol = "005930" by decide +kernel) (by decide +kernel)

/-- Whole orders are booked where their last snapshots sort, and the average is the executions'. -/
theorem costBasis_agrees_turns :
    ∃ l', turnsRun.foldlM InMemorySleeveLedger.applyFill (.fresh "s" 0 .KRW) = .ok l' ∧
      ∀ row ∈ l'.positions, ∃ held,
        movingAverage (historyOf row.ticker (executions turnsRun)) = some held ∧
        row.quantity = held.qty ∧ row.avgPrice = held.average := by
  have hkeep : KeepsOrder turnsRun := by
    unfold KeepsOrder
    decide +kernel
  exact costBasis_agrees (.fresh "s" 0 .KRW) rfl turnsRun turnsRun_reports hkeep

/-- A BUY, a SELL, and the BUY goes on. -/
def resumedRun : List Fill :=
  [Fill.whole "o1" "c1" "005930" .BUY .KRW 10 100 0 "",
   Fill.whole "o2" "c2" "005930" .SELL .KRW 5 120 0 "",
   Fill.whole "o1" "c1" "005930" .BUY .KRW 20 110 0 ""]

/-- **A BUY that goes on after a SELL.** The ledger takes the SELL out of all twenty shares, at
    110 each; when it happened there were ten, at 100. -/
theorem costBasis_disagrees :
    ReportsExecutions resumedRun ∧
    (resumedRun.foldlM InMemorySleeveLedger.applyFill (.fresh "s" 0 .KRW)).toOption.map
      (·.positions) = some [⟨"005930", 15, 110, .KRW⟩] ∧
    (movingAverage (historyOf "005930" (executions resumedRun))).map (·.average) =
      some (340 / 3) := by
  refine ⟨?_, by decide +kernel, by decide +kernel⟩
  exact reportsExecutions_of_symbol (by decide +kernel) (by decide +kernel)
    (show ∀ f ∈ resumedRun, f.symbol = "005930" by decide +kernel) (by decide +kernel)

end TossSleeve.Proof
