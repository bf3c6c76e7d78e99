import TossSleeve.Lib.Proc
import TossSleeve.Lib.Reach

/-!
# `Lib/Txn.lean` — one exclusive writer, and calls that fail

Any number of connections to one database, each running calls one after the other. A call is a
sequence of statements inside a transaction; the database grants one writer at a time and shows it
the last committed state and its own writes. Between two statements of one call every other
connection may do what the lock lets it do, and any statement may raise.

What a call does about its transaction is its `Bracket`, and the three brackets differ exactly in
what they leave behind when something raises. `scoped` always closes the transaction. `immediate`
rolls back when a statement of the body raises, but a COMMIT that raises finds nobody to roll
back, and neither does the ROLLBACK itself. `bare` never rolls back.

So a call can end and leave its transaction open, with writes in it (`held`), for the next call of
the connection to commit. `Step` takes that as a parameter: with `leak` it may happen, without it
a transaction is left open only as long as nothing was written in it. **Without leaks the system
is serial** (§3): the committed state and every returned value are those of the committed calls
run one at a time, in the order of their commits.
-/

set_option autoImplicit false

namespace TossSleeve.Lib

/-- How a call brackets its statements. -/
inductive Bracket where
  /-- BEGIN IMMEDIATE … COMMIT, with ROLLBACK when a statement in between raises. -/
  | immediate
  /-- A context manager that commits at the end and rolls back on every exception. -/
  | scoped
  /-- Statements and a COMMIT, no handler. -/
  | bare
  deriving DecidableEq, Repr

/-- A call: it raises before its first statement, or it is a bracketed body. -/
inductive Call (σ : Type) (Resp : Empty → Type) (ε α : Type) where
  | rejects (e : ε)
  | txn (b : Bracket) (body : Proc σ Empty Resp ε α)

/-- The call with nothing in between: a raising body is rolled back. -/
def Call.exec {σ : Type} {Resp : Empty → Type} {ε α : Type} : Call σ Resp ε α → σ →
    σ × Except ε α
  | .rejects e, s => (s, .error e)
  | .txn _ body, s =>
    match body.run s with
    | (s', .ok a) => (s', .ok a)
    | (_, .error e) => (s, .error e)

section Exec

variable {σ : Type} {Resp : Empty → Type} {ε α : Type} {P Q : σ → Prop}
  {body : Proc σ Empty Resp ε α}

theorem Call.exec_of_ok {a : α} (h : body.Ends P (.ok a) Q) (b : Bracket) {s : σ} (hs : P s) :
    Q ((Call.txn b body).exec s).1 ∧ ((Call.txn b body).exec s).2 = .ok a := by
  obtain ⟨s', hrun, hs'⟩ := h s hs
  simp only [Call.exec, hrun]
  exact ⟨hs', trivial⟩

theorem Call.exec_of_error {e : ε} (h : body.Ends P (.error e) Q) (b : Bracket) {s : σ}
    (hs : P s) : (Call.txn b body).exec s = (s, .error e) := by
  obtain ⟨s', hrun, -⟩ := h s hs
  simp only [Call.exec, hrun]

/-- What no statement breaks, a call does not break. -/
theorem Call.maintains_exec {I : σ → Prop} (h : body.Maintains I) (b : Bracket) {s : σ}
    (hs : I s) : I ((Call.txn b body).exec s).1 := by
  have hrun := h.run hs
  simp only [Call.exec]
  split
  · next heq =>
    rw [heq] at hrun
    exact hrun
  · exact hs

/-- What no statement shows, a call does not show. -/
theorem Call.leaves_exec {π : σ → σ} (h : body.Leaves π) (b : Bracket) (s : σ) :
    π ((Call.txn b body).exec s).1 = π s := by
  have hrun := h.run s
  simp only [Call.exec]
  split
  · next heq =>
    rw [heq] at hrun
    exact hrun
  · rfl

/-- A call that returned ran its body to the end. -/
theorem Call.run_of_exec {b : Bracket} {s s' : σ} {a : α}
    (h : (Call.txn b body).exec s = (s', .ok a)) : body.run s = (s', .ok a) := by
  simp only [Call.exec] at h
  split at h
  · next hrun =>
    rw [hrun]
    exact h
  · exact absurd (congrArg Prod.snd h) (by simp)

end Exec

namespace Txn

variable {σ : Type} {Resp : Empty → Type} {ε α κ : Type}

/-! ## 1. States -/

/-- What a connection is doing. -/
inductive Phase (σ : Type) (Resp : Empty → Type) (ε α κ : Type) where
  | idle
  /-- No call; an implicit BEGIN took place and no lock was granted. -/
  | opened
  /-- No call; the transaction of an earlier one is still open, with its writes. -/
  | held (work : σ)
  /-- Inside call `c`: what is left of its body, and the state its statements see. -/
  | running (c : κ) (b : Bracket) (rest : Proc σ Empty Resp ε α) (work : σ)

/-- Does the connection hold the write lock? -/
def Phase.Holds : Phase σ Resp ε α κ → Prop
  | .held _ | .running .. => True
  | .idle | .opened => False

/-- The committed state, the connections, and the committed calls with what they returned. -/
structure State (σ : Type) (Resp : Empty → Type) (ε α κ : Type) where
  db : σ
  conn : Nat → Phase σ Resp ε α κ
  log : List (κ × α)

/-- Connection `i` goes on to phase `ph`. -/
def State.put (s : State σ Resp ε α κ) (i : Nat) (ph : Phase σ Resp ε α κ) :
    State σ Resp ε α κ :=
  { s with conn := fun j => if j = i then ph else s.conn j }

def State.Free (s : State σ Resp ε α κ) : Prop := ∀ j, ¬ (s.conn j).Holds

/-- Nothing has happened yet. -/
def Start (db₀ : σ) (s : State σ Resp ε α κ) : Prop :=
  s.db = db₀ ∧ (∀ i, s.conn i = .idle) ∧ s.log = []

/-! ## 2. Steps

A call that raises before its first statement, or whose BEGIN IMMEDIATE raises, changes nothing
and has no step. -/

/-- One step of one connection. `leak`: may a transaction with writes in it be left open? -/
inductive Step (program : κ → Call σ Resp ε α) (leak : Prop) :
    State σ Resp ε α κ → State σ Resp ε α κ → Prop
  /-- BEGIN IMMEDIATE. -/
  | begin {s : State σ Resp ε α κ} {i : Nat} {c : κ} {body : Proc σ Empty Resp ε α}
      (hc : program c = .txn .immediate body) (hi : s.conn i = .idle) (hfree : s.Free) :
      Step program leak s (s.put i (.running c .immediate body s.db))
  /-- The implicit BEGIN of the other brackets, and the lock their first write takes. -/
  | enter {s : State σ Resp ε α κ} {i : Nat} {c : κ} {b : Bracket}
      {body : Proc σ Empty Resp ε α} (hc : program c = .txn b body) (hb : b ≠ .immediate)
      (hi : s.conn i = .idle ∨ s.conn i = .opened) (hfree : s.Free) :
      Step program leak s (s.put i (.running c b body s.db))
  /-- The same inside a transaction that was left open: there is no second BEGIN. -/
  | join {s : State σ Resp ε α κ} {i : Nat} {c : κ} {b : Bracket}
      {body : Proc σ Empty Resp ε α} {work : σ} (hc : program c = .txn b body)
      (hb : b ≠ .immediate) (hi : s.conn i = .held work) :
      Step program leak s (s.put i (.running c b body work))
  /-- A bare call's first statement is refused after the implicit BEGIN. -/
  | refused {s : State σ Resp ε α κ} {i : Nat} (hi : s.conn i = .idle) :
      Step program leak s (s.put i .opened)
  /-- A scoped call's first statement is refused in an open transaction. -/
  | abandoned {s : State σ Resp ε α κ} {i : Nat} :
      (∀ c b rest work, s.conn i ≠ .running c b rest work) →
      Step program leak s (s.put i .idle)
  | statement {s : State σ Resp ε α κ} {i : Nat} {c : κ} {b : Bracket} {upd : σ → σ}
      {k : σ → Proc σ Empty Resp ε α} {work : σ}
      (hi : s.conn i = .running c b (.act upd k) work) :
      Step program leak s (s.put i (.running c b (k work) (upd work)))
  /-- A statement, the body or a COMMIT raised, and the transaction was rolled back. -/
  | rolledBack {s : State σ Resp ε α κ} {i : Nat} {c : κ} {b : Bracket}
      {rest : Proc σ Empty Resp ε α} {work : σ} (hb : b ≠ .bare)
      (hi : s.conn i = .running c b rest work) : Step program leak s (s.put i .idle)
  /-- A COMMIT or a ROLLBACK raised, or any statement of a bare call: the call ends, its
      transaction does not. -/
  | leftOpen {s : State σ Resp ε α κ} {i : Nat} {c : κ} {b : Bracket}
      {rest : Proc σ Empty Resp ε α} {work : σ} (hb : b ≠ .scoped)
      (hi : s.conn i = .running c b rest work) (hleak : leak ∨ work = s.db) :
      Step program leak s (s.put i (.held work))
  | committed {s : State σ Resp ε α κ} {i : Nat} {c : κ} {b : Bracket} {a : α} {work : σ}
      (hi : s.conn i = .running c b (.ret a) work) :
      Step program leak s { (s.put i .idle) with db := work, log := s.log ++ [(c, a)] }

/-! ## 3. Serial runs -/

/-- `db` and the returned values of `log` are those of its calls run one after the other. -/
inductive Serial (program : κ → Call σ Resp ε α) (db₀ : σ) : List (κ × α) → σ → Prop
  | nil : Serial program db₀ [] db₀
  | snoc {log : List (κ × α)} {db db' : σ} {c : κ} {a : α} (h : Serial program db₀ log db)
      (hc : (program c).exec db = (db', .ok a)) : Serial program db₀ (log ++ [(c, a)]) db'

/-- An open transaction has written nothing; an executing call will end as if it had started
    from the committed state just now; the lock has one holder. -/
structure Inv (program : κ → Call σ Resp ε α) (db₀ : σ) (s : State σ Resp ε α κ) : Prop where
  serial : Serial program db₀ s.log s.db
  held : ∀ i work, s.conn i = .held work → work = s.db
  running : ∀ i c b rest work, s.conn i = .running c b rest work →
    ∃ body, program c = .txn b body ∧ body.run s.db = rest.run work
  lock : ∀ i j, (s.conn i).Holds → (s.conn j).Holds → i = j

theorem conn_put (s : State σ Resp ε α κ) (i : Nat) (ph : Phase σ Resp ε α κ) (j : Nat) :
    (s.put i ph).conn j = if j = i then ph else s.conn j := rfl

theorem conn_put_self (s : State σ Resp ε α κ) (i : Nat) (ph : Phase σ Resp ε α κ) :
    (s.put i ph).conn i = ph := if_pos rfl

/-- A log has one serial run. -/
theorem Serial.unique {program : κ → Call σ Resp ε α} {db₀ db db' : σ} {log : List (κ × α)}
    (h : Serial program db₀ log db) (h' : Serial program db₀ log db') : db = db' := by
  induction h generalizing db' with
  | nil =>
    generalize hlog : ([] : List (κ × α)) = log at h'
    cases h' with
    | nil => rfl
    | snoc _ _ => exact absurd hlog (by simp)
  | @snoc log₁ db₁ db₂ c a h hc ih =>
    generalize hlog : log₁ ++ [(c, a)] = log at h'
    cases h' with
    | nil => exact absurd hlog (by simp)
    | snoc h₁ hc₁ =>
      obtain ⟨rfl, hlast⟩ := List.append_inj' hlog rfl
      simp only [List.cons.injEq, Prod.mk.injEq, and_true] at hlast
      obtain ⟨rfl, rfl⟩ := hlast
      rw [ih h₁, hc₁] at hc
      exact (congrArg Prod.fst hc).symm

namespace Inv

variable {program : κ → Call σ Resp ε α} {db₀ : σ} {s : State σ Resp ε α κ}

/-- One connection goes on, without a commit: what it goes on to must be in order, and it may take
    the lock only if no other connection has it. -/
theorem put (h : Inv program db₀ s) {i : Nat} {ph : Phase σ Resp ε α κ}
    (hheld : ∀ work, ph = .held work → work = s.db)
    (hrun : ∀ c b rest work, ph = .running c b rest work →
      ∃ body, program c = .txn b body ∧ body.run s.db = rest.run work)
    (hlock : ph.Holds → ∀ j ≠ i, ¬ (s.conn j).Holds) : Inv program db₀ (s.put i ph) := by
  refine ⟨h.serial, fun j work hj => ?_, fun j c b rest work hj => ?_, fun j k hj hk => ?_⟩
  · rw [conn_put] at hj
    split at hj
    · exact hheld work hj
    · exact h.held j work hj
  · rw [conn_put] at hj
    split at hj
    · exact hrun c b rest work hj
    · exact h.running j c b rest work hj
  · rw [conn_put] at hj hk
    by_cases hji : j = i
    · by_cases hki : k = i
      · rw [hji, hki]
      · rw [if_pos hji] at hj
        rw [if_neg hki] at hk
        exact absurd hk (hlock hj k hki)
    · rw [if_neg hji] at hj
      by_cases hki : k = i
      · rw [if_pos hki] at hk
        exact absurd hj (hlock hk j hji)
      · rw [if_neg hki] at hk
        exact h.lock j k hj hk

/-- While connection `i` has the lock, no other connection has. -/
theorem others (h : Inv program db₀ s) {i : Nat} (hi : (s.conn i).Holds) :
    ∀ j ≠ i, ¬ (s.conn j).Holds :=
  fun j hj hold => hj (h.lock j i hold hi)

/-- A call is entered on the committed state. -/
theorem entered (h : Inv program db₀ s) {i : Nat} {c : κ} {b : Bracket}
    {body : Proc σ Empty Resp ε α} (hc : program c = .txn b body)
    (hlock : ∀ j ≠ i, ¬ (s.conn j).Holds) :
    Inv program db₀ (s.put i (.running c b body s.db)) := by
  refine h.put (fun work hw => by simp at hw) ?_ (fun _ => hlock)
  rintro c' b' rest work hrun
  cases hrun
  exact ⟨body, hc, rfl⟩

/-- A connection gives the lock back, or never had it. -/
theorem unlocked (h : Inv program db₀ s) (i : Nat) {ph : Phase σ Resp ε α κ}
    (hph : ph = .idle ∨ ph = .opened) : Inv program db₀ (s.put i ph) := by
  refine h.put ?_ ?_ ?_
  · rintro work rfl
    simp at hph
  · rintro c b rest work rfl
    simp at hph
  · rcases hph with rfl | rfl <;> exact fun hold => hold.elim

/-- The step lemma. -/
theorem step (h : Inv program db₀ s) {s' : State σ Resp ε α κ}
    (hs : Step program False s s') : Inv program db₀ s' := by
  cases hs with
  | begin hc _ hfree => exact h.entered hc (fun j _ => hfree j)
  | enter hc _ _ hfree => exact h.entered hc (fun j _ => hfree j)
  | join hc _ hi =>
    rw [h.held _ _ hi]
    exact h.entered hc (h.others (by rw [hi]; trivial))
  | refused => exact h.unlocked _ (.inr rfl)
  | abandoned => exact h.unlocked _ (.inl rfl)
  | rolledBack => exact h.unlocked _ (.inl rfl)
  | @statement i c b upd k work hi =>
    obtain ⟨body, hc, hrun⟩ := h.running _ _ _ _ _ hi
    refine h.put (fun work' hw => by simp at hw) ?_ (fun _ => h.others (by rw [hi]; trivial))
    rintro c' b' rest work' hph
    cases hph
    exact ⟨body, hc, hrun⟩
  | leftOpen _ hi hleak =>
    have hwork := hleak.resolve_left id
    refine h.put ?_ (fun _ _ _ _ hw => by simp at hw) (fun _ => h.others (by rw [hi]; trivial))
    rintro work' hph
    cases hph
    exact hwork
  | @committed i c b a work hi =>
    -- The others hold no lock, so nothing they saw can change under them.
    obtain ⟨body, hc, hrun⟩ := h.running _ _ _ _ _ hi
    have hothers := h.others (i := i) (by rw [hi]; trivial)
    have hexec : (program c).exec s.db = (work, .ok a) := by
      rw [hc, Call.exec, hrun, Proc.run_ret]
    have hconn : ∀ j, ((s.put i .idle).conn j).Holds → False := by
      intro j hj
      rw [conn_put] at hj
      split at hj
      · exact hj
      · next hji => exact hothers j hji hj
    refine ⟨h.serial.snoc hexec, fun j work' hj => ?_, fun j c' b' rest work' hj => ?_,
      fun j _ hj => (hconn j hj).elim⟩
    · exact (hconn j (by rw [show (s.put i .idle).conn j = _ from hj]; trivial)).elim
    · exact (hconn j (by rw [show (s.put i .idle).conn j = _ from hj]; trivial)).elim

end Inv

/-- **Serialisability.** Without leaks, whatever the interleaving and wherever calls raise, the
    committed state and the returned values are those of the committed calls one at a time. -/
theorem serialisable {program : κ → Call σ Resp ε α} {db₀ : σ} {s : State σ Resp ε α κ}
    (h : Reachable (Start db₀) (Step program False) s) : Serial program db₀ s.log s.db := by
  have hinv : Inv program db₀ s := by
    refine h.inv (Inv program db₀) ?_ (fun _ _ hi hs => hi.step hs)
    intro s hw
    obtain ⟨rfl, hidle, hlog⟩ := hw
    refine ⟨hlog ▸ .nil, fun i work hi => ?_, fun i c b rest work hi => ?_, fun i j hi => ?_⟩
    · rw [hidle i] at hi
      simp at hi
    · rw [hidle i] at hi
      simp at hi
    · rw [hidle i] at hi
      exact hi.elim
  exact hinv.serial

/-! ## 4. Undisturbed calls

A run on which nothing interferes with one call, for building schedules. -/

theorem put_put (s : State σ Resp ε α κ) (i : Nat) (ph ph' : Phase σ Resp ε α κ) :
    (s.put i ph).put i ph' = s.put i ph' := by
  unfold State.put
  congr 1
  funext j
  by_cases hj : j = i <;> simp [hj]

/-- The statements of a running call's body, one after the other. -/
theorem statements {start : State σ Resp ε α κ → Prop} {program : κ → Call σ Resp ε α}
    {leak : Prop} {s : State σ Resp ε α κ} {i : Nat} {c : κ} {b : Bracket} {a : α} {work' : σ} :
    ∀ {body : Proc σ Empty Resp ε α} {work : σ},
      Reachable start (Step program leak) (s.put i (.running c b body work)) →
      body.run work = (work', .ok a) →
      Reachable start (Step program leak) (s.put i (.running c b (.ret a) work'))
  | .ret a', work, h, hrun => by
    simp only [Proc.run_ret, Prod.mk.injEq, Except.ok.injEq] at hrun
    rwa [← hrun.1, ← hrun.2]
  | .raise _, _, _, hrun => absurd (congrArg Prod.snd hrun) (by simp)
  | .act upd k, work, h, hrun => by
    have hstep := h.step (Step.statement (conn_put_self s i (.running c b (.act upd k) work)))
    rw [put_put] at hstep
    exact statements hstep hrun
  | .await r _, _, _, _ => r.elim

theorem put_conn {s : State σ Resp ε α κ} {i : Nat} {ph : Phase σ Resp ε α κ}
    (h : s.conn i = ph) : s.put i ph = s := by
  obtain ⟨db, conn, log⟩ := s
  unfold State.put
  congr 1
  funext j
  by_cases hj : j = i
  · rw [if_pos hj, hj, ← h]
  · rw [if_neg hj]

/-- A call that no other comes between. -/
theorem undisturbed {start : State σ Resp ε α κ → Prop} {program : κ → Call σ Resp ε α}
    {leak : Prop} {s : State σ Resp ε α κ} (h : Reachable start (Step program leak) s) {i : Nat}
    {c : κ} {b : Bracket} {body : Proc σ Empty Resp ε α} {a : α} {db' : σ}
    (hi : s.conn i = .idle) (hfree : s.Free) (hc : program c = .txn b body)
    (hexec : (program c).exec s.db = (db', .ok a)) :
    Reachable start (Step program leak) { s with db := db', log := s.log ++ [(c, a)] } := by
  rw [hc] at hexec
  have hbegun : Reachable start (Step program leak) (s.put i (.running c b body s.db)) := by
    by_cases hb : b = .immediate
    · subst hb
      exact h.step (.begin hc hi hfree)
    · exact h.step (.enter hc hb (.inl hi) hfree)
  have hdone := (statements hbegun (Call.run_of_exec hexec)).step (.committed (conn_put_self _ _ _))
  rwa [put_put, put_conn hi] at hdone

end Txn

end TossSleeve.Lib
