import TossSleeve.Lib.Trace
import TossSleeve.Lib.Reach
import Mathlib.Data.Nat.Notation
import Mathlib.Logic.Function.Basic

/-!
# `Lib/Pool.lean` — many programs at once, over one world

A `Pool` is a family of programs and the world that answers them. A step starts a program, answers
the request one of them waits for, or is the world's own. Nothing is said about the order: between
any two requests of a program every other may run, and the world may move.

An invariant about such a system speaks of the world and of *where the programs are*. Where a
program is, is its remaining code, which nobody wants to read; but if it keeps to a discipline
(`Proc.Along`), its **phase** — the ghost folded over its own past — says all that matters about
it. `Pool.inv` is the rule: every request comes from a phase that allows it, and moves the world and
that one phase. No proof about a pool looks at a program again.

`Pool.play` runs a pool on a given list of turns, for concrete runs.
-/

set_option autoImplicit false

namespace TossSleeve.Lib

variable {W ι Req : Type} {Resp : Req → Type} {ε α : Type}

/-- A program that has started: what it went through, and what is left of it. -/
structure Thread {Req : Type} (Resp : Req → Type) (ε α : Type) where
  past : List (Event Resp)
  rest : Proc Unit Req Resp ε α

/-- Programs, and the world they run in: which answers it can give and what it becomes, and what
    it can do by itself. -/
structure Pool (W ι : Type) {Req : Type} (Resp : Req → Type) (ε α : Type) where
  program : ι → Proc Unit Req Resp ε α
  Answer : W → ι → Event Resp → W → Prop
  Env : W → W → Prop

namespace Pool

/-! ## 1. Runs -/

/-- `none` for a program that has not started. -/
structure State (W ι : Type) {Req : Type} (Resp : Req → Type) (ε α : Type) where
  world : W
  thread : ι → Option (Thread Resp ε α)

variable [DecidableEq ι] (P : Pool W ι Resp ε α)

/-- The state with one thread moved. -/
def State.put (s : State W ι Resp ε α) (i : ι) (th : Thread Resp ε α) : State W ι Resp ε α :=
  { s with thread := Function.update s.thread i (some th) }

/-- What a thread returned, if it has. -/
def State.returned (s : State W ι Resp ε α) (i : ι) : Option α :=
  match s.thread i with
  | some ⟨_, .ret a⟩ => some a
  | _ => none

/-- What a thread raised, if it has. -/
def State.raised (s : State W ι Resp ε α) (i : ι) : Option ε :=
  match s.thread i with
  | some ⟨_, .raise e⟩ => some e
  | _ => none

inductive Step : State W ι Resp ε α → State W ι Resp ε α → Prop
  | start {s : State W ι Resp ε α} (i : ι) (h : s.thread i = none) :
      Step s (s.put i (.mk [] (P.program i)))
  | silent {s : State W ι Resp ε α} {i : ι} {past : List (Event Resp)} {upd : Unit → Unit}
      {k : Unit → Proc Unit Req Resp ε α} (h : s.thread i = some ⟨past, .act upd k⟩) :
      Step s (s.put i (.mk past (k ())))
  | answered {s : State W ι Resp ε α} {i : ι} {past : List (Event Resp)} {q : Req}
      {k : Resp q → Proc Unit Req Resp ε α} {w : W} (x : Resp q)
      (h : s.thread i = some ⟨past, .await q k⟩) (hw : P.Answer s.world i ⟨q, x⟩ w) :
      Step s ({ s with world := w }.put i (.mk (past ++ [(⟨q, x⟩ : Event Resp)]) (k x)))
  | env {s : State W ι Resp ε α} {w : W} (hw : P.Env s.world w) : Step s { s with world := w }

/-- A thread waits, and in vain. -/
def Stuck (s : State W ι Resp ε α) (i : ι) : Prop :=
  ∃ past q k, s.thread i = some ⟨past, .await q k⟩ ∧ ∀ x w, ¬ P.Answer s.world i ⟨q, x⟩ w

/-- No thread can go on: what has started has ended, or waits in vain. -/
def Halted (s : State W ι Resp ε α) : Prop :=
  ∀ i, s.thread i ≠ none → (s.returned i).isSome ∨ (s.raised i).isSome ∨ P.Stuck s i

/-- No program has started. -/
def Start (start : W → Prop) (s : State W ι Resp ε α) : Prop :=
  start s.world ∧ ∀ i, s.thread i = none

omit P in
/-- What holds of every thread, when one has moved. -/
theorem forall_put {s t : State W ι Resp ε α} {Q : ι → Thread Resp ε α → Prop} {j : ι}
    {u : Thread Resp ε α} (ht : t.thread = s.thread)
    (h : ∀ i th, s.thread i = some th → Q i th) (hj : Q j u) :
    ∀ i th, (t.put j u).thread i = some th → Q i th := by
  intro i th hi
  by_cases hij : i = j
  · subst hij
    obtain rfl : u = th := by simpa [State.put] using hi
    exact hj
  · refine h i th ?_
    simpa [State.put, hij, ht] using hi

variable {P} in
/-- A step that moved a thread is the thread's own. -/
theorem Step.of_moved {s s' : State W ι Resp ε α} (h : P.Step s s') {i : ι}
    (hmoved : s'.thread i ≠ s.thread i) :
    (s.thread i = none ∧ s' = s.put i (.mk [] (P.program i))) ∨
    (∃ past upd k, s.thread i = some ⟨past, .act upd k⟩ ∧ s' = s.put i (.mk past (k ()))) ∨
    ∃ past q k x w, s.thread i = some ⟨past, .await q k⟩ ∧ P.Answer s.world i ⟨q, x⟩ w ∧
      s' = { s with world := w }.put i (.mk (past ++ [(⟨q, x⟩ : Event Resp)]) (k x)) := by
  have hput : ∀ (t : State W ι Resp ε α) j th, t.thread = s.thread →
      (t.put j th).thread i ≠ s.thread i → j = i := by
    intro t j th ht hmoved
    by_contra hji
    rw [State.put, ← ht] at hmoved
    exact hmoved (Function.update_of_ne (Ne.symm hji) _ _)
  cases h with
  | start j hj =>
    obtain rfl := hput s j _ rfl hmoved
    exact .inl ⟨hj, rfl⟩
  | @silent j past upd k hj =>
    obtain rfl := hput s j _ rfl hmoved
    exact .inr (.inl ⟨past, upd, k, hj, rfl⟩)
  | @answered j past q k w x hj hw =>
    obtain rfl := hput { s with world := w } j _ rfl hmoved
    exact .inr (.inr ⟨past, q, k, x, w, hj, hw, rfl⟩)
  | env hw => exact absurd rfl hmoved

/-! ## 2. Phases -/

section Phases

variable {G : Type} (next : ι → G → Event Resp → G) (g₀ : ι → G)

/-- The phase a thread is in. -/
def phaseOf (i : ι) (th : Thread Resp ε α) : G := th.past.foldl (next i) (g₀ i)

/-- The phases of the threads that have started. -/
def phase (s : State W ι Resp ε α) (i : ι) : Option G := (s.thread i).map (phaseOf next g₀ i)

variable {next g₀}

theorem phase_put (s : State W ι Resp ε α) (i : ι) (th : Thread Resp ε α) :
    phase next g₀ (s.put i th) =
      Function.update (phase next g₀ s) i (some (phaseOf next g₀ i th)) := by
  funext j
  by_cases h : j = i
  · subst h
    simp [phase, State.put]
  · simp [phase, State.put, h]

/-- What holds of every phase, when one thread has moved. -/
theorem forall_update {ph : ι → Option G} {i : ι} {g : G} {Q : ι → G → Prop}
    (hi : Q i g) (hne : ∀ j p, j ≠ i → ph j = some p → Q j p) :
    ∀ j p, Function.update ph i (some g) j = some p → Q j p := by
  intro j p hj
  by_cases h : j = i
  · subst h
    rw [Function.update_self] at hj
    exact Option.some.inj hj ▸ hi
  · rw [Function.update_of_ne h] at hj
    exact hne j p h hj

/-- The phase of a thread that was answered. -/
theorem phase_answered {s : State W ι Resp ε α} {i : ι} {past : List (Event Resp)} {q : Req}
    {k : Resp q → Proc Unit Req Resp ε α} {g : G} (h : s.thread i = some ⟨past, .await q k⟩)
    (hg : phase next g₀ s i = some g) (x : Resp q) (w : W) :
    phase next g₀ ({ s with world := w }.put i (.mk (past ++ [(⟨q, x⟩ : Event Resp)]) (k x))) i =
      some (next i g ⟨q, x⟩) := by
  rw [phase, h] at hg
  rw [phase_put, Function.update_self, phaseOf, List.foldl_append, ← Option.some.inj hg]
  rfl

/-- A thread moved within its phase. -/
theorem phase_put_of_eq {s : State W ι Resp ε α} {i : ι} {t u : Thread Resp ε α}
    (h : s.thread i = some t) (hu : phaseOf next g₀ i u = phaseOf next g₀ i t) :
    phase next g₀ (s.put i u) = phase next g₀ s := by
  rw [phase_put, hu]
  exact Function.update_eq_self_iff.mpr (by simp [phase, h])

variable {P} (ok : ι → G → Req → Prop) {fin : ι → G → Except ε α → Prop} {start : W → Prop}

/-- Every thread keeps to its discipline, from the phase it is in. -/
theorem disciplined (hprog : ∀ i, (P.program i).Along (next i) (ok i) (fin i) (g₀ i))
    {s : State W ι Resp ε α} (hs : Reachable (Start start) P.Step s) :
    ∀ i th, s.thread i = some th →
      th.rest.Along (next i) (ok i) (fin i) (phaseOf next g₀ i th) := by
  refine Reachable.inv (fun s => ∀ i th, s.thread i = some th →
      th.rest.Along (next i) (ok i) (fin i) (phaseOf next g₀ i th))
    (fun s hs i th h => ?_) (fun s s' ih hstep i th h => ?_) hs
  · rw [hs.2 i] at h
    exact absurd h (by simp)
  · -- The thread that moved is verified by what it did; the others by the hypothesis.
    cases hstep with
    | start j hj => exact forall_put rfl ih (hprog j) i th h
    | @silent j past upd k hj =>
      exact forall_put (u := .mk past (k ())) rfl ih (ih j (.mk past (.act upd k)) hj) i th h
    | @answered j past q k w x hj hw =>
      refine forall_put (u := .mk (past ++ [⟨q, x⟩]) (k x)) (t := { s with world := w }) rfl ih
        ?_ i th h
      rw [phaseOf, List.foldl_append]
      exact (ih j _ hj).2 x
    | env hw => exact ih i th h

/-- A thread that returned ended as its discipline says. -/
theorem fin_returned (hprog : ∀ i, (P.program i).Along (next i) (ok i) (fin i) (g₀ i))
    {s : State W ι Resp ε α} (hs : Reachable (Start start) P.Step s) {i : ι} {a : α}
    (h : s.returned i = some a) : ∃ g, phase next g₀ s i = some g ∧ fin i g (.ok a) := by
  unfold State.returned at h
  split at h
  · next past b hi =>
    obtain rfl := Option.some.inj h
    refine ⟨phaseOf next g₀ i ⟨past, .ret b⟩, ?_, disciplined ok hprog hs i _ hi⟩
    rw [phase, hi]
    rfl
  · exact absurd h (by simp)

/-- A thread that raised ended as its discipline says. -/
theorem fin_raised (hprog : ∀ i, (P.program i).Along (next i) (ok i) (fin i) (g₀ i))
    {s : State W ι Resp ε α} (hs : Reachable (Start start) P.Step s) {i : ι} {e : ε}
    (h : s.raised i = some e) : ∃ g, phase next g₀ s i = some g ∧ fin i g (.error e) := by
  unfold State.raised at h
  split at h
  · next past e' hi =>
    obtain rfl := Option.some.inj h
    refine ⟨phaseOf next g₀ i ⟨past, .raise e'⟩, ?_, disciplined ok hprog hs i _ hi⟩
    rw [phase, hi]
    rfl
  · exact absurd h (by simp)

/-- A thread that waits, waits for something its phase allows. -/
theorem ok_of_await (hprog : ∀ i, (P.program i).Along (next i) (ok i) (fin i) (g₀ i))
    {s : State W ι Resp ε α} (hs : Reachable (Start start) P.Step s) {i : ι}
    {past : List (Event Resp)} {q : Req} {k : Resp q → Proc Unit Req Resp ε α}
    (h : s.thread i = some ⟨past, .await q k⟩) : ∃ g, phase next g₀ s i = some g ∧ ok i g q := by
  refine ⟨phaseOf next g₀ i ⟨past, .await q k⟩, ?_, (disciplined ok hprog hs i _ h).1⟩
  rw [phase, h]
  rfl

/-- **Where every request brings a thread nearer to its end, it makes no more of them than its
    first phase says.** -/
theorem past_length_le (rank : G → ℕ)
    (hprog : ∀ i, (P.program i).Along (next i) (ok i) (fin i) (g₀ i))
    (hrank : ∀ i g q x, ok i g q → rank (next i g ⟨q, x⟩) < rank g)
    {s : State W ι Resp ε α} (hs : Reachable (Start start) P.Step s) :
    ∀ i th, s.thread i = some th →
      th.past.length + rank (phaseOf next g₀ i th) ≤ rank (g₀ i) := by
  induction hs with
  | start hs =>
    intro i th h
    rw [hs.2 i] at h
    exact absurd h (by simp)
  | @step s s' hs hstep ih =>
    intro i th h
    cases hstep with
    | start j hj => exact forall_put rfl ih (by simp [phaseOf]) i th h
    | @silent j past upd k hj =>
      exact forall_put (u := .mk past (k ())) rfl ih (ih j (.mk past (.act upd k)) hj) i th h
    | @answered j past q k w x hj hw =>
      refine forall_put (u := .mk (past ++ [⟨q, x⟩]) (k x)) (t := { s with world := w }) rfl ih
        ?_ i th h
      have hbefore := ih j _ hj
      have hnearer := hrank j _ q x (disciplined ok hprog hs j _ hj).1
      rw [phaseOf, List.foldl_append, List.length_append]
      simp only [phaseOf, List.foldl_cons, List.foldl_nil, List.length_singleton] at *
      omega
    | env hw => exact ih i th h

section Rule

variable (hprog : ∀ i, (P.program i).Along (next i) (ok i) (fin i) (g₀ i))
  (I : W → (ι → Option G) → Prop) (h₀ : ∀ w, start w → I w fun _ => none)
  (hstart : ∀ w ph i, I w ph → ph i = none → I w (Function.update ph i (some (g₀ i))))
  (hanswer : ∀ w ph i g q x w', I w ph → ph i = some g → ok i g q → P.Answer w i ⟨q, x⟩ w' →
    I w' (Function.update ph i (some (next i g ⟨q, x⟩))))
  (henv : ∀ w ph w', I w ph → P.Env w w' → I w' ph)

include hprog hstart hanswer henv

/-- What one step does to an invariant of the world and the phases. -/
theorem inv_step {s s' : State W ι Resp ε α} (hs : Reachable (Start start) P.Step s)
    (hI : I s.world (phase next g₀ s)) (hstep : P.Step s s') :
    I s'.world (phase next g₀ s') := by
  cases hstep with
  | start i hi =>
    rw [phase_put]
    exact hstart _ _ i hI (by rw [phase, hi]; rfl)
  | @silent i past upd k hi =>
    rw [phase_put_of_eq (u := .mk past (k ())) hi rfl]
    exact hI
  | @answered i past q k w x hi hw =>
    rw [phase_put, phaseOf, List.foldl_append]
    refine hanswer s.world _ i _ q x w hI ?_ (disciplined ok hprog hs i _ hi).1 hw
    show phase next g₀ s i = _
    rw [phase, hi]
    rfl
  | env hw => exact henv _ _ _ hI hw

/-- The invariant rule from a reachable state on. -/
theorem inv_since {s s' : State W ι Resp ε α} (hs : Reachable (Start start) P.Step s)
    (hI : I s.world (phase next g₀ s)) (hlater : Reachable (· = s) P.Step s') :
    I s'.world (phase next g₀ s') := by
  induction hlater with
  | start heq => exact heq ▸ hI
  | step hlater hstep ih =>
    exact inv_step ok hprog I hstart hanswer henv (hs.trans hlater) ih hstep

include h₀ in
/-- **The invariant rule for pools.** -/
theorem inv {s : State W ι Resp ε α} (hs : Reachable (Start start) P.Step s) :
    I s.world (phase next g₀ s) := by
  induction hs with
  | @start s hs =>
    have hnone : phase next g₀ s = fun _ => none := by
      funext i
      rw [phase, hs.2 i]
      rfl
    rw [hnone]
    exact h₀ _ hs.1
  | step hs hstep ih => exact inv_step ok hprog I hstart hanswer henv hs ih hstep

end Rule

end Phases

/-! ## 3. Programs that only ask -/

/-- A thread of a program that only asks only asks. -/
theorem requesting {P : Pool W ι Resp ε α} {start : W → Prop} {s : State W ι Resp ε α}
    (hs : Reachable (Start start) P.Step s) :
    ∀ i th, s.thread i = some th → (P.program i).Requesting → th.rest.Requesting := by
  refine Reachable.inv (fun s => ∀ i th, s.thread i = some th → (P.program i).Requesting →
    th.rest.Requesting) (fun s hs i th h => ?_) (fun s s' ih hstep i th h => ?_) hs
  · rw [hs.2 i] at h
    exact absurd h (by simp)
  · cases hstep with
    | start j hj => exact forall_put rfl ih id i th h
    | @silent j past upd k hj =>
      exact forall_put (u := .mk past (k ())) rfl ih (fun hj' => (ih j _ hj hj').elim) i th h
    | @answered j past q k w x hj hw =>
      exact forall_put (u := .mk (past ++ [⟨q, x⟩]) (k x)) (t := { s with world := w }) rfl ih
        (fun hj' => ih j _ hj hj' x) i th h
    | env hw => exact ih i th h

/-- A thread that only asks, in a phase in which it may ask for nothing, has ended. -/
theorem ended {G : Type} {next : ι → G → Event Resp → G} {g₀ : ι → G} {P : Pool W ι Resp ε α}
    (ok : ι → G → Req → Prop) {fin : ι → G → Except ε α → Prop} {start : W → Prop}
    (hprog : ∀ i, (P.program i).Along (next i) (ok i) (fin i) (g₀ i))
    {s : State W ι Resp ε α} (hs : Reachable (Start start) P.Step s) {i : ι} {g : G}
    (honly : (P.program i).Requesting) (hg : phase next g₀ s i = some g)
    (hstill : ∀ q, ¬ ok i g q) : (s.returned i).isSome ∨ (s.raised i).isSome := by
  obtain ⟨⟨past, rest⟩, hth, hphase⟩ := Option.map_eq_some_iff.mp hg
  cases rest with
  | ret a => exact .inl (by simp [State.returned, hth])
  | raise e => exact .inr (by simp [State.raised, hth])
  | act upd k => exact (requesting hs i _ hth honly).elim
  | await q k =>
    have hok : ok i (phaseOf next g₀ i ⟨past, .await q k⟩) q :=
      (disciplined ok hprog hs i _ hth).1
    rw [hphase] at hok
    exact absurd hok (hstill q)

/-! ## 4. Concrete runs -/

section Play

variable {A M : Type} (respond : A → W → ι → (q : Req) → Option (Resp q × W))
  (move : M → W → Option W)

/-- What a scheduler can ask for: let a thread go on — its request, if any, answered as `a` says —
    or let the world make a move. -/
inductive Turn (ι A M : Type) : Type
  | go (i : ι) (a : A)
  | world (m : M)

/-- One thread goes on; nothing happens if it has ended, or is not answered. -/
def goOn (s : State W ι Resp ε α) (i : ι) (a : A) : State W ι Resp ε α :=
  match s.thread i with
  | none => s.put i (.mk [] (P.program i))
  | some ⟨past, .await q k⟩ =>
    match respond a s.world i q with
    | none => s
    | some (x, w) => { s with world := w }.put i (.mk (past ++ [(⟨q, x⟩ : Event Resp)]) (k x))
  | some ⟨past, .act _ k⟩ => s.put i (.mk past (k ()))
  | some ⟨_, .ret _⟩ => s
  | some ⟨_, .raise _⟩ => s

/-- The world makes a move, if it can. -/
def moveOn (s : State W ι Resp ε α) (m : M) : State W ι Resp ε α :=
  match move m s.world with
  | none => s
  | some w => { s with world := w }

def turn (s : State W ι Resp ε α) : Turn ι A M → State W ι Resp ε α
  | .go i a => P.goOn respond s i a
  | .world m => moveOn move s m

def play (w : W) (turns : List (Turn ι A M)) : State W ι Resp ε α :=
  turns.foldl (P.turn respond move) { world := w, thread := fun _ => none }

/-- Answers as `found` has them, as far as `ok` lets them pass. -/
def scripted (found : A → W → (q : Req) → Option (Resp q)) (ok : W → Event Resp → Prop)
    [∀ w, DecidablePred (ok w)] (after : W → ι → Event Resp → W) (a : A) (w : W) (i : ι) (q : Req) :
    Option (Resp q × W) :=
  match found a w q with
  | some x => if ok w ⟨q, x⟩ then some (x, after w i ⟨q, x⟩) else none
  | none => none

omit [DecidableEq ι] in
theorem of_scripted {found : A → W → (q : Req) → Option (Resp q)} {ok : W → Event Resp → Prop}
    [∀ w, DecidablePred (ok w)] {after : W → ι → Event Resp → W} {a : A} {w w' : W} {i : ι} {q : Req}
    {x : Resp q} (h : scripted found ok after a w i q = some (x, w')) :
    found a w q = some x ∧ ok w ⟨q, x⟩ ∧ w' = after w i ⟨q, x⟩ := by
  unfold scripted at h
  split at h
  · next y hfound =>
    obtain ⟨hok, heq⟩ := Option.ite_none_right_eq_some.mp h
    obtain ⟨rfl, rfl⟩ := Prod.mk.inj (Option.some.inj heq)
    exact ⟨hfound, hok, rfl⟩
  · exact absurd h (by simp)

variable {P respond move}

/-- A turn is a step, or nothing happens. -/
theorem turn_step
    (hrespond : ∀ a w i q x w', respond a w i q = some (x, w') → P.Answer w i ⟨q, x⟩ w')
    (hmove : ∀ m w w', move m w = some w' → P.Env w w') (s : State W ι Resp ε α)
    (t : Turn ι A M) :
    P.turn respond move s t = s ∨ P.Step s (P.turn respond move s t) := by
  cases t with
  | go i a =>
    show P.goOn respond s i a = s ∨ P.Step s (P.goOn respond s i a)
    unfold goOn
    split
    · next h => exact .inr (.start i h)
    · next past q k h =>
      split
      · exact .inl rfl
      · next x w hx => exact .inr (.answered x h (hrespond a s.world i q x w hx))
    · next past upd k h => exact .inr (.silent h)
    · exact .inl rfl
    · exact .inl rfl
  | world m =>
    show moveOn move s m = s ∨ P.Step s (moveOn move s m)
    unfold moveOn
    split
    · exact .inl rfl
    · next w h => exact .inr (.env (hmove m s.world w h))

/-- Where a scheduler leads from a reachable state. -/
theorem turns_reachable {start : State W ι Resp ε α → Prop}
    (hrespond : ∀ a w i q x w', respond a w i q = some (x, w') → P.Answer w i ⟨q, x⟩ w')
    (hmove : ∀ m w w', move m w = some w' → P.Env w w') (turns : List (Turn ι A M)) :
    ∀ s, Reachable start P.Step s →
      Reachable start P.Step (turns.foldl (P.turn respond move) s) := by
  induction turns with
  | nil => exact fun s hs => hs
  | cons t ts ih =>
    intro s hs
    refine ih _ ?_
    rcases turn_step hrespond hmove s t with hsame | hstep
    · rw [hsame]
      exact hs
    · exact .step hs hstep

/-- What a scheduler reaches is reachable. -/
theorem play_reachable (start : W → Prop)
    (hrespond : ∀ a w i q x w', respond a w i q = some (x, w') → P.Answer w i ⟨q, x⟩ w')
    (hmove : ∀ m w w', move m w = some w' → P.Env w w') {w : W} (hw : start w)
    (turns : List (Turn ι A M)) :
    Reachable (Start start) P.Step (P.play respond move w turns) :=
  turns_reachable hrespond hmove turns _ (.start ⟨hw, fun _ => rfl⟩)

end Play

end Pool

end TossSleeve.Lib
