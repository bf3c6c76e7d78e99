/-!
# `Lib/Proc.lean` — programs that can be interrupted

A program over a shared state is usually a function `σ → σ × α`. That is the right meaning for a
program nobody interrupts, and it says nothing about one that somebody does. `Proc` keeps the
points of interruption: a program is a value, one of four things.

* it returned, or raised;
* it is about to do one **indivisible action** on the shared state: an update, and a continuation
  that has read the state *before* the update;
* it is waiting for the answer to a **request**, and says how it goes on from each.

A statement of a transaction and a synchronous stretch of an `async` function are actions; an
`await` is a request. Whoever runs programs decides what may come between two actions — nothing
(`run`), other programs' actions, a fault — and the program is the same value in each case.

§2 gives the meaning of a program without requests, and §3 the rules for reasoning about it in
parts (`Ends`). §4 is about changing the state such a program runs on: what a projection that its
actions respect (`Commutes`), or do not touch (`Leaves`), says about the whole run.
-/

set_option autoImplicit false

namespace TossSleeve.Lib

/-- A program over the shared state `σ`. A request `r` is answered by a `Resp r`. -/
inductive Proc (σ Req : Type) (Resp : Req → Type) (ε α : Type) : Type
  | ret (a : α)
  | raise (e : ε)
  | act (upd : σ → σ) (k : σ → Proc σ Req Resp ε α)
  | await (r : Req) (k : Resp r → Proc σ Req Resp ε α)

namespace Proc

variable {σ Req : Type} {Resp : Req → Type} {ε α β : Type}

/-! ## 1. Sequencing -/

/-- Go on with `f` from a result and with `g` from an exception. -/
def attempt (p : Proc σ Req Resp ε α) (f : α → Proc σ Req Resp ε β)
    (g : ε → Proc σ Req Resp ε β) : Proc σ Req Resp ε β :=
  match p with
  | .ret a => f a
  | .raise e => g e
  | .act upd k => .act upd fun s => (k s).attempt f g
  | .await r k => .await r fun x => (k x).attempt f g

instance : Monad (Proc σ Req Resp ε) where
  pure := .ret
  bind p f := p.attempt f .raise

instance : MonadExceptOf ε (Proc σ Req Resp ε) where
  throw := .raise
  tryCatch p h := p.attempt .ret h

@[simp] theorem ret_bind (a : α) (f : α → Proc σ Req Resp ε β) : ret a >>= f = f a := rfl

@[simp] theorem raise_bind (e : ε) (f : α → Proc σ Req Resp ε β) : raise e >>= f = raise e := rfl

@[simp] theorem act_bind (upd : σ → σ) (k : σ → Proc σ Req Resp ε α)
    (f : α → Proc σ Req Resp ε β) : act upd k >>= f = act upd fun s => k s >>= f := rfl

@[simp] theorem await_bind (r : Req) (k : Resp r → Proc σ Req Resp ε α)
    (f : α → Proc σ Req Resp ε β) : await r k >>= f = await r fun x => k x >>= f := rfl

/-- Read the state. -/
def get (q : σ → α) : Proc σ Req Resp ε α := .act id fun s => .ret (q s)

/-- Change the state. -/
def modify (upd : σ → σ) : Proc σ Req Resp ε Unit := .act upd fun _ => .ret ()

/-- Send a request and wait for the answer. -/
def request (r : Req) : Proc σ Req Resp ε (Resp r) := .await r .ret

/-- Answer the requests of a program by programs. -/
def inline {Req' : Type} {Resp' : Req' → Type} (h : (q : Req) → Proc σ Req' Resp' ε (Resp q)) :
    Proc σ Req Resp ε α → Proc σ Req' Resp' ε α
  | .ret a => .ret a
  | .raise e => .raise e
  | .act upd k => .act upd fun s => (k s).inline h
  | .await q k => (h q).attempt (fun x => (k x).inline h) .raise

/-! ## 2. Running to the end

Without requests, and with nothing in between. -/

section Run

variable {Resp : Empty → Type}

/-- The state a program ends in, and how it ends. -/
def run : Proc σ Empty Resp ε α → σ → σ × Except ε α
  | .ret a, s => (s, .ok a)
  | .raise e, s => (s, .error e)
  | .act upd k, s => (k s).run (upd s)
  | .await r _, _ => r.elim

@[simp] theorem run_ret (a : α) (s : σ) :
    (ret a : Proc σ Empty Resp ε α).run s = (s, .ok a) := rfl

@[simp] theorem run_pure (a : α) (s : σ) :
    (pure a : Proc σ Empty Resp ε α).run s = (s, .ok a) := rfl

@[simp] theorem run_raise (e : ε) (s : σ) :
    (raise e : Proc σ Empty Resp ε α).run s = (s, .error e) := rfl

@[simp] theorem run_throw (e : ε) (s : σ) :
    (throw e : Proc σ Empty Resp ε α).run s = (s, .error e) := rfl

@[simp] theorem run_act (upd : σ → σ) (k : σ → Proc σ Empty Resp ε α) (s : σ) :
    (act upd k).run s = (k s).run (upd s) := rfl

@[simp] theorem run_get (q : σ → α) (s : σ) :
    (get q : Proc σ Empty Resp ε α).run s = (s, .ok (q s)) := rfl

@[simp] theorem run_modify (upd : σ → σ) (s : σ) :
    (modify upd : Proc σ Empty Resp ε Unit).run s = (upd s, .ok ()) := rfl

/-- A sequence ends as its second part does from where the first returned. -/
theorem run_bind (f : α → Proc σ Empty Resp ε β) : ∀ (p : Proc σ Empty Resp ε α) (s : σ),
    (p >>= f).run s = match p.run s with
      | (s', .ok a) => (f a).run s'
      | (s', .error e) => (s', .error e)
  | .ret _, _ => rfl
  | .raise _, _ => rfl
  | .act upd k, s => run_bind f (k s) (upd s)
  | .await r _, _ => r.elim

theorem run_bind_ok {f : α → Proc σ Empty Resp ε β} {p : Proc σ Empty Resp ε α} {s s' : σ} {a : α}
    (h : p.run s = (s', .ok a)) : (p >>= f).run s = (f a).run s' := by
  rw [run_bind, h]

/-! ## 3. How a run ends

A triple whose result is a value, not a predicate: from any state satisfying `P`, the program ends
with `r` in a state satisfying `Q`. -/

def Ends (P : σ → Prop) (p : Proc σ Empty Resp ε α) (r : Except ε α) (Q : σ → Prop) : Prop :=
  ∀ s, P s → ∃ s', p.run s = (s', r) ∧ Q s'

namespace Ends

variable {P Q R : σ → Prop}

theorem ret (a : α) : Ends P (.ret a : Proc σ Empty Resp ε α) (.ok a) P :=
  fun s hs => ⟨s, rfl, hs⟩

theorem raise (e : ε) : Ends P (.raise e : Proc σ Empty Resp ε α) (.error e) P :=
  fun s hs => ⟨s, rfl, hs⟩

/-- A read returns what the states of `P` have in common. -/
theorem get {q : σ → α} {a : α} (h : ∀ s, P s → q s = a) :
    Ends P (.get q : Proc σ Empty Resp ε α) (.ok a) P := by
  intro s hs
  exact ⟨s, by rw [run_get, h s hs], hs⟩

theorem modify {upd : σ → σ} (h : ∀ s, P s → Q (upd s)) :
    Ends P (.modify upd : Proc σ Empty Resp ε Unit) (.ok ()) Q :=
  fun s hs => ⟨upd s, rfl, h s hs⟩

theorem bind {p : Proc σ Empty Resp ε α} {f : α → Proc σ Empty Resp ε β} {a : α}
    {r : Except ε β} (hp : Ends P p (.ok a) Q) (hf : Ends Q (f a) r R) :
    Ends P (p >>= f) r R := by
  intro s hs
  obtain ⟨s₁, hrun, hs₁⟩ := hp s hs
  obtain ⟨s₂, hrun', hs₂⟩ := hf s₁ hs₁
  exact ⟨s₂, by rw [run_bind_ok hrun, hrun'], hs₂⟩

theorem bind_error {p : Proc σ Empty Resp ε α} {f : α → Proc σ Empty Resp ε β} {e : ε}
    (hp : Ends P p (.error e) Q) : Ends P (p >>= f) (.error e) Q := by
  intro s hs
  obtain ⟨s₁, hrun, hs₁⟩ := hp s hs
  exact ⟨s₁, by rw [run_bind, hrun], hs₁⟩

/-- A read of which only `V` is known of what it returns. -/
theorem get_bind {q : σ → α} {f : α → Proc σ Empty Resp ε β} {r : Except ε β} (V : α → Prop)
    (hq : ∀ s, P s → V (q s)) (hf : ∀ a, V a → Ends P (f a) r R) :
    Ends P (Proc.get q >>= f) r R :=
  fun s hs => hf (q s) (hq s hs) s hs

end Ends

/-! ## 4. Programs and projections of the state -/

/-- Every action of the program commutes with `π`, and reads nothing that `π` forgets. -/
def Commutes (π : σ → σ) : Proc σ Empty Resp ε α → Prop
  | .ret _ => True
  | .raise _ => True
  | .act upd k => (∀ s, upd (π s) = π (upd s)) ∧ (∀ s, k (π s) = k s) ∧ ∀ s, (k s).Commutes π
  | .await _ _ => True

/-- No action of the program changes what `π` shows. -/
def Leaves (π : σ → σ) : Proc σ Empty Resp ε α → Prop
  | .ret _ => True
  | .raise _ => True
  | .act upd k => (∀ s, π (upd s) = π s) ∧ ∀ s, (k s).Leaves π
  | .await _ _ => True

variable {π : σ → σ}

/-- Running on the projected state is running and projecting. -/
theorem Commutes.run : ∀ {p : Proc σ Empty Resp ε α}, p.Commutes π → ∀ s,
    p.run (π s) = (π (p.run s).1, (p.run s).2)
  | .ret _, _, _ => rfl
  | .raise _, _, _ => rfl
  | .act upd k, ⟨hupd, hk, hrest⟩, s => by
    rw [run_act, run_act, hk, hupd]
    exact (hrest s).run (upd s)
  | .await r _, _, _ => r.elim

theorem Leaves.run : ∀ {p : Proc σ Empty Resp ε α}, p.Leaves π → ∀ s, π (p.run s).1 = π s
  | .ret _, _, _ => rfl
  | .raise _, _, _ => rfl
  | .act upd k, ⟨hupd, hrest⟩, s => by
    rw [run_act, (hrest s).run (upd s), hupd]
  | .await r _, _, _ => r.elim

theorem Commutes.bind {f : α → Proc σ Empty Resp ε β} (hf : ∀ a, (f a).Commutes π) :
    ∀ {p : Proc σ Empty Resp ε α}, p.Commutes π → (p >>= f).Commutes π
  | .ret a, _ => hf a
  | .raise _, _ => trivial
  | .act upd k, ⟨hupd, hk, hrest⟩ => by
    refine ⟨hupd, fun s => ?_, fun s => Commutes.bind hf (hrest s)⟩
    show (k (π s)).attempt f .raise = (k s).attempt f .raise
    rw [hk]
  | .await r _, _ => r.elim

theorem Leaves.bind {f : α → Proc σ Empty Resp ε β} (hf : ∀ a, (f a).Leaves π) :
    ∀ {p : Proc σ Empty Resp ε α}, p.Leaves π → (p >>= f).Leaves π
  | .ret a, _ => hf a
  | .raise _, _ => trivial
  | .act _ _, ⟨hupd, hrest⟩ => ⟨hupd, fun s => Leaves.bind hf (hrest s)⟩
  | .await r _, _ => r.elim

theorem commutes_get {q : σ → α} (h : ∀ s, q (π s) = q s) :
    (get q : Proc σ Empty Resp ε α).Commutes π :=
  ⟨fun _ => rfl, fun s => congrArg ret (h s), fun _ => trivial⟩

theorem commutes_modify {upd : σ → σ} (h : ∀ s, upd (π s) = π (upd s)) :
    (modify upd : Proc σ Empty Resp ε Unit).Commutes π :=
  ⟨h, fun _ => rfl, fun _ => trivial⟩

theorem leaves_ret (a : α) : (.ret a : Proc σ Empty Resp ε α).Leaves π := trivial

theorem leaves_get (q : σ → α) : (get q : Proc σ Empty Resp ε α).Leaves π :=
  ⟨fun _ => rfl, fun _ => trivial⟩

theorem leaves_modify {upd : σ → σ} (h : ∀ s, π (upd s) = π s) :
    (modify upd : Proc σ Empty Resp ε Unit).Leaves π :=
  ⟨h, fun _ => trivial⟩

/-- What no action changes still holds at the end. -/
theorem Ends.of_leaves {p : Proc σ Empty Resp ε α} {r : Except ε α}
    (h : p.Ends (fun _ => True) r fun _ => True) (hp : p.Leaves π) (x : σ) :
    p.Ends (fun s => π s = x) r (fun s => π s = x) := by
  intro s hs
  obtain ⟨s', hrun, -⟩ := h s trivial
  have hkept := hp.run s
  rw [hrun] at hkept
  exact ⟨s', hrun, hkept.trans hs⟩

/-! ## 5. Programs and invariants of the state -/

/-- No action of the program breaks `I`. -/
def Maintains (I : σ → Prop) : Proc σ Empty Resp ε α → Prop
  | .ret _ => True
  | .raise _ => True
  | .act upd k => ∀ s, I s → I (upd s) ∧ (k s).Maintains I
  | .await _ _ => True

variable {I : σ → Prop}

theorem Maintains.run : ∀ {p : Proc σ Empty Resp ε α}, p.Maintains I → ∀ {s}, I s → I (p.run s).1
  | .ret _, _, _, hs => hs
  | .raise _, _, _, hs => hs
  | .act _ _, hp, s, hs => (hp s hs).2.run (hp s hs).1
  | .await r _, _, _, _ => r.elim

theorem Maintains.bind {f : α → Proc σ Empty Resp ε β} (hf : ∀ a, (f a).Maintains I) :
    ∀ {p : Proc σ Empty Resp ε α}, p.Maintains I → (p >>= f).Maintains I
  | .ret a, _ => hf a
  | .raise _, _ => trivial
  | .act _ _, hp => fun s hs => ⟨(hp s hs).1, Maintains.bind hf (hp s hs).2⟩
  | .await r _, _ => r.elim

theorem maintains_get (q : σ → α) : (get q : Proc σ Empty Resp ε α).Maintains I :=
  fun _ hs => ⟨hs, trivial⟩

theorem maintains_modify {upd : σ → σ} (h : ∀ s, I s → I (upd s)) :
    (modify upd : Proc σ Empty Resp ε Unit).Maintains I :=
  fun s hs => ⟨h s hs, trivial⟩

end Run

end Proc

end TossSleeve.Lib
