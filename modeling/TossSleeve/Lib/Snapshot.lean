import TossSleeve.Lib.Proc
import TossSleeve.Lib.Reach

/-!
# `Lib/Snapshot.lean` — reading a state that others change

A program that only reads, and takes no lock: between two of its statements the state may become
another. It ends with what *some* states would have shown it, each of them for one statement. Is
that what one of them would have shown for all?

It is, if there is a **moment** in the run such that no change before it is of anything read by
then, and no change after it is of anything still to be read. What was read and what is to be read
is said of the program itself: `after n p s` is what is left of `p` after `n` statements that read
in `s`, and `Blind p s s'` says that `p` reads the same in both. So the results hold for a program
that decides what to read next by what it has read.
-/

set_option autoImplicit false

namespace TossSleeve.Lib

namespace Proc

variable {σ ε α : Type} {Resp : Empty → Type}

/-! ## 1. Programs that read -/

/-- No statement changes the state. -/
def ReadOnly : Proc σ Empty Resp ε α → Prop
  | .ret _ => True
  | .raise _ => True
  | .act upd k => (∀ s, upd s = s) ∧ ∀ s, (k s).ReadOnly
  | .await _ _ => True

/-- What is left of a program after so many statements, all of them read in `s`. -/
def after : Nat → Proc σ Empty Resp ε α → σ → Proc σ Empty Resp ε α
  | n + 1, .act _ k, s => after n (k s) s
  | _, p, _ => p

/-- Does the program read the same in both states? -/
def Blind : Proc σ Empty Resp ε α → σ → σ → Prop
  | .act _ k, s, s' => k s = k s' ∧ (k s).Blind s s'
  | _, _, _ => True

theorem ReadOnly.get {β : Type} {q : σ → β} {f : β → Proc σ Empty Resp ε α}
    (h : ∀ b, (f b).ReadOnly) : (Proc.get q >>= f).ReadOnly :=
  ⟨fun _ => rfl, fun s => h (q s)⟩

theorem ReadOnly.run_fst : ∀ {p : Proc σ Empty Resp ε α}, p.ReadOnly → ∀ s, (p.run s).1 = s
  | .ret _, _, _ => rfl
  | .raise _, _, _ => rfl
  | .act upd k, h, s => by
    rw [run_act, h.1 s]
    exact (h.2 s).run_fst s
  | .await r _, _, _ => r.elim

/-- What was read in `s` is what a run in `s` reads. -/
theorem run_after {p : Proc σ Empty Resp ε α} (h : p.ReadOnly) (s : σ) :
    ∀ n, (p.after n s).run s = p.run s := by
  intro n
  induction n generalizing p with
  | zero => rfl
  | succ n ih =>
    cases p with
    | act upd k =>
      show ((k s).after n s).run s = (act upd k).run s
      rw [ih (h.2 s), run_act, h.1 s]
    | ret a => rfl
    | raise e => rfl
    | await r k => exact r.elim

/-- One statement more. -/
theorem after_succ {s : σ} {upd : σ → σ} {k : σ → Proc σ Empty Resp ε α} :
    ∀ {n : Nat} {p : Proc σ Empty Resp ε α}, p.after n s = .act upd k → p.after (n + 1) s = k s := by
  intro n
  induction n with
  | zero =>
    intro p hp
    rw [show p = .act upd k from hp]
    rfl
  | succ n ih =>
    intro p hp
    cases p with
    | act upd' k' => exact ih hp
    | ret a => exact absurd hp (by simp [Proc.after])
    | raise e => exact absurd hp (by simp [Proc.after])
    | await r k => exact r.elim

/-- **A program ends in the same way in states that it cannot tell apart.** -/
theorem Blind.run_snd : ∀ {p : Proc σ Empty Resp ε α} {s s' : σ}, p.ReadOnly → p.Blind s s' →
    (p.run s').2 = (p.run s).2
  | .ret _, _, _, _, _ => rfl
  | .raise _, _, _, _, _ => rfl
  | .act upd k, s, s', h, hb => by
    rw [run_act, run_act, h.1 s, h.1 s', ← hb.1]
    exact hb.2.run_snd (h.2 s)
  | .await r _, _, _, _, _ => r.elim

end Proc

/-! ## 2. A reader among writers -/

variable {σ ε α : Type} {Resp : Empty → Type}

/-- A program that is reading: the state now, the states since it began, how many statements it
    has executed and what is left of it; and has the moment passed? -/
structure Reading (σ : Type) (Resp : Empty → Type) (ε α : Type) where
  now : σ
  seen : List σ
  done : Nat
  rest : Proc σ Empty Resp ε α
  passed : Bool

namespace Reading

variable (p : Proc σ Empty Resp ε α) (change : σ → σ → Prop)

/-- The program is about to start. -/
def Start (r : Reading σ Resp ε α) : Prop :=
  r.seen = [r.now] ∧ r.done = 0 ∧ r.rest = p ∧ r.passed = false

/-- A change to `s`, before the moment or after it, is not in the way: of what was read, or of what
    is to be read. -/
def Harmless (r : Reading σ Resp ε α) (s : σ) : Bool → Prop
  | false => r.passed = false ∧ p.after r.done s = r.rest
  | true => r.rest.Blind r.now s

/-- The program reads, or the state changes while it is reading; harmlessly, if that is `asked`. -/
inductive Step (asked : Prop) : Reading σ Resp ε α → Reading σ Resp ε α → Prop
  | read {r : Reading σ Resp ε α} {upd : σ → σ} {k : σ → Proc σ Empty Resp ε α}
      (h : r.rest = .act upd k) : Step asked r { r with done := r.done + 1, rest := k r.now }
  | changed {r : Reading σ Resp ε α} {upd : σ → σ} {k : σ → Proc σ Empty Resp ε α} {s : σ}
      (passed : Bool) (hrest : r.rest = .act upd k) (h : change r.now s)
      (hharmless : asked → r.Harmless p s passed) :
      Step asked r { r with now := s, seen := s :: r.seen, passed }

variable {p change}

/-- Either the state now shows what was read, or some state since the start shows all. -/
structure Inv (p : Proc σ Empty Resp ε α) (r : Reading σ Resp ε α) : Prop where
  readOnly : r.rest.ReadOnly
  now_seen : r.now ∈ r.seen
  before : r.passed = false → p.after r.done r.now = r.rest
  shown : ∃ s ∈ r.seen, (p.run s).2 = (r.rest.run r.now).2

theorem Inv.step (hp : p.ReadOnly) {r r' : Reading σ Resp ε α} (h : Inv p r)
    (hs : Step p change True r r') : Inv p r' := by
  cases hs with
  | @read upd k hrest =>
    have hread := h.readOnly
    rw [hrest] at hread
    refine ⟨hread.2 _, h.now_seen, fun hpassed => ?_, ?_⟩
    · exact Proc.after_succ ((h.before hpassed).trans hrest)
    · obtain ⟨s, hs, hshown⟩ := h.shown
      refine ⟨s, hs, ?_⟩
      rw [hshown, hrest, Proc.run_act, hread.1]
  | @changed upd k s passed hrest _ hharmless =>
    have hharmless := hharmless trivial
    cases passed with
    | false =>
      refine ⟨h.readOnly, List.mem_cons_self, fun _ => hharmless.2, s, List.mem_cons_self, ?_⟩
      rw [← hharmless.2, Proc.run_after hp]
    | true =>
      refine ⟨h.readOnly, List.mem_cons_self, fun hpassed => absurd hpassed (by simp), ?_⟩
      obtain ⟨m, hm, hshown⟩ := h.shown
      refine ⟨m, List.mem_cons_of_mem _ hm, ?_⟩
      rw [hshown]
      exact (Proc.Blind.run_snd h.readOnly hharmless).symm

/-- **What is read is what one state shows**, if there is a moment such that no change before it is
    of anything read, and no change after it of anything to be read. -/
theorem one_state (hp : p.ReadOnly) {r : Reading σ Resp ε α}
    (h : Reachable (Start p) (Step p change True) r) {a : α} (hret : r.rest = .ret a) :
    ∃ s ∈ r.seen, p.run s = (s, .ok a) := by
  have hinv : Inv p r := by
    refine h.inv (Inv p) ?_ (fun _ _ hi hs => hi.step hp hs)
    rintro ⟨now, seen, done, rest, passed⟩ ⟨hseen, hdone, hrest, -⟩
    obtain rfl : seen = [now] := hseen
    obtain rfl : done = 0 := hdone
    obtain rfl : rest = p := hrest
    exact ⟨hp, List.mem_singleton_self _, fun _ => rfl, now, List.mem_singleton_self _, rfl⟩
  obtain ⟨s, hs, hshown⟩ := hinv.shown
  refine ⟨s, hs, Prod.ext (hp.run_fst s) ?_⟩
  rw [hshown, hret]
  rfl

end Reading

end TossSleeve.Lib
