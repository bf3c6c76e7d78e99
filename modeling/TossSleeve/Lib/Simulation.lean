import TossSleeve.Lib.Pool

/-!
# `Lib/Simulation.lean` — the same programs over another world

A program learns of its world what the world answers, and nothing else. So if a world can give every
answer that another one gives, and stays related to it by doing so, then whatever programs do over
the one they do over the other: each thread goes through the same requests and answers and ends in
the same way. `Simulates` is that condition on the worlds, and `Simulates.run` what follows for the
threads; nothing is asked of the programs.

The condition is asked for at reachable states only, and only for what a thread is waiting for there:
what the programs keep to, and any invariant of the pool, may be used to establish it.
-/

set_option autoImplicit false

namespace TossSleeve.Lib.Pool

variable {W W' ι Req : Type} {Resp : Req → Type} {ε α : Type} [DecidableEq ι]

/-- The thread waits for an answer to this. -/
def State.Waits (s : State W ι Resp ε α) (i : ι) (q : Req) : Prop :=
  ∃ past k, s.thread i = some ⟨past, .await q k⟩

/-- Whatever the world of `P` does, the world of `P'` can do, and the two stay related. -/
structure Simulates (P : Pool W ι Resp ε α) (P' : Pool W' ι Resp ε α) (start : W → Prop)
    (start' : W' → Prop) (R : W → W' → Prop) : Prop where
  program : P'.program = P.program
  begins : ∀ w, start w → ∃ w', start' w' ∧ R w w'
  answer : ∀ s, Reachable (Start start) P.Step s → ∀ i q x v w', s.Waits i q →
    P.Answer s.world i ⟨q, x⟩ v → R s.world w' → ∃ v', P'.Answer w' i ⟨q, x⟩ v' ∧ R v v'
  env : ∀ s, Reachable (Start start) P.Step s → ∀ v w', P.Env s.world v → R s.world w' →
    ∃ v', P'.Env w' v' ∧ R v v'

namespace Simulates

variable {P : Pool W ι Resp ε α} {P' : Pool W' ι Resp ε α} {start : W → Prop} {start' : W' → Prop}
  {R : W → W' → Prop} {s t : State W ι Resp ε α} {s' : State W' ι Resp ε α}

/-- One step, over the other world. -/
theorem step (h : Simulates P P' start start' R) (hs : Reachable (Start start) P.Step s)
    (hR : R s.world s'.world) (hthread : s'.thread = s.thread) (hstep : P.Step s t) :
    ∃ t', P'.Step s' t' ∧ R t.world t'.world ∧ t'.thread = t.thread := by
  cases hstep with
  | start i hi =>
    refine ⟨_, .start i (hthread ▸ hi), hR, ?_⟩
    simp only [State.put, hthread, h.program]
  | @silent i past upd k hi =>
    refine ⟨_, .silent (hthread ▸ hi), hR, ?_⟩
    simp only [State.put, hthread]
  | @answered i past q k v x hi hv =>
    obtain ⟨v', hv', hRv⟩ := h.answer s hs i q x v s'.world ⟨past, k, hi⟩ hv hR
    refine ⟨_, .answered x (hthread ▸ hi) hv', hRv, ?_⟩
    simp only [State.put, hthread]
  | @env v hv =>
    obtain ⟨v', hv', hRv⟩ := h.env s hs v s'.world hv hR
    exact ⟨_, .env hv', hRv, hthread⟩

/-- **A run over the one world is a run over the other**, thread by thread. -/
theorem run (h : Simulates P P' start start' R) (hs : Reachable (Start start) P.Step s) :
    ∃ s', Reachable (Start start') P'.Step s' ∧ R s.world s'.world ∧ s'.thread = s.thread := by
  induction hs with
  | @start s hs =>
    obtain ⟨w', hw', hR⟩ := h.begins s.world hs.1
    refine ⟨{ world := w', thread := s.thread }, .start ⟨hw', hs.2⟩, hR, rfl⟩
  | @step s t hs hstep ih =>
    obtain ⟨s', hs', hR, hthread⟩ := ih
    obtain ⟨t', ht', hRt, hthread'⟩ := h.step hs hR hthread hstep
    exact ⟨t', hs'.step ht', hRt, hthread'⟩

end Simulates

end TossSleeve.Lib.Pool
