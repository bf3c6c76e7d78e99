/-!
# `Lib/Reach.lean` — reachable states and invariants

A transition system is a set of starting states and a step relation; what can be reached from the
one by the other is `Reachable`. The induction over reachable states is stated once, as the rule
`Reachable.inv`: an invariant that holds at the start and survives a step holds everywhere. Every
safety result about runs is then two obligations and no induction of its own.
-/

set_option autoImplicit false

namespace TossSleeve.Lib

universe u

/-- The states reachable from `start` by `step`. -/
inductive Reachable {σ : Type u} (start : σ → Prop) (step : σ → σ → Prop) : σ → Prop
  | start {s : σ} (h : start s) : Reachable start step s
  | step {s s' : σ} (h : Reachable start step s) (hs : step s s') : Reachable start step s'

namespace Reachable

variable {σ : Type u} {start : σ → Prop} {step : σ → σ → Prop}

/-- **The invariant rule.** -/
theorem inv (I : σ → Prop) (h₀ : ∀ s, start s → I s)
    (hstep : ∀ s s', I s → step s s' → I s') {s : σ} (h : Reachable start step s) : I s := by
  induction h with
  | start h => exact h₀ _ h
  | step _ hs ih => exact hstep _ _ ih hs

/-- What can be reached from a reachable state is reachable. -/
theorem trans {s s' : σ} (h : Reachable start step s) (h' : Reachable (· = s) step s') :
    Reachable start step s' := by
  induction h' with
  | start heq => exact heq ▸ h
  | step _ hs ih => exact .step ih hs

end Reachable

end TossSleeve.Lib
