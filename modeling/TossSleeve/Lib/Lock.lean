import Mathlib.Logic.Function.Basic

/-!
# `Lib/Lock.lean` — one lock, seen from the phases of those who use it

What a lock is for is said by two readings of the same moment: the lock names its holder, and every
participant is in a phase, some of which are *under* the lock. `Guarded` says that the two agree.
It is kept by whoever takes a free lock, gives it back, or moves without crossing the border, and
it leaves room for one participant under the lock at a time (`Guarded.alone`).
-/

set_option autoImplicit false

namespace TossSleeve.Lib

variable {ι G : Type}

/-- The holder, if any, is under the lock, and nobody else is. `none` for a participant that has
    not started. -/
structure Guarded (under : G → Prop) (holder : Option ι) (ph : ι → Option G) : Prop where
  holds : ∀ i g, ph i = some g → under g → holder = some i
  held : ∀ i, holder = some i → ∃ g, ph i = some g ∧ under g

namespace Guarded

variable {under : G → Prop} {holder : Option ι} {ph : ι → Option G} {i : ι} {g g' : G}

theorem free : Guarded under none fun _ : ι => none :=
  ⟨fun _ _ h => absurd h (by simp), fun _ h => absurd h (by simp)⟩

/-- **Two participants under the lock are one.** -/
theorem alone (h : Guarded under holder ph) {j : ι} (hi : ph i = some g) (hg : under g)
    (hj : ph j = some g') (hg' : under g') : i = j :=
  Option.some.inj ((h.holds i g hi hg).symm.trans (h.holds j g' hj hg'))

variable [DecidableEq ι]

/-- One participant moves: whatever the lock does, it does for this one. -/
theorem move (h : Guarded under holder ph) {holder' : Option ι}
    (hself : holder' = some i ↔ under g') (hother : ∀ j, j ≠ i → (holder' = some j ↔
      holder = some j)) : Guarded under holder' (Function.update ph i (some g')) := by
  constructor
  · intro j p hj hp
    by_cases hij : j = i
    · subst hij
      rw [Function.update_self] at hj
      obtain rfl := Option.some.inj hj
      exact hself.mpr hp
    · rw [Function.update_of_ne hij] at hj
      exact (hother j hij).mpr (h.holds j p hj hp)
  · intro j hj
    by_cases hij : j = i
    · subst hij
      exact ⟨g', Function.update_self .., hself.mp hj⟩
    · rw [Function.update_of_ne hij]
      exact h.held j ((hother j hij).mp hj)

/-- A free lock is taken. -/
theorem acquire (h : Guarded under none ph) (hg' : under g') :
    Guarded under (some i) (Function.update ph i (some g')) := by
  apply h.move
  · simp [hg']
  · intro j hj
    simp [Ne.symm hj]

/-- The lock is given back by who is under it. -/
theorem release (h : Guarded under holder ph) (hi : ph i = some g) (hg : under g)
    (hg' : ¬ under g') : Guarded under none (Function.update ph i (some g')) := by
  have hholder := h.holds i g hi hg
  apply h.move
  · simp [hg']
  · intro j hj
    simp [hholder, Ne.symm hj]

/-- A participant moves on its side of the border. -/
theorem stay (h : Guarded under holder ph) (hi : ph i = some g) (hg : under g' ↔ under g) :
    Guarded under holder (Function.update ph i (some g')) := by
  refine h.move ⟨fun hh => ?_, fun hu => h.holds i g hi (hg.mp hu)⟩ fun _ _ => Iff.rfl
  obtain ⟨p, hp, hu⟩ := h.held i hh
  obtain rfl := Option.some.inj (hi.symm.trans hp)
  exact hg.mpr hu

/-- A participant starts outside. -/
theorem start (h : Guarded under holder ph) (hi : ph i = none) (hg' : ¬ under g') :
    Guarded under holder (Function.update ph i (some g')) := by
  refine h.move ⟨fun hh => ?_, fun hu => absurd hu hg'⟩ fun _ _ => Iff.rfl
  obtain ⟨p, hp, -⟩ := h.held i hh
  exact absurd (hi.symm.trans hp) (by simp)

end Guarded

end TossSleeve.Lib
