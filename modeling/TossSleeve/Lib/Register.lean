import Mathlib.Logic.Function.Basic

/-!
# `Lib/Register.lean` — names given once

A register has an entry for some keys, and every entry has a name, which may be blank. An entry is
written over and over, as a whole, and whoever writes it may not know its name; so a blank does not
replace the name that is there (`write`).

If whoever does know the name knows the right one, nothing wrong is ever written (`Faithful`), no
name is lost once it is there (`Faithful.keeps`), and where no two keys share a name, a name says
whose it is (`Faithful.unique`).
-/

set_option autoImplicit false

namespace TossSleeve.Lib

universe u v

/-- The names of the entries; `none` for a key that has no entry. -/
abbrev Register (κ : Type u) (ν : Type v) : Type (max u v) := κ → Option ν

namespace Register

variable {κ : Type u} {ν : Type v} [DecidableEq κ] [DecidableEq ν]

/-- An entry is written: with its name, or with a blank. -/
def write (blank : ν) (r : Register κ ν) (k : κ) (v : ν) : Register κ ν :=
  Function.update r k (some (if v = blank then (r k).getD blank else v))

theorem write_write (blank : ν) (r : Register κ ν) (k : κ) (v : ν) :
    (r.write blank k v).write blank k v = r.write blank k v := by
  by_cases h : v = blank
  · simp [write, h]
  · simp [write, h]

/-- Every name is the right one, or blank. -/
def Faithful (blank : ν) (name : κ → ν) (r : Register κ ν) : Prop :=
  ∀ k v, r k = some v → v = blank ∨ v = name k

/-- No name was lost. -/
def Keeps (blank : ν) (r r' : Register κ ν) : Prop :=
  ∀ k v, r k = some v → v ≠ blank → r' k = some v

variable {blank : ν} {name : κ → ν} {r r' : Register κ ν} {k : κ} {v : ν}

omit [DecidableEq κ] [DecidableEq ν] in
theorem Keeps.refl (r : Register κ ν) : Keeps blank r r := fun _ _ h _ => h

namespace Faithful

theorem write (h : Faithful blank name r) (hv : v = blank ∨ v = name k) :
    Faithful blank name (write blank r k v) := by
  intro j u hj
  by_cases hjk : j = k
  · subst hjk
    rw [Register.write, Function.update_self] at hj
    obtain rfl := Option.some.inj hj
    by_cases hblank : v = blank
    · rw [if_pos hblank]
      cases hr : r j with
      | none => exact .inl rfl
      | some u => exact h j u hr
    · rw [if_neg hblank]
      exact hv
  · rw [Register.write, Function.update_of_ne hjk] at hj
    exact h j u hj

/-- **No name is lost**: what is written over it is blank, or the same. -/
theorem keeps (h : Faithful blank name r) (hv : v = blank ∨ v = name k) :
    Keeps blank r (Register.write blank r k v) := by
  intro j u hj hu
  by_cases hjk : j = k
  · subst hjk
    rw [Register.write, Function.update_self, hj]
    by_cases hblank : v = blank
    · rw [if_pos hblank]
      rfl
    · have hname : v = name j := hv.resolve_left hblank
      have hold : u = name j := (h j u hj).resolve_left hu
      rw [if_neg hblank, hname, hold]
  · rw [Register.write, Function.update_of_ne hjk]
    exact hj

omit [DecidableEq κ] [DecidableEq ν] in
/-- **A name says whose it is.** -/
theorem unique (h : Faithful blank name r) (hinj : Function.Injective name)
    (hname : name k ≠ blank) {j : κ} (hj : r j = some (name k)) : j = k := by
  rcases h j (name k) hj with hblank | heq
  · exact absurd hblank hname
  · exact (hinj heq).symm

end Faithful

end Register

end TossSleeve.Lib
