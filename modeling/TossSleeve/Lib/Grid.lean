import Mathlib.Algebra.Order.Floor.Ring
import Mathlib.Order.Bounds.Basic
import Mathlib.Algebra.Group.Subgroup.ZPowers.Basic
import Mathlib.Tactic.Linarith
import Mathlib.Tactic.Ring

/-!
# `Lib/Grid.lean` — rounding to a grid whose step depends on the place

A table of bands gives every place a step: the first band whose upper end lies above the place
decides, and above the last end the `top` step holds. A value is on the grid when it is a multiple
of *its own* step.

Rounding goes the cheap way: take the step at the place that is being rounded, and round to a
multiple of that. Whether the result is on the grid is then a question about another place, and
it can leave the band it was computed for, at the upper end.

`Bands.Compatible` is the condition under which it works out: every end of a band is a multiple of
the steps on **both** its sides. Then rounding down gives the greatest point of the grid below
(`down_isGreatest`), rounding up the least above (`up_isLeast`), and everything one expects of a
rounding follows from those two.
-/

set_option autoImplicit false

namespace TossSleeve.Lib

universe u

/-- Bands in ascending order, each an upper end and a step, and the step above all of them. -/
structure Bands (K : Type u) where
  bands : List (K × K)
  top : K

namespace Bands

variable {K : Type u} [Field K] [LinearOrder K]

/-- The step at a place. -/
def stepAt (top x : K) : List (K × K) → K
  | [] => top
  | (upper, s) :: bs => if x < upper then s else stepAt top x bs

def step (g : Bands K) (x : K) : K := stepAt g.top x g.bands

/-- On the grid: a multiple of the step at its own place. -/
def OnGrid (g : Bands K) (x : K) : Prop := x ∈ AddSubgroup.zmultiples (g.step x)

/-- Steps are positive and every end is a multiple of the steps on both sides of it; `lower` is the
    lower end of the first band. -/
def CompatibleFrom (top lower : K) : List (K × K) → Prop
  | [] => 0 < top ∧ lower ∈ AddSubgroup.zmultiples top
  | (upper, s) :: bs =>
    0 < s ∧ lower < upper ∧ lower ∈ AddSubgroup.zmultiples s ∧
      upper ∈ AddSubgroup.zmultiples s ∧ CompatibleFrom top upper bs

def Compatible (g : Bands K) : Prop := CompatibleFrom g.top 0 g.bands

/-- `x`'s band: its lower end `lo`, and what there is to know of its upper end. -/
structure InBand (g : Bands K) (x lo : K) (up : WithTop K) : Prop where
  lower_le : lo ≤ x
  lt_upper : x < up
  step_pos : 0 < g.step x
  lower_mem : lo ∈ AddSubgroup.zmultiples (g.step x)
  upper_mem : ∀ u : K, up = u → u ∈ AddSubgroup.zmultiples (g.step x) ∧ g.OnGrid u
  step_eq : ∀ y, lo ≤ y → y < up → g.step y = g.step x

/-! ## 1. Every place has a band -/

theorem mem_stepAt_lower {top lower : K} {bs : List (K × K)} (h : CompatibleFrom top lower bs) :
    lower ∈ AddSubgroup.zmultiples (stepAt top lower bs) := by
  cases bs with
  | nil => exact h.2
  | cons b bs =>
    obtain ⟨-, hlt, hlower, -⟩ := h
    unfold stepAt
    rwa [if_pos hlt]

theorem exists_inBand_from {top : K} : ∀ {bs : List (K × K)} {lower x : K},
    CompatibleFrom top lower bs → lower ≤ x →
      ∃ lo up, lower ≤ lo ∧ InBand ⟨bs, top⟩ x lo up
  | [], lower, x, h, hx =>
    ⟨lower, ⊤, le_refl lower,
      { lower_le := hx
        lt_upper := WithTop.coe_lt_top x
        step_pos := h.1
        lower_mem := h.2
        upper_mem := by
          intro u hu
          exact absurd hu (by simp)
        step_eq := fun _ _ _ => rfl }⟩
  | (upper, s) :: bs, lower, x, h, hx => by
    obtain ⟨hs, hlt, hlower, hupper, hrest⟩ := h
    have hbelow : ∀ y, y < upper → step ⟨(upper, s) :: bs, top⟩ y = s := fun y hy => if_pos hy
    have habove : ∀ y, upper ≤ y → step ⟨(upper, s) :: bs, top⟩ y = step ⟨bs, top⟩ y :=
      fun y hy => if_neg (not_lt.mpr hy)
    by_cases hxu : x < upper
    · refine ⟨lower, upper, le_refl lower, hx, WithTop.coe_lt_coe.mpr hxu, ?_, ?_, ?_, ?_⟩
      · rwa [hbelow x hxu]
      · rwa [hbelow x hxu]
      · intro u hu
        cases WithTop.coe_injective hu
        rw [hbelow x hxu, OnGrid, habove upper (le_refl upper)]
        exact ⟨hupper, mem_stepAt_lower hrest⟩
      · intro y _ hy
        rw [hbelow x hxu, hbelow y (WithTop.coe_lt_coe.mp hy)]
    · have hux : upper ≤ x := not_lt.mp hxu
      obtain ⟨lo, up, hlo, hb⟩ := exists_inBand_from hrest hux
      refine ⟨lo, up, le_trans (le_of_lt hlt) hlo, hb.lower_le, hb.lt_upper, ?_, ?_, ?_, ?_⟩
      · rw [habove x hux]
        exact hb.step_pos
      · rw [habove x hux]
        exact hb.lower_mem
      · intro u hu
        have hupu : upper ≤ u := by
          have hxlt : x < u := WithTop.coe_lt_coe.mp (hu ▸ hb.lt_upper)
          exact le_of_lt (lt_of_le_of_lt hux hxlt)
        rw [habove x hux, OnGrid, habove u hupu]
        exact hb.upper_mem u hu
      · intro y hy hyup
        rw [habove x hux, habove y (le_trans hlo hy)]
        exact hb.step_eq y hy hyup

variable {g : Bands K}

theorem exists_inBand (h : g.Compatible) {x : K} (hx : 0 ≤ x) :
    ∃ lo up, 0 ≤ lo ∧ g.InBand x lo up := exists_inBand_from h hx

theorem step_pos (h : g.Compatible) {x : K} (hx : 0 ≤ x) : 0 < g.step x := by
  obtain ⟨_, _, _, hb⟩ := exists_inBand h hx
  exact hb.step_pos

/-! ## 2. Multiples of one step -/

variable [FloorRing K]

/-- The greatest multiple of `t` that is at most `x`. -/
def floorTo (t x : K) : K := ⌊x / t⌋ * t

theorem floorTo_mem (t x : K) : floorTo t x ∈ AddSubgroup.zmultiples t :=
  AddSubgroup.mem_zmultiples_iff.mpr ⟨⌊x / t⌋, zsmul_eq_mul t _⟩

variable [IsStrictOrderedRing K]

theorem floorTo_le {t : K} (ht : 0 < t) (x : K) : floorTo t x ≤ x :=
  sub_nonneg.mp (Int.sub_floor_div_mul_nonneg x ht)

theorem lt_floorTo_add {t : K} (ht : 0 < t) (x : K) : x < floorTo t x + t := by
  have := Int.sub_floor_div_mul_lt x ht
  unfold floorTo
  linarith

/-- Multiples are at least a step apart. -/
theorem le_floorTo {t x y : K} (ht : 0 < t) (hy : y ∈ AddSubgroup.zmultiples t) (hyx : y ≤ x) :
    y ≤ floorTo t x := by
  obtain ⟨n, rfl⟩ := AddSubgroup.mem_zmultiples_iff.mp hy
  rw [zsmul_eq_mul] at hyx ⊢
  have hn : n ≤ ⌊x / t⌋ := Int.le_floor.mpr ((le_div_iff₀ ht).mpr hyx)
  exact mul_le_mul_of_nonneg_right (Int.cast_le.mpr hn) (le_of_lt ht)

theorem floorTo_add_le {t x y : K} (ht : 0 < t) (hy : y ∈ AddSubgroup.zmultiples t) (hxy : x < y) :
    floorTo t x + t ≤ y := by
  have hmem : y - t ∈ AddSubgroup.zmultiples t :=
    AddSubgroup.sub_mem _ hy (AddSubgroup.mem_zmultiples t)
  by_contra hlt
  have hle := lt_floorTo_add ht x
  obtain ⟨n, rfl⟩ := AddSubgroup.mem_zmultiples_iff.mp hy
  rw [zsmul_eq_mul] at hxy hlt
  have hn : ⌊x / t⌋ + 1 ≤ n := by
    have : x / t < n := (div_lt_iff₀ ht).mpr hxy
    exact Int.add_one_le_iff.mpr (Int.floor_lt.mpr this)
  apply hlt
  unfold floorTo
  calc (⌊x / t⌋ : K) * t + t = ((⌊x / t⌋ + 1 : ℤ) : K) * t := by push_cast; ring
    _ ≤ n * t := mul_le_mul_of_nonneg_right (Int.cast_le.mpr hn) (le_of_lt ht)

/-! ## 3. Rounding down and up -/

def down (g : Bands K) (x : K) : K := floorTo (g.step x) x

def up (g : Bands K) (x : K) : K := if g.down x = x then x else g.down x + g.step x

/-- A point of the grid is where it was rounded from, or below, or above. -/
theorem down_eq_iff (h : g.Compatible) {x : K} (hx : 0 ≤ x) : g.down x = x ↔ g.OnGrid x := by
  constructor
  · intro he
    unfold OnGrid
    have := floorTo_mem (g.step x) x
    rwa [show floorTo (g.step x) x = x from he] at this
  · intro hg
    exact le_antisymm (floorTo_le (step_pos h hx) x)
      (le_floorTo (step_pos h hx) hg (le_refl x))

/-- **Rounding down is optimal.** What is rounded down stays in its band, since the band's lower
    end is a multiple of the step too; a point of a lower band lies below that end. -/
theorem down_isGreatest (h : g.Compatible) {x : K} (hx : 0 ≤ x) :
    IsGreatest {y | 0 ≤ y ∧ g.OnGrid y ∧ y ≤ x} (g.down x) := by
  obtain ⟨lo, up, hlo, hb⟩ := exists_inBand h hx
  have hle : g.down x ≤ x := floorTo_le hb.step_pos x
  have hlow : lo ≤ g.down x := le_floorTo hb.step_pos hb.lower_mem hb.lower_le
  have hstep : g.step (g.down x) = g.step x :=
    hb.step_eq _ hlow (lt_of_le_of_lt (WithTop.coe_le_coe.mpr hle) hb.lt_upper)
  constructor
  · refine ⟨le_trans hlo hlow, ?_, hle⟩
    unfold OnGrid
    rw [hstep]
    exact floorTo_mem _ x
  · intro y hy
    obtain ⟨-, hgrid, hyx⟩ := hy
    by_cases hylo : lo ≤ y
    · have hsame : g.step y = g.step x :=
        hb.step_eq y hylo (lt_of_le_of_lt (WithTop.coe_le_coe.mpr hyx) hb.lt_upper)
      unfold OnGrid at hgrid
      rw [hsame] at hgrid
      exact le_floorTo hb.step_pos hgrid hyx
    · exact le_trans (le_of_lt (not_le.mp hylo)) hlow

/-- **Rounding up is optimal.** It reaches the band's upper end at most, which is on the grid of
    the band that begins there. -/
theorem up_isLeast (h : g.Compatible) {x : K} (hx : 0 ≤ x) :
    IsLeast {y | g.OnGrid y ∧ x ≤ y} (g.up x) := by
  by_cases he : g.down x = x
  · unfold Bands.up
    rw [if_pos he]
    exact ⟨⟨(down_eq_iff h hx).mp he, le_refl x⟩, fun y hy => hy.2⟩
  · unfold Bands.up
    rw [if_neg he]
    obtain ⟨lo, up, hlo, hb⟩ := exists_inBand h hx
    have hlt : x < g.down x + g.step x := lt_floorTo_add hb.step_pos x
    have hmem : g.down x + g.step x ∈ AddSubgroup.zmultiples (g.step x) :=
      AddSubgroup.add_mem _ (floorTo_mem _ x) (AddSubgroup.mem_zmultiples _)
    constructor
    · refine ⟨?_, le_of_lt hlt⟩
      by_cases hin : ((g.down x + g.step x : K) : WithTop K) < up
      · unfold OnGrid
        rw [hb.step_eq _ (le_trans hb.lower_le (le_of_lt hlt)) hin]
        exact hmem
      · -- Not in the band any more: then it is the band's upper end.
        cases up with
        | top => exact absurd (WithTop.coe_lt_top _) hin
        | coe u =>
          obtain ⟨humem, hugrid⟩ := hb.upper_mem u rfl
          have hxu : x < u := WithTop.coe_lt_coe.mp hb.lt_upper
          have hle : g.down x + g.step x ≤ u := floorTo_add_le hb.step_pos humem hxu
          have hge : u ≤ g.down x + g.step x := not_lt.mp fun hc => hin (WithTop.coe_lt_coe.mpr hc)
          rwa [le_antisymm hle hge]
    · intro y hy
      obtain ⟨hgrid, hxy⟩ := hy
      have hne : x ≠ y := by
        intro hxy'
        subst hxy'
        exact he ((down_eq_iff h hx).mpr hgrid)
      have hxylt : x < y := lt_of_le_of_ne hxy hne
      by_cases hin : (y : WithTop K) < up
      · have hsame : g.step y = g.step x := hb.step_eq y (le_trans hb.lower_le hxy) hin
        unfold OnGrid at hgrid
        rw [hsame] at hgrid
        exact floorTo_add_le hb.step_pos hgrid hxylt
      · cases up with
        | top => exact absurd (WithTop.coe_lt_top _) hin
        | coe u =>
          have hxu : x < u := WithTop.coe_lt_coe.mp hb.lt_upper
          have huy : u ≤ y := not_lt.mp fun hc => hin (WithTop.coe_lt_coe.mpr hc)
          exact le_trans (floorTo_add_le hb.step_pos (hb.upper_mem u rfl).1 hxu) huy

/-! ## 4. What follows for the two roundings -/

theorem down_nonneg (h : g.Compatible) {x : K} (hx : 0 ≤ x) : 0 ≤ g.down x :=
  (down_isGreatest h hx).1.1

theorem down_idem (h : g.Compatible) {x : K} (hx : 0 ≤ x) : g.down (g.down x) = g.down x :=
  (down_eq_iff h (down_nonneg h hx)).mpr (down_isGreatest h hx).1.2.1

theorem up_eq_of_onGrid (h : g.Compatible) {x : K} (hx : 0 ≤ x) (hg : g.OnGrid x) :
    g.up x = x := if_pos ((down_eq_iff h hx).mpr hg)

theorem up_idem (h : g.Compatible) {x : K} (hx : 0 ≤ x) : g.up (g.up x) = g.up x :=
  up_eq_of_onGrid h (le_trans hx (up_isLeast h hx).1.2) (up_isLeast h hx).1.1

theorem down_mono (h : g.Compatible) {x y : K} (hx : 0 ≤ x) (hxy : x ≤ y) :
    g.down x ≤ g.down y := by
  obtain ⟨hnn, hgrid, hle⟩ := (down_isGreatest h hx).1
  exact (down_isGreatest h (le_trans hx hxy)).2 ⟨hnn, hgrid, le_trans hle hxy⟩

theorem up_mono (h : g.Compatible) {x y : K} (hx : 0 ≤ x) (hxy : x ≤ y) : g.up x ≤ g.up y := by
  obtain ⟨hgrid, hle⟩ := (up_isLeast h (le_trans hx hxy)).1
  exact (up_isLeast h hx).2 ⟨hgrid, le_trans hxy hle⟩

theorem down_eq_up_iff (h : g.Compatible) {x : K} (hx : 0 ≤ x) :
    g.down x = g.up x ↔ g.OnGrid x := by
  constructor
  · intro he
    refine (down_eq_iff h hx).mp (le_antisymm (down_isGreatest h hx).1.2.2 ?_)
    rw [he]
    exact (up_isLeast h hx).1.2
  · intro hg
    rw [up_eq_of_onGrid h hx hg]
    exact (down_eq_iff h hx).mpr hg

theorem up_eq_down_add (h : g.Compatible) {x : K} (hx : 0 ≤ x) (hg : ¬ g.OnGrid x) :
    g.up x = g.down x + g.step x := if_neg fun he => hg ((down_eq_iff h hx).mp he)

end Bands

end TossSleeve.Lib
