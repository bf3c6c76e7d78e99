import Mathlib.Data.List.Nodup
import Mathlib.Algebra.BigOperators.Group.Finset.Basic
import Mathlib.Algebra.Order.BigOperators.Group.Finset
import Mathlib.Algebra.BigOperators.Group.List.Basic
import Mathlib.Tactic.Abel

/-!
# `Lib/Table.lean` — keyed rows in insertion order

One container for the two things a store keeps its data in: a dictionary that remembers the
order in which its keys were first set, and a relational table with a primary key. Both are a
list of rows of which no two share a key; both overwrite a row *in place* and append a row whose
key is new. They differ only in what a conflicting write does with the old row, so `upsert`
takes that as an argument (`merge old new`): a dictionary throws the old row away, an
`INSERT … ON CONFLICT DO UPDATE` keeps the columns it does not name.

The uniqueness of keys is a **field** of `Table`, not a side condition of its lemmas: a table
with two rows for one key cannot be built, and `find?_delete`, `mem_rows_iff` and the sums below
spend the field instead of asking the caller for it.

Three groups of facts follow, and a proof about a store needs nothing else: what a lookup sees
after a write (`find?_upsert`, `find?_update`, `find?_delete`), what an additive total becomes
(`sum_upsert`, `sum_delete`), and how the raw list operations pass through `filter` and `map`
(§1), which is what relates two stores holding the same rows in two formats.
-/

set_option autoImplicit false

namespace TossSleeve.Lib

universe u v w x

/-! ## 1. Raw rows -/

section Rows

variable {ρ : Type u} {κ : Type v} [DecidableEq κ] (key : ρ → κ)

/-- The first row whose key is `k`. -/
def findRow (k : κ) : List ρ → Option ρ
  | [] => none
  | r :: rs => if key r = k then some r else findRow k rs

/-- Overwrite the first row with `r`'s key by `merge old r`, or append `r`. -/
def upsertRow (merge : ρ → ρ → ρ) (r : ρ) : List ρ → List ρ
  | [] => [r]
  | o :: os => if key o = key r then merge o r :: os else o :: upsertRow merge r os

variable {key}

theorem findRow_some {k : κ} {r : ρ} : ∀ {rs : List ρ}, findRow key k rs = some r →
    r ∈ rs ∧ key r = k
  | [], h => absurd h (by simp [findRow])
  | o :: os, h => by
    unfold findRow at h
    split at h
    · next ho =>
      cases h
      exact ⟨List.mem_cons_self, ho⟩
    · exact ⟨List.mem_cons_of_mem _ (findRow_some h).1, (findRow_some h).2⟩

theorem findRow_none {k : κ} : ∀ {rs : List ρ}, findRow key k rs = none →
    ∀ r ∈ rs, key r ≠ k
  | [], _, _, hr => absurd hr (by simp)
  | o :: os, h, r, hr => by
    unfold findRow at h
    split at h
    · exact absurd h (by simp)
    · next ho =>
      rcases List.mem_cons.mp hr with rfl | hr
      · exact ho
      · exact findRow_none h r hr

theorem findRow_eq_none {k : κ} {rs : List ρ} (h : ∀ r ∈ rs, key r ≠ k) :
    findRow key k rs = none := by
  cases hf : findRow key k rs with
  | none => rfl
  | some r => exact absurd (findRow_some hf).2 (h r (findRow_some hf).1)

theorem findRow_upsertRow {merge : ρ → ρ → ρ} {r : ρ}
    (hm : ∀ o, key o = key r → key (merge o r) = key r) (k : κ) : ∀ rs : List ρ,
    findRow key k (upsertRow key merge r rs) =
      if k = key r then some ((findRow key (key r) rs).elim r (merge · r)) else findRow key k rs
  | [] => by
    by_cases hk : k = key r <;> simp [upsertRow, findRow, hk, eq_comm]
  | o :: os => by
    rw [upsertRow]
    by_cases ho : key o = key r
    · by_cases hk : k = key r
      · simp [findRow, ho, hm o ho, hk]
      · have hk' : key r ≠ k := fun e => hk e.symm
        simp [findRow, ho, hm o ho, hk, hk']
    · rw [if_neg ho]
      by_cases hk : k = key r
      · subst hk
        simp [findRow, ho, findRow_upsertRow hm (key r) os]
      · simp [findRow, findRow_upsertRow hm k os, hk]

theorem map_key_upsertRow {merge : ρ → ρ → ρ} {r : ρ}
    (hm : ∀ o, key o = key r → key (merge o r) = key r) : ∀ rs : List ρ,
    (upsertRow key merge r rs).map key =
      if key r ∈ rs.map key then rs.map key else rs.map key ++ [key r]
  | [] => by simp [upsertRow]
  | o :: os => by
    rw [upsertRow]
    by_cases ho : key o = key r
    · simp [ho, hm o ho]
    · have ho' : key r ≠ key o := fun e => ho e.symm
      rw [if_neg ho, List.map_cons, map_key_upsertRow hm os]
      by_cases hmem : key r ∈ os.map key <;> simp [hmem, ho']

theorem nodup_upsertRow {merge : ρ → ρ → ρ} {r : ρ}
    (hm : ∀ o, key o = key r → key (merge o r) = key r) {rs : List ρ}
    (hn : (rs.map key).Nodup) : ((upsertRow key merge r rs).map key).Nodup := by
  rw [map_key_upsertRow hm]
  by_cases h : key r ∈ rs.map key
  · rwa [if_pos h]
  · rw [if_neg h]
    exact List.Nodup.append hn (List.nodup_singleton _)
      (by simpa [List.disjoint_singleton] using h)

/-- A filter that looks at nothing the write changes commutes with it — the write disappears when
    the filter drops the written key. -/
theorem filter_upsertRow {merge : ρ → ρ → ρ} {r : ρ} {p : ρ → Bool}
    (hp : ∀ o, key o = key r → p o = p r ∧ p (merge o r) = p r) : ∀ rs : List ρ,
    (upsertRow key merge r rs).filter p =
      if p r then upsertRow key merge r (rs.filter p) else rs.filter p
  | [] => by cases h : p r <;> simp [upsertRow, h]
  | o :: os => by
    rw [upsertRow]
    by_cases ho : key o = key r
    · obtain ⟨h₁, h₂⟩ := hp o ho
      cases h : p r
      · simp [ho, h₁, h₂, h]
      · simp [ho, h₁, h₂, h, upsertRow]
    · rw [if_neg ho, List.filter_cons, List.filter_cons, filter_upsertRow hp os]
      cases h : p r <;> cases h' : p o <;> simp [upsertRow, ho]

theorem findRow_map {ρ' : Type w} {κ' : Type x} [DecidableEq κ'] {key' : ρ' → κ'} {g : ρ → ρ'}
    {k : κ} {k' : κ'} : ∀ {rs : List ρ}, (∀ o ∈ rs, key o = k ↔ key' (g o) = k') →
    findRow key' k' (rs.map g) = (findRow key k rs).map g
  | [], _ => rfl
  | o :: os, h => by
    have ih : findRow key' k' (os.map g) = (findRow key k os).map g :=
      findRow_map (fun x hx => h x (List.mem_cons_of_mem _ hx))
    by_cases ho : key o = k
    · simp [findRow, ho, (h o List.mem_cons_self).mp ho]
    · have ho' : key' (g o) ≠ k' := fun e => ho ((h o List.mem_cons_self).mpr e)
      simp [findRow, ho, ho', ih]

theorem findRow_filter {p : ρ → Bool} {k : κ} : ∀ {rs : List ρ},
    (∀ o ∈ rs, key o = k → p o = true) → findRow key k (rs.filter p) = findRow key k rs
  | [], _ => rfl
  | o :: os, h => by
    have ih : findRow key k (os.filter p) = findRow key k os :=
      findRow_filter (fun x hx => h x (List.mem_cons_of_mem _ hx))
    by_cases ho : key o = k
    · simp [findRow, ho, h o List.mem_cons_self ho]
    · cases hp : p o <;> simp [findRow, hp, ho, ih]

/-- The rows under a key: the one that is found, if any. -/
theorem filter_key {k : κ} : ∀ {rs : List ρ}, (rs.map key).Nodup →
    rs.filter (fun r => decide (key r = k)) = (findRow key k rs).toList
  | [], _ => rfl
  | r :: rs, hn => by
    obtain ⟨hr, hrs⟩ := List.nodup_cons.mp hn
    have ih := filter_key (k := k) hrs
    by_cases hk : key r = k
    · have hnone : findRow key k rs = none :=
        findRow_eq_none fun s hs hsk => hr (hk ▸ hsk ▸ List.mem_map_of_mem hs)
      rw [hnone] at ih
      simp [findRow, hk, ih]
    · simpa [findRow, hk] using ih

/-- What a write does to an additive total: the old row's weight goes, the new one's comes. -/
theorem sum_upsertRow {M : Type w} [AddCommGroup M] (wt : ρ → M) {merge : ρ → ρ → ρ} {r : ρ} :
    ∀ rs : List ρ, ((upsertRow key merge r rs).map wt).sum =
      (rs.map wt).sum - (findRow key (key r) rs).elim 0 wt
        + (findRow key (key r) rs).elim (wt r) (fun o => wt (merge o r))
  | [] => by simp [upsertRow, findRow]
  | o :: os => by
    rw [upsertRow]
    by_cases ho : key o = key r
    · simp only [if_pos ho, List.map_cons, List.sum_cons, findRow, Option.elim_some]
      abel
    · simp only [if_neg ho, List.map_cons, List.sum_cons, findRow, sum_upsertRow wt os]
      abel

/-- A sum over a selection is a sum over everything in which the rest weighs nothing. -/
theorem sum_filter_map {M : Type w} [AddMonoid M] (wt : ρ → M) (p : ρ → Bool) : ∀ rs : List ρ,
    ((rs.filter p).map wt).sum = (rs.map fun r => if p r then wt r else 0).sum
  | [] => rfl
  | r :: rs => by cases h : p r <;> simp [h, sum_filter_map wt p rs]

end Rows

/-! ## 2. The table -/

/-- Rows in insertion order, at most one for each key. -/
structure Table (ρ : Type u) (κ : Type v) (key : ρ → κ) where
  rows : List ρ
  keys_nodup : (rows.map key).Nodup

namespace Table

variable {ρ : Type u} {κ : Type v} {key : ρ → κ}

@[ext] theorem ext {s t : Table ρ κ key} (h : s.rows = t.rows) : s = t := by
  cases s; cases t; cases h; rfl

def empty : Table ρ κ key := ⟨[], List.nodup_nil⟩

instance : EmptyCollection (Table ρ κ key) := ⟨empty⟩

@[simp] theorem rows_empty : (∅ : Table ρ κ key).rows = [] := rfl

/-- Drop every row satisfying `p`. -/
def delete (t : Table ρ κ key) (p : ρ → Bool) : Table ρ κ key :=
  ⟨t.rows.filter (fun r => !p r), t.keys_nodup.sublist (List.filter_sublist.map key)⟩

/-- Rewrite every row satisfying `p` by a function that leaves its key alone. -/
def update (t : Table ρ κ key) (p : ρ → Bool) (f : ρ → ρ) (hf : ∀ r, key (f r) = key r) :
    Table ρ κ key :=
  ⟨t.rows.map (fun r => if p r then f r else r), by
    have hk : key ∘ (fun r => if p r then f r else r) = key := by
      funext r
      by_cases h : p r <;> simp [h, hf]
    rw [List.map_map, hk]
    exact t.keys_nodup⟩

variable [DecidableEq κ]

def find? (t : Table ρ κ key) (k : κ) : Option ρ := findRow key k t.rows

/-- Write `r`: over the row with its key (keeping what `merge` keeps), or at the end. -/
def upsert (t : Table ρ κ key) (merge : ρ → ρ → ρ) (r : ρ)
    (hm : ∀ o, key o = key r → key (merge o r) = key r) : Table ρ κ key :=
  ⟨upsertRow key merge r t.rows, nodup_upsertRow hm t.keys_nodup⟩

@[simp] theorem find?_empty (k : κ) : (∅ : Table ρ κ key).find? k = none := rfl

theorem find?_some {t : Table ρ κ key} {k : κ} {r : ρ} (h : t.find? k = some r) :
    r ∈ t.rows ∧ key r = k := findRow_some h

theorem key_of_find? {t : Table ρ κ key} {k : κ} {r : ρ} (h : t.find? k = some r) :
    key r = k := (find?_some h).2

omit [DecidableEq κ] in
theorem eq_of_key_eq {t : Table ρ κ key} {r s : ρ} (hr : r ∈ t.rows) (hs : s ∈ t.rows)
    (h : key r = key s) : r = s :=
  List.inj_on_of_nodup_map t.keys_nodup hr hs h

/-- A row is in the table exactly when its key looks it up. -/
theorem mem_rows_iff {t : Table ρ κ key} {r : ρ} : r ∈ t.rows ↔ t.find? (key r) = some r := by
  constructor
  · intro hr
    cases hf : t.find? (key r) with
    | none => exact absurd rfl (findRow_none hf r hr)
    | some s => rw [eq_of_key_eq (find?_some hf).1 hr (find?_some hf).2]
  · exact fun h => (find?_some h).1

theorem find?_eq_some_iff {t : Table ρ κ key} {k : κ} {r : ρ} :
    t.find? k = some r ↔ r ∈ t.rows ∧ key r = k :=
  ⟨find?_some, fun ⟨hr, hk⟩ => hk ▸ mem_rows_iff.mp hr⟩

theorem find?_upsert (t : Table ρ κ key) (merge : ρ → ρ → ρ) (r : ρ)
    (hm : ∀ o, key o = key r → key (merge o r) = key r) (k : κ) :
    (t.upsert merge r hm).find? k =
      if k = key r then some ((t.find? (key r)).elim r (merge · r)) else t.find? k :=
  findRow_upsertRow hm k t.rows

theorem find?_update (t : Table ρ κ key) (p : ρ → Bool) (f : ρ → ρ)
    (hf : ∀ r, key (f r) = key r) (k : κ) :
    (t.update p f hf).find? k = (t.find? k).map (fun r => if p r then f r else r) := by
  have hkey : ∀ r ∈ t.rows, key r = k ↔ key (if p r then f r else r) = k := by
    intro r _
    by_cases h : p r <;> simp [h, hf]
  exact findRow_map hkey

/-- With one row to a key, deleting before looking up is filtering the answer. -/
theorem find?_delete (t : Table ρ κ key) (p : ρ → Bool) (k : κ) :
    (t.delete p).find? k = (t.find? k).filter (fun r => !p r) := by
  cases hf : t.find? k with
  | none =>
    exact findRow_eq_none fun r hr => findRow_none hf r (List.mem_of_mem_filter hr)
  | some r =>
    obtain ⟨hr, hk⟩ := find?_some hf
    cases hp : p r
    · have : r ∈ (t.delete p).rows := List.mem_filter.mpr ⟨hr, by simp [hp]⟩
      rw [find?_eq_some_iff.mpr ⟨this, hk⟩]
      simp [Option.filter, hp]
    · have hd : (t.delete p).find? k = none := findRow_eq_none fun s hs hsk => by
        obtain ⟨hs, hps⟩ := List.mem_filter.mp hs
        rw [eq_of_key_eq hs hr (hsk.trans hk.symm), hp] at hps
        exact absurd hps (by simp)
      rw [hd]
      simp [Option.filter, hp]

/-- Rewriting the row of one key. -/
theorem find?_update_key (t : Table ρ κ key) (k₀ : κ) {f : ρ → ρ} (hf : ∀ r, key (f r) = key r)
    (k : κ) : (t.update (fun r => decide (key r = k₀)) f hf).find? k =
      if k = k₀ then (t.find? k).map f else t.find? k := by
  rw [find?_update]
  cases hr : t.find? k with
  | none => simp
  | some r =>
    have hkey := key_of_find? hr
    by_cases hk : k = k₀ <;> simp [hkey, hk]

/-- Deleting the row of one key. -/
theorem find?_delete_key (t : Table ρ κ key) (k₀ k : κ) :
    (t.delete (fun r => decide (key r = k₀))).find? k = if k = k₀ then none else t.find? k := by
  rw [find?_delete]
  cases hr : t.find? k with
  | none => simp
  | some r =>
    have hkey := key_of_find? hr
    by_cases hk : k = k₀ <;> simp [hkey, hk, Option.filter]

/-- Only the rows satisfying `p`. -/
def keep (t : Table ρ κ key) (p : ρ → Bool) : Table ρ κ key :=
  ⟨t.rows.filter p, t.keys_nodup.sublist (List.filter_sublist.map key)⟩

/-- A lookup sees no difference when the rows of its key are kept. -/
theorem find?_keep {t : Table ρ κ key} {p : ρ → Bool} {k : κ}
    (h : ∀ r ∈ t.rows, key r = k → p r = true) : (t.keep p).find? k = t.find? k :=
  findRow_filter h

theorem keep_upsert {t : Table ρ κ key} {p : ρ → Bool} {merge : ρ → ρ → ρ} {r : ρ}
    (hm : ∀ o, key o = key r → key (merge o r) = key r)
    (hp : ∀ o, key o = key r → p o = p r ∧ p (merge o r) = p r) :
    (t.upsert merge r hm).keep p = if p r then (t.keep p).upsert merge r hm else t.keep p := by
  refine ext ?_
  show (upsertRow key merge r t.rows).filter p = _
  rw [filter_upsertRow hp]
  cases p r <;> rfl

omit [DecidableEq κ] in
theorem keep_delete (t : Table ρ κ key) (p q : ρ → Bool) :
    (t.delete q).keep p = (t.keep p).delete q :=
  ext (List.filter_comm _ _ t.rows)

omit [DecidableEq κ] in
/-- Deleting among the rows not kept. -/
theorem keep_delete_of_not {t : Table ρ κ key} {p q : ρ → Bool}
    (h : ∀ r, q r = true → p r = false) : (t.delete q).keep p = t.keep p := by
  refine ext ?_
  show (t.rows.filter (fun r => !q r)).filter p = t.rows.filter p
  rw [List.filter_filter]
  refine List.filter_congr fun r _ => ?_
  cases hq : q r
  · simp
  · simp [h r hq]

omit [DecidableEq κ] in
theorem keep_update {t : Table ρ κ key} {p q : ρ → Bool} {f : ρ → ρ}
    (hf : ∀ r, key (f r) = key r) (hp : ∀ r, p (f r) = p r) :
    (t.update q f hf).keep p = (t.keep p).update q f hf := by
  refine ext ?_
  show (t.rows.map (fun r => if q r then f r else r)).filter p =
    (t.rows.filter p).map (fun r => if q r then f r else r)
  rw [List.filter_map]
  have hcomp : p ∘ (fun r => if q r then f r else r) = p := by
    funext r
    cases hq : q r <;> simp [hq, hp]
  rw [hcomp]

omit [DecidableEq κ] in
/-- Updating among the rows not kept. -/
theorem keep_update_of_not {t : Table ρ κ key} {p q : ρ → Bool} {f : ρ → ρ}
    (hf : ∀ r, key (f r) = key r) (hp : ∀ r, p (f r) = p r)
    (h : ∀ r, q r = true → p r = false) : (t.update q f hf).keep p = t.keep p := by
  rw [keep_update hf hp]
  refine ext ?_
  show (t.rows.filter p).map (fun r => if q r then f r else r) = t.rows.filter p
  rw [List.map_congr_left (g := id), List.map_id]
  intro r hr
  cases hq : q r
  · simp
  · exact absurd (List.mem_filter.mp hr).2 (by simp [h r hq])

/-! ## 3. Additive totals -/

section Sum

variable {M : Type w} [AddCommGroup M]

/-- The total weight of a table's rows. -/
def sum (t : Table ρ κ key) (wt : ρ → M) : M := (t.rows.map wt).sum

omit [DecidableEq κ] in
@[simp] theorem sum_empty (wt : ρ → M) : (∅ : Table ρ κ key).sum wt = 0 := rfl

omit [DecidableEq κ] in
theorem sum_congr {t : Table ρ κ key} {wt wt' : ρ → M} (h : ∀ r ∈ t.rows, wt r = wt' r) :
    t.sum wt = t.sum wt' := by
  unfold sum
  rw [List.map_congr_left h]

omit [DecidableEq κ] in
theorem sum_add (t : Table ρ κ key) (wt wt' : ρ → M) :
    t.sum (fun r => wt r + wt' r) = t.sum wt + t.sum wt' := List.sum_map_add

theorem sum_upsert (t : Table ρ κ key) (wt : ρ → M) (merge : ρ → ρ → ρ) (r : ρ)
    (hm : ∀ o, key o = key r → key (merge o r) = key r) :
    (t.upsert merge r hm).sum wt = t.sum wt - (t.find? (key r)).elim 0 wt
      + (t.find? (key r)).elim (wt r) (fun o => wt (merge o r)) :=
  sum_upsertRow wt t.rows

omit [DecidableEq κ] in
theorem sum_delete (t : Table ρ κ key) (wt : ρ → M) (p : ρ → Bool) :
    (t.delete p).sum wt = t.sum (fun r => if p r then 0 else wt r) := by
  obtain ⟨rs, hn⟩ := t
  simp only [sum, delete]
  clear hn
  induction rs with
  | nil => rfl
  | cons r rs ih => cases h : p r <;> simp [h, ih]

/-- A total of which one row's weight is taken out. -/
theorem sum_except (t : Table ρ κ key) (wt : ρ → M) (k : κ) :
    t.sum (fun r => if key r = k then 0 else wt r) = t.sum wt - (t.find? k).elim 0 wt := by
  obtain ⟨rs, hn⟩ := t
  simp only [sum, find?]
  induction rs with
  | nil => simp [findRow]
  | cons r rs ih =>
    obtain ⟨hr, hn⟩ := List.nodup_cons.mp hn
    have hrs := ih hn
    by_cases h : key r = k
    · have hnone : findRow key k rs = none :=
        findRow_eq_none fun s hs hsk => hr (h ▸ hsk ▸ List.mem_map_of_mem hs)
      rw [hnone] at hrs
      simp only [List.map_cons, List.sum_cons, if_pos h, findRow, hrs, Option.elim_none,
        Option.elim_some]
      abel
    · simp only [List.map_cons, List.sum_cons, if_neg h, findRow, hrs]
      abel

end Sum

end Table

/-! ## 4. Dictionaries

A table of pairs in which a write forgets the old value. -/

/-- An insertion-ordered dictionary. -/
abbrev Dict (κ : Type u) (α : Type v) := Table (κ × α) κ Prod.fst

namespace Dict

variable {κ : Type u} {α : Type v} [DecidableEq κ]

def get? (d : Dict κ α) (k : κ) : Option α := (d.find? k).map Prod.snd

/-- `d[k] = v`. -/
def set (d : Dict κ α) (k : κ) (v : α) : Dict κ α :=
  d.upsert (fun _ e => e) (k, v) (fun _ _ => rfl)

/-- `d.pop(k, None)`. -/
def erase (d : Dict κ α) (k : κ) : Dict κ α := d.delete (fun e => decide (e.1 = k))

@[simp] theorem get?_empty (k : κ) : (∅ : Dict κ α).get? k = none := rfl

theorem find?_eq (d : Dict κ α) (k : κ) : d.find? k = (d.get? k).map (fun v => (k, v)) := by
  unfold get?
  cases h : d.find? k with
  | none => rfl
  | some e =>
    obtain ⟨k', v⟩ := e
    have : k' = k := Table.key_of_find? h
    simp [this]

@[simp] theorem get?_set (d : Dict κ α) (k : κ) (v : α) (k' : κ) :
    (d.set k v).get? k' = if k' = k then some v else d.get? k' := by
  unfold get? set
  rw [Table.find?_upsert]
  by_cases h : k' = k
  · cases d.find? k <;> simp [h]
  · simp [h]

@[simp] theorem get?_erase (d : Dict κ α) (k k' : κ) :
    (d.erase k).get? k' = if k' = k then none else d.get? k' := by
  unfold get? erase
  rw [Table.find?_delete_key]
  by_cases hk : k' = k <;> simp [hk]

theorem mem_rows_iff {d : Dict κ α} {k : κ} {v : α} : (k, v) ∈ d.rows ↔ d.get? k = some v := by
  rw [Table.mem_rows_iff]
  show d.find? k = some (k, v) ↔ d.get? k = some v
  rw [find?_eq]
  cases d.get? k <;> simp

section Sum

variable {M : Type w} [AddCommGroup M]

theorem sum_set (d : Dict κ α) (wt : κ × α → M) (k : κ) (v : α) :
    (d.set k v).sum wt = d.sum wt - (d.get? k).elim 0 (fun o => wt (k, o)) + wt (k, v) := by
  unfold set
  rw [Table.sum_upsert]
  show d.sum wt - (d.find? k).elim 0 wt + (d.find? k).elim (wt (k, v)) (fun _ => wt (k, v)) = _
  rw [find?_eq]
  cases d.get? k <;> rfl

theorem sum_erase (d : Dict κ α) (wt : κ × α → M) (k : κ) :
    (d.erase k).sum wt = d.sum wt - (d.get? k).elim 0 (fun o => wt (k, o)) := by
  unfold erase
  rw [Table.sum_delete]
  simp only [decide_eq_true_eq]
  rw [Table.sum_except, find?_eq]
  cases d.get? k <;> rfl

/-- What the entry of `k`, if there is one, weighs. -/
def weightAt (d : Dict κ α) (wt : κ × α → M) (k : κ) : M :=
  (d.get? k).elim 0 (fun v => wt (k, v))

/-- The total over any set of keys that has them all. -/
theorem sum_eq_weightAt {d : Dict κ α} (wt : κ × α → M) {ks : Finset κ}
    (hks : ∀ e ∈ d.rows, e.1 ∈ ks) : d.sum wt = ∑ k ∈ ks, d.weightAt wt k := by
  have hsub : (d.rows.map Prod.fst).toFinset ⊆ ks := by
    intro k hk
    obtain ⟨e, he, rfl⟩ := List.mem_map.mp (List.mem_toFinset.mp hk)
    exact hks e he
  rw [← Finset.sum_subset hsub, List.sum_toFinset _ d.keys_nodup, List.map_map]
  · unfold Table.sum
    congr 1
    refine List.map_congr_left fun e he => ?_
    have hget : d.get? e.1 = some e.2 := mem_rows_iff.mp he
    simp [weightAt, hget]
  · intro k _ hk
    have hnone : d.get? k = none := by
      cases hg : d.get? k with
      | none => rfl
      | some v =>
        have hmem : k ∈ d.rows.map Prod.fst := List.mem_map_of_mem (mem_rows_iff.mpr hg)
        exact absurd (List.mem_toFinset.mpr hmem) hk
    simp [weightAt, hnone]

/-- Some of the entries weigh no more than all of them. -/
theorem sum_weightAt_le [PartialOrder M] [IsOrderedAddMonoid M] {d : Dict κ α} {wt : κ × α → M}
    (hwt : ∀ e ∈ d.rows, 0 ≤ wt e) {ks : List κ} (hks : ks.Nodup) :
    (ks.map (d.weightAt wt)).sum ≤ d.sum wt := by
  have hall : ∀ e ∈ d.rows, e.1 ∈ ks.toFinset ∪ (d.rows.map Prod.fst).toFinset := fun e he =>
    Finset.mem_union_right _ (List.mem_toFinset.mpr (List.mem_map_of_mem he))
  rw [sum_eq_weightAt wt hall, ← List.sum_toFinset _ hks]
  refine Finset.sum_le_sum_of_subset_of_nonneg Finset.subset_union_left fun k _ _ => ?_
  unfold weightAt
  cases hget : d.get? k with
  | none => exact le_refl _
  | some v => exact hwt (k, v) (mem_rows_iff.mpr hget)

/-- Two dictionaries whose entries weigh the same, key by key, have the same total. -/
theorem sum_congr_weightAt {d d' : Dict κ α} {wt wt' : κ × α → M}
    (h : ∀ k, d.weightAt wt k = d'.weightAt wt' k) : d.sum wt = d'.sum wt' := by
  have hks : ∀ e ∈ d.rows, e.1 ∈ ((d.rows ++ d'.rows).map Prod.fst).toFinset := fun e he =>
    List.mem_toFinset.mpr (List.mem_map_of_mem (List.mem_append_left _ he))
  have hks' : ∀ e ∈ d'.rows, e.1 ∈ ((d.rows ++ d'.rows).map Prod.fst).toFinset := fun e he =>
    List.mem_toFinset.mpr (List.mem_map_of_mem (List.mem_append_right _ he))
  rw [sum_eq_weightAt wt hks, sum_eq_weightAt wt' hks']
  exact Finset.sum_congr rfl fun k _ => h k

/-- If only the entry of `k` changed its weight, the totals differ by that change. -/
theorem sum_change {d d' : Dict κ α} {wt wt' : κ × α → M} (k : κ)
    (h : ∀ k' ≠ k, d.weightAt wt k' = d'.weightAt wt' k') :
    d'.sum wt' = d.sum wt - d.weightAt wt k + d'.weightAt wt' k := by
  have hexcept : ∀ (d : Dict κ α) (wt : κ × α → M),
      d.sum (fun e => if e.1 = k then 0 else wt e) = d.sum wt - d.weightAt wt k := by
    intro d wt
    rw [Table.sum_except, find?_eq, weightAt]
    cases d.get? k <;> rfl
  have heq : d.sum (fun e => if e.1 = k then 0 else wt e) =
      d'.sum (fun e => if e.1 = k then 0 else wt' e) := by
    refine sum_congr_weightAt fun k' => ?_
    by_cases hk : k' = k
    · subst hk
      cases hd : d.get? k' <;> cases hd' : d'.get? k' <;> simp [weightAt, hd, hd']
    · simpa [weightAt, hk] using h k' hk
  rw [← hexcept d wt, heq, hexcept d' wt']
  abel

end Sum

/-- Dictionaries with the same lookups hold the same entries, in some order. -/
theorem perm_of_get?_eq {d d' : Dict κ α} (h : ∀ k, d.get? k = d'.get? k) :
    d.rows.Perm d'.rows := by
  refine (List.perm_ext_iff_of_nodup (List.Nodup.of_map _ d.keys_nodup)
    (List.Nodup.of_map _ d'.keys_nodup)).mpr fun e => ?_
  obtain ⟨k, v⟩ := e
  rw [mem_rows_iff, mem_rows_iff, h]

/-- `{k: g(v) for k, v in d.items()}`. -/
def mapVal {β : Type w} (d : Dict κ α) (g : α → β) : Dict κ β :=
  ⟨d.rows.map (fun e => (e.1, g e.2)), by
    rw [List.map_map]
    exact d.keys_nodup⟩

theorem get?_mapVal {β : Type w} (d : Dict κ α) (g : α → β) (k : κ) :
    (d.mapVal g).get? k = (d.get? k).map g := by
  have hfind : findRow Prod.fst k (d.rows.map fun e => (e.1, g e.2)) =
      (findRow Prod.fst k d.rows).map fun e => (e.1, g e.2) := findRow_map fun _ _ => Iff.rfl
  show (findRow Prod.fst k (d.rows.map fun e => (e.1, g e.2))).map Prod.snd =
    ((findRow Prod.fst k d.rows).map Prod.snd).map g
  rw [hfind]
  cases findRow Prod.fst k d.rows <;> rfl

end Dict

/-! ## 5. Slices

A table whose key has two parts is, for each value of the first, a table of its own (`part`) and a
dictionary from the second (`slice`). -/

namespace Table

section Slice

variable {ρ : Type u} {ι : Type v} {κ : Type w} {α : Type u} {key : ρ → ι × κ}
  [DecidableEq ι] [DecidableEq κ]

/-- The rows of `x`. -/
def part (t : Table ρ (ι × κ) key) (x : ι) : Table ρ (ι × κ) key :=
  t.keep (fun r => decide ((key r).1 = x))

theorem find?_part (t : Table ρ (ι × κ) key) (x : ι) (k : κ) :
    (t.part x).find? (x, k) = t.find? (x, k) :=
  find?_keep fun r _ hr => by simp [hr]

/-- What is looked up among the rows of `x` is in them. -/
theorem find?_of_part {t t' : Table ρ (ι × κ) key} {x : ι} (h : t.part x = t'.part x) (k : κ) :
    t.find? (x, k) = t'.find? (x, k) := by
  rw [← find?_part t, h, find?_part]

omit [DecidableEq κ] in
/-- A selection among the rows of `x` sees only them. -/
theorem filter_part (t : Table ρ (ι × κ) key) {x : ι} {p : ρ → Bool}
    (h : ∀ r, p r = true → (key r).1 = x) : (t.part x).rows.filter p = t.rows.filter p := by
  show (t.rows.filter (fun r => decide ((key r).1 = x))).filter p = t.rows.filter p
  rw [List.filter_filter]
  refine List.filter_congr fun r _ => ?_
  cases hp : p r
  · rfl
  · simp [h r hp]

/-- A write to the rows of `x`: on them it does the same with and without the other rows, and the
    parts of all others it leaves as they are. -/
structure WithinPart (x : ι) (f : Table ρ (ι × κ) key → Table ρ (ι × κ) key) : Prop where
  own : ∀ t, f (t.part x) = (f t).part x
  others : ∀ y, y ≠ x → ∀ t, (f t).part y = t.part y

theorem withinPart_upsert {merge : ρ → ρ → ρ} {r : ρ}
    (hm : ∀ o, key o = key r → key (merge o r) = key r) {x : ι} (hr : (key r).1 = x) :
    WithinPart x (fun t => t.upsert merge r hm) := by
  have hsame : ∀ y o, key o = key r → (decide ((key o).1 = y) = decide ((key r).1 = y) ∧
      decide ((key (merge o r)).1 = y) = decide ((key r).1 = y)) := by
    intro y o ho
    rw [ho, hm o ho]
    exact ⟨rfl, rfl⟩
  refine ⟨fun t => ?_, fun y hy t => ?_⟩
  · exact ((keep_upsert hm (hsame x)).trans (if_pos (decide_eq_true hr))).symm
  · refine (keep_upsert hm (hsame y)).trans (if_neg ?_)
    simpa [hr] using fun e : x = y => hy e.symm

theorem withinPart_update {f : ρ → ρ} (hf : ∀ r, key (f r) = key r) (x : ι) (k : κ) :
    WithinPart x (fun t => t.update (fun r => decide (key r = (x, k))) f hf) := by
  have hkeep : ∀ y r, decide ((key (f r)).1 = y) = decide ((key r).1 = y) := fun y r => by rw [hf]
  refine ⟨fun t => (keep_update hf (hkeep x)).symm, fun y hy t => ?_⟩
  refine keep_update_of_not hf (hkeep y) fun r hr => ?_
  simpa [of_decide_eq_true hr] using fun e : x = y => hy e.symm

theorem withinPart_delete (x : ι) (k : κ) :
    WithinPart x (fun t : Table ρ (ι × κ) key => t.delete (fun r => decide (key r = (x, k)))) := by
  refine ⟨fun t => (keep_delete t _ _).symm, fun y hy t => ?_⟩
  refine keep_delete_of_not fun r hr => ?_
  simpa [of_decide_eq_true hr] using fun e : x = y => hy e.symm

/-- The rows of `x`, as a dictionary from the rest of the key to what `val` reads off a row. -/
def slice (t : Table ρ (ι × κ) key) (val : ρ → α) (x : ι) : Dict κ α :=
  ⟨(t.rows.filter (fun r => (key r).1 = x)).map (fun r => ((key r).2, val r)), by
    rw [List.map_map]
    refine List.Nodup.of_map (fun k => (x, k)) ?_
    rw [List.map_map]
    have hkey : ∀ r ∈ t.rows.filter (fun r => (key r).1 = x),
        ((fun k => (x, k)) ∘ Prod.fst ∘ fun r => ((key r).2, val r)) r = key r := by
      intro r hr
      have hx := of_decide_eq_true (List.mem_filter.mp hr).2
      exact Prod.ext hx.symm rfl
    rw [List.map_congr_left hkey]
    exact t.keys_nodup.sublist (List.filter_sublist.map key)⟩

theorem get?_slice (t : Table ρ (ι × κ) key) (val : ρ → α) (x : ι) (k : κ) :
    (t.slice val x).get? k = (t.find? (x, k)).map val := by
  have hfilter : findRow key (x, k) (t.rows.filter (fun r => (key r).1 = x)) = t.find? (x, k) :=
    findRow_filter fun r _ hr => by simp [hr]
  have hfind : findRow Prod.fst k ((t.rows.filter (fun r => (key r).1 = x)).map
      fun r => ((key r).2, val r)) =
      (findRow key (x, k) (t.rows.filter (fun r => (key r).1 = x))).map
        fun r => ((key r).2, val r) := by
    refine findRow_map fun r hr => ?_
    have hx := of_decide_eq_true (List.mem_filter.mp hr).2
    exact ⟨fun h => by rw [h], fun h => Prod.ext hx h⟩
  show (findRow Prod.fst k ((t.rows.filter (fun r => (key r).1 = x)).map
      fun r => ((key r).2, val r))).map Prod.snd = (t.find? (x, k)).map val
  rw [hfind, hfilter, Option.map_map]
  rfl

omit [DecidableEq κ] in
/-- A total over the slice is a total over the table in which other rows weigh nothing. -/
theorem sum_slice {M : Type*} [AddCommGroup M] (t : Table ρ (ι × κ) key) (val : ρ → α) (x : ι)
    (wt : κ × α → M) : (t.slice val x).sum wt =
      (t.rows.map fun r => if (key r).1 = x then wt ((key r).2, val r) else 0).sum := by
  show (((t.rows.filter (fun r => (key r).1 = x)).map (fun r => ((key r).2, val r))).map wt).sum = _
  rw [List.map_map, sum_filter_map]
  simp only [decide_eq_true_eq, Function.comp_apply]

end Slice

end Table

end TossSleeve.Lib
