import TossSleeve.Proof.Cash

/-!
# `Proof/Settlement.lean` — which snapshot the unsettled proceeds follow

`available` keeps out the proceeds of a SELL until they settle. When that is, is a field of the
snapshot, and Toss may report it late: an execution is first seen without a settlement date. What
should be kept out is what the *last accepted* snapshot of each order says.

What is kept out is what the *stored* one says, and a snapshot that repeats quantity, price and fees
is accepted without being stored — dates are not among the fields `_fill_progress` compares. The
correction of a date alone is lost.

`SameProceeds` is what a repetition has to satisfy, and `pending_follows_iff` says that it is the
only thing that can go wrong: after every operation of a run the proceeds kept out are those of the
last accepted snapshots, if and only if every repetition keeps out what the stored snapshot does.
-/

set_option autoImplicit false

namespace TossSleeve
namespace Proof

open Lib InMemorySleeveLedger

/-! ## 1. Repetitions -/

/-- The two snapshots keep the same proceeds out of `available`, whatever the day. -/
def SameProceeds (f p : Fill) : Prop := ∀ today c, pendingOf today c f = pendingOf today c p

/-- If the operation is a snapshot that repeats the stored one, they keep the same proceeds out. -/
def RepeatsProceeds (l : InMemorySleeveLedger) (op : LedgerOp) : Prop :=
  ∀ f p, op = .applyFill f → l.snapshots.get? f.orderId = some p →
    fillProgress (some p) f = .noop → SameProceeds f p

/-- A date is known by the days that are before it. -/
theorem date_eq_of_later {d d' : String}
    (h : ∀ today, (d ≠ "" ∧ d > today) ↔ (d' ≠ "" ∧ d' > today)) : d = d' := by
  have hle : ∀ {d d' : String}, (∀ today, (d ≠ "" ∧ d > today) → (d' ≠ "" ∧ d' > today)) →
      ¬ d' < d := by
    intro d d' h hlt
    have hne : d ≠ "" := fun he => not_later_empty d' (he ▸ hlt)
    exact lt_irrefl d' (h d' ⟨hne, hlt⟩).2
  exact le_antisymm (not_lt.mp (hle fun today => (h today).mp))
    (not_lt.mp (hle fun today => (h today).mpr))

/-- **For the snapshots of one order it is the settlement date that a repetition has to repeat** —
    of a SELL, if it has proceeds. -/
theorem sameProceeds_iff {f p : Fill} (horder : f.SameOrder p)
    (hrepeat : fillProgress (some p) f = .noop) :
    SameProceeds f p ↔ (f.side = .SELL → netProceeds f ≠ 0 → f.settlementDate = p.settlementDate) := by
  obtain ⟨p', hp', hq, hc, ht, ha⟩ := fillProgress_noop hrepeat
  obtain rfl := Option.some.inj hp'
  have hnet : netProceeds f = netProceeds p := by
    simp only [netProceeds, Fill.costBasis, hq, hc, ht, ha]
  have hpending : ∀ today c (g : Fill), g.side = f.side → g.currency = f.currency →
      pendingOf today c g = if f.side = .SELL ∧ f.currency = c ∧
        (g.settlementDate ≠ "" ∧ g.settlementDate > today) then netProceeds g else 0 := by
    intro today c g hs hcur
    simp only [pendingOf, unsettled, hs, hcur, decide_eq_true_eq]
  constructor
  · intro hsame hside hne
    refine date_eq_of_later fun today => ?_
    have h := hsame today f.currency
    rw [hpending today _ f rfl rfl, hpending today _ p horder.2.1.symm horder.2.2.symm, ← hnet] at h
    by_cases hf : f.settlementDate ≠ "" ∧ f.settlementDate > today
    · rw [if_pos ⟨hside, rfl, hf⟩] at h
      refine ⟨fun _ => ?_, fun _ => hf⟩
      by_contra hp
      rw [if_neg fun hall => hp hall.2.2] at h
      exact hne h
    · rw [if_neg fun hall => hf hall.2.2] at h
      refine ⟨fun hf' => absurd hf' hf, fun hp => ?_⟩
      rw [if_pos ⟨hside, rfl, hp⟩] at h
      exact absurd h.symm hne
  · intro hdate today c
    rw [hpending today c f rfl rfl, hpending today c p horder.2.1.symm horder.2.2.symm, ← hnet]
    by_cases hside : f.side = .SELL
    · by_cases hne : netProceeds f = 0
      · rw [hne, ite_self, ite_self]
      · rw [hdate hside hne]
    · rw [if_neg fun h => hside h.1, if_neg fun h => hside h.1]

/-! ## 2. The invariant -/

/-- What is kept out is what the accepted snapshots that stand say, on every day. -/
def PendingFollows (fs : List Fill) (l : InMemorySleeveLedger) : Prop :=
  ∀ today c, l.settlementPending today c =
    ∑ o ∈ keysOf Fill.orderId fs, (latest Fill.orderId o fs).elim 0 (pendingOf today c)

/-- The stored snapshot of each order and its last accepted one keep the same out. -/
structure PendingInv (fs : List Fill) (l : InMemorySleeveLedger) : Prop where
  stored : ∀ o today c, (l.snapshots.get? o).elim 0 (pendingOf today c) =
    (latest Fill.orderId o fs).elim 0 (pendingOf today c)
  total : PendingFollows fs l

theorem settlementPending_congr {l l' : InMemorySleeveLedger} (h : l'.snapshots = l.snapshots)
    (today : String) (c : Currency) : l'.settlementPending today c = l.settlementPending today c := by
  rw [settlementPending_eq, settlementPending_eq, h]

/-- Accepting a snapshot moves what is to be kept out from its predecessor's share to its own. -/
theorem pending_concat {fs : List Fill} {l : InMemorySleeveLedger} (h : PendingInv fs l) (f : Fill)
    (today : String) (c : Currency) :
    ∑ o ∈ keysOf Fill.orderId (fs ++ [f]),
        (latest Fill.orderId o (fs ++ [f])).elim 0 (pendingOf today c) =
      l.settlementPending today c - (l.snapshots.get? f.orderId).elim 0 (pendingOf today c) +
        pendingOf today c f := by
  have hconcat := totalLatest_concat Fill.orderId (pendingOf today c) fs f
  unfold totalLatest at hconcat
  rw [hconcat, h.total, h.stored]

/-- A settled snapshot is stored. -/
theorem PendingInv.settled {fs : List Fill} {l : InMemorySleeveLedger} (h : PendingInv fs l)
    (f : Fill) : PendingInv (fs ++ [f]) (l.settle (l.snapshots.get? f.orderId) f) := by
  refine ⟨fun o today c => ?_, fun today c => ?_⟩
  · rw [latest_concat, get?_snapshots_settle]
    by_cases ho : o = f.orderId
    · rw [if_pos ho, if_pos ho.symm]
    · rw [if_neg ho, if_neg (fun e => ho e.symm)]
      exact h.stored o today c
  · rw [settlementPending_settle, pending_concat h]

/-- A repetition is not stored: it follows if it keeps out what the stored snapshot does. -/
theorem PendingInv.repeated {fs : List Fill} {l : InMemorySleeveLedger} (h : PendingInv fs l)
    {f p : Fill} (hp : l.snapshots.get? f.orderId = some p) :
    (PendingFollows (fs ++ [f]) l ↔ SameProceeds f p) ∧
      (SameProceeds f p → PendingInv (fs ++ [f]) l) := by
  have htotal : PendingFollows (fs ++ [f]) l ↔ SameProceeds f p := by
    refine forall_congr' fun today => forall_congr' fun c => ?_
    rw [pending_concat h, hp, Option.elim_some]
    constructor
    · intro heq
      linarith
    · intro heq
      linarith
  refine ⟨htotal, fun hsame => ⟨fun o today c => ?_, htotal.mpr hsame⟩⟩
  rw [latest_concat]
  by_cases ho : f.orderId = o
  · rw [if_pos ho, ← ho, hp]
    exact (hsame today c).symm
  · rw [if_neg ho]
    exact h.stored o today c

/-- The step lemma. -/
theorem PendingInv.step {fs : List Fill} {l : InMemorySleeveLedger} (h : PendingInv fs l)
    (today : String) (op : LedgerOp) :
    (PendingFollows (fs ++ (acceptedFill op (l.step today op).2).toList) (l.step today op).1 ↔
        RepeatsProceeds l op) ∧
      (RepeatsProceeds l op →
        PendingInv (fs ++ (acceptedFill op (l.step today op).2).toList) (l.step today op).1) := by
  have heffect := l.step_effect today op
  generalize (l.step today op).1 = l' at heffect ⊢
  generalize (l.step today op).2 = reply at heffect ⊢
  -- An operation that accepts no snapshot and stores none.
  have hquiet : acceptedFill op reply = none → l'.snapshots = l.snapshots → RepeatsProceeds l op →
      (PendingFollows (fs ++ (acceptedFill op reply).toList) l' ↔ RepeatsProceeds l op) ∧
        (RepeatsProceeds l op → PendingInv (fs ++ (acceptedFill op reply).toList) l') := by
    intro hnone hs hrep
    have hinv : PendingInv (fs ++ (acceptedFill op reply).toList) l' := by
      rw [hnone, Option.toList_none, List.append_nil]
      refine ⟨fun o day c => ?_, fun day c => ?_⟩
      · rw [hs]
        exact h.stored o day c
      · rw [settlementPending_congr hs]
        exact h.total day c
    exact ⟨⟨fun _ => hrep, fun _ => hinv.total⟩, fun _ => hinv⟩
  cases heffect with
  | reserveRaised => exact hquiet rfl rfl fun _ _ he => absurd he (by simp)
  | reserveRefused => exact hquiet rfl rfl fun _ _ he => absurd he (by simp)
  | reserved => exact hquiet rfl rfl fun _ _ he => absurd he (by simp)
  | released => exact hquiet rfl rfl fun _ _ he => absurd he (by simp)
  | recorded => exact hquiet rfl rfl fun _ _ he => absurd he (by simp)
  | sellRaised => exact hquiet rfl rfl fun _ _ he => absurd he (by simp)
  | sellRefused => exact hquiet rfl rfl fun _ _ he => absurd he (by simp)
  | sellReserved => exact hquiet rfl rfl fun _ _ he => absurd he (by simp)
  | @regressed f p hp hlt =>
    refine hquiet rfl rfl fun g q he hq hnoop => ?_
    obtain rfl := LedgerOp.applyFill.inj he
    obtain ⟨q', hq', hqty, -⟩ := fillProgress_noop hnoop
    obtain rfl := Option.some.inj hq'
    obtain rfl := Option.some.inj (hp.symm.trans hq)
    exact absurd hqty hlt.ne
  | @repeated f p hp hq hc ht ha =>
    have hnoop := fillProgress_of_repeated hq hc ht ha
    have hrep : RepeatsProceeds l (.applyFill f) ↔ SameProceeds f p := by
      constructor
      · exact fun hrep => hrep f p rfl hp hnoop
      · intro hsame g q he hq' _
        obtain rfl := LedgerOp.applyFill.inj he
        obtain rfl := Option.some.inj (hp.symm.trans hq')
        exact hsame
    rw [hrep]
    exact h.repeated hp
  | @settled f happ =>
    have hrep : RepeatsProceeds l (.applyFill f) := by
      intro g q he hq hnoop
      obtain rfl := LedgerOp.applyFill.inj he
      rw [hq, hnoop] at happ
      exact absurd happ (by simp)
    exact ⟨⟨fun _ => hrep, fun _ => (h.settled f).total⟩, fun _ => h.settled f⟩
  | cashflow => exact hquiet rfl rfl fun _ _ he => absurd he (by simp)
  | terminal =>
    exact hquiet rfl (snapshots_markOrderTerminal l _ _) fun _ _ he => absurd he (by simp)

theorem pendingInv_init {sleeveId : String} {cap : Decimal} {b : Currency}
    {l₀ : InMemorySleeveLedger} (h₀ : InMemorySleeveLedger.init sleeveId cap b = .ok l₀) :
    PendingInv [] l₀ := by
  obtain ⟨-, -, rfl⟩ := init_inv h₀
  refine ⟨fun o today c => rfl, fun today c => ?_⟩
  rw [settlementPending_eq]
  rfl

/-! ## 3. Runs -/

/-- Along a run all of whose repetitions keep the proceeds, the invariant holds. -/
theorem pendingInv_run {l₀ : InMemorySleeveLedger} (h₀ : PendingInv [] l₀)
    {ops : List (String × LedgerOp)}
    (hrep : ∀ pre op, pre ++ [op] <+: ops → RepeatsProceeds (l₀.run pre) op.2) :
    ∀ pre, pre <+: ops → PendingInv (acceptedFills l₀ pre) (l₀.run pre) := by
  intro pre
  induction pre using List.reverseRecOn with
  | nil => exact fun _ => h₀
  | append_singleton pre op ih =>
    intro hpre
    have hinv := ih ((List.prefix_append pre [op]).trans hpre)
    rw [acceptedFills_append, run_append]
    exact (hinv.step op.1 op.2).2 (hrep pre op hpre)

/-- **When the unsettled proceeds follow the latest snapshots**: in every state of a run, on every
    day, in every currency, they are those of each order's last accepted snapshot, if and only if no
    repetition in the run says otherwise than the stored snapshot it repeats. -/
theorem pending_follows_iff {sleeveId : String} {cap : Decimal} {b : Currency}
    {l₀ : InMemorySleeveLedger} (h₀ : InMemorySleeveLedger.init sleeveId cap b = .ok l₀)
    (ops : List (String × LedgerOp)) :
    (∀ pre, pre <+: ops → PendingFollows (acceptedFills l₀ pre) (l₀.run pre)) ↔
      ∀ pre op, pre ++ [op] <+: ops → RepeatsProceeds (l₀.run pre) op.2 := by
  constructor
  · intro hfollows
    -- Up to every prefix the repetitions kept the proceeds: by induction on it, from its end.
    have hall : ∀ pre, pre <+: ops →
        ∀ pre' op, pre' ++ [op] <+: pre → RepeatsProceeds (l₀.run pre') op.2 := by
      intro pre
      induction pre using List.reverseRecOn with
      | nil => exact fun _ pre' op hpre' => absurd (List.prefix_nil.mp hpre') (by simp)
      | append_singleton pre op ih =>
        intro hpre pre' op' hpre'
        have hbefore := ih ((List.prefix_append pre [op]).trans hpre)
        rcases List.prefix_concat_iff.mp hpre' with heq | hlt
        · obtain ⟨rfl, hop⟩ := List.append_inj' heq rfl
          obtain rfl := List.singleton_inj.mp hop
          have hinv := pendingInv_run (pendingInv_init h₀) hbefore _ (List.prefix_refl _)
          have hafter := hfollows _ hpre
          rw [acceptedFills_append, run_append] at hafter
          exact (hinv.step op'.1 op'.2).1.mp hafter
        · exact hbefore pre' op' hlt
    exact hall ops (List.prefix_refl _)
  · exact fun hrep pre hpre => (pendingInv_run (pendingInv_init h₀) hrep pre hpre).total

/-! ## 4. A settlement date that is reported late -/

def boughtTenShares : Fill := .whole "o1" "b1" "AAA" .BUY .KRW 10 100 0 ""

def soldTenShares (settlementDate : String) : Fill :=
  .whole "o2" "s1" "AAA" .SELL .KRW 10 110 0 settlementDate

/-- Ten shares bought, and sold in one execution that is polled twice. -/
def polledTwice (first second : String) : List (String × LedgerOp) :=
  [("2024-01-02", .applyFill boughtTenShares),
   ("2024-01-03", .applyFill (soldTenShares first)),
   ("2024-01-03", .applyFill (soldTenShares second))]

def tenSold : InMemorySleeveLedger := fresh "sleeve" 1000 .KRW

theorem tenSold_init : InMemorySleeveLedger.init "sleeve" 1000 .KRW = .ok tenSold :=
  init_ok "sleeve" 1000 .KRW (by decide) (by decide +kernel)

/-- The date is known from the first: both polls say the same. -/
theorem pending_follows_iff_datedSale :
    PendingFollows (acceptedFills tenSold (polledTwice "2024-01-05" "2024-01-05"))
      (tenSold.run (polledTwice "2024-01-05" "2024-01-05")) := by
  refine (pending_follows_iff tenSold_init _).mpr ?_ _ (List.prefix_refl _)
  rintro pre op ⟨rest, hrest⟩ f p hop hp -
  rcases pre with _ | ⟨a, _ | ⟨b, _ | ⟨d, pre⟩⟩⟩
  · simp only [polledTwice, List.nil_append, List.cons_append, List.cons.injEq] at hrest
    obtain ⟨rfl, -⟩ := hrest
    obtain rfl := LedgerOp.applyFill.inj hop
    have hnone : (tenSold.run []).snapshots.get? "o1" = none := by decide +kernel
    exact absurd (hnone.symm.trans hp) (by simp)
  · simp only [polledTwice, List.nil_append, List.cons_append, List.cons.injEq] at hrest
    obtain ⟨rfl, rfl, -⟩ := hrest
    obtain rfl := LedgerOp.applyFill.inj hop
    have hnone : (tenSold.run [("2024-01-02", .applyFill boughtTenShares)]).snapshots.get? "o2" =
      none := by decide +kernel
    exact absurd (hnone.symm.trans hp) (by simp)
  · simp only [polledTwice, List.nil_append, List.cons_append, List.cons.injEq] at hrest
    obtain ⟨rfl, rfl, rfl, -⟩ := hrest
    obtain rfl := LedgerOp.applyFill.inj hop
    have hstored : (tenSold.run [("2024-01-02", .applyFill boughtTenShares),
        ("2024-01-03", .applyFill (soldTenShares "2024-01-05"))]).snapshots.get? "o2" =
      some (soldTenShares "2024-01-05") := by decide +kernel
    obtain rfl := Option.some.inj (hstored.symm.trans hp)
    exact fun today c => rfl
  · have hlen := congrArg List.length hrest
    simp [polledTwice] at hlen

/-- The date becomes known with the second poll, which is accepted and forgotten: the proceeds count
    as settled at once, two days early. A sleeve that was told the date first has less available,
    though the last snapshot is the same. -/
theorem pending_forgets_date :
    ¬ PendingFollows (acceptedFills tenSold (polledTwice "" "2024-01-05"))
      (tenSold.run (polledTwice "" "2024-01-05")) ∧
    (tenSold.run (polledTwice "" "2024-01-05")).available "2024-01-03" .KRW = 1100 ∧
    (tenSold.run (polledTwice "2024-01-05" "2024-01-05")).available "2024-01-03" .KRW = 0 := by
  refine ⟨fun h => ?_, by decide +kernel, by decide +kernel⟩
  exact absurd (h "2024-01-03" .KRW) (by decide +kernel)

end Proof
end TossSleeve
