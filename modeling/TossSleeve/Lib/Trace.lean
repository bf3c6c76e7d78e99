import TossSleeve.Lib.Proc

/-!
# `Lib/Trace.lean` — programs seen through their requests

A program whose every effect is a request is known by its **traces**: the lists of requests and
answers it can go through. `Runs p tr r` says that `p`, answered as in `tr`, ends with `r`; which
answers are possible is not its business.

Reasoning about all traces at once is done with a *ghost*: a value `g` that a function `next`
updates at every request, and that the program does not know of. `Along` says that a program keeps
to a discipline — each request is allowed (`ok`) where the ghost then stands, and the ghost and the
result at the end are as `fin` wants — whatever the answers are. It composes like the program
does (§2), so a routine is verified once, for every ghost it may be called with.

The ghost may be as much as the whole trace or as little as a phase. `Along.runs` reads off what a
complete run satisfies.
-/

set_option autoImplicit false

namespace TossSleeve.Lib

/-- A request with its answer. -/
abbrev Event {Req : Type} (Resp : Req → Type) : Type := (q : Req) × Resp q

namespace Proc

variable {Req : Type} {Resp : Req → Type} {ε α β : Type}

/-! ## 1. Complete runs -/

/-- `p`, answered as in the trace, ends with the result. -/
inductive Runs : Proc Unit Req Resp ε α → List (Event Resp) → Except ε α → Prop
  | ret (a : α) : Runs (.ret a) [] (.ok a)
  | raise (e : ε) : Runs (.raise e) [] (.error e)
  | act {upd : Unit → Unit} {k : Unit → Proc Unit Req Resp ε α} {tr : List (Event Resp)}
      {r : Except ε α} (h : Runs (k ()) tr r) : Runs (.act upd k) tr r
  | await {q : Req} {k : Resp q → Proc Unit Req Resp ε α} {tr : List (Event Resp)}
      {r : Except ε α} (x : Resp q) (h : Runs (k x) tr r) : Runs (.await q k) (⟨q, x⟩ :: tr) r

/-- A program that returned, and what goes on from there, run one after the other. -/
theorem Runs.attempt {p : Proc Unit Req Resp ε α} {f : α → Proc Unit Req Resp ε β}
    {h : ε → Proc Unit Req Resp ε β} {tr tr' : List (Event Resp)} {r : Except ε α}
    {r' : Except ε β} (hp : Runs p tr r) :
    ∀ {a : α}, r = .ok a → Runs (f a) tr' r' → Runs (p.attempt f h) (tr ++ tr') r' := by
  induction hp with
  | ret a =>
    intro a' ha hf
    obtain rfl := Except.ok.inj ha
    exact hf
  | raise e => exact fun ha => absurd ha (by simp)
  | act _ ih => exact fun ha hf => .act (ih ha hf)
  | await x _ ih => exact fun ha hf => .await x (ih ha hf)

/-- A run of the two is a run of the first, and a run of what goes on from its end. -/
theorem Runs.of_attempt {f : α → Proc Unit Req Resp ε β} {h : ε → Proc Unit Req Resp ε β}
    {r : Except ε β} : ∀ {p : Proc Unit Req Resp ε α} {tr : List (Event Resp)},
    Runs (p.attempt f h) tr r → ∃ tr₁ tr₂, tr = tr₁ ++ tr₂ ∧
      ((∃ a, Runs p tr₁ (.ok a) ∧ Runs (f a) tr₂ r) ∨
        ∃ e, Runs p tr₁ (.error e) ∧ Runs (h e) tr₂ r)
  | .ret a, tr, hr => ⟨[], tr, rfl, .inl ⟨a, .ret a, hr⟩⟩
  | .raise e, tr, hr => ⟨[], tr, rfl, .inr ⟨e, .raise e, hr⟩⟩
  | .act _ k, _, .act hr => by
    obtain ⟨tr₁, tr₂, rfl, hends⟩ := of_attempt (p := k ()) hr
    refine ⟨tr₁, tr₂, rfl, hends.imp ?_ ?_⟩
    · exact fun ⟨a, hp, hf⟩ => ⟨a, .act hp, hf⟩
    · exact fun ⟨e, hp, hf⟩ => ⟨e, .act hp, hf⟩
  | .await q k, _, .await x hr => by
    obtain ⟨tr₁, tr₂, rfl, hends⟩ := of_attempt (p := k x) hr
    refine ⟨⟨q, x⟩ :: tr₁, tr₂, rfl, hends.imp ?_ ?_⟩
    · exact fun ⟨a, hp, hf⟩ => ⟨a, .await x hp, hf⟩
    · exact fun ⟨e, hp, hf⟩ => ⟨e, .await x hp, hf⟩

theorem Runs.bind {p : Proc Unit Req Resp ε α} {f : α → Proc Unit Req Resp ε β}
    {tr tr' : List (Event Resp)} {a : α} {r : Except ε β} (hp : Runs p tr (.ok a))
    (hf : Runs (f a) tr' r) : Runs (p >>= f) (tr ++ tr') r :=
  Runs.attempt (h := .raise) hp rfl hf

/-- The run in which an oracle, who sees what happened so far, gives the answers. -/
def play (oracle : List (Event Resp) → (q : Req) → Resp q) :
    List (Event Resp) → Proc Unit Req Resp ε α → List (Event Resp) × Except ε α
  | _, .ret a => ([], .ok a)
  | _, .raise e => ([], .error e)
  | past, .act _ k => play oracle past (k ())
  | past, .await q k =>
    let x := oracle past q
    let rest := play oracle (past ++ [⟨q, x⟩]) (k x)
    (⟨q, x⟩ :: rest.1, rest.2)

theorem play_runs (oracle : List (Event Resp) → (q : Req) → Resp q) :
    ∀ (p : Proc Unit Req Resp ε α) (past : List (Event Resp)),
      Runs p (play oracle past p).1 (play oracle past p).2
  | .ret a, _ => .ret a
  | .raise e, _ => .raise e
  | .act _ k, past => .act (play_runs oracle (k ()) past)
  | .await q k, past =>
    .await (oracle past q) (play_runs oracle (k (oracle past q)) (past ++ [⟨q, oracle past q⟩]))

/-! ## 2. Keeping to a discipline -/

variable {G : Type} (next : G → Event Resp → G) (ok : G → Req → Prop)

/-- From the ghost `g`, every request of the program is allowed and every end is as wanted. -/
def Along (fin : G → Except ε α → Prop) : Proc Unit Req Resp ε α → G → Prop
  | .ret a, g => fin g (.ok a)
  | .raise e, g => fin g (.error e)
  | .act _ k, g => Along fin (k ()) g
  | .await q k, g => ok g q ∧ ∀ x, Along fin (k x) (next g ⟨q, x⟩)

namespace Along

variable {next : G → Event Resp → G} {ok : G → Req → Prop} {g : G}

/-- Go on, from wherever a part may end, with a part that is verified there. -/
theorem attempt {fin : G → Except ε α → Prop} {fin' : G → Except ε β → Prop}
    {f : α → Proc Unit Req Resp ε β} {h : ε → Proc Unit Req Resp ε β}
    (hf : ∀ g a, fin g (.ok a) → Along next ok fin' (f a) g)
    (hh : ∀ g e, fin g (.error e) → Along next ok fin' (h e) g) :
    ∀ {p : Proc Unit Req Resp ε α} {g : G}, Along next ok fin p g →
      Along next ok fin' (p.attempt f h) g
  | .ret a, g, hp => hf g a hp
  | .raise e, g, hp => hh g e hp
  | .act _ k, _, hp => attempt hf hh (p := k ()) hp
  | .await _ k, _, ⟨hok, hk⟩ => ⟨hok, fun x => attempt hf hh (p := k x) (hk x)⟩

theorem bind {fin : G → Except ε α → Prop} {fin' : G → Except ε β → Prop}
    {p : Proc Unit Req Resp ε α} {f : α → Proc Unit Req Resp ε β}
    (hp : Along next ok fin p g)
    (hf : ∀ g a, fin g (.ok a) → Along next ok fin' (f a) g)
    (hraise : ∀ g e, fin g (.error e) → fin' g (.error e)) : Along next ok fin' (p >>= f) g :=
  attempt (h := .raise) hf hraise hp

theorem mono {fin fin' : G → Except ε α → Prop} (h : ∀ g r, fin g r → fin' g r) :
    ∀ {p : Proc Unit Req Resp ε α} {g : G}, Along next ok fin p g → Along next ok fin' p g
  | .ret _, g, hp => h g _ hp
  | .raise _, g, hp => h g _ hp
  | .act _ k, _, hp => mono h (p := k ()) hp
  | .await _ k, _, ⟨hok, hk⟩ => ⟨hok, fun x => mono h (p := k x) (hk x)⟩

/-- The same discipline, seen from a ghost that knows as much wherever the discipline goes. -/
theorem lift {G' : Type} {next' : G' → Event Resp → G'} {ok' : G' → Req → Prop}
    {fin : G → Except ε α → Prop} {fin' : G' → Except ε α → Prop} {f : G → G'}
    (hnext : ∀ g e, ok g e.1 → next' (f g) e = f (next g e)) (hok : ∀ g q, ok g q → ok' (f g) q)
    (hfin : ∀ g r, fin g r → fin' (f g) r) :
    ∀ {p : Proc Unit Req Resp ε α} {g : G}, Along next ok fin p g → Along next' ok' fin' p (f g)
  | .ret _, g, hp => hfin g _ hp
  | .raise _, g, hp => hfin g _ hp
  | .act _ k, _, hp => lift hnext hok hfin (p := k ()) hp
  | .await q k, g, ⟨hq, hk⟩ =>
    ⟨hok g q hq, fun x => (hnext g ⟨q, x⟩ hq).symm ▸ lift hnext hok hfin (p := k x) (hk x)⟩

/-- What a complete run ends with. -/
theorem runs {fin : G → Except ε α → Prop} {p : Proc Unit Req Resp ε α} {tr : List (Event Resp)}
    {r : Except ε α} (hr : Runs p tr r) : ∀ {g : G}, Along next ok fin p g →
      fin (tr.foldl next g) r := by
  induction hr with
  | ret a => exact fun hp => hp
  | raise e => exact fun hp => hp
  | act _ ih => exact fun hp => ih hp
  | await x _ ih => exact fun hp => ih (hp.2 x)

/-- What every request of a complete run is. -/
theorem asked {fin : G → Except ε α → Prop} {p : Proc Unit Req Resp ε α} {tr : List (Event Resp)}
    {r : Except ε α} {Q : Req → Prop} (hQ : ∀ g q, ok g q → Q q) (hr : Runs p tr r) :
    ∀ {g : G}, Along next ok fin p g → ∀ e ∈ tr, Q e.1 := by
  induction hr with
  | ret a => simp
  | raise e => simp
  | act _ ih => exact fun hp => ih hp
  | await x _ ih =>
    intro g hp e he
    rcases List.mem_cons.mp he with rfl | he
    · exact hQ g _ hp.1
    · exact ih (hp.2 x) e he

/-- Where nothing can go wrong any more. -/
theorem of_absorbing {fin : G → Except ε α → Prop} {Q : G → Prop}
    (hnext : ∀ g e, Q g → Q (next g e)) (hok : ∀ g q, Q g → ok g q)
    (hfin : ∀ g r, Q g → fin g r) :
    ∀ (p : Proc Unit Req Resp ε α) {g : G}, Q g → Along next ok fin p g
  | .ret _, _, hg => hfin _ _ hg
  | .raise _, _, hg => hfin _ _ hg
  | .act _ k, _, hg => of_absorbing hnext hok hfin (k ()) hg
  | .await _ k, _, hg =>
    ⟨hok _ _ hg, fun x => of_absorbing hnext hok hfin (k x) (hnext _ _ hg)⟩

/-- Where nothing happens any more. -/
theorem of_fixed {fin : G → Except ε α → Prop} (hnext : ∀ e, next g e = g) (hok : ∀ q, ok g q)
    (hfin : ∀ r, fin g r) (p : Proc Unit Req Resp ε α) : Along next ok fin p g := by
  apply of_absorbing (Q := (· = g)) ?_ ?_ ?_ p rfl
  · intro g' e hg
    rw [hg, hnext]
  · intro g' q hg
    rw [hg]
    exact hok q
  · intro g' r hg
    rw [hg]
    exact hfin r

end Along

/-- A program that serves a request ends where the answer leads, or raises what may be raised. -/
def Serves (next : G → Event Resp → G) (fin : G → Except ε α → Prop) (g : G) (q : Req) :
    G → Except ε (Resp q) → Prop
  | g', .ok x => g' = next g ⟨q, x⟩
  | g', .error e => fin g' (.error e)

/-- **A discipline survives inlining**, if what serves a request keeps to it from wherever the
    request is allowed; or gets lost, where nothing is wanted any more. -/
theorem Along.inline_or {Req' : Type} {Resp' : Req' → Type} {next : G → Event Resp → G}
    {ok : G → Req → Prop} {next' : G → Event Resp' → G} {ok' : G → Req' → Prop}
    {fin : G → Except ε α → Prop} {h : (q : Req) → Proc Unit Req' Resp' ε (Resp q)}
    (Lost : G → Prop)
    (hserves : ∀ g q, ok g q →
      Along next' ok' (fun g' r => Lost g' ∨ Serves next fin g q g' r) (h q) g)
    (hlost : ∀ (p : Proc Unit Req' Resp' ε α) g, Lost g → Along next' ok' fin p g) :
    ∀ {p : Proc Unit Req Resp ε α} {g : G}, Along next ok fin p g →
      Along next' ok' fin (p.inline h) g
  | .ret _, _, hp => hp
  | .raise _, _, hp => hp
  | .act _ k, _, hp => Along.inline_or Lost hserves hlost (p := k ()) hp
  | .await q k, g, ⟨hok, hk⟩ => by
    refine Along.attempt (fun g' x hg' => ?_) (fun g' e hg' => ?_) (hserves g q hok)
    · rcases hg' with hg' | hg'
      · exact hlost _ g' hg'
      · rw [show g' = _ from hg']
        exact Along.inline_or Lost hserves hlost (hk x)
    · rcases hg' with hg' | hg'
      · exact hlost (.raise e) g' hg'
      · exact hg'

theorem Along.inline {Req' : Type} {Resp' : Req' → Type} {next : G → Event Resp → G}
    {ok : G → Req → Prop} {next' : G → Event Resp' → G} {ok' : G → Req' → Prop}
    {fin : G → Except ε α → Prop} {h : (q : Req) → Proc Unit Req' Resp' ε (Resp q)}
    (hserves : ∀ g q, ok g q → Along next' ok' (Serves next fin g q) (h q) g)
    {p : Proc Unit Req Resp ε α} {g : G} (hp : Along next ok fin p g) :
    Along next' ok' fin (p.inline h) g :=
  Along.inline_or (fun _ => False) (fun g q hq => Along.mono (fun _ _ => .inr) (hserves g q hq))
    (fun _ _ hg => hg.elim) hp

/-! ## 3. Programs that only ask

Between two requests such a program does nothing, so it is answered and has ended in one step. -/

def Requesting : Proc Unit Req Resp ε α → Prop
  | .ret _ => True
  | .raise _ => True
  | .act _ _ => False
  | .await _ k => ∀ x, (k x).Requesting

theorem Requesting.attempt {f : α → Proc Unit Req Resp ε β} {h : ε → Proc Unit Req Resp ε β}
    (hf : ∀ a, (f a).Requesting) (hh : ∀ e, (h e).Requesting) :
    ∀ {p : Proc Unit Req Resp ε α}, p.Requesting → (p.attempt f h).Requesting
  | .ret a, _ => hf a
  | .raise e, _ => hh e
  | .act _ _, hp => False.elim hp
  | .await _ _, hp => fun x => Requesting.attempt hf hh (hp x)

theorem Requesting.bind {p : Proc Unit Req Resp ε α} {f : α → Proc Unit Req Resp ε β}
    (hp : p.Requesting) (hf : ∀ a, (f a).Requesting) : (p >>= f).Requesting :=
  Requesting.attempt (h := .raise) hf (fun _ => trivial) hp

/-! ## 4. Collecting

The ghost that has seen some of the events, and nothing else. -/

variable {Req : Type} {Resp : Req → Type} {γ : Type}

def collect (f : Event Resp → Option γ) (seen : List γ) (e : Event Resp) : List γ :=
  seen ++ (f e).toList

theorem foldl_collect (f : Event Resp → Option γ) (tr : List (Event Resp)) :
    ∀ seen, tr.foldl (collect f) seen = seen ++ tr.filterMap f := by
  induction tr with
  | nil => exact fun seen => (List.append_nil seen).symm
  | cons e tr ih =>
    intro seen
    rw [List.foldl_cons, ih, collect, List.append_assoc]
    cases h : f e with
    | none =>
      rw [List.filterMap_cons_none h]
      rfl
    | some x =>
      rw [List.filterMap_cons_some h]
      rfl

/-- The ghost that has seen everything. -/
def history (past : List (Event Resp)) (e : Event Resp) : List (Event Resp) := past ++ [e]

@[simp] theorem mem_history {past : List (Event Resp)} {e e' : Event Resp} :
    e' ∈ history past e ↔ e' ∈ past ∨ e' = e := by
  simp [history]

theorem foldl_history (tr : List (Event Resp)) : ∀ past, tr.foldl history past = past ++ tr := by
  induction tr with
  | nil => exact fun past => (List.append_nil past).symm
  | cons e tr ih =>
    intro past
    rw [List.foldl_cons, ih, history, List.append_assoc]
    rfl

/-- Nothing that was seen is forgotten. -/
theorem Along.kept {ε α : Type} {ok : List (Event Resp) → Req → Prop}
    {fin : List (Event Resp) → Except ε α → Prop} :
    ∀ {p : Proc Unit Req Resp ε α} {past : List (Event Resp)}, Along history ok fin p past →
      Along history ok (fun past' r => (∀ e ∈ past, e ∈ past') ∧ fin past' r) p past
  | .ret _, _, hp => ⟨fun _ he => he, hp⟩
  | .raise _, _, hp => ⟨fun _ he => he, hp⟩
  | .act _ k, _, hp => kept (p := k ()) hp
  | .await q k, past, ⟨hq, hk⟩ => by
    refine ⟨hq, fun x => (kept (hk x)).mono fun past' r hend => ⟨fun e he => ?_, hend.2⟩⟩
    exact hend.1 e (mem_history.mpr (.inl he))

end Proc

end TossSleeve.Lib
