import TossSleeve.Lib.Simulation
import TossSleeve.Proof.Tokens

/-!
# `Proof/LiveToken.lean` — one token for all

Tokens are few: the endpoint that issues them has a rate limit of its own. The lock of `TossAuth` is
there so that callers who find no token do not each ask for one: the first asks, and the others wait
and find what it found. So from the moment a token is in memory, whoever put it there, there is no
request for another one until it expires or is thrown away, and whoever returns from `token` returns
this one — also those who took their first look before it came.

§1 is what a call under the lock has seen, which is still so because of the lock. §2 is what a live
token does to the calls that go on beside it.
-/

set_option autoImplicit false

namespace TossSleeve

open Lib Lib.Proc

/-! ## 1. What has been seen under the lock -/

namespace TokenPhase

/-- What a call has seen: that there is no token, or that there is this one. -/
def Saw (s : TokenStore) (now : Time) : TokenPhase → Prop
  | .posting => s.cached now = none
  | .storing _ => s.cached now = none
  | .leaving none => s.cached now = none
  | .leaving (some t) => ∃ c ∈ s.token, c.accessToken = t
  | _ => True

theorem saw_of_outside {p : TokenPhase} (h : ¬ p.Under) (s : TokenStore) (now : Time) :
    p.Saw s now := by
  cases p with
  | looking => exact trivial
  | wanting => exact trivial
  | dropping => exact trivial
  | left found => exact trivial
  | checking => exact absurd trivial h
  | posting => exact absurd trivial h
  | storing token => exact absurd trivial h
  | discarding => exact absurd trivial h
  | leaving found => exact absurd trivial h

theorem saw_posted {outcome : PostOutcome} {s : TokenStore} {now : Time}
    (h : s.cached now = none) : (posted outcome).Saw s now := by
  unfold posted
  cases issueToken outcome with
  | ok token => exact h
  | error f => exact h

/-- What is absent stays absent, and what is there stays there. -/
theorem Saw.later {p : TokenPhase} {s : TokenStore} {now later : Time} (h : p.Saw s now)
    (hle : now ≤ later) : p.Saw s later := by
  have hnone : s.cached now = none → s.cached later = none := by
    intro hn
    refine Option.map_eq_none_iff.mpr (Option.filter_eq_none_iff.mpr fun c hc hlt => ?_)
    have hexp := Proof.expired_of_cached hn c hc
    exact absurd (of_decide_eq_true hlt) (not_lt.mpr (le_trans hexp hle))
  cases p with
  | posting => exact hnone h
  | storing token => exact hnone h
  | leaving found =>
    cases found with
    | none => exact hnone h
    | some t => exact h
  | _ => exact trivial

end TokenPhase

variable {ι : Type}

namespace Proof.LiveToken

/-- **The first invariant**: what a call under the lock has seen is still so. -/
structure Seen (w : AuthWorld ι) (ph : ι → Option TokenPhase) : Prop where
  lock : Guarded TokenPhase.Under w.holder ph
  saw : ∀ i p, ph i = some p → p.Saw w.store w.now

namespace Seen

variable {w : AuthWorld ι} {ph : ι → Option TokenPhase} {i : ι} {p : TokenPhase}

theorem opening (hw : w.Opening) : Seen w fun _ => none :=
  ⟨hw.holder ▸ .free, fun _ _ h => absurd h (by simp)⟩

variable [DecidableEq ι]

/-- A call moves; it changes what is kept only under the lock. -/
theorem move (h : Seen w ph) {w' : AuthWorld ι} {p' : TokenPhase} (hp : ph i = some p)
    (hlock : Guarded TokenPhase.Under w'.holder (Function.update ph i (some p')))
    (hself : p'.Saw w'.store w'.now) (hkept : (w'.store = w.store ∧ w'.now = w.now) ∨ p.Under) :
    Seen w' (Function.update ph i (some p')) := by
  refine ⟨hlock, Pool.forall_update hself fun j r hj hr => ?_⟩
  rcases hkept with ⟨hstore, hnow⟩ | hunder
  · rw [hstore, hnow]
    exact h.saw j r hr
  · -- Whoever holds the lock is alone under it: the others depend on nothing.
    apply TokenPhase.saw_of_outside
    intro hr'
    exact hj (h.lock.alone hr hr' hp hunder)

theorem recheck (h : Seen w ph) (hp : ph i = some .checking) (readable : Bool) :
    Seen { w with store := (w.store.recheck w.now readable).2 }
      (Function.update ph i
        (some (TokenPhase.next .checking ⟨.recheck, (w.store.recheck w.now readable).1⟩))) := by
  rcases recheck_cases w.store w.now readable with ⟨t, ht, heq⟩ | ⟨disk, -, -, -, -, heq⟩ |
    ⟨hnone, heq⟩
  · rw [heq]
    exact h.move hp (h.lock.stay hp Iff.rfl) (cached_eq_some ht) (.inr trivial)
  · rw [heq]
    exact h.move hp (h.lock.stay hp Iff.rfl) ⟨disk, rfl, rfl⟩ (.inr trivial)
  · rw [heq]
    exact h.move hp (h.lock.stay hp Iff.rfl) hnone (.inr trivial)

/-- One answer, to a call that asks what it may. -/
theorem answers {C : AuthWorld ι → CachedToken → FileWrite → Prop} (h : Seen w ph) {q : AuthReq}
    {x : q.Resp} {w' : AuthWorld ι} (hp : ph i = some p) (hasks : p.Asks q)
    (hw : w.Answers C i ⟨q, x⟩ w') : Seen w' (Function.update ph i (some (p.next ⟨q, x⟩))) := by
  have hsaw := h.saw i p hp
  cases hw with
  | cached =>
    cases hasks
    cases hx : w.store.cached w.now with
    | none => exact h.move hp (h.lock.stay hp Iff.rfl) trivial (.inl ⟨rfl, rfl⟩)
    | some t => exact h.move hp (h.lock.stay hp Iff.rfl) trivial (.inl ⟨rfl, rfl⟩)
  | lock hfree =>
    have hlock : ∀ p' : TokenPhase, p'.Under → Guarded TokenPhase.Under (some i)
        (Function.update ph i (some p')) := fun p' hu => (hfree ▸ h.lock).acquire hu
    cases hasks with
    | want => exact h.move hp (hlock _ trivial) trivial (.inl ⟨rfl, rfl⟩)
    | drop => exact h.move hp (hlock _ trivial) trivial (.inl ⟨rfl, rfl⟩)
  | unlock =>
    cases hasks with
    | leave token =>
      exact h.move hp (h.lock.release hp trivial not_false) trivial (.inl ⟨rfl, rfl⟩)
  | recheck readable =>
    cases hasks
    exact h.recheck hp readable
  | @postToken outcome hnew =>
    cases hasks
    have hunder : (TokenPhase.posted outcome).Under := by
      unfold TokenPhase.posted
      cases issueToken outcome with
      | ok token => exact trivial
      | error f => exact trivial
    exact h.move hp (h.lock.stay hp (iff_of_true hunder trivial)) (TokenPhase.saw_posted hsaw)
      (.inr trivial)
  | record expiresIn write =>
    cases hasks with
    | store =>
      exact h.move hp (h.lock.stay hp Iff.rfl) ⟨_, rfl, rfl⟩ (.inr trivial)
  | discard unlinked =>
    cases hasks
    exact h.move hp (h.lock.stay hp Iff.rfl) (by simp [TokenPhase.Saw, TokenPhase.next,
      TokenStore.discard, TokenStore.cached]) (.inr trivial)

end Seen

variable [DecidableEq ι] {jobs : ι → TokenJob} {C : AuthWorld ι → CachedToken → FileWrite → Prop}
  {s s' : Pool.State (AuthWorld ι) ι AuthReq.Resp Exc (Option String)}

theorem seen (hs : Reachable (Pool.Start AuthWorld.Opening) (sharing jobs C).Step s) :
    Seen s.world (Pool.phase (fun _ => TokenPhase.next) (fun i => (jobs i).start) s) := by
  refine Pool.inv (P := sharing jobs C) (fun _ => TokenPhase.Asks) (fun i => job_along (jobs i))
    Seen ?_ ?_ ?_ ?_ hs
  · exact fun w hw => .opening hw
  · intro w ph i h hi
    have hunder : ¬ (jobs i).start.Under := by cases jobs i <;> exact not_false
    refine ⟨h.lock.start hi hunder, Pool.forall_update ?_ fun j p _ hj => h.saw j p hj⟩
    exact TokenPhase.saw_of_outside hunder _ _
  · intro w ph i p q x w' h hp hasks hw
    exact h.answers hp hasks hw
  · intro w ph w' h hw
    obtain ⟨now, hle, rfl⟩ := hw
    exact ⟨h.lock, fun i p hi => (h.saw i p hi).later hle⟩

/-! ## 2. A live token -/

/-- How a call ends: with what it leaves with. -/
def jobLeaves (p : TokenPhase) : Except Exc (Option String) → Prop
  | .ok found => p = .left found
  | .error _ => p = .left none

theorem job_leaves (job : TokenJob) :
    Along TokenPhase.next TokenPhase.Asks jobLeaves job.program job.start := by
  cases job with
  | token =>
    refine .bind token_along (fun p token h => ?_) (fun p e h => ?_)
    · exact h
    · exact h
  | invalidate =>
    refine .bind invalidate_along (fun p token h => ?_) (fun p e h => ?_)
    · exact h.1
    · exact h.1

theorem locked_requesting {α : Type} {body : AuthProg α} (h : body.Requesting) :
    (AuthProg.locked body).Requesting := by
  intro x
  show (body.attempt (fun a => do AuthProg.askAuth .unlock; .ret a)
    fun e => do AuthProg.askAuth .unlock; .raise e).Requesting
  refine Requesting.attempt (fun a => ?_) (fun e => ?_) h
  · exact fun _ => trivial
  · exact fun _ => trivial

/-- The calls do nothing but ask. -/
theorem job_requesting (job : TokenJob) : job.program.Requesting := by
  cases job with
  | token =>
    have hgranted : ∀ outcome, (SharedAuth.granted outcome).Requesting := by
      intro outcome
      unfold SharedAuth.granted
      cases issueToken outcome with
      | ok token => exact fun _ => trivial
      | error f => exact trivial
    have htoken : SharedAuth.token.Requesting := by
      intro x
      cases x with
      | some token => exact trivial
      | none =>
        refine locked_requesting fun x => ?_
        cases x with
        | some token => exact trivial
        | none => exact hgranted
    exact htoken.bind fun _ => trivial
  | invalidate =>
    have hinvalidate : SharedAuth.invalidate.Requesting := locked_requesting fun _ => trivial
    exact hinvalidate.bind fun _ => trivial

/-- Where a call may be while `t` is live. -/
def Finds (t : String) : TokenPhase → Prop
  | .posting => False
  | .storing _ => False
  | .leaving found => found = some t
  | .left found => found = some t
  | _ => True

/-- A token is in memory and nobody is after another: whoever leaves with one leaves with this one.
    A call that had `ended` may have left with another. -/
structure Sole (c : CachedToken) (issued : List String) (ended : ι → Prop) (w : AuthWorld ι)
    (ph : ι → Option TokenPhase) : Prop where
  token : w.store.token = some c
  issued : w.issued = issued
  finds : ∀ i p, ph i = some p → Finds c.accessToken p ∨ ended i ∧ ∃ found, p = .left found

/-- **The second invariant**: a token is the only one until it is thrown away or has expired. -/
def Lasts (c : CachedToken) (discarded issued : List String) (ended : ι → Prop) (w : AuthWorld ι)
    (ph : ι → Option TokenPhase) : Prop :=
  discarded.length ≤ w.discarded.length ∧
    (discarded.length < w.discarded.length ∨ c.expiresAt ≤ w.now ∨ Sole c issued ended w ph)

namespace Sole

variable {c : CachedToken} {issued : List String} {ended : ι → Prop} {w : AuthWorld ι}
  {ph : ι → Option TokenPhase} {i : ι} {p : TokenPhase}

omit [DecidableEq ι] in
theorem cached (h : Sole c issued ended w ph) (hlive : w.now < c.expiresAt) :
    w.store.cached w.now = some c.accessToken := by
  simp [TokenStore.cached, h.token, hlive]

/-- A call moves, and the token stays. -/
theorem move (h : Sole c issued ended w ph) {w' : AuthWorld ι} {p' : TokenPhase}
    (htoken : w'.store.token = w.store.token) (hissued : w'.issued = w.issued)
    (hself : Finds c.accessToken p') : Sole c issued ended w' (Function.update ph i (some p')) :=
  ⟨htoken.trans h.token, hissued.trans h.issued,
    Pool.forall_update (.inl hself) fun j r _ hr => h.finds j r hr⟩

/-- One answer while the token is live: it stays the only one, or is thrown away. -/
theorem answers (h : Sole c issued ended w ph) {q : AuthReq} {x : q.Resp} {w' : AuthWorld ι}
    (hlive : w.now < c.expiresAt) (hp : ph i = some p) (hasks : p.Asks q)
    (hw : w.Answers C i ⟨q, x⟩ w') :
    Sole c issued ended w' (Function.update ph i (some (p.next ⟨q, x⟩))) ∨
      w.discarded.length < w'.discarded.length := by
  have hcached := h.cached hlive
  have hfinds : Finds c.accessToken p := by
    rcases h.finds i p hp with hf | ⟨-, found, rfl⟩
    · exact hf
    · cases hasks
  cases hw with
  | cached =>
    cases hasks
    rw [hcached]
    exact .inl (h.move rfl rfl rfl)
  | lock hfree =>
    cases hasks with
    | want => exact .inl (h.move rfl rfl trivial)
    | drop => exact .inl (h.move rfl rfl trivial)
  | unlock =>
    cases hasks with
    | leave found => exact .inl (h.move rfl rfl hfinds)
  | recheck readable =>
    cases hasks
    have hfound : w.store.recheck w.now readable = (some c.accessToken, w.store) := by
      simp only [TokenStore.recheck, hcached]
    rw [hfound]
    exact .inl (h.move rfl rfl rfl)
  | postToken hnew =>
    cases hasks
    exact hfinds.elim
  | record expiresIn write =>
    cases hasks with
    | store => exact hfinds.elim
  | discard unlinked =>
    right
    have htokens : 0 < w.store.tokens.length := by
      simp [TokenStore.tokens, h.token]
    simpa [List.length_append] using htokens

end Sole

/-- A call in its last phase is over. -/
theorem over_of_left (hs : Reachable (Pool.Start AuthWorld.Opening) (sharing jobs C).Step s)
    {i : ι} {found : Option String}
    (hp : Pool.phase (fun _ => TokenPhase.next) (fun i => (jobs i).start) s i =
      some (.left found)) : (s.returned i).isSome ∨ (s.raised i).isSome := by
  refine Pool.ended (P := sharing jobs C) (fun _ => TokenPhase.Asks) (fun i => job_along (jobs i))
    hs (job_requesting (jobs i)) hp fun q hasks => ?_
  cases hasks

theorem sole_of_live (hs : Reachable (Pool.Start AuthWorld.Opening) (sharing jobs C).Step s)
    {c : CachedToken} (hc : s.world.store.token = some c) (hlive : s.world.now < c.expiresAt) :
    Sole c s.world.issued (fun i => (s.returned i).isSome ∨ (s.raised i).isSome) s.world
      (Pool.phase (fun _ => TokenPhase.next) (fun i => (jobs i).start) s) := by
  refine ⟨hc, rfl, fun i p hp => ?_⟩
  have hcached : s.world.store.cached s.world.now ≠ none := by
    simp [TokenStore.cached, hc, hlive]
  have hsaw := (seen hs).saw i p hp
  cases p with
  | posting => exact absurd hsaw hcached
  | storing token => exact absurd hsaw hcached
  | leaving found =>
    cases found with
    | none => exact absurd hsaw hcached
    | some t =>
      obtain ⟨c', hc', rfl⟩ := hsaw
      obtain rfl := Option.some.inj (hc.symm.trans hc')
      exact .inl rfl
  | left found => exact .inr ⟨over_of_left hs hp, found, rfl⟩
  | _ => exact .inl trivial

theorem lasts (hs : Reachable (Pool.Start AuthWorld.Opening) (sharing jobs C).Step s)
    {c : CachedToken} (hc : s.world.store.token = some c) (hlive : s.world.now < c.expiresAt)
    (hlater : Reachable (· = s) (sharing jobs C).Step s') :
    Lasts c s.world.discarded s.world.issued
      (fun i => (s.returned i).isSome ∨ (s.raised i).isSome) s'.world
      (Pool.phase (fun _ => TokenPhase.next) (fun i => (jobs i).start) s') := by
  refine Pool.inv_since (P := sharing jobs C) (fun _ => TokenPhase.Asks)
    (fun i => job_along (jobs i)) (Lasts c _ _ _) ?_ ?_ ?_ hs ?_ hlater
  · intro w ph i h hi
    refine ⟨h.1, h.2.imp_right (Or.imp_right fun hsole => hsole.move rfl rfl ?_)⟩
    cases jobs i with
    | token => exact trivial
    | invalidate => exact trivial
  · rintro w ph i p q x w' ⟨hle, h⟩ hp hasks hw
    have hmore : w.discarded.length ≤ w'.discarded.length ∧ w'.now = w.now := by
      cases hw <;> simp
    refine ⟨le_trans hle hmore.1, ?_⟩
    rcases h with hgone | hexpired | hsole
    · exact .inl (lt_of_lt_of_le hgone hmore.1)
    · exact .inr (.inl (hmore.2 ▸ hexpired))
    · rcases lt_or_ge w.now c.expiresAt with hlive | hexpired
      · rcases hsole.answers hlive hp hasks hw with hsole' | hgone
        · exact .inr (.inr hsole')
        · exact .inl (lt_of_le_of_lt hle hgone)
      · exact .inr (.inl (hmore.2 ▸ hexpired))
  · rintro w ph w' ⟨hle, h⟩ ⟨now, hnow, rfl⟩
    refine ⟨hle, h.imp_right (Or.imp (fun hexpired => le_trans hexpired hnow) ?_)⟩
    exact fun hsole => ⟨hsole.token, hsole.issued, hsole.finds⟩
  · exact ⟨le_rfl, .inr (.inr (sole_of_live hs hc hlive))⟩

/-- Time does not go back. -/
theorem now_le_of_later (hlater : Reachable (· = s) (sharing jobs C).Step s') :
    s.world.now ≤ s'.world.now := by
  induction hlater with
  | start heq => exact heq ▸ le_rfl
  | step hlater hstep ih =>
    refine le_trans ih ?_
    cases hstep with
    | start i hi => exact le_rfl
    | silent hi => exact le_rfl
    | answered x hi hw => cases hw <;> exact le_rfl
    | env hw =>
      obtain ⟨now, hle, rfl⟩ := hw
      exact hle

/-- **One token for all.** While a token is in memory, has not expired and is not thrown away,
    it stays there, no other is issued and nobody asks for one; every call that ends returns it,
    however much of it was done before the token came. -/
theorem live_token_shared {jobs : ι → TokenJob}
    {s s' : Pool.State (AuthWorld ι) ι AuthReq.Resp Exc (Option String)}
    (hs : Reachable (Pool.Start AuthWorld.Opening) (sharing jobs fun _ _ _ => True).Step s)
    {c : CachedToken} (hc : s.world.store.token = some c)
    (hlater : Reachable (· = s) (sharing jobs fun _ _ _ => True).Step s')
    (hlive : s'.world.now < c.expiresAt) (hkept : s'.world.discarded = s.world.discarded) :
    s'.world.store.token = some c ∧ s'.world.issued = s.world.issued ∧
      (∀ i, ¬ s'.Waits i .postToken) ∧
      ∀ i, s.returned i = none → s.raised i = none →
        (∀ found, s'.returned i = some found → found = some c.accessToken) ∧
          s'.raised i = none := by
  have hlive₀ := lt_of_le_of_lt (now_le_of_later hlater) hlive
  have hsole := ((lasts hs hc hlive₀ hlater).2.resolve_left (by simp [hkept])).resolve_left
    (not_le.mpr hlive)
  have hs' := hs.trans hlater
  refine ⟨hsole.token, hsole.issued, ?_, fun i hret hraise => ⟨?_, ?_⟩⟩
  · rintro i ⟨past, k, hi⟩
    obtain ⟨p, hp, hasks⟩ := Pool.ok_of_await (fun _ => TokenPhase.Asks)
      (fun i => job_along (jobs i)) hs' hi
    cases hasks
    rcases hsole.finds i _ hp with hf | ⟨-, found, hleft⟩
    · exact hf
    · cases hleft
  · intro found hfound
    obtain ⟨p, hp, hleft⟩ := Pool.fin_returned (fun _ => TokenPhase.Asks)
      (fun i => job_leaves (jobs i)) hs' hfound
    obtain rfl : p = .left found := hleft
    rcases hsole.finds i _ hp with hf | ⟨hover, -⟩
    · exact hf
    · exact absurd hover (by simp [hret, hraise])
  · refine Option.eq_none_iff_forall_ne_some.mpr fun e he => ?_
    obtain ⟨p, hp, hleft⟩ := Pool.fin_raised (fun _ => TokenPhase.Asks)
      (fun i => job_leaves (jobs i)) hs' he
    obtain rfl : p = .left none := hleft
    rcases hsole.finds i _ hp with hf | ⟨hover, -⟩
    · exact absurd hf (by simp [Finds])
    · exact absurd hover (by simp [hret, hraise])

/-- What more turns lead to is reached from where the first ones led. -/
theorem visits_later (C : AuthWorld Visit → CachedToken → FileWrite → Prop)
    [∀ w new write, Decidable (C w new write)] (turns more : List (Pool.Turn Visit Luck ℕ)) :
    Reachable (· = visits C turns) (sharing Visit.job C).Step (visits C (turns ++ more)) := by
  unfold visits Pool.play
  rw [List.foldl_append]
  exact Pool.turns_reachable (answeringToken_answers C) passing_passes more _ (.start rfl)

/-- Two calls look before there is a token; a third one issues it. -/
def coldStart : List (Pool.Turn Visit Luck ℕ) :=
  visit .second 2 {} ++ visit .third 2 {} ++ visit .first 6 (.issues "D" 86400 .kept)

/-- The lock goes round. -/
def everyone : List (Pool.Turn Visit Luck ℕ) :=
  visit .first 1 {} ++ visit .second 3 {} ++ visit .third 3 {}

/-- The two that waited for the lock return the token of the third. -/
theorem live_token_shared_coldStart :
    (visits (fun _ _ _ => True) (coldStart ++ everyone)).returned .third = some (some "D") ∧
      (visits (fun _ _ _ => True) (coldStart ++ everyone)).world.issued = ["D"] := by
  obtain ⟨-, hissued, -, hends⟩ := live_token_shared
    (visits_reachable (fun _ _ _ => True) coldStart) (c := .issued 0 "D" 86400)
    (by decide +kernel) (visits_later (fun _ _ _ => True) coldStart everyone) (by decide +kernel)
    (by decide +kernel)
  constructor
  · have hreturned : ((visits (fun _ _ _ => True) (coldStart ++ everyone)).returned
        .third).isSome := by decide +kernel
    obtain ⟨found, hfound⟩ := Option.isSome_iff_exists.mp hreturned
    rw [hfound, (hends .third (by decide +kernel) (by decide +kernel)).1 found hfound]
    rfl
  · rw [hissued]
    decide +kernel

end Proof.LiveToken
end TossSleeve
