import TossSleeve.Proof.LiveToken

/-!
# `Proof/Endings.lean` — every call of `TossAuth` ends

A lock that is not given back stops everyone who needs a token: every order, every cancellation,
every poll. It is held across a request to Toss that may fail in any way, and what the answer holds
may raise in the middle. Still no call waits for ever: each makes at most six requests
(`past_length_le_six`), and when none can go on, all have ended and the lock is free
(`holder_of_halted`), whatever Toss answered and whatever became of the file.

What a call raises is what its own token request came to (`raised_failed`): a failed issue is the
business of the one who asked for it, and the next one under the lock asks again.
-/

set_option autoImplicit false

namespace TossSleeve

open Lib Lib.Proc

namespace TokenPhase

/-- How many requests a call has still to make, at most. -/
def rank : TokenPhase → ℕ
  | .looking => 6
  | .wanting => 5
  | .checking => 4
  | .posting => 3
  | .storing _ => 2
  | .leaving _ => 1
  | .left _ => 0
  | .dropping => 3
  | .discarding => 2

theorem rank_posted_lt (outcome : PostOutcome) : (posted outcome).rank < 3 := by
  unfold posted
  cases issueToken outcome with
  | ok token => simp [rank]
  | error f => simp [rank]

/-- Every request is a step towards the end. -/
theorem rank_next_lt {p : TokenPhase} {q : AuthReq} (h : p.Asks q) (x : q.Resp) :
    (p.next ⟨q, x⟩).rank < p.rank := by
  cases h with
  | look => cases x <;> simp [next, rank]
  | want => simp [next, rank]
  | check => cases x <;> simp [next, rank]
  | post => exact rank_posted_lt x
  | store token expiresIn => simp [next, rank]
  | drop => simp [next, rank]
  | discard => simp [next, rank]
  | leave token => simp [next, rank]

end TokenPhase

variable {ι : Type} [DecidableEq ι]

/-- Whatever a call asks for it gets, if it is not the lock or the lock is free. -/
theorem AuthWorld.exists_answer {p : TokenPhase} {q : AuthReq} (h : p.Asks q) (w : AuthWorld ι)
    (i : ι) (hlock : q = .lock → w.holder = none) :
    ∃ x w', w.Answers (fun _ _ _ => True) i ⟨q, x⟩ w' := by
  cases h with
  | look => exact ⟨_, _, .cached⟩
  | want => exact ⟨_, _, .lock (hlock rfl)⟩
  | check => exact ⟨_, _, .recheck true⟩
  | post =>
    have hnone : ∀ t ∈ issuedBy .connectFailed, t ∉ w.issued := by
      simp [issuedBy, issueToken, Except.toOption]
    exact ⟨_, _, .postToken hnone⟩
  | store token expiresIn => exact ⟨_, _, .record 0 .written trivial⟩
  | drop => exact ⟨_, _, .lock (hlock rfl)⟩
  | discard => exact ⟨_, _, .discard true⟩
  | leave token => exact ⟨_, _, .unlock⟩

namespace Proof.Endings

open LiveToken

variable {jobs : ι → TokenJob}
  {s : Pool.State (AuthWorld ι) ι AuthReq.Resp Exc (Option String)}

theorem past_length_le_six
    (hs : Reachable (Pool.Start AuthWorld.Opening) (sharing jobs fun _ _ _ => True).Step s) (i : ι)
    (th : Thread AuthReq.Resp Exc (Option String)) (hth : s.thread i = some th) :
    th.past.length ≤ 6 := by
  have hrank := Pool.past_length_le (P := sharing jobs fun _ _ _ => True)
    (fun _ => TokenPhase.Asks) TokenPhase.rank (fun i => job_along (jobs i))
    (fun i p q x h => TokenPhase.rank_next_lt h x) hs i th hth
  have hstart : (jobs i).start.rank ≤ 6 := by
    cases jobs i <;> simp [TokenJob.start, TokenPhase.rank]
  omega

/-! ## 1. When nobody can go on -/

/-- A call that has ended is not under the lock. -/
theorem not_under_of_ended
    (hs : Reachable (Pool.Start AuthWorld.Opening) (sharing jobs fun _ _ _ => True).Step s) {i : ι}
    (h : (s.returned i).isSome ∨ (s.raised i).isSome) {p : TokenPhase}
    (hp : Pool.phase (fun _ => TokenPhase.next) (fun i => (jobs i).start) s i = some p) :
    ¬ p.Under := by
  rcases h with h | h
  · obtain ⟨found, hfound⟩ := Option.isSome_iff_exists.mp h
    obtain ⟨p', hp', hleft⟩ := Pool.fin_returned (fun _ => TokenPhase.Asks)
      (fun i => job_leaves (jobs i)) hs hfound
    obtain rfl := Option.some.inj (hp.symm.trans hp')
    obtain rfl : p = .left found := hleft
    exact not_false
  · obtain ⟨e, he⟩ := Option.isSome_iff_exists.mp h
    obtain ⟨p', hp', hleft⟩ := Pool.fin_raised (fun _ => TokenPhase.Asks)
      (fun i => job_leaves (jobs i)) hs he
    obtain rfl := Option.some.inj (hp.symm.trans hp')
    obtain rfl : p = .left none := hleft
    exact not_false

/-- Who waits in vain waits for the lock, and somebody has it. -/
theorem wants_of_stuck
    (hs : Reachable (Pool.Start AuthWorld.Opening) (sharing jobs fun _ _ _ => True).Step s) {i : ι}
    (h : (sharing jobs fun _ _ _ => True).Stuck s i) :
    ∃ p, Pool.phase (fun _ => TokenPhase.next) (fun i => (jobs i).start) s i = some p ∧
      p.Asks .lock ∧ s.world.holder ≠ none := by
  obtain ⟨past, q, k, hth, hvain⟩ := h
  obtain ⟨p, hp, hasks⟩ := Pool.ok_of_await (fun _ => TokenPhase.Asks)
    (fun i => job_along (jobs i)) hs hth
  have hlock : ¬ (q = .lock → s.world.holder = none) := by
    intro hlock
    obtain ⟨x, w', hw⟩ := s.world.exists_answer hasks i hlock
    exact hvain x w' hw
  obtain ⟨rfl, hholder⟩ := Classical.not_imp.mp hlock
  exact ⟨p, hp, hasks, hholder⟩

/-- **Nobody keeps the lock**: whoever has it can go on. -/
theorem holder_of_halted
    (hs : Reachable (Pool.Start AuthWorld.Opening) (sharing jobs fun _ _ _ => True).Step s)
    (hhalted : (sharing jobs fun _ _ _ => True).Halted s) : s.world.holder = none := by
  refine Option.eq_none_iff_forall_ne_some.mpr fun j hj => ?_
  obtain ⟨p, hp, hunder⟩ := (seen hs).lock.held j hj
  have hthread : s.thread j ≠ none := by
    intro hnone
    rw [Pool.phase, hnone] at hp
    exact absurd hp (by simp)
  rcases hhalted j hthread with h | h | h
  · exact not_under_of_ended hs (.inl h) hp hunder
  · exact not_under_of_ended hs (.inr h) hp hunder
  · obtain ⟨p', hp', hasks, -⟩ := wants_of_stuck hs h
    obtain rfl := Option.some.inj (hp.symm.trans hp')
    cases hasks with
    | want => exact hunder
    | drop => exact hunder

/-! ## 2. What is raised -/

/-- A token request failed, and `e` says how. -/
def Failed (past : List (Event AuthReq.Resp)) (e : Exc) : Prop :=
  ∃ outcome f, ⟨.postToken, outcome⟩ ∈ past ∧ issueToken outcome = .error f ∧ e = f.exc

theorem Failed.later {past : List (Event AuthReq.Resp)} {e : Exc} (h : Failed past e)
    (ev : Event AuthReq.Resp) : Failed (history past ev) e := by
  obtain ⟨outcome, f, hmem, hf, he⟩ := h
  exact ⟨outcome, f, mem_history.mpr (.inl hmem), hf, he⟩

/-- A stretch of a call raises only what its token request came to. -/
abbrev Blames {α : Type} (p : AuthProg α) (past : List (Event AuthReq.Resp)) : Prop :=
  Along history (fun _ _ => True)
    (fun past r => ∀ e, r = .error e → Failed past e) p past

theorem blames_locked {α : Type} {body : AuthProg α}
    (h : ∀ past, Blames body past) (past : List (Event AuthReq.Resp)) :
    Blames (AuthProg.locked body) past := by
  refine ⟨trivial, fun _ => ?_⟩
  show Along _ _ _ (body.attempt (fun a => do AuthProg.askAuth .unlock; .ret a)
    fun e => do AuthProg.askAuth .unlock; .raise e) _
  refine Along.attempt (fun past a _ => ?_) (fun past e he => ?_) (h _)
  · exact ⟨trivial, fun _ e he => absurd he (by simp)⟩
  · refine ⟨trivial, fun x e' he' => ?_⟩
    obtain rfl := Except.error.inj he'
    exact (he e rfl).later _

theorem blames_token (past : List (Event AuthReq.Resp)) : Blames SharedAuth.token past := by
  refine ⟨trivial, fun x => ?_⟩
  cases x with
  | some token => exact fun e he => absurd he (by simp)
  | none =>
    apply blames_locked
    intro past
    refine ⟨trivial, fun x => ?_⟩
    cases x with
    | some token => exact fun e he => absurd he (by simp)
    | none =>
      refine ⟨trivial, fun outcome => ?_⟩
      show Blames (SharedAuth.granted outcome) _
      unfold SharedAuth.granted
      cases hf : issueToken outcome with
      | ok token => exact ⟨trivial, fun _ e he => absurd he (by simp)⟩
      | error f =>
        intro e he
        obtain rfl := Except.error.inj he
        exact ⟨outcome, f, by simp, hf, rfl⟩

theorem blames_job (job : TokenJob) : Blames job.program [] := by
  cases job with
  | token =>
    refine .bind (blames_token []) (fun past a _ e he => absurd he (by simp)) ?_
    intro past e h e' he'
    obtain rfl := Except.error.inj he'
    exact h e rfl
  | invalidate =>
    have hdiscard : ∀ past, Blames (AuthProg.askAuth .discard) past := by
      intro past
      exact ⟨trivial, fun _ e he => absurd he (by simp)⟩
    refine .bind (blames_locked hdiscard []) (fun past a _ e he => absurd he (by simp)) ?_
    intro past e h e' he'
    obtain rfl := Except.error.inj he'
    exact h e rfl

/-- A call raises what its own token request came to. -/
theorem raised_failed
    (hs : Reachable (Pool.Start AuthWorld.Opening) (sharing jobs fun _ _ _ => True).Step s) {i : ι}
    {e : Exc} (h : s.raised i = some e) : ∃ th, s.thread i = some th ∧ Failed th.past e := by
  have hends : ∃ past, Pool.phase (fun _ => history) (fun _ => []) s i = some past ∧
      ∀ e', Except.error (α := Option String) e = .error e' → Failed past e' :=
    Pool.fin_raised (fun _ _ _ => True) (fun i => blames_job (jobs i)) hs h
  obtain ⟨past, hpast, hfailed⟩ := hends
  obtain ⟨th, hth, hphase⟩ := Option.map_eq_some_iff.mp hpast
  rw [Pool.phaseOf, foldl_history, List.nil_append] at hphase
  exact ⟨th, hth, hphase ▸ hfailed e rfl⟩

/-- **Every call of one `TossAuth` ends, and leaves the lock free.** Whatever the token endpoint
    answers, whatever becomes of the file and in whatever order the calls go on: none makes more
    than six requests; one that raises has had its own token request fail, and raises what that came
    to; and when none of the started calls can go on, all have ended and nobody has the lock. -/
theorem token_calls_end {jobs : ι → TokenJob}
    {s : Pool.State (AuthWorld ι) ι AuthReq.Resp Exc (Option String)}
    (hs : Reachable (Pool.Start AuthWorld.Opening) (sharing jobs fun _ _ _ => True).Step s) :
    (∀ i th, s.thread i = some th → th.past.length ≤ 6) ∧
    (∀ i e, s.raised i = some e → ∃ th, s.thread i = some th ∧ Failed th.past e) ∧
    ((sharing jobs fun _ _ _ => True).Halted s → s.world.holder = none ∧
      ∀ i, s.thread i ≠ none → (s.returned i).isSome ∨ (s.raised i).isSome) := by
  refine ⟨past_length_le_six hs, fun i e he => raised_failed hs he, fun hhalted => ?_⟩
  have hfree := holder_of_halted hs hhalted
  refine ⟨hfree, fun i hi => ?_⟩
  rcases hhalted i hi with h | h | h
  · exact .inl h
  · exact .inr h
  · obtain ⟨-, -, -, hholder⟩ := wants_of_stuck hs h
    exact absurd hfree hholder

/-- The request of the first call fails; the second, which waited for the lock, asks again. -/
def askedAgain : List (Pool.Turn Visit Luck ℕ) :=
  visit .second 2 {} ++ visit .first 6 {} ++ visit .second 5 (.issues "D" 86400 .written)

theorem token_calls_end_askedAgain :
    (visits (fun _ _ _ => True) askedAgain).world.holder = none ∧
      (visits (fun _ _ _ => True) askedAgain).returned .second = some (some "D") ∧
      ∃ th e, (visits (fun _ _ _ => True) askedAgain).thread .first = some th ∧
        Failed th.past e := by
  obtain ⟨-, hraised, hends⟩ := token_calls_end (visits_reachable (fun _ _ _ => True) askedAgain)
  refine ⟨(hends fun i hi => ?_).1, by decide +kernel, ?_⟩
  · cases i with
    | first => exact .inr (.inl (by decide +kernel))
    | second => exact .inl (by decide +kernel)
    | third => exact absurd rfl hi
    | drop => exact absurd rfl hi
  · have hfirst : ((visits (fun _ _ _ => True) askedAgain).raised .first).isSome := by
      decide +kernel
    obtain ⟨e, he⟩ := Option.isSome_iff_exists.mp hfirst
    obtain ⟨th, hth, hfailed⟩ := hraised .first e he
    exact ⟨th, e, hth, hfailed⟩

end Proof.Endings
end TossSleeve
