import TossSleeve.Proof.Reauth
import Mathlib.Data.Fintype.EquivFin
import Mathlib.Data.Finset.Dedup

/-!
# `Proof/Recovery.lean` — one token dies, and many calls notice

Toss accepts the token it issued last, and may forget it once. Every call that was under way with
the old token is refused, and then does the same: it throws away what the `TossAuth` has cached, and
asks for a token again. The first to do so gets a new token for all. But `invalidate` does not look
at what it throws away: the next call that was refused with the *old* token throws away the *new*
one, has a third one issued, and with that the server forgets the second, which the first call may
be about to send with its one retry.

So the calls recover if none throws away anything but the token it was refused with (`Orderly`; and
if no token runs out meanwhile, which is another way to need a new one). §2 is the invariant, in
three stages: the server's token is good; it is dead, and there is none; a new one was issued. §3 is
the step lemma, §4 the results.
-/

set_option autoImplicit false

namespace TossSleeve

open Lib Lib.Proc

/-! ## 1. The server -/

/-- A `TossAuth`, its server, and the clock. -/
structure ServerWorld (ι : Type) where
  store : TokenStore
  now : Time
  /-- `_issue_lock`. -/
  holder : Option ι := none
  /-- The token the server accepts. -/
  current : Option String
  /-- Every token there has been. -/
  issued : List String
  /-- Has the server forgotten its token? -/
  struck : Bool := false
  /-- The tokens issued since. -/
  reissued : ℕ := 0
  /-- The header a call was refused with last. -/
  rejected : ι → Option String := fun _ => none

namespace ServerWorld

variable {ι : Type}

/-- The server accepts the last token it issued, until it forgets it. -/
def Accepts (w : ServerWorld ι) (authorization : String) : Prop :=
  w.current.map bearer = some authorization

instance (w : ServerWorld ι) (authorization : String) : Decidable (w.Accepts authorization) :=
  inferInstanceAs (Decidable (_ = _))

/-- How it answers a request: with some success, or with the 401. -/
structure Answered (w : ServerWorld ι) (authorization : String) (r : Response) : Prop where
  accepted : w.Accepts authorization → r.Success
  refused : ¬ w.Accepts authorization → r.RefusesToken

instance (w : ServerWorld ι) (authorization : String) (r : Response) :
    Decidable (w.Answered authorization r) :=
  decidable_of_iff ((w.Accepts authorization → r.Success) ∧
    (¬ w.Accepts authorization → r.RefusesToken)) ⟨fun h => ⟨h.1, h.2⟩, fun h => ⟨h.1, h.2⟩⟩

variable [DecidableEq ι]

/-- The world after a request of a call was answered. -/
def served (w : ServerWorld ι) (i : ι) (authorization : String) (r : Response) : ServerWorld ι :=
  if r.Success then w
  else { w with rejected := Function.update w.rejected i (some authorization) }

/-- The server issues a token, and forgets the one before. -/
def issue (w : ServerWorld ι) (token : String) : ServerWorld ι :=
  { w with
    current := some token
    issued := token :: w.issued
    reissued := if w.struck then w.reissued + 1 else w.reissued }

/-- How the world answers a call. `C` is what is known of the calls' requests. -/
inductive Answers (C : ServerWorld ι → ι → AuthReq → Prop) (w : ServerWorld ι) (i : ι) :
    Event AuthReq.Resp → ServerWorld ι → Prop
  | cached (h : C w i .cached) : Answers C w i ⟨.cached, w.store.cached w.now⟩ w
  | lock (h : w.holder = none) : Answers C w i ⟨.lock, ()⟩ { w with holder := some i }
  | unlock : Answers C w i ⟨.unlock, ()⟩ { w with holder := none }
  | recheck (h : C w i .recheck) (readable : Bool) :
      Answers C w i ⟨.recheck, (w.store.recheck w.now readable).1⟩
        { w with store := (w.store.recheck w.now readable).2 }
  | postToken {outcome : PostOutcome} {token : String} (h : issueToken outcome = .ok token)
      (hnew : token ∉ w.issued) : Answers C w i ⟨.postToken, outcome⟩ (w.issue token)
  | record {token : String} {json : Json} {expiresIn : Time}
      (h : tokenRefreshMarginSeconds < expiresIn) (write : FileWrite) :
      Answers C w i ⟨.record token json, ()⟩
        { w with store := w.store.record (.issued w.now token expiresIn) write }
  | discard (h : C w i .discard) (unlinked : Bool) :
      Answers C w i ⟨.discard, ()⟩ { w with store := w.store.discard unlinked }
  | acquire : Answers C w i ⟨.other .acquire, ()⟩ w
  | acquireRead : Answers C w i ⟨.other .acquireRead, ()⟩ w
  | accountSeq (seq : String) : Answers C w i ⟨.other .accountSeq, .ok seq⟩ w
  | get {path authorization : String} {params : List (String × String)} {account : Option String}
      {r : Response} (h : w.Answered authorization r) :
      Answers C w i ⟨.other (.get path params authorization account), .answered r⟩
        (w.served i authorization r)
  | post {path : String} {payload : Payload} {headers : Headers} {r : Response}
      (h : w.Answered headers.authorization r) :
      Answers C w i ⟨.other (.post path payload headers), .answered r⟩
        (w.served i headers.authorization r)

/-- Time passes; once, the server forgets its token. -/
inductive Moves (w : ServerWorld ι) : ServerWorld ι → Prop
  | pass {now : Time} (h : w.now ≤ now) : Moves w { w with now }
  | strike {token : String} (h : w.current = some token) (hs : w.struck = false) :
      Moves w { w with current := none, struck := true }

/-- What is cached, if anything, is the token the server accepts. -/
structure Good (w : ServerWorld ι) : Prop where
  memory : ∀ t ∈ w.store.token, w.current = some t.accessToken
  file : ∀ t ∈ w.store.file, w.current = some t.accessToken
  invalidated : w.store.invalidated = false
  current : ∀ t ∈ w.current, t ∈ w.issued
  holder : w.holder = none
  struck : w.struck = false
  reissued : w.reissued = 0

/-- **In order**: no call finds that the token in memory has run out, and none throws away a token
    other than the one it was refused with. -/
def Orderly (w : ServerWorld ι) (i : ι) : AuthReq → Prop
  | .cached => ∀ t ∈ w.store.token, w.now < t.expiresAt
  | .recheck => ∀ t ∈ w.store.token, w.now < t.expiresAt
  | .discard => ∀ t ∈ w.store.token, w.rejected i = some (bearer t.accessToken)
  | _ => True

end ServerWorld

variable {ι : Type} [DecidableEq ι]

/-- Any number of calls of `request_with_reauth`, that share one `TossAuth`. -/
def recovering (calls : ι → Sender) (C : ServerWorld ι → ι → AuthReq → Prop) :
    Pool (ServerWorld ι) ι AuthReq.Resp Exc Json where
  program i := SharedAuth.requestWithReauth (calls i).send (calls i).ambiguous
  Answer w i e w' := w.Answers C i e w'
  Env w w' := w.Moves w'

namespace ReauthPhase

/-- Does the call hold the lock? -/
def Under : ReauthPhase → Prop
  | .seeking _ p => p.Under
  | .refused _ p => p.Under
  | _ => False

/-- Is the call about to store a token, or asking for one? -/
def Issuing : ReauthPhase → Prop
  | .seeking _ .posting => True
  | .seeking _ (.storing _) => True
  | _ => False

/-- Where no call gets, or only one that fails: `auth_headers` does not throw tokens away, and
    `invalidate` does not look for them. -/
def Astray : ReauthPhase → Prop
  | .failed => True
  | .seeking _ (.leaving none) => True
  | .seeking _ .dropping => True
  | .seeking _ .discarding => True
  | .refused _ .dropping => False
  | .refused _ .discarding => False
  | .refused _ (.leaving _) => False
  | .refused _ _ => True
  | _ => False

/-- What a call that is not astray asks for. -/
inductive Goes : ReauthPhase → AuthReq → Prop
  | look (retry : Bool) : Goes (.seeking retry .looking) .cached
  | want (retry : Bool) : Goes (.seeking retry .wanting) .lock
  | check (retry : Bool) : Goes (.seeking retry .checking) .recheck
  | post (retry : Bool) : Goes (.seeking retry .posting) .postToken
  | store (retry : Bool) (token : String) (json : Json) :
      Goes (.seeking retry (.storing token)) (.record token json)
  | leave (retry : Bool) (token : String) : Goes (.seeking retry (.leaving (some token))) .unlock
  | drop (authorization : String) : Goes (.refused authorization .dropping) .lock
  | discard (authorization : String) : Goes (.refused authorization .discarding) .discard
  | leaveEmpty (authorization : String) (token : Option String) :
      Goes (.refused authorization (.leaving token)) .unlock
  | send {retry : Bool} {authorization : String} {q : BrokerReq} (h : Sends authorization q) :
      Goes (.sending retry authorization) (.other q)

theorem Asks.goes {p : ReauthPhase} {q : AuthReq} (h : p.Asks q) (hp : ¬ p.Astray) : p.Goes q := by
  cases h with
  | seeking h =>
    cases h with
    | leave token =>
      cases token with
      | none => exact absurd trivial hp
      | some token => exact .leave _ token
    | drop => exact absurd trivial hp
    | discard => exact absurd trivial hp
    | _ => constructor
  | refused h =>
    cases h with
    | drop => exact .drop _
    | discard => exact .discard _
    | leave token => exact .leaveEmpty _ token
    | _ => exact absurd trivial hp
  | sending h => exact .send h
  | failed => exact absurd trivial hp

/-- The header the call goes by. -/
def header : ReauthPhase → Option String
  | .seeking _ p => p.found.map bearer
  | .sending _ authorization => some authorization
  | .refused authorization _ => some authorization
  | _ => none

end ReauthPhase

namespace Proof

open ReauthPhase Reauth

/-! ## 2. The invariant

Three stages of the server, and what a call may be doing in each. -/

section Stages

omit [DecidableEq ι]

variable (w : ServerWorld ι)

/-- Nothing is cached, and the disk is not to be trusted. -/
def Emptied : Prop := w.store.token = none ∧ w.store.invalidated = true

/-- The server's token is good: no call was refused, and every header is of that token, which is
    cached unless it is just being stored. -/
def CalmPhase : ReauthPhase → Prop
  | .seeking false p => ∀ t ∈ p.found, w.current = some t ∧ (w.store.token = none → p = .storing t)
  | .sending false h => w.store.token ≠ none ∧ ∃ t, w.current = some t ∧ h = bearer t
  | .done => True
  | _ => False

/-- It is dead, and there is none: whoever has thrown it away has nothing, and nobody else will
    bring it back. -/
def DeadPhase : ReauthPhase → Prop
  | .seeking true p => p.found = none ∧ Emptied w
  | .seeking false (.storing _) => w.store.invalidated = false
  | .sending true _ => False
  | .refused _ (.leaving _) => Emptied w
  | _ => True

/-- A new one was issued: whoever tries again goes by it, or will. -/
def RenewedPhase (c : String) : ReauthPhase → Prop
  | .seeking true p => ∀ t ∈ p.found, t = c
  | .seeking false (.storing t) => t = c
  | .sending true h => h = bearer c
  | _ => True

inductive Stage (ph : ι → Option ReauthPhase) : Prop
  | calm (hs : w.struck = false) (hr : w.reissued = 0) (hf : w.store.invalidated = false)
      (memory : ∀ t ∈ w.store.token, w.current = some t.accessToken)
      (file : w.store.token = none → ∀ t ∈ w.store.file, (∀ i p, ph i = some p → ¬ p.Issuing) →
        w.current = some t.accessToken)
      (phases : ∀ i p, ph i = some p → CalmPhase w p)
  | dead (hs : w.struck = true) (hr : w.reissued = 0) (hc : w.current = none)
      (phases : ∀ i p, ph i = some p → DeadPhase w p)
  | renewed (c : String) (hs : w.struck = true) (hr : w.reissued = 1) (hc : w.current = some c)
      (memory : (∃ t ∈ w.store.token, t.accessToken = c) ∨
        w.store.token = none ∧ ∃ i retry, ph i = some (.seeking retry (.storing c)))
      (phases : ∀ i p, ph i = some p → RenewedPhase c p)

/-- What holds of a call in any stage. -/
structure CallOk (i : ι) (p : ReauthPhase) : Prop where
  known : ∀ h ∈ p.header, ∃ t ∈ w.issued, h = bearer t
  issuing : p.Issuing → w.store.token = none
  refused : ∀ h q, p = .refused h q → w.rejected i = some h ∧ ∀ c ∈ w.current, h ≠ bearer c
  going : ¬ p.Astray

/-- **The invariant.** -/
structure RecoveryInv (ph : ι → Option ReauthPhase) : Prop where
  lock : Guarded Under w.holder ph
  current : ∀ t ∈ w.current, t ∈ w.issued
  tokens : ∀ t ∈ w.store.tokens, t ∈ w.issued
  calls : ∀ i p, ph i = some p → CallOk w i p
  stage : Stage w ph

end Stages

/-! ## 3. One step -/

theorem cached_eq_map {s : TokenStore} {now : Time} (h : ∀ t ∈ s.token, now < t.expiresAt) :
    s.cached now = s.token.map (·.accessToken) := by
  unfold TokenStore.cached
  cases ht : s.token with
  | none => rfl
  | some t => simp [h t ht]

variable {w w' : ServerWorld ι} {ph : ι → Option ReauthPhase} {i : ι} {p p' : ReauthPhase}

/-- What a step may leave alone. -/
structure Still (w w' : ServerWorld ι) : Prop where
  store : w'.store = w.store
  current : w'.current = w.current
  struck : w'.struck = w.struck
  reissued : w'.reissued = w.reissued

omit [DecidableEq ι] in
theorem calmPhase_congr (h : Still w w') : CalmPhase w p → CalmPhase w' p := by
  cases p with
  | seeking retry q => cases retry <;> simp [CalmPhase, h.store, h.current]
  | sending retry a => cases retry <;> simp [CalmPhase, h.store, h.current]
  | refused a q => exact id
  | done => exact id
  | failed => exact id

omit [DecidableEq ι] in
theorem deadPhase_congr (h : Still w w') : DeadPhase w p → DeadPhase w' p := by
  unfold DeadPhase Emptied
  rw [h.store]
  exact id

/-- **A call moves, and the tokens do not.** -/
theorem Stage.move (h : Stage w ph) (hstill : Still w w') (hp : ph i = some p)
    (hissuing : ¬ p.Issuing)
    (hcalm : (∀ t ∈ w.store.token, w.current = some t.accessToken) → CalmPhase w p →
      CalmPhase w p')
    (hdead : w.current = none → DeadPhase w p → DeadPhase w p')
    (hrenewed : ∀ c, w.current = some c → (∀ t ∈ w.store.token, t.accessToken = c) →
      RenewedPhase c p → RenewedPhase c p') : Stage w' (Function.update ph i (some p')) := by
  cases h with
  | calm hs hr hf memory file phases =>
    refine .calm (hstill.struck ▸ hs) (hstill.reissued ▸ hr) (hstill.store ▸ hf) ?_ ?_ ?_
    · rwa [hstill.store, hstill.current]
    · rw [hstill.store, hstill.current]
      intro hnone t ht hnobody
      apply file hnone t ht
      intro j q hj
      by_cases hij : j = i
      · subst hij
        obtain rfl := Option.some.inj (hp.symm.trans hj)
        exact hissuing
      · exact hnobody j q (by rw [Function.update_of_ne hij]; exact hj)
    · apply Pool.forall_update
      · exact calmPhase_congr hstill (hcalm memory (phases i p hp))
      · intro j q _ hj
        exact calmPhase_congr hstill (phases j q hj)
  | dead hs hr hc phases =>
    refine .dead (hstill.struck ▸ hs) (hstill.reissued ▸ hr) (hstill.current ▸ hc) ?_
    apply Pool.forall_update
    · exact deadPhase_congr hstill (hdead hc (phases i p hp))
    · intro j q _ hj
      exact deadPhase_congr hstill (phases j q hj)
  | renewed c hs hr hc memory phases =>
    refine .renewed c (hstill.struck ▸ hs) (hstill.reissued ▸ hr) (hstill.current ▸ hc) ?_ ?_
    · rw [hstill.store]
      refine memory.imp id fun hnone => ⟨hnone.1, ?_⟩
      obtain ⟨j, retry, hj⟩ := hnone.2
      refine ⟨j, retry, ?_⟩
      rw [Function.update_of_ne]
      · exact hj
      · intro hij
        subst hij
        obtain rfl := Option.some.inj (hp.symm.trans hj)
        exact hissuing trivial
    · apply Pool.forall_update
      · apply hrenewed c hc ?_ (phases i p hp)
        intro t ht
        rcases memory with ⟨t', ht', hc'⟩ | ⟨hnone, -⟩
        · obtain rfl := Option.some.inj (ht.symm.trans ht')
          exact hc'
        · exact absurd (hnone.symm.trans ht) (by simp)
      · exact fun j q _ hj => phases j q hj

/-- A call of the `TossAuth` goes on, and still has no token. -/
theorem Stage.wait (h : Stage w ph) (hstill : Still w w') {retry : Bool} {q q' : TokenPhase}
    (hp : ph i = some (.seeking retry q)) (hissuing : ¬ (seeking retry q).Issuing)
    (hfound : q'.found = none) :
    Stage w' (Function.update ph i (some (.seeking retry q'))) := by
  apply h.move hstill hp hissuing
  · intro _ hcalm
    cases retry with
    | false => simp [CalmPhase, hfound]
    | true => exact hcalm
  · intro _ hdead
    cases retry with
    | false =>
      cases q' with
      | storing t => exact absurd hfound (by simp [TokenPhase.found])
      | _ => exact trivial
    | true => exact ⟨hfound, hdead.2⟩
  · intro c _ _ _
    cases retry with
    | false =>
      cases q' with
      | storing t => exact absurd hfound (by simp [TokenPhase.found])
      | _ => exact trivial
    | true => simp [RenewedPhase, hfound]

omit [DecidableEq ι] in
theorem CallOk.congr (h : CallOk w i p) (hstill : Still w w') (hissued : w'.issued = w.issued)
    (hrejected : w'.rejected i = w.rejected i) : CallOk w' i p := by
  obtain ⟨known, issuing, refused, going⟩ := h
  refine ⟨?_, ?_, ?_, going⟩
  · rwa [hissued]
  · rwa [hstill.store]
  · rwa [hrejected, hstill.current]

namespace RecoveryInv

/-- A call moves, and the tokens do not. -/
theorem move (h : RecoveryInv w ph) (hstill : Still w w') (hissued : w'.issued = w.issued)
    (hrejected : ∀ j, j ≠ i → w'.rejected j = w.rejected j)
    (hlock : Guarded Under w'.holder (Function.update ph i (some p'))) (hcall : CallOk w' i p')
    (hstage : Stage w' (Function.update ph i (some p'))) :
    RecoveryInv w' (Function.update ph i (some p')) := by
  refine ⟨hlock, ?_, ?_, ?_, hstage⟩
  · rw [hstill.current, hissued]
    exact h.current
  · rw [hstill.store, hissued]
    exact h.tokens
  · apply Pool.forall_update hcall
    intro j q hj hq
    exact (h.calls j q hq).congr hstill hissued (hrejected j hj)

omit [DecidableEq ι] in
/-- A call of the `TossAuth` that has no token yet. -/
theorem callOk_seeking {retry : Bool} {q : TokenPhase} (hfound : q.found = none)
    (hgoing : ¬ (ReauthPhase.seeking retry q).Astray)
    (hissuing : (ReauthPhase.seeking retry q).Issuing → w.store.token = none) :
    CallOk w i (.seeking retry q) :=
  ⟨by simp [header, hfound], hissuing, by simp, hgoing⟩

omit [DecidableEq ι] in
/-- A call that has found a token. -/
theorem callOk_leaving {retry : Bool} {t : String} (ht : t ∈ w.issued) :
    CallOk w i (.seeking retry (.leaving (some t))) := by
  refine ⟨?_, False.elim, by simp, id⟩
  intro a ha
  obtain rfl := Option.some.inj ha
  exact ⟨t, ht, rfl⟩

omit [DecidableEq ι] in
theorem callOk_sending {retry : Bool} {t : String} (ht : t ∈ w.issued) :
    CallOk w i (.sending retry (bearer t)) := by
  refine ⟨?_, False.elim, by simp, id⟩
  intro a ha
  obtain rfl := Option.some.inj ha
  exact ⟨t, ht, rfl⟩

omit [DecidableEq ι] in
/-- A call that has thrown a header away, or is going to. -/
theorem callOk_refused {a : String} {q q' : TokenPhase} (h : CallOk w i (.refused a q))
    (hgoing : ¬ (ReauthPhase.refused a q').Astray) : CallOk w i (.refused a q') := by
  refine ⟨h.known, False.elim, ?_, hgoing⟩
  intro b r hr
  obtain ⟨rfl, rfl⟩ := ReauthPhase.refused.inj hr
  exact h.refused a q rfl

omit [DecidableEq ι] in
theorem mem_tokens {s : TokenStore} {t : CachedToken} (h : t ∈ s.token) :
    t.accessToken ∈ s.tokens :=
  List.mem_map_of_mem (List.mem_append_left _ (Option.mem_toList.mpr h))

/-- The first look. -/
theorem cached (h : RecoveryInv w ph) {retry : Bool} (hp : ph i = some (.seeking retry .looking))
    (horderly : ∀ t ∈ w.store.token, w.now < t.expiresAt) :
    RecoveryInv w (Function.update ph i
      (some (next (.seeking retry .looking) ⟨.cached, w.store.cached w.now⟩))) := by
  have hstill : Still w w := ⟨rfl, rfl, rfl, rfl⟩
  have hlock : ∀ p', ¬ p'.Under → Guarded Under w.holder (Function.update ph i (some p')) :=
    fun p' hu => h.lock.stay hp ⟨fun hu' => absurd hu' hu, False.elim⟩
  rw [cached_eq_map horderly]
  cases htoken : w.store.token with
  | none =>
    exact h.move hstill rfl (fun _ _ => rfl) (hlock _ id) (callOk_seeking rfl id False.elim)
      (h.stage.wait hstill hp id rfl)
  | some t =>
    refine h.move hstill rfl (fun _ _ => rfl) (hlock _ id)
      (callOk_sending (h.tokens _ (mem_tokens htoken))) ?_
    refine h.stage.move hstill hp id ?_ ?_ ?_
    · intro hmemory hcalm
      cases retry with
      | false => exact ⟨by simp [htoken], t.accessToken, hmemory t htoken, rfl⟩
      | true => exact hcalm
    · intro _ hdead
      cases retry with
      | false => exact trivial
      | true => exact absurd (htoken.symm.trans hdead.2.1) (by simp)
    · intro c _ hmemory _
      cases retry with
      | false => exact trivial
      | true => exact congrArg bearer (hmemory t htoken)

/-- The lock is taken, for one thing or the other. -/
theorem lock_taken (h : RecoveryInv w ph) (hp : ph i = some p) (hgoes : p.Goes .lock)
    (hfree : w.holder = none) : RecoveryInv { w with holder := some i }
      (Function.update ph i (some (p.next ⟨.lock, ()⟩))) := by
  have hstill : Still w { w with holder := some i } := ⟨rfl, rfl, rfl, rfl⟩
  have hlock : ∀ p' : ReauthPhase, p'.Under →
      Guarded Under (some i) (Function.update ph i (some p')) :=
    fun p' hu => (hfree ▸ h.lock).acquire hu
  cases hgoes with
  | want retry =>
    exact h.move hstill rfl (fun _ _ => rfl) (hlock _ trivial) (callOk_seeking rfl id False.elim)
      (h.stage.wait hstill hp id rfl)
  | drop a =>
    exact h.move hstill rfl (fun _ _ => rfl) (hlock _ trivial)
      ((callOk_refused (h.calls i _ hp) id).congr hstill rfl rfl)
      (h.stage.move hstill hp id (fun _ hcalm => hcalm) (fun _ _ => trivial)
        fun _ _ _ _ => trivial)

/-- The lock is given back, after one thing or the other. -/
theorem unlock (h : RecoveryInv w ph) (hp : ph i = some p) (hgoes : p.Goes .unlock) :
    RecoveryInv { w with holder := none } (Function.update ph i (some (p.next ⟨.unlock, ()⟩))) := by
  have hstill : Still w { w with holder := none } := ⟨rfl, rfl, rfl, rfl⟩
  have hlock : p.Under → ∀ p' : ReauthPhase, ¬ p'.Under →
      Guarded Under none (Function.update ph i (some p')) :=
    fun hu p' hu' => h.lock.release hp hu hu'
  cases hgoes with
  | leave retry t =>
    obtain ⟨u, hu, heq⟩ := (h.calls i _ hp).known _ rfl
    obtain rfl := bearer_inj heq
    refine h.move hstill rfl (fun _ _ => rfl) (hlock trivial _ id) (callOk_sending hu) ?_
    refine h.stage.move hstill hp id ?_ ?_ ?_
    · intro _ hcalm
      cases retry with
      | false =>
        obtain ⟨hcurrent, hnone⟩ := hcalm t rfl
        exact ⟨fun he => absurd (hnone he) (by simp), t, hcurrent, rfl⟩
      | true => exact hcalm
    · intro _ hdead
      cases retry with
      | false => exact trivial
      | true => exact absurd hdead.1 (by simp [TokenPhase.found])
    · intro c _ _ hrenewed
      cases retry with
      | false => exact trivial
      | true => exact congrArg bearer (hrenewed t rfl)
  | leaveEmpty a token =>
    refine h.move hstill rfl (fun _ _ => rfl) (hlock trivial _ id)
      (callOk_seeking rfl id False.elim) (h.stage.move hstill hp id ?_ ?_ ?_)
    · exact fun _ hcalm => hcalm
    · exact fun _ hdead => ⟨rfl, hdead⟩
    · intro c _ _ _
      show ∀ t ∈ (none : Option String), t = c
      simp

/-- The request is answered: with the server's token it succeeds, and no call has another in its
    second attempt. -/
theorem served (h : RecoveryInv w ph) {retry : Bool} {a : String} {r : Response}
    (hp : ph i = some (.sending retry a)) (hr : w.Answered a r) :
    RecoveryInv (w.served i a r) (Function.update ph i (some (answered retry a (.answered r)))) := by
  have hcall := h.calls i _ hp
  rw [answered_eq]
  unfold ServerWorld.served
  by_cases hs : r.Success
  · rw [if_pos hs, if_pos hs]
    have hstill : Still w w := ⟨rfl, rfl, rfl, rfl⟩
    refine h.move hstill rfl (fun _ _ => rfl) (h.lock.stay hp Iff.rfl) ?_
      (h.stage.move hstill hp id (fun _ _ => trivial) (fun _ _ => trivial)
        fun _ _ _ _ => trivial)
    exact ⟨by simp [header], False.elim, by simp, id⟩
  · have haccepts : ¬ w.Accepts a := fun ha => hs (hr.accepted ha)
    have hstill : Still w { w with rejected := Function.update w.rejected i (some a) } :=
      ⟨rfl, rfl, rfl, rfl⟩
    -- A second attempt goes by the server's token, so this was the first.
    have hfirst : retry = false := by
      cases retry with
      | false => rfl
      | true =>
        cases h.stage with
        | calm _ _ _ _ _ phases => exact (phases i _ hp).elim
        | dead _ _ _ phases => exact (phases i _ hp).elim
        | renewed c _ _ hc _ phases =>
          have ha : a = bearer c := phases i _ hp
          refine absurd ?_ haccepts
          rw [ServerWorld.Accepts, hc, ha]
          rfl
    rw [if_neg hs, if_neg hs, if_pos ⟨hr.refused haccepts, hfirst⟩]
    subst hfirst
    refine h.move hstill rfl (fun j hj => Function.update_of_ne hj ..) (h.lock.stay hp Iff.rfl) ?_
      (h.stage.move hstill hp id ?_ (fun _ _ => trivial) fun _ _ _ _ => trivial)
    · refine ⟨hcall.known, False.elim, ?_, id⟩
      intro b q hq
      obtain ⟨rfl, -⟩ := ReauthPhase.refused.inj hq
      refine ⟨Function.update_self .., fun c hc hb => haccepts ?_⟩
      rw [ServerWorld.Accepts, show w.current = some c from hc, hb]
      rfl
    · intro _ hcalm
      obtain ⟨-, t, hcurrent, ha⟩ := hcalm
      refine absurd ?_ haccepts
      rw [ServerWorld.Accepts, hcurrent, ha]
      rfl

omit [DecidableEq ι] in
/-- Under the lock there is nobody else. -/
theorem alone (h : RecoveryInv w ph) (hp : ph i = some p) (hu : p.Under) {j : ι}
    {q : ReauthPhase} (hj : j ≠ i) (hq : ph j = some q) : ¬ q.Under :=
  fun hu' => hj (h.lock.alone hq hu' hp hu)

omit [DecidableEq ι] in
theorem not_issuing (h : RecoveryInv w ph) (hp : ph i = some p) (hu : p.Under) {j : ι}
    {q : ReauthPhase} (hj : j ≠ i) (hq : ph j = some q) : ¬ q.Issuing := by
  intro hissuing
  apply h.alone hp hu hj hq
  cases q with
  | seeking retry q => cases q <;> first | exact trivial | exact hissuing
  | _ => exact hissuing.elim

/-- Who holds the lock and stores nothing is alone in it. -/
theorem nobody_stores (h : RecoveryInv w ph) (hp : ph i = some p) (hu : p.Under)
    (hno : ∀ retry c, p ≠ .seeking retry (.storing c)) {j : ι} {retry : Bool} {c : String}
    (hj : ph j = some (.seeking retry (.storing c))) : False := by
  by_cases hij : j = i
  · subst hij
    exact hno retry c (Option.some.inj (hp.symm.trans hj))
  · exact not_issuing h hp hu hij hj trivial

omit [DecidableEq ι] in
/-- What is cached was issued, if what is new in memory was. -/
theorem tokens_stored {s : TokenStore} {issued : List String} {new : CachedToken}
    (htoken : s.token = some new) (hnew : new.accessToken ∈ issued)
    (hfile : ∀ t ∈ s.file, t.accessToken ∈ issued) : ∀ t ∈ s.tokens, t ∈ issued := by
  intro t ht
  obtain ⟨c, hc, rfl⟩ := List.mem_map.mp ht
  rcases List.mem_append.mp hc with hc | hc
  · rw [htoken] at hc
    obtain rfl := Option.some.inj (Option.mem_toList.mp hc)
    exact hnew
  · exact hfile c (Option.mem_toList.mp hc)

omit [DecidableEq ι] in
theorem mem_file (h : RecoveryInv w ph) : ∀ t ∈ w.store.file, t.accessToken ∈ w.issued :=
  fun _ ht => h.tokens _ (List.mem_map_of_mem (List.mem_append_right _ (Option.mem_toList.mpr ht)))

/-- Who holds the lock may store what it likes. -/
theorem calls_stored (h : RecoveryInv w ph) (hp : ph i = some p) (hu : p.Under)
    {store : TokenStore} (hself : CallOk { w with store } i p') :
    ∀ j q, Function.update ph i (some p') j = some q → CallOk { w with store } j q := by
  apply Pool.forall_update hself
  intro j q hj hq
  have hcall := h.calls j q hq
  exact ⟨hcall.known, fun hq' => absurd hq' (not_issuing h hp hu hj hq), hcall.refused,
    hcall.going⟩

omit [DecidableEq ι] in
/-- While nothing is cached, only the call that stores one has a token of the server's. -/
theorem idle (hcalm : CalmPhase w p) (hnone : w.store.token = none)
    (hissuing : ¬ p.Issuing) : p.header = none := by
  cases p with
  | seeking retry q =>
    cases retry with
    | true => exact hcalm.elim
    | false =>
      cases hq : q.found with
      | none => simp [header, hq]
      | some t =>
        obtain rfl := (hcalm t hq).2 hnone
        exact absurd trivial hissuing
  | sending retry a =>
    cases retry with
    | true => exact hcalm.elim
    | false => exact absurd hnone hcalm.1
  | _ => first | rfl | exact hcalm.elim

omit [DecidableEq ι] in
/-- A call without a token is as it was, whatever becomes of the tokens. -/
theorem calm_of_idle (h : CalmPhase w p) (hidle : p.header = none) : CalmPhase w' p := by
  cases p with
  | seeking retry q =>
    cases retry with
    | true => exact h.elim
    | false =>
      intro t ht
      exact absurd (Option.map_eq_none_iff.mp hidle) (by simp [show q.found = some t from ht])
  | sending retry a => exact absurd hidle (by simp [header])
  | done => exact trivial
  | refused a q => exact h.elim
  | failed => exact h.elim

omit [DecidableEq ι] in
/-- Where something is cached, nobody has thrown it away; and then it does not matter what is. -/
theorem dead_of_full (h : DeadPhase w p) (hfull : ¬ Emptied w)
    (hflag : w.store.invalidated = false → w'.store.invalidated = false) : DeadPhase w' p := by
  cases p with
  | seeking retry q =>
    cases retry with
    | true => exact absurd h.2 hfull
    | false =>
      cases q with
      | storing t => exact hflag h
      | _ => exact trivial
  | sending retry a =>
    cases retry with
    | true => exact h.elim
    | false => exact trivial
  | refused a q =>
    cases q with
    | leaving t => exact absurd h hfull
    | _ => exact trivial
  | done => exact trivial
  | failed => exact trivial

/-- The copy on disk is brought into memory, where there was none. -/
theorem recheck_disk (h : RecoveryInv w ph) {retry : Bool}
    (hp : ph i = some (.seeking retry .checking)) (htoken : w.store.token = none)
    {disk : CachedToken} (hdisk : disk ∈ w.store.file) (hflag : w.store.invalidated = false) :
    RecoveryInv { w with store := { w.store with token := some disk } } (Function.update ph i
      (some (.seeking retry (.leaving (some disk.accessToken))))) := by
  have hissued : disk.accessToken ∈ w.issued := h.mem_file disk hdisk
  have hothers := @not_issuing ι w ph i _ h hp trivial
  refine ⟨h.lock.stay hp Iff.rfl, h.current, tokens_stored rfl hissued h.mem_file,
    h.calls_stored hp trivial (callOk_leaving hissued), ?_⟩
  cases h.stage with
  | calm hs hr hf memory file phases =>
    have hcurrent : w.current = some disk.accessToken := by
      apply file htoken disk hdisk
      intro j q hq
      by_cases hj : j = i
      · subst hj
        obtain rfl := Option.some.inj (hp.symm.trans hq)
        exact id
      · exact hothers hj hq
    refine .calm hs hr hf ?_ (by simp) ?_
    · intro t ht
      obtain rfl := Option.some.inj ht
      exact hcurrent
    · apply Pool.forall_update
      · cases retry with
        | true => exact (phases i _ hp).elim
        | false =>
          intro t ht
          obtain rfl := Option.some.inj ht
          exact ⟨hcurrent, by simp⟩
      · intro j q hj hq
        exact calm_of_idle (phases j q hq) (idle (phases j q hq) htoken (hothers hj hq))
  | dead hs hr hc phases =>
    have hfull : ¬ Emptied w := fun he => by
      rw [he.2] at hflag
      exact absurd hflag (by simp)
    refine .dead hs hr hc (Pool.forall_update ?_ ?_)
    · cases retry with
      | true => exact absurd (phases i _ hp).2 hfull
      | false => exact trivial
    · exact fun j q _ hq => dead_of_full (phases j q hq) hfull id
  | renewed c hs hr hc memory phases =>
    exfalso
    rcases memory with ⟨t, ht, -⟩ | ⟨-, j, again, hj⟩
    · exact absurd (htoken.symm.trans ht) (by simp)
    · exact h.nobody_stores hp trivial (by simp) hj

/-- The second look, under the lock. -/
theorem recheck (h : RecoveryInv w ph) {retry : Bool} (hp : ph i = some (.seeking retry .checking))
    (horderly : ∀ t ∈ w.store.token, w.now < t.expiresAt) (readable : Bool) :
    RecoveryInv { w with store := (w.store.recheck w.now readable).2 } (Function.update ph i
      (some (next (.seeking retry .checking)
        ⟨.recheck, (w.store.recheck w.now readable).1⟩))) := by
  have hlock : ∀ p', p'.Under → Guarded Under w.holder (Function.update ph i (some p')) :=
    fun p' hu => h.lock.stay hp ⟨fun _ => trivial, fun _ => hu⟩
  have hstill : Still w { w with store := w.store } := ⟨rfl, rfl, rfl, rfl⟩
  have hempty : w.store.cached w.now = none → w.store.token = none := by
    intro hnone
    rw [cached_eq_map horderly] at hnone
    exact Option.map_eq_none_iff.mp hnone
  rcases recheck_cases w.store w.now readable with ⟨t, ht, heq⟩ | ⟨disk, hdisk, hnone, hflag, -, heq⟩
    | ⟨hnone, heq⟩
  · obtain ⟨c, hc, rfl⟩ := cached_eq_some ht
    have htoken : w.store.token ≠ none := fun he => by
      rw [he] at hc
      exact absurd hc (by simp)
    rw [heq]
    refine h.move hstill rfl (fun _ _ => rfl) (hlock _ trivial)
      (callOk_leaving (h.tokens _ (mem_tokens hc))) ?_
    refine h.stage.move hstill hp id ?_ ?_ ?_
    · intro hmemory hcalm
      cases retry with
      | false =>
        intro t ht
        obtain rfl := Option.some.inj ht
        exact ⟨hmemory c hc, fun he => absurd he htoken⟩
      | true => exact hcalm
    · intro _ hdead
      cases retry with
      | false => exact trivial
      | true => exact absurd hdead.2.1 htoken
    · intro d _ hmemory _
      cases retry with
      | false => exact trivial
      | true =>
        intro t ht
        obtain rfl := Option.some.inj ht
        exact hmemory c hc
  · rw [heq]
    exact h.recheck_disk hp (hempty hnone) hdisk hflag
  · rw [heq]
    exact h.move hstill rfl (fun _ _ => rfl) (hlock _ trivial)
      (callOk_seeking rfl id fun _ => hempty hnone) (h.stage.wait hstill hp id rfl)

/-- The server issues a token. -/
theorem issue (h : RecoveryInv w ph) {retry : Bool} (hp : ph i = some (.seeking retry .posting))
    {t : String} (hnew : t ∉ w.issued) :
    RecoveryInv (w.issue t) (Function.update ph i (some (.seeking retry (.storing t)))) := by
  have hcall := h.calls i _ hp
  have htoken : w.store.token = none := hcall.issuing trivial
  have hothers := @not_issuing ι w ph i _ h hp trivial
  refine ⟨h.lock.stay hp Iff.rfl, ?_, ?_, ?_, ?_⟩
  · intro u hu
    obtain rfl := Option.some.inj hu
    exact List.mem_cons_self
  · exact fun u hu => List.mem_cons_of_mem _ (h.tokens u hu)
  · apply Pool.forall_update
    · refine ⟨?_, fun _ => htoken, by simp, id⟩
      intro a ha
      obtain rfl := Option.some.inj ha
      exact ⟨t, List.mem_cons_self, rfl⟩
    · intro j q hj hq
      obtain ⟨known, issuing, refused, going⟩ := h.calls j q hq
      refine ⟨?_, issuing, ?_, going⟩
      · intro a ha
        obtain ⟨u, hu, heq⟩ := known a ha
        exact ⟨u, List.mem_cons_of_mem _ hu, heq⟩
      · -- The header of a token there has been is not that of a new one.
        rintro a r rfl
        refine ⟨(refused a r rfl).1, fun c hc heq => hnew ?_⟩
        obtain rfl := Option.some.inj hc
        obtain ⟨u, hu, hau⟩ := known a rfl
        exact bearer_inj (heq.symm.trans hau) ▸ hu
  · have hissuing : (seeking retry (.storing t)).Issuing := trivial
    cases h.stage with
    | calm hs hr hf memory file phases =>
      refine .calm hs (by simp [ServerWorld.issue, hs, hr]) hf ?_ ?_ (Pool.forall_update ?_ ?_)
      · exact fun u hu => absurd (htoken.symm.trans hu) (by simp)
      · exact fun _ _ _ hnobody => absurd hissuing (hnobody i _ (Function.update_self ..))
      · cases retry with
        | true => exact (phases i _ hp).elim
        | false =>
          intro u hu
          obtain rfl := Option.some.inj hu
          exact ⟨rfl, fun _ => rfl⟩
      · intro j q hj hq
        exact calm_of_idle (phases j q hq) (idle (phases j q hq) htoken (hothers hj hq))
    | dead hs hr hc phases =>
      refine .renewed t hs (by simp [ServerWorld.issue, hs, hr]) rfl
        (.inr ⟨htoken, i, retry, Function.update_self ..⟩) (Pool.forall_update ?_ ?_)
      · cases retry with
        | true =>
          intro u hu
          obtain rfl := Option.some.inj hu
          rfl
        | false => exact rfl
      · intro j q hj hq
        have hdead := phases j q hq
        cases q with
        | seeking again q =>
          cases again with
          | true => exact fun u hu => absurd (hdead.1.symm.trans hu) (by simp)
          | false =>
            cases q with
            | storing u => exact absurd trivial (hothers hj hq)
            | _ => exact trivial
        | sending again a =>
          cases again with
          | true => exact hdead.elim
          | false => exact trivial
        | _ => exact trivial
    | renewed c hs hr hc memory phases =>
      exfalso
      rcases memory with ⟨u, hu, -⟩ | ⟨-, j, again, hj⟩
      · exact absurd (htoken.symm.trans hu) (by simp)
      · exact h.nobody_stores hp trivial (by simp) hj

/-- The token issued is stored. -/
theorem record (h : RecoveryInv w ph) {retry : Bool} {new : CachedToken}
    (hp : ph i = some (.seeking retry (.storing new.accessToken))) (write : FileWrite) :
    RecoveryInv { w with store := w.store.record new write } (Function.update ph i
      (some (.seeking retry (.leaving (some new.accessToken))))) := by
  have hcall := h.calls i _ hp
  have htoken : w.store.token = none := hcall.issuing trivial
  have hothers := @not_issuing ι w ph i _ h hp trivial
  have hissued : new.accessToken ∈ w.issued := by
    obtain ⟨u, hu, heq⟩ := hcall.known _ rfl
    exact bearer_inj heq ▸ hu
  have hfile : ∀ t ∈ (w.store.record new write).file, t.accessToken ∈ w.issued := by
    intro t ht
    cases write with
    | written =>
      obtain rfl := Option.some.inj ht
      exact hissued
    | kept => exact h.mem_file t ht
    | spoiled => exact absurd ht (by simp [TokenStore.record])
  refine ⟨h.lock.stay hp Iff.rfl, h.current, tokens_stored rfl hissued hfile,
    h.calls_stored hp trivial (callOk_leaving hissued), ?_⟩
  cases h.stage with
  | calm hs hr hf memory file phases =>
    cases retry with
    | true => exact (phases i _ hp).elim
    | false =>
      have hcurrent : w.current = some new.accessToken := (phases i _ hp _ rfl).1
      refine .calm hs hr rfl ?_ (fun he => absurd he (by simp [TokenStore.record]))
        (Pool.forall_update ?_ ?_)
      · intro t ht
        obtain rfl := Option.some.inj ht
        exact hcurrent
      · intro t ht
        obtain rfl := Option.some.inj ht
        exact ⟨hcurrent, fun he => absurd he (by simp [TokenStore.record])⟩
      · intro j q hj hq
        exact calm_of_idle (phases j q hq) (idle (phases j q hq) htoken (hothers hj hq))
  | dead hs hr hc phases =>
    cases retry with
    | true => exact absurd (phases i _ hp).1 (by simp [TokenPhase.found])
    | false =>
      -- Somebody who stores a dead token took the lock before anybody threw one away.
      have hfull : ¬ Emptied w := fun he =>
        absurd ((phases i _ hp).symm.trans he.2) (by simp)
      exact .dead hs hr hc (Pool.forall_update trivial fun j q _ hq =>
        dead_of_full (phases j q hq) hfull fun _ => rfl)
  | renewed c hs hr hc memory phases =>
    have heq : new.accessToken = c := by
      cases retry with
      | true => exact phases i _ hp _ rfl
      | false => exact phases i _ hp
    refine .renewed c hs hr hc (.inl ⟨new, rfl, heq⟩) (Pool.forall_update ?_ ?_)
    · cases retry with
      | true =>
        have hrenewed := phases i _ hp
        exact hrenewed
      | false => exact trivial
    · exact fun j q _ hq => phases j q hq

/-- The token is thrown away, by a call that was refused with it. -/
theorem discard (h : RecoveryInv w ph) {a : String} (hp : ph i = some (.refused a .discarding))
    (horderly : ∀ t ∈ w.store.token, w.rejected i = some (bearer t.accessToken))
    (unlinked : Bool) :
    RecoveryInv { w with store := w.store.discard unlinked }
      (Function.update ph i (some (.refused a (.leaving none)))) := by
  have hcall := h.calls i _ hp
  have hothers := @not_issuing ι w ph i _ h hp trivial
  refine ⟨h.lock.stay hp Iff.rfl, h.current, ?_, ?_, ?_⟩
  · intro t ht
    obtain ⟨c, hc, rfl⟩ := List.mem_map.mp ht
    rcases List.mem_append.mp hc with hc | hc
    · exact absurd hc (by simp [TokenStore.discard])
    · cases unlinked with
      | true => exact absurd hc (by simp [TokenStore.discard])
      | false => exact h.tokens _ (List.mem_map_of_mem (List.mem_append_right _ hc))
  · apply Pool.forall_update
    · obtain ⟨known, -, refused, going⟩ := @callOk_refused ι w i a _ (.leaving none) hcall id
      exact ⟨known, False.elim, refused, going⟩
    · intro j q hj hq
      have hcall := h.calls j q hq
      exact ⟨hcall.known, fun _ => rfl, hcall.refused, hcall.going⟩
  · have hemptied : Emptied { w with store := w.store.discard unlinked } := ⟨rfl, rfl⟩
    cases h.stage with
    | calm hs hr hf memory file phases => exact (phases i _ hp).elim
    | dead hs hr hc phases =>
      refine .dead hs hr hc (Pool.forall_update hemptied ?_)
      intro j q hj hq
      have hdead := phases j q hq
      cases q with
      | seeking again q =>
        cases again with
        | true => exact ⟨hdead.1, hemptied⟩
        | false =>
          cases q with
          | storing t => exact absurd trivial (hothers hj hq)
          | _ => exact trivial
      | sending again b =>
        cases again with
        | true => exact hdead.elim
        | false => exact trivial
      | refused b q =>
        cases q with
        | leaving t => exact hemptied
        | _ => exact trivial
      | _ => exact trivial
    | renewed c hs hr hc memory phases =>
      exfalso
      obtain ⟨hrejected, hdiffers⟩ := hcall.refused a _ rfl
      rcases memory with ⟨t, ht, rfl⟩ | ⟨-, j, again, hj⟩
      · have heq := horderly t ht
        rw [hrejected] at heq
        exact hdiffers _ hc (Option.some.inj heq)
      · exact h.nobody_stores hp trivial (by simp) hj

omit [DecidableEq ι] in
theorem opening (hw : w.Good) : RecoveryInv w fun _ => none where
  lock := hw.holder ▸ .free
  current := hw.current
  tokens t ht := by
    obtain ⟨c, hc, rfl⟩ := List.mem_map.mp ht
    rcases List.mem_append.mp hc with hc | hc
    · exact hw.current _ (hw.memory c (Option.mem_toList.mp hc))
    · exact hw.current _ (hw.file c (Option.mem_toList.mp hc))
  calls _ _ h := absurd h (by simp)
  stage := .calm hw.struck hw.reissued hw.invalidated hw.memory (fun _ t ht _ => hw.file t ht)
    fun _ _ h => absurd h (by simp)

/-- A call begins. -/
theorem start (h : RecoveryInv w ph) (hi : ph i = none) :
    RecoveryInv w (Function.update ph i (some (.seeking false .looking))) := by
  refine ⟨h.lock.start hi id, h.current, h.tokens, ?_, ?_⟩
  · exact Pool.forall_update (callOk_seeking rfl id False.elim) fun j q _ hq => h.calls j q hq
  · cases h.stage with
    | calm hs hr hf memory file phases =>
      refine .calm hs hr hf memory ?_
        (Pool.forall_update (by simp [CalmPhase, TokenPhase.found]) fun j q _ hq => phases j q hq)
      intro hnone t ht hnobody
      apply file hnone t ht
      intro j q hq
      apply hnobody j q
      rw [Function.update_of_ne]
      · exact hq
      · intro hj
        rw [hj, hi] at hq
        exact absurd hq (by simp)
    | dead hs hr hc phases =>
      exact .dead hs hr hc (Pool.forall_update trivial fun j q _ hq => phases j q hq)
    | renewed c hs hr hc memory phases =>
      refine .renewed c hs hr hc (memory.imp id fun hnone => ⟨hnone.1, ?_⟩)
        (Pool.forall_update trivial fun j q _ hq => phases j q hq)
      obtain ⟨j, retry, hj⟩ := hnone.2
      refine ⟨j, retry, ?_⟩
      rw [Function.update_of_ne]
      · exact hj
      · intro hij
        rw [hij, hi] at hj
        exact absurd hj (by simp)

omit [DecidableEq ι] in
/-- Time passes, or the server forgets its token. -/
theorem moves (h : RecoveryInv w ph) (hw : w.Moves w') : RecoveryInv w' ph := by
  cases hw with
  | pass _ =>
    refine ⟨h.lock, h.current, h.tokens, ?_, ?_⟩
    · exact fun j q hq => (h.calls j q hq).congr ⟨rfl, rfl, rfl, rfl⟩ rfl rfl
    · cases h.stage with
      | calm hs hr hf memory file phases =>
        exact .calm hs hr hf memory file fun j q hq =>
          calmPhase_congr ⟨rfl, rfl, rfl, rfl⟩ (phases j q hq)
      | dead hs hr hc phases =>
        exact .dead hs hr hc fun j q hq => deadPhase_congr ⟨rfl, rfl, rfl, rfl⟩ (phases j q hq)
      | renewed c hs hr hc memory phases => exact .renewed c hs hr hc memory phases
  | strike hcurrent hstruck =>
    refine ⟨h.lock, by simp, h.tokens, ?_, ?_⟩
    · intro j q hq
      obtain ⟨known, issuing, refused, going⟩ := h.calls j q hq
      exact ⟨known, issuing, fun a r hr => ⟨(refused a r hr).1, by simp⟩, going⟩
    · cases h.stage with
      | calm hs hr hf memory file phases =>
        refine .dead rfl hr rfl fun j q hq => ?_
        have hcalm := phases j q hq
        cases q with
        | seeking retry q =>
          cases retry with
          | true => exact hcalm.elim
          | false =>
            cases q with
            | storing t => exact hf
            | _ => exact trivial
        | sending retry a =>
          cases retry with
          | true => exact hcalm.elim
          | false => exact trivial
        | refused a q => exact hcalm.elim
        | done => exact trivial
        | failed => exact trivial
      | dead hs => exact absurd (hs.symm.trans hstruck) (by simp)
      | renewed c hs => exact absurd (hs.symm.trans hstruck) (by simp)

/-- **One answer**, to a call in order. -/
theorem answers (h : RecoveryInv w ph) {q : AuthReq} {x : q.Resp} (hp : ph i = some p)
    (hasks : p.Asks q) (hw : w.Answers ServerWorld.Orderly i ⟨q, x⟩ w') :
    RecoveryInv w' (Function.update ph i (some (p.next ⟨q, x⟩))) := by
  have hgoes := hasks.goes (h.calls i p hp).going
  have hsame : RecoveryInv w (Function.update ph i (some p)) := by
    rw [Function.update_eq_self_iff.mpr hp.symm]
    exact h
  cases hw with
  | cached horderly =>
    cases hgoes
    exact h.cached hp horderly
  | lock hfree => exact h.lock_taken hp hgoes hfree
  | unlock => exact h.unlock hp hgoes
  | recheck horderly readable =>
    cases hgoes
    exact h.recheck hp horderly readable
  | @postToken outcome t hissue hnew =>
    cases hgoes with
    | post retry =>
      have hnext : ReauthPhase.next (.seeking retry .posting) ⟨.postToken, outcome⟩ =
          .seeking retry (.storing t) := by
        show seek retry (TokenPhase.posted outcome) = _
        rw [TokenPhase.posted, hissue]
        rfl
      rw [hnext]
      exact h.issue hp hnew
  | record _ write =>
    cases hgoes
    exact h.record hp write
  | discard horderly unlinked =>
    cases hgoes
    exact h.discard hp horderly unlinked
  | acquire =>
    cases hgoes
    exact hsame
  | acquireRead =>
    cases hgoes
    exact hsame
  | accountSeq seq =>
    cases hgoes
    exact hsame
  | get hr =>
    cases hgoes with
    | send hq =>
      cases hq
      exact h.served hp hr
  | post hr =>
    cases hgoes with
    | send hq =>
      cases hq
      exact h.served hp hr

end RecoveryInv

theorem recoveryInv {calls : ι → Sender}
    {s : Pool.State (ServerWorld ι) ι AuthReq.Resp Exc Json}
    (hs : Reachable (Pool.Start ServerWorld.Good) (recovering calls ServerWorld.Orderly).Step s) :
    RecoveryInv s.world (Pool.phase (fun _ => ReauthPhase.next)
      (fun _ => .seeking false .looking) s) := by
  refine Pool.inv (P := recovering calls ServerWorld.Orderly) (fun _ => ReauthPhase.Asks)
    (fun i => shared_along (calls i)) RecoveryInv ?_ ?_ ?_ ?_ hs
  · exact fun w hw => .opening hw
  · exact fun w ph i h hi => h.start hi
  · exact fun w ph i p q x w' h hp hasks hw => h.answers hp hasks hw
  · exact fun w ph w' h hw => h.moves hw

/-! ## 4. No call is left waiting -/

/-- A token response. -/
def tokenResponse (token : String) : PostOutcome :=
  .answered (.of 200 (some (.obj [("access_token", .str token)])))

theorem issueToken_tokenResponse (token : String) :
    issueToken (tokenResponse token) = .ok token := rfl

/-- The 401. -/
def tokenRefusal : Response :=
  .of 401 (some (.obj [("error", .obj [("code", .str invalidTokenCode)])]))

theorem exists_fresh (issued : List String) : ∃ token, token ∉ issued := by
  have : Infinite String :=
    Infinite.of_injective String.ofList fun _ _ h => String.ofList_injective h
  obtain ⟨token, h⟩ := Infinite.exists_notMem_finset issued.toFinset
  exact ⟨token, fun hmem => h (List.mem_toFinset.mpr hmem)⟩

omit [DecidableEq ι] in
/-- There is an answer to every request. -/
theorem exists_answered (w : ServerWorld ι) (a : String) : ∃ r, w.Answered a r := by
  by_cases h : w.Accepts a
  · exact ⟨.of 200 none, fun _ => by decide, fun h' => absurd h h'⟩
  · exact ⟨tokenRefusal, fun h' => absurd h' h, fun _ => by decide⟩

/-- Whatever a call asks for it gets, if it is not the lock or the lock is free. -/
theorem exists_answer {q : AuthReq} (hgoes : p.Goes q) (hlock : q = .lock → w.holder = none) :
    ∃ x w', w.Answers (fun _ _ _ => True) i ⟨q, x⟩ w' := by
  cases hgoes with
  | look => exact ⟨_, _, .cached trivial⟩
  | want => exact ⟨_, _, .lock (hlock rfl)⟩
  | check => exact ⟨_, _, .recheck trivial true⟩
  | post =>
    obtain ⟨token, hnew⟩ := exists_fresh w.issued
    exact ⟨_, _, .postToken (issueToken_tokenResponse token) hnew⟩
  | store => exact ⟨_, _, .record (lt_add_one tokenRefreshMarginSeconds) .written⟩
  | leave => exact ⟨_, _, .unlock⟩
  | drop => exact ⟨_, _, .lock (hlock rfl)⟩
  | discard => exact ⟨_, _, .discard trivial true⟩
  | leaveEmpty => exact ⟨_, _, .unlock⟩
  | @send _ a _ h =>
    cases h with
    | acquire => exact ⟨_, _, .acquire⟩
    | acquireRead => exact ⟨_, _, .acquireRead⟩
    | accountSeq => exact ⟨_, _, .accountSeq ""⟩
    | get =>
      obtain ⟨r, hr⟩ := exists_answered w a
      exact ⟨_, _, .get hr⟩
    | post path payload account =>
      obtain ⟨r, hr⟩ := exists_answered w a
      exact ⟨_, _, .post hr⟩

section Runs

variable {calls : ι → Sender} {s : Pool.State (ServerWorld ι) ι AuthReq.Resp Exc Json}

theorem raised_eq_none
    (hs : Reachable (Pool.Start ServerWorld.Good) (recovering calls ServerWorld.Orderly).Step s)
    (i : ι) : s.raised i = none := by
  cases hr : s.raised i with
  | none => rfl
  | some e =>
    obtain ⟨p, hp, hends⟩ := Pool.fin_raised (fun _ => ReauthPhase.Asks)
      (fun i => shared_along (calls i)) hs hr
    have hgoing := ((recoveryInv hs).calls i p hp).going
    rw [show p = .failed from hends] at hgoing
    exact absurd trivial hgoing

theorem reissued_le_one
    (hs : Reachable (Pool.Start ServerWorld.Good) (recovering calls ServerWorld.Orderly).Step s) :
    s.world.reissued ≤ 1 := by
  cases (recoveryInv hs).stage with
  | calm _ hr => exact hr.le.trans (Nat.zero_le 1)
  | dead _ hr => exact hr.le.trans (Nat.zero_le 1)
  | renewed _ _ hr => exact hr.le

/-- A call waits in vain only for a lock that another one holds, who does not. -/
theorem returned_of_halted
    (hs : Reachable (Pool.Start ServerWorld.Good) (recovering calls ServerWorld.Orderly).Step s)
    (hhalted : (recovering calls fun _ _ _ => True).Halted s) (i : ι) (hi : s.thread i ≠ none) :
    (s.returned i).isSome := by
  have hinv := recoveryInv hs
  -- What a call that waits in vain asks for.
  have hstuck : ∀ i, (recovering calls fun _ _ _ => True).Stuck s i →
      ∃ p, Pool.phase (fun _ => ReauthPhase.next) (fun _ => .seeking false .looking) s i = some p ∧
        p.Goes .lock ∧ s.world.holder ≠ none := by
    intro i hstuck
    obtain ⟨past, q, k, hth, hvain⟩ := hstuck
    obtain ⟨p, hp, hasks⟩ := Pool.ok_of_await (fun _ => ReauthPhase.Asks)
      (fun i => shared_along (calls i)) hs hth
    have hgoes := hasks.goes (hinv.calls i p hp).going
    have hlock : ¬ (q = .lock → s.world.holder = none) := by
      intro hlock
      obtain ⟨x, w', hw⟩ := @exists_answer ι _ s.world i p q hgoes hlock
      exact hvain x w' hw
    obtain ⟨rfl, hholder⟩ := Classical.not_imp.mp hlock
    exact ⟨p, hp, hgoes, hholder⟩
  rcases hhalted i hi with h | h | h
  · exact h
  · rw [raised_eq_none hs i] at h
    exact absurd h (by simp)
  · obtain ⟨-, -, -, hholder⟩ := hstuck i h
    obtain ⟨j, hj⟩ := Option.ne_none_iff_exists'.mp hholder
    obtain ⟨g, hg, hunder⟩ := hinv.lock.held j hj
    have hthread : s.thread j ≠ none := fun hnone => by
      rw [Pool.phase, hnone] at hg
      exact absurd hg (by simp)
    rcases hhalted j hthread with h | h | h
    · obtain ⟨a, ha⟩ := Option.isSome_iff_exists.mp h
      obtain ⟨p, hp, hends⟩ := Pool.fin_returned (fun _ => ReauthPhase.Asks)
        (fun i => shared_along (calls i)) hs ha
      obtain rfl := Option.some.inj (hg.symm.trans hp)
      rcases hends with rfl | rfl <;> exact hunder.elim
    · rw [raised_eq_none hs j] at h
      exact absurd h (by simp)
    · obtain ⟨p, hp, hgoes, -⟩ := hstuck j h
      obtain rfl := Option.some.inj (hg.symm.trans hp)
      cases hgoes <;> exact hunder.elim

/-- **All calls recover, with one token**, where none throws away a token it was not refused with,
    and none runs out. -/
theorem calls_recover
    (hs : Reachable (Pool.Start ServerWorld.Good) (recovering calls ServerWorld.Orderly).Step s) :
    (∀ i, s.raised i = none) ∧ s.world.reissued ≤ 1 ∧
      ((recovering calls fun _ _ _ => True).Halted s → ∀ i, s.thread i ≠ none →
        (s.returned i).isSome) :=
  ⟨raised_eq_none hs, reissued_le_one hs, returned_of_halted hs⟩

end Runs

/-! ## 5. Two calls -/

/-- Two reads, at about the same time. -/
inductive Reader where
  | one | two
  deriving DecidableEq

def Reader.call (_ : Reader) : Sender := .get pricesPath false [("symbols", "005930")]

instance (w : ServerWorld ι) (i : ι) : DecidablePred (w.Orderly i)
  | .cached => inferInstanceAs (Decidable (∀ _ ∈ w.store.token, _))
  | .recheck => inferInstanceAs (Decidable (∀ _ ∈ w.store.token, _))
  | .discard => inferInstanceAs (Decidable (∀ _ ∈ w.store.token, _))
  | .lock => inferInstanceAs (Decidable True)
  | .unlock => inferInstanceAs (Decidable True)
  | .postToken => inferInstanceAs (Decidable True)
  | .record _ _ => inferInstanceAs (Decidable True)
  | .other _ => inferInstanceAs (Decidable True)

/-- The response of the server. -/
def respondTo (w : ServerWorld ι) (authorization : String) : Response :=
  if w.Accepts authorization then .of 200 none else tokenRefusal

omit [DecidableEq ι] in
theorem answered_respondTo (w : ServerWorld ι) (a : String) : w.Answered a (respondTo w a) := by
  unfold respondTo
  by_cases h : w.Accepts a
  · rw [if_pos h]
    exact ⟨fun _ => by decide, fun h' => absurd h h'⟩
  · rw [if_neg h]
    exact ⟨fun h' => absurd h' h, fun _ => by decide⟩

/-- The answers of a concrete run, as far as `C` lets them pass; a token that is issued, if any, is
    this one, for a day. -/
def answeringServer (C : ServerWorld ι → ι → AuthReq → Prop) [∀ w i, DecidablePred (C w i)]
    (token : String) (w : ServerWorld ι) (i : ι) :
    (q : AuthReq) → Option (q.Resp × ServerWorld ι)
  | .cached => if C w i .cached then some (w.store.cached w.now, w) else none
  | .lock => if w.holder = none then some ((), { w with holder := some i }) else none
  | .unlock => some ((), { w with holder := none })
  | .recheck =>
    if C w i .recheck then some ((w.store.recheck w.now true).1,
      { w with store := (w.store.recheck w.now true).2 })
    else none
  | .postToken =>
    if token ∉ w.issued then some (tokenResponse token, w.issue token) else none
  | .record t _ =>
    some ((), { w with store := w.store.record (.issued w.now t 86400) .written })
  | .discard =>
    if C w i .discard then some ((), { w with store := w.store.discard true }) else none
  | .other .acquireRead => some ((), w)
  | .other (.get _ _ authorization _) =>
    let r := respondTo w authorization
    some (.answered r, w.served i authorization r)
  | .other _ => none

/-- The server forgets its token. -/
def striking (_ : Unit) (w : ServerWorld ι) : Option (ServerWorld ι) :=
  if w.current ≠ none ∧ w.struck = false then some { w with current := none, struck := true }
  else none

/-- A run of the two, from a token that is good for a day. -/
def reads (C : ServerWorld Reader → Reader → AuthReq → Prop) [∀ w i, DecidablePred (C w i)]
    (turns : List (Pool.Turn Reader String Unit)) :
    Pool.State (ServerWorld Reader) Reader AuthReq.Resp Exc Json :=
  (recovering Reader.call C).play (answeringServer C) striking
    { store := { token := some (.mk "D" 86100), invalidated := false, file := none }
      now := 0, current := some "D", issued := ["D"] }
    turns

theorem reads_reachable (C : ServerWorld Reader → Reader → AuthReq → Prop)
    [∀ w i, DecidablePred (C w i)] (turns : List (Pool.Turn Reader String Unit)) :
    Reachable (Pool.Start ServerWorld.Good) (recovering Reader.call C).Step (reads C turns) := by
  refine Pool.play_reachable ServerWorld.Good ?_ ?_ ?_ turns
  · intro token w i q x w' h
    cases q with
    | cached =>
      obtain ⟨hc, heq⟩ := Option.ite_none_right_eq_some.mp h
      obtain ⟨rfl, rfl⟩ := Prod.ext_iff.mp (Option.some.inj heq)
      exact .cached hc
    | lock =>
      obtain ⟨hfree, heq⟩ := Option.ite_none_right_eq_some.mp h
      obtain ⟨-, rfl⟩ := Prod.ext_iff.mp (Option.some.inj heq)
      exact .lock hfree
    | unlock =>
      obtain ⟨-, rfl⟩ := Prod.ext_iff.mp (Option.some.inj h)
      exact .unlock
    | recheck =>
      obtain ⟨hc, heq⟩ := Option.ite_none_right_eq_some.mp h
      obtain ⟨rfl, rfl⟩ := Prod.ext_iff.mp (Option.some.inj heq)
      exact .recheck hc true
    | postToken =>
      obtain ⟨hnew, heq⟩ := Option.ite_none_right_eq_some.mp h
      obtain ⟨rfl, rfl⟩ := Prod.ext_iff.mp (Option.some.inj heq)
      exact .postToken (issueToken_tokenResponse token) hnew
    | record t json =>
      obtain ⟨-, rfl⟩ := Prod.ext_iff.mp (Option.some.inj h)
      exact .record (by norm_num [tokenRefreshMarginSeconds]) .written
    | discard =>
      obtain ⟨hc, heq⟩ := Option.ite_none_right_eq_some.mp h
      obtain ⟨-, rfl⟩ := Prod.ext_iff.mp (Option.some.inj heq)
      exact .discard hc true
    | other q =>
      cases q with
      | acquireRead =>
        obtain ⟨-, rfl⟩ := Prod.ext_iff.mp (Option.some.inj h)
        exact .acquireRead
      | get path params authorization account =>
        obtain ⟨rfl, rfl⟩ := Prod.ext_iff.mp (Option.some.inj h)
        exact .get (answered_respondTo w authorization)
      | _ => exact absurd h (by simp [answeringServer])
  · intro _ w w' h
    obtain ⟨⟨hcurrent, hstruck⟩, heq⟩ := Option.ite_none_right_eq_some.mp h
    obtain rfl := Option.some.inj heq
    obtain ⟨token, htoken⟩ := Option.ne_none_iff_exists'.mp hcurrent
    exact .strike htoken hstruck
  · refine ⟨fun t ht => ?_, by simp, rfl, fun t ht => ?_, rfl, rfl, rfl⟩
    · obtain rfl := Option.some.inj ht
      rfl
    · obtain rfl := Option.some.inj ht
      exact List.mem_singleton_self _

/-- The call goes on, so many times; the token it is issued, if any. -/
def goRead (i : Reader) (n : ℕ) (token : String) : List (Pool.Turn Reader String Unit) :=
  List.replicate n (.go i token)

/-- Both are about to send when the server forgets their token, and both are refused. -/
def bothRefused : List (Pool.Turn Reader String Unit) :=
  goRead .one 3 "" ++ goRead .two 3 "" ++ [.world ()] ++ goRead .one 1 "" ++ goRead .two 1 ""

/-- Both throw the old token away before a new one is issued, and both go by that. -/
theorem calls_recover_both :
    (reads ServerWorld.Orderly (bothRefused ++ goRead .one 3 "" ++ goRead .two 3 "" ++
      goRead .one 8 "T" ++ goRead .two 3 "")).world.reissued = 1 ∧
    (reads ServerWorld.Orderly (bothRefused ++ goRead .one 3 "" ++ goRead .two 3 "" ++
      goRead .one 8 "T" ++ goRead .two 3 "")).raised .two = none :=
  ⟨by decide +kernel, (calls_recover (reads_reachable _ _)).1 .two⟩

/-- The one gets a new token; the other throws it away, and gets a third: the first sends the
    second, and raises. -/
theorem calls_do_not_recover :
    Reachable (Pool.Start ServerWorld.Good) (recovering Reader.call fun _ _ _ => True).Step
      (reads (fun _ _ _ => True) (bothRefused ++ goRead .one 10 "T" ++ goRead .two 10 "U" ++
        goRead .one 1 "")) ∧
    ((reads (fun _ _ _ => True) (bothRefused ++ goRead .one 10 "T" ++ goRead .two 10 "U" ++
      goRead .one 1 "")).raised .one).isSome ∧
    (reads (fun _ _ _ => True) (bothRefused ++ goRead .one 10 "T" ++ goRead .two 10 "U" ++
      goRead .one 1 "")).world.reissued = 2 :=
  ⟨reads_reachable _ _, by decide +kernel, by decide +kernel⟩

end Proof
end TossSleeve
