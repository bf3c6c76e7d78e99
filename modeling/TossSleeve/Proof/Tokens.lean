import TossSleeve.Api.TokenCache
import TossSleeve.Lib.Lock
import TossSleeve.Lib.Pool

/-!
# `Proof/Tokens.lean` — tokens that were thrown away

`invalidate` throws a token away because Toss has, and `token` must not find it again. The copy in
memory is simply gone; the one on disk may survive its `unlink`, and until the next token is issued
the flag keeps `token` from reading it. From then on only the new token does, and no longer than it
lives: if the disk cannot be written either, the old copy is still there when the new token has
expired. `Careful` is what is missing: whatever discarded copy an issue leaves on disk does not
outlive the token issued.

§1 is where a call of `token` or `invalidate` can be, and §2 puts any number of them into one world,
with a server and a disk. §3 is what a discarded token can still be found in, and §4 the results: a
discarded token stays out of every run that is careful, and comes back in one that is not.
-/

set_option autoImplicit false

namespace TossSleeve

open Lib Lib.Proc

/-! ## 1. Phases -/

/-- Where a call of `token` or of `invalidate` is. -/
inductive TokenPhase where
  | looking
  | wanting
  | checking
  | posting
  | storing (token : String)
  /-- `invalidate`, before the lock. -/
  | dropping
  | discarding
  /-- Done but for the lock; with the token, if the call is going to return one. -/
  | leaving (token : Option String)
  | left (token : Option String)

namespace TokenPhase

/-- Does the call hold the lock? -/
def Under : TokenPhase → Prop
  | .checking => True
  | .posting => True
  | .storing _ => True
  | .discarding => True
  | .leaving _ => True
  | _ => False

/-- The token the call is going to return. -/
def found : TokenPhase → Option String
  | .storing token => some token
  | .leaving token => token
  | .left token => token
  | _ => none

/-- Where a token request leads. -/
def posted (outcome : PostOutcome) : TokenPhase :=
  match issueToken outcome with
  | .ok token => .storing token
  | .error _ => .leaving none

def next (p : TokenPhase) : Event AuthReq.Resp → TokenPhase
  | ⟨.cached, some token⟩ => .left (some token)
  | ⟨.cached, none⟩ => .wanting
  | ⟨.lock, _⟩ =>
    match p with
    | .dropping => .discarding
    | _ => .checking
  | ⟨.recheck, some token⟩ => .leaving (some token)
  | ⟨.recheck, none⟩ => .posting
  | ⟨.postToken, outcome⟩ => posted outcome
  | ⟨.record token _, _⟩ => .leaving (some token)
  | ⟨.discard, _⟩ => .leaving none
  | ⟨.unlock, _⟩ => .left p.found
  | ⟨.other _, _⟩ => p

/-- What a call asks for, phase by phase. -/
inductive Asks : TokenPhase → AuthReq → Prop
  | look : Asks .looking .cached
  | want : Asks .wanting .lock
  | check : Asks .checking .recheck
  | post : Asks .posting .postToken
  | store (token : String) (expiresIn : Json) : Asks (.storing token) (.record token expiresIn)
  | drop : Asks .dropping .lock
  | discard : Asks .discarding .discard
  | leave (token : Option String) : Asks (.leaving token) .unlock

/-- A call that returned a token found it. -/
def Ends (p : TokenPhase) : Except Exc String → Prop
  | .ok token => p = .left (some token)
  | .error _ => p = .left none

end TokenPhase

namespace Proof

/-- A stretch under the lock, followed by its end. -/
theorem locked_along {α : Type} {fin : TokenPhase → Except Exc α → Prop} {body : AuthProg α}
    {p p' : TokenPhase} (hlock : p.Asks .lock) (hnext : p.next ⟨.lock, ()⟩ = p')
    (hbody : Along TokenPhase.next TokenPhase.Asks
      (fun p r => ∃ token, p = .leaving token ∧ fin (.left token) r) body p') :
    Along TokenPhase.next TokenPhase.Asks fin (AuthProg.locked body) p := by
  refine ⟨hlock, fun _ => ?_⟩
  rw [hnext]
  show Along _ _ _ (body.attempt (fun a => do AuthProg.askAuth .unlock; .ret a)
    fun e => do AuthProg.askAuth .unlock; .raise e) p'
  refine Along.attempt (fun p a h => ?_) (fun p e h => ?_) hbody
  · obtain ⟨token, rfl, hfin⟩ := h
    exact ⟨.leave token, fun _ => hfin⟩
  · obtain ⟨token, rfl, hfin⟩ := h
    exact ⟨.leave token, fun _ => hfin⟩

theorem token_along :
    Along TokenPhase.next TokenPhase.Asks TokenPhase.Ends SharedAuth.token .looking := by
  refine ⟨.look, fun x => ?_⟩
  cases x with
  | some token => exact rfl
  | none =>
    apply locked_along .want rfl
    refine ⟨.check, fun x => ?_⟩
    cases x with
    | some token => exact ⟨some token, rfl, rfl⟩
    | none =>
      refine ⟨.post, fun outcome => ?_⟩
      show Along _ _ _ (SharedAuth.granted outcome) (TokenPhase.posted outcome)
      unfold SharedAuth.granted TokenPhase.posted
      cases issueToken outcome with
      | ok token => exact ⟨.store token _, fun _ => ⟨some token, rfl, rfl⟩⟩
      | error f => exact ⟨none, rfl, rfl⟩

theorem invalidate_along : Along TokenPhase.next TokenPhase.Asks
    (fun p r => p = .left none ∧ r = .ok ()) SharedAuth.invalidate .dropping := by
  apply locked_along .drop rfl
  exact ⟨.discard, fun _ => ⟨none, rfl, rfl, rfl⟩⟩

end Proof

/-! ## 2. One `TossAuth` -/

/-- A `TossAuth` with its disk and its server. -/
structure AuthWorld (ι : Type) where
  store : TokenStore
  now : Time
  /-- `_issue_lock`. -/
  holder : Option ι := none
  /-- Every token there has been. -/
  issued : List String
  /-- The tokens that an `invalidate` found in memory or on disk. -/
  discarded : List String := []
  /-- What was discarded when a call took its first look. -/
  barred : ι → List String := fun _ => []

/-- The token that the server issued, if it did. -/
def issuedBy (outcome : PostOutcome) : List String := (issueToken outcome).toOption.toList

namespace AuthWorld

variable {ι : Type} [DecidableEq ι]

/-- How the world answers a call. `C` is what is known of the issues: of the world before, the new
    token, and how writing it to disk ends. -/
inductive Answers (C : AuthWorld ι → CachedToken → FileWrite → Prop) (w : AuthWorld ι) (i : ι) :
    Event AuthReq.Resp → AuthWorld ι → Prop
  | cached : Answers C w i ⟨.cached, w.store.cached w.now⟩
      { w with barred := Function.update w.barred i w.discarded }
  | lock (h : w.holder = none) : Answers C w i ⟨.lock, ()⟩ { w with holder := some i }
  | unlock : Answers C w i ⟨.unlock, ()⟩ { w with holder := none }
  | recheck (readable : Bool) : Answers C w i ⟨.recheck, (w.store.recheck w.now readable).1⟩
      { w with store := (w.store.recheck w.now readable).2 }
  | postToken {outcome : PostOutcome} (hnew : ∀ t ∈ issuedBy outcome, t ∉ w.issued) :
      Answers C w i ⟨.postToken, outcome⟩ { w with issued := issuedBy outcome ++ w.issued }
  | record {token : String} {json : Json} (expiresIn : Time) (write : FileWrite)
      (h : C w (.issued w.now token expiresIn) write) : Answers C w i ⟨.record token json, ()⟩
        { w with store := w.store.record (.issued w.now token expiresIn) write }
  | discard (unlinked : Bool) : Answers C w i ⟨.discard, ()⟩
      { w with store := w.store.discard unlinked, discarded := w.store.tokens ++ w.discarded }

/-- Time passes. -/
def Passes (w w' : AuthWorld ι) : Prop := ∃ now, w.now ≤ now ∧ w' = { w with now }

/-- A new `TossAuth`: nothing in memory, and on disk what an earlier one left. -/
structure Opening (w : AuthWorld ι) : Prop where
  token : w.store.token = none
  invalidated : w.store.invalidated = false
  holder : w.holder = none
  issued : ∀ t ∈ w.store.tokens, t ∈ w.issued
  discarded : w.discarded = []
  barred : ∀ i, w.barred i = []

/-- **The disk is left in order**: a discarded token that an issue does not overwrite does not
    outlive the new one. -/
def Careful (w : AuthWorld ι) (new : CachedToken) (write : FileWrite) : Prop :=
  write = .kept → ∀ old ∈ w.store.file, old.accessToken ∈ w.discarded →
    old.expiresAt ≤ new.expiresAt

end AuthWorld

inductive TokenJob where
  | token | invalidate

namespace TokenJob

/-- `token` returns one, `invalidate` none. -/
def program : TokenJob → AuthProg (Option String)
  | .token => do return some (← SharedAuth.token)
  | .invalidate => do
    SharedAuth.invalidate
    return none

def start : TokenJob → TokenPhase
  | .token => .looking
  | .invalidate => .dropping

end TokenJob

variable {ι : Type}

/-- Any number of calls of one `TossAuth`. -/
def sharing [DecidableEq ι] (jobs : ι → TokenJob) (C : AuthWorld ι → CachedToken → FileWrite → Prop) :
    Pool (AuthWorld ι) ι AuthReq.Resp Exc (Option String) where
  program i := (jobs i).program
  Answer w i e w' := w.Answers C i e w'
  Env w w' := w.Passes w'

namespace Proof

/-- What the returned token tells about the phase. -/
def jobEnds (p : TokenPhase) : Except Exc (Option String) → Prop
  | .ok (some token) => p = .left (some token)
  | _ => True

theorem job_along (job : TokenJob) :
    Along TokenPhase.next TokenPhase.Asks jobEnds job.program job.start := by
  cases job with
  | token =>
    refine .bind token_along (fun p token h => ?_) (fun p e h => ?_)
    · exact h
    · exact trivial
  | invalidate =>
    refine .bind invalidate_along (fun p token h => ?_) (fun p e h => ?_)
    · exact trivial
    · exact trivial

/-! ## 3. Where a discarded token is -/

/-- Memory is clean; a discarded copy on disk is behind the flag, or behind a token in memory that
    lives as long. -/
structure StoreClean (s : TokenStore) (discarded issued : List String) : Prop where
  token : ∀ t ∈ s.token, t.accessToken ∈ issued ∧ t.accessToken ∉ discarded
  file : ∀ t ∈ s.file, t.accessToken ∈ issued
  disk : ∀ old ∈ s.file, old.accessToken ∈ discarded →
    s.invalidated = true ∨ ∃ t ∈ s.token, old.expiresAt ≤ t.expiresAt

theorem cached_eq_some {s : TokenStore} {now : Time} {t : String} (h : s.cached now = some t) :
    ∃ c ∈ s.token, c.accessToken = t := by
  obtain ⟨c, hc, rfl⟩ := Option.map_eq_some_iff.mp h
  exact ⟨c, (Option.filter_eq_some_iff.mp hc).1, rfl⟩

theorem expired_of_cached {s : TokenStore} {now : Time} (h : s.cached now = none) :
    ∀ t ∈ s.token, t.expiresAt ≤ now := by
  intro t ht
  have hfilter := Option.filter_eq_none_iff.mp (Option.map_eq_none_iff.mp h) t ht
  exact not_lt.mp fun hlt => hfilter (decide_eq_true hlt)

/-- What a look under the lock comes to: memory, the disk, or nothing. -/
theorem recheck_cases (s : TokenStore) (now : Time) (readable : Bool) :
    (∃ t, s.cached now = some t ∧ s.recheck now readable = (some t, s)) ∨
    (∃ disk ∈ s.file, s.cached now = none ∧ s.invalidated = false ∧ now < disk.expiresAt ∧
      s.recheck now readable = (some disk.accessToken, { s with token := some disk })) ∨
    (s.cached now = none ∧ s.recheck now readable = (none, s)) := by
  unfold TokenStore.recheck
  cases hc : s.cached now with
  | some t => exact .inl ⟨t, rfl, rfl⟩
  | none =>
    cases hi : s.invalidated with
    | true => exact .inr (.inr ⟨rfl, rfl⟩)
    | false =>
      cases hf : (if readable then s.file else none).filter fun t => now < t.expiresAt with
      | none => exact .inr (.inr ⟨rfl, rfl⟩)
      | some disk =>
        obtain ⟨hdisk, hlive⟩ := Option.filter_eq_some_iff.mp hf
        refine .inr (.inl ⟨disk, ?_, rfl, rfl, of_decide_eq_true hlive, rfl⟩)
        cases readable with
        | true => exact hdisk
        | false => exact absurd hdisk (by simp)

namespace StoreClean

variable {s : TokenStore} {discarded issued : List String}

theorem cached (h : StoreClean s discarded issued) {now : Time} {t : String}
    (ht : s.cached now = some t) : t ∉ discarded := by
  obtain ⟨c, hc, rfl⟩ := cached_eq_some ht
  exact (h.token c hc).2

/-- A look under the lock finds no discarded token, and brings none into memory. -/
theorem recheck (h : StoreClean s discarded issued) (now : Time) (readable : Bool) :
    (∀ t ∈ (s.recheck now readable).1, t ∉ discarded) ∧
      StoreClean (s.recheck now readable).2 discarded issued := by
  rcases recheck_cases s now readable with ⟨t, ht, heq⟩ | ⟨disk, hdisk, hnone, hflag, hlive, heq⟩ |
    ⟨-, heq⟩
  · rw [heq]
    refine ⟨fun u hu => ?_, h⟩
    obtain rfl := Option.some.inj hu
    exact h.cached ht
  · -- Memory has expired, so the copy on disk outlives it: it is not a discarded one.
    have hclean : disk.accessToken ∉ discarded := by
      intro hbad
      rcases h.disk disk hdisk hbad with hset | ⟨t, ht, hle⟩
      · exact absurd (hflag.symm.trans hset) (by simp)
      · exact absurd (le_trans hle (expired_of_cached hnone t ht)) (not_le.mpr hlive)
    rw [heq]
    refine ⟨fun u hu => ?_, fun u hu => ?_, h.file, fun old hold hbad => ?_⟩
    · obtain rfl := Option.some.inj hu
      exact hclean
    · obtain rfl := Option.some.inj hu
      exact ⟨h.file disk hdisk, hclean⟩
    · obtain rfl := Option.some.inj (hdisk.symm.trans hold)
      exact absurd hbad hclean
  · rw [heq]
    exact ⟨fun _ hu => absurd hu (by simp), h⟩

theorem record (h : StoreClean s discarded issued) {new : CachedToken} {write : FileWrite}
    (hissued : new.accessToken ∈ issued) (hnew : new.accessToken ∉ discarded)
    (hcareful : write = .kept → ∀ old ∈ s.file, old.accessToken ∈ discarded →
      old.expiresAt ≤ new.expiresAt) : StoreClean (s.record new write) discarded issued := by
  refine ⟨fun t ht => ?_, fun t ht => ?_, fun old hold hbad => .inr ⟨new, rfl, ?_⟩⟩
  · obtain rfl := Option.some.inj ht
    exact ⟨hissued, hnew⟩
  · cases write with
    | written =>
      obtain rfl := Option.some.inj ht
      exact hissued
    | kept => exact h.file t ht
    | spoiled => exact absurd ht (by simp [TokenStore.record])
  · cases write with
    | written =>
      obtain rfl := Option.some.inj hold
      exact le_refl _
    | kept => exact hcareful rfl old hold hbad
    | spoiled => exact absurd hold (by simp [TokenStore.record])

theorem discard (h : StoreClean s discarded issued) (unlinked : Bool) (more : List String) :
    StoreClean (s.discard unlinked) more issued := by
  refine ⟨fun t ht => absurd ht (by simp [TokenStore.discard]), fun t ht => ?_,
    fun _ _ _ => .inl rfl⟩
  cases unlinked with
  | true => exact absurd ht (by simp [TokenStore.discard])
  | false => exact h.file t ht

theorem mono (h : StoreClean s discarded issued) {more : List String}
    (hsub : ∀ t ∈ issued, t ∈ more) : StoreClean s discarded more :=
  ⟨fun t ht => ⟨hsub _ (h.token t ht).1, (h.token t ht).2⟩, fun t ht => hsub _ (h.file t ht),
    h.disk⟩

theorem tokens (h : StoreClean s discarded issued) : ∀ t ∈ s.tokens, t ∈ issued := by
  intro t ht
  obtain ⟨c, hc, rfl⟩ := List.mem_map.mp ht
  rcases List.mem_append.mp hc with hc | hc
  · exact (h.token c (Option.mem_toList.mp hc)).1
  · exact h.file c (Option.mem_toList.mp hc)

end StoreClean

/-- What a call has found was not discarded when it began; what it is going to store is not
    discarded at all. -/
structure PhaseClean (w : AuthWorld ι) (i : ι) (p : TokenPhase) : Prop where
  found : ∀ t ∈ p.found, t ∉ w.barred i
  storing : ∀ t, p = .storing t → t ∈ w.issued ∧ t ∉ w.discarded

theorem phaseClean_of_none {w : AuthWorld ι} {i : ι} {p : TokenPhase} (hfound : p.found = none)
    (hstoring : ∀ t, p ≠ .storing t) : PhaseClean w i p := by
  refine ⟨fun t ht => ?_, fun t ht => absurd ht (hstoring t)⟩
  rw [hfound] at ht
  exact absurd ht (by simp)

/-- Nothing that a phase depends on was discarded meanwhile. -/
theorem PhaseClean.mono {w w' : AuthWorld ι} {i : ι} {p : TokenPhase} (h : PhaseClean w i p)
    (hbarred : w'.barred i = w.barred i) (hissued : ∀ t ∈ w.issued, t ∈ w'.issued)
    (hdiscarded : w'.discarded = w.discarded ∨ ∀ t, p ≠ .storing t) : PhaseClean w' i p := by
  refine ⟨fun t ht => hbarred ▸ h.found t ht, fun t ht => ?_⟩
  obtain ⟨hi, hd⟩ := h.storing t ht
  refine ⟨hissued t hi, ?_⟩
  rcases hdiscarded with heq | hne
  · exact heq ▸ hd
  · exact absurd ht (hne t)

/-- **The invariant.** -/
structure TokenInv (w : AuthWorld ι) (ph : ι → Option TokenPhase) : Prop where
  lock : Guarded TokenPhase.Under w.holder ph
  store : StoreClean w.store w.discarded w.issued
  issued : ∀ t ∈ w.discarded, t ∈ w.issued
  barred : ∀ i, ∀ t ∈ w.barred i, t ∈ w.discarded
  phases : ∀ i p, ph i = some p → PhaseClean w i p

namespace TokenInv

variable {w : AuthWorld ι} {ph : ι → Option TokenPhase} {i : ι} {p : TokenPhase}

theorem opening (hw : w.Opening) : TokenInv w fun _ => none where
  lock := hw.holder ▸ .free
  store := by
    refine ⟨fun t ht => ?_, fun t ht => hw.issued _ ?_, fun old _ hbad => ?_⟩
    · rw [hw.token] at ht
      exact absurd ht (by simp)
    · exact List.mem_map_of_mem (List.mem_append_right _ (Option.mem_toList.mpr ht))
    · rw [hw.discarded] at hbad
      exact absurd hbad List.not_mem_nil
  issued t ht := by
    rw [hw.discarded] at ht
    exact absurd ht List.not_mem_nil
  barred i t ht := by
    rw [hw.barred i] at ht
    exact absurd ht List.not_mem_nil
  phases _ _ h := absurd h (by simp)

variable [DecidableEq ι]

/-- A call moves, and the others see nothing that matters to them. -/
theorem move (h : TokenInv w ph) {w' : AuthWorld ι} {p' : TokenPhase}
    (hlock : Guarded TokenPhase.Under w'.holder (Function.update ph i (some p')))
    (hstore : StoreClean w'.store w'.discarded w'.issued)
    (hissued : ∀ t ∈ w'.discarded, t ∈ w'.issued)
    (hbarred : ∀ i, ∀ t ∈ w'.barred i, t ∈ w'.discarded) (hself : PhaseClean w' i p')
    (hother : ∀ j p, j ≠ i → ph j = some p → PhaseClean w j p → PhaseClean w' j p) :
    TokenInv w' (Function.update ph i (some p')) :=
  ⟨hlock, hstore, hissued, hbarred,
    Pool.forall_update hself fun j p hj hp => hother j p hj hp (h.phases j p hp)⟩

/-- A call moves while nothing is discarded. -/
theorem advance (h : TokenInv w ph) {w' : AuthWorld ι} {p' : TokenPhase}
    (hlock : Guarded TokenPhase.Under w'.holder (Function.update ph i (some p')))
    (hstore : StoreClean w'.store w'.discarded w'.issued)
    (hmore : ∀ t ∈ w.issued, t ∈ w'.issued) (hsame : w'.discarded = w.discarded)
    (hbarred : ∀ j, j ≠ i → w'.barred j = w.barred j) (hown : ∀ t ∈ w'.barred i, t ∈ w.discarded)
    (hself : PhaseClean w' i p') : TokenInv w' (Function.update ph i (some p')) := by
  refine h.move hlock hstore ?_ ?_ hself ?_
  · intro t ht
    rw [hsame] at ht
    exact hmore t (h.issued t ht)
  · intro j t ht
    rw [hsame]
    by_cases hj : j = i
    · exact hown t (hj ▸ ht)
    · rw [hbarred j hj] at ht
      exact h.barred j t ht
  · intro j p hj _ hc
    exact hc.mono (hbarred j hj) hmore (.inl hsame)

/-- The first look. -/
theorem cached (h : TokenInv w ph) (hp : ph i = some .looking) :
    TokenInv { w with barred := Function.update w.barred i w.discarded }
      (Function.update ph i (some (TokenPhase.next .looking ⟨.cached, w.store.cached w.now⟩))) := by
  have hown : ∀ t ∈ Function.update w.barred i w.discarded i, t ∈ w.discarded := by
    intro t ht
    rwa [Function.update_self] at ht
  have hbarred : ∀ j, j ≠ i → Function.update w.barred i w.discarded j = w.barred j :=
    fun j hj => Function.update_of_ne hj _ _
  have hissued : ∀ t ∈ w.issued, t ∈ w.issued := fun _ ht => ht
  cases hx : w.store.cached w.now with
  | none =>
    exact h.advance (h.lock.stay hp Iff.rfl) h.store hissued rfl hbarred hown
      (phaseClean_of_none rfl (by simp [TokenPhase.next]))
  | some token =>
    refine h.advance (h.lock.stay hp Iff.rfl) h.store hissued rfl hbarred hown ⟨?_, ?_⟩
    · intro t ht hbad
      obtain rfl := Option.some.inj ht
      exact h.store.cached hx (hown _ hbad)
    · intro t ht
      exact absurd ht (by simp [TokenPhase.next])

/-- The lock is taken, for one thing or the other. -/
theorem locked (h : TokenInv w ph) (hp : ph i = some p) (hasks : p.Asks .lock)
    (hfree : w.holder = none) : TokenInv { w with holder := some i }
      (Function.update ph i (some (p.next ⟨.lock, ()⟩))) := by
  have hlock : ∀ p' : TokenPhase, p'.Under → Guarded TokenPhase.Under (some i)
      (Function.update ph i (some p')) := fun p' hu => (hfree ▸ h.lock).acquire hu
  cases hasks with
  | want =>
    exact h.advance (hlock _ trivial) h.store (fun _ ht => ht) rfl (fun _ _ => rfl) (h.barred i)
      (phaseClean_of_none rfl (by simp [TokenPhase.next]))
  | drop =>
    exact h.advance (hlock _ trivial) h.store (fun _ ht => ht) rfl (fun _ _ => rfl) (h.barred i)
      (phaseClean_of_none rfl (by simp [TokenPhase.next]))

/-- The second look, under the lock. -/
theorem recheck (h : TokenInv w ph) (hp : ph i = some .checking) (readable : Bool) :
    TokenInv { w with store := (w.store.recheck w.now readable).2 }
      (Function.update ph i
        (some (TokenPhase.next .checking ⟨.recheck, (w.store.recheck w.now readable).1⟩))) := by
  obtain ⟨hfound, hstore⟩ := h.store.recheck w.now readable
  generalize (w.store.recheck w.now readable).1 = found at hfound
  cases found with
  | none =>
    exact h.advance (h.lock.stay hp Iff.rfl) hstore (fun _ ht => ht) rfl (fun _ _ => rfl)
      (h.barred i) (phaseClean_of_none rfl (by simp [TokenPhase.next]))
  | some token =>
    refine h.advance (h.lock.stay hp Iff.rfl) hstore (fun _ ht => ht) rfl (fun _ _ => rfl)
      (h.barred i) ⟨?_, ?_⟩
    · intro t ht hbad
      exact hfound t ht (h.barred i t hbad)
    · intro t ht
      exact absurd ht (by simp [TokenPhase.next])

/-- A token is issued, which nobody has seen before, or none is. -/
theorem issue (h : TokenInv w ph) (hp : ph i = some .posting) {outcome : PostOutcome}
    (hnew : ∀ t ∈ issuedBy outcome, t ∉ w.issued) :
    TokenInv { w with issued := issuedBy outcome ++ w.issued }
      (Function.update ph i (some (TokenPhase.posted outcome))) := by
  have hmore : ∀ t ∈ w.issued, t ∈ issuedBy outcome ++ w.issued :=
    fun t ht => List.mem_append_right _ ht
  cases ho : issueToken outcome with
  | ok token =>
    have hmem : token ∈ issuedBy outcome := by simp [issuedBy, ho, Except.toOption]
    have hfresh : token ∉ w.discarded := fun hbad => hnew token hmem (h.issued token hbad)
    have hposted : TokenPhase.posted outcome = .storing token := by
      rw [TokenPhase.posted, ho]
    rw [hposted]
    refine h.advance (h.lock.stay hp Iff.rfl) (h.store.mono hmore) hmore rfl (fun _ _ => rfl)
      (h.barred i) ⟨?_, ?_⟩
    · intro t ht hbad
      obtain rfl := Option.some.inj ht
      exact hfresh (h.barred i _ hbad)
    · intro t ht
      obtain rfl := TokenPhase.storing.inj ht
      exact ⟨List.mem_append_left _ hmem, hfresh⟩
  | error f =>
    have hposted : TokenPhase.posted outcome = .leaving none := by
      rw [TokenPhase.posted, ho]
    rw [hposted]
    exact h.advance (h.lock.stay hp Iff.rfl) (h.store.mono hmore) hmore rfl (fun _ _ => rfl)
      (h.barred i) (phaseClean_of_none rfl (by simp))

/-- What is cached is thrown away. -/
theorem discard (h : TokenInv w ph) (hp : ph i = some .discarding) (unlinked : Bool) :
    TokenInv { w with
        store := w.store.discard unlinked, discarded := w.store.tokens ++ w.discarded }
      (Function.update ph i (some (.leaving none))) := by
  refine h.move (h.lock.stay hp Iff.rfl) (h.store.discard unlinked _) ?_ ?_
    (phaseClean_of_none rfl (by simp)) ?_
  · intro t ht
    rcases List.mem_append.mp ht with ht | ht
    · exact h.store.tokens t ht
    · exact h.issued t ht
  · intro j t ht
    exact List.mem_append_right _ (h.barred j t ht)
  · intro j p hj hpj hc
    -- Whoever is about to store a token holds the lock, which is held by this call.
    refine hc.mono rfl (fun _ ht => ht) (.inr fun t ht => hj ?_)
    exact h.lock.alone hpj (ht ▸ trivial) hp trivial

/-- **One answer**, to a call that asks what it may. -/
theorem answers (h : TokenInv w ph) {q : AuthReq} {x : q.Resp} {w' : AuthWorld ι}
    (hp : ph i = some p) (hasks : p.Asks q) (hw : w.Answers AuthWorld.Careful i ⟨q, x⟩ w') :
    TokenInv w' (Function.update ph i (some (p.next ⟨q, x⟩))) := by
  have hclean := h.phases i p hp
  cases hw with
  | cached =>
    cases hasks
    exact h.cached hp
  | lock hfree => exact h.locked hp hasks hfree
  | unlock =>
    cases hasks with
    | leave token =>
      refine h.advance (h.lock.release hp trivial not_false) h.store (fun _ ht => ht) rfl
        (fun _ _ => rfl) (h.barred i) ⟨hclean.found, ?_⟩
      intro t ht
      exact absurd ht (by simp [TokenPhase.next])
  | recheck readable =>
    cases hasks
    exact h.recheck hp readable
  | postToken hnew =>
    cases hasks
    exact h.issue hp hnew
  | record expiresIn write hcareful =>
    cases hasks with
    | store =>
      obtain ⟨hissued, hnew⟩ := hclean.storing _ rfl
      refine h.advance (h.lock.stay hp Iff.rfl) (h.store.record hissued hnew hcareful)
        (fun _ ht => ht) rfl (fun _ _ => rfl) (h.barred i) ⟨hclean.found, ?_⟩
      intro t ht
      exact absurd ht (by simp [TokenPhase.next])
  | discard unlinked =>
    cases hasks
    exact h.discard hp unlinked

end TokenInv

theorem tokenInv {jobs : ι → TokenJob} [DecidableEq ι]
    {s : Pool.State (AuthWorld ι) ι AuthReq.Resp Exc (Option String)}
    (hs : Reachable (Pool.Start AuthWorld.Opening) (sharing jobs AuthWorld.Careful).Step s) :
    TokenInv s.world (Pool.phase (fun _ => TokenPhase.next) (fun i => (jobs i).start) s) := by
  refine Pool.inv (P := sharing jobs AuthWorld.Careful) (fun _ => TokenPhase.Asks)
    (fun i => job_along (jobs i)) TokenInv ?_ ?_ ?_ ?_ hs
  · exact fun w hw => .opening hw
  · intro w ph i h hi
    have hunder : ¬ (jobs i).start.Under := by cases jobs i <;> exact not_false
    refine ⟨h.lock.start hi hunder, h.store, h.issued, h.barred, ?_⟩
    refine Pool.forall_update ?_ fun j p _ hj => h.phases j p hj
    cases jobs i with
    | token => exact ⟨fun t ht => (nomatch ht), fun t ht => (nomatch ht)⟩
    | invalidate => exact ⟨fun t ht => (nomatch ht), fun t ht => (nomatch ht)⟩
  · intro w ph i p q x w' h hp hasks hw
    exact h.answers hp hasks hw
  · intro w ph w' h hw
    obtain ⟨now, -, rfl⟩ := hw
    exact ⟨h.lock, h.store, h.issued, h.barred, fun i p hi => (h.phases i p hi).mono rfl
      (fun _ ht => ht) (.inl rfl)⟩

/-! ## 4. Discarded tokens -/

/-- **A discarded token stays out**, in every run in which no issue leaves a discarded copy on disk
    that outlives the token issued. -/
theorem discarded_stays_out [DecidableEq ι] {jobs : ι → TokenJob}
    {s : Pool.State (AuthWorld ι) ι AuthReq.Resp Exc (Option String)}
    (hs : Reachable (Pool.Start AuthWorld.Opening) (sharing jobs AuthWorld.Careful).Step s)
    {i : ι} {t : String} (h : s.returned i = some (some t)) : t ∉ s.world.barred i := by
  obtain ⟨p, hp, hends⟩ := Pool.fin_returned (fun _ => TokenPhase.Asks)
    (fun i => job_along (jobs i)) hs h
  have hleft : p = .left (some t) := hends
  exact ((tokenInv hs).phases i p hp).found t (hleft ▸ rfl)

/-! ## 5. A disk that fails -/

/-- Four calls, one after the other. -/
inductive Visit where
  | first | drop | second | third
  deriving DecidableEq

def Visit.job : Visit → TokenJob
  | .drop => .invalidate
  | _ => .token

/-- What the server and the disk do, when a call meets them. -/
structure Luck where
  outcome : PostOutcome := .connectFailed
  expiresIn : Time := 86400
  readable : Bool := true
  unlinked : Bool := true
  write : FileWrite := .written

/-- A token response. -/
def Luck.issues (token : String) (expiresIn : Time) (write : FileWrite) : Luck where
  outcome := .answered (.of 200 (some (.obj [("access_token", .str token)])))
  expiresIn
  write

instance (w : AuthWorld ι) (new : CachedToken) (write : FileWrite) :
    Decidable (w.Careful new write) := inferInstanceAs (Decidable (_ → ∀ _ ∈ _, _ → _))

/-- The answers of a concrete run, as far as `C` lets them pass. -/
def answeringToken [DecidableEq ι] (C : AuthWorld ι → CachedToken → FileWrite → Prop)
    [∀ w new write, Decidable (C w new write)] (luck : Luck) (w : AuthWorld ι) (i : ι) :
    (q : AuthReq) → Option (q.Resp × AuthWorld ι)
  | .cached => some (w.store.cached w.now,
      { w with barred := Function.update w.barred i w.discarded })
  | .lock => if w.holder = none then some ((), { w with holder := some i }) else none
  | .unlock => some ((), { w with holder := none })
  | .recheck => some ((w.store.recheck w.now luck.readable).1,
      { w with store := (w.store.recheck w.now luck.readable).2 })
  | .postToken =>
    if ∀ t ∈ issuedBy luck.outcome, t ∉ w.issued then
      some (luck.outcome, { w with issued := issuedBy luck.outcome ++ w.issued })
    else none
  | .record token _ =>
    if C w (.issued w.now token luck.expiresIn) luck.write then
      some ((), { w with
        store := w.store.record (.issued w.now token luck.expiresIn) luck.write })
    else none
  | .discard => some ((), { w with
      store := w.store.discard luck.unlinked, discarded := w.store.tokens ++ w.discarded })
  | .other _ => none

def passing (d : ℕ) (w : AuthWorld ι) : Option (AuthWorld ι) := some { w with now := w.now + d }

/-- A run of the four calls. -/
def visits (C : AuthWorld Visit → CachedToken → FileWrite → Prop)
    [∀ w new write, Decidable (C w new write)] (turns : List (Pool.Turn Visit Luck ℕ)) :
    Pool.State (AuthWorld Visit) Visit AuthReq.Resp Exc (Option String) :=
  (sharing Visit.job C).play (answeringToken C) passing
    { store := { token := none, invalidated := false, file := none }, now := 0, issued := [] }
    turns

theorem answeringToken_answers [DecidableEq ι]
    (C : AuthWorld ι → CachedToken → FileWrite → Prop) [∀ w new write, Decidable (C w new write)]
    (luck : Luck) (w : AuthWorld ι) (i : ι) (q : AuthReq) (x : q.Resp) (w' : AuthWorld ι)
    (h : answeringToken C luck w i q = some (x, w')) : w.Answers C i ⟨q, x⟩ w' := by
  cases q with
  | cached =>
    obtain ⟨rfl, rfl⟩ := Prod.ext_iff.mp (Option.some.inj h)
    exact .cached
  | lock =>
    obtain ⟨hfree, heq⟩ := Option.ite_none_right_eq_some.mp h
    obtain ⟨-, rfl⟩ := Prod.ext_iff.mp (Option.some.inj heq)
    exact .lock hfree
  | unlock =>
    obtain ⟨-, rfl⟩ := Prod.ext_iff.mp (Option.some.inj h)
    exact .unlock
  | recheck =>
    obtain ⟨rfl, rfl⟩ := Prod.ext_iff.mp (Option.some.inj h)
    exact .recheck luck.readable
  | postToken =>
    obtain ⟨hnew, heq⟩ := Option.ite_none_right_eq_some.mp h
    obtain ⟨rfl, rfl⟩ := Prod.ext_iff.mp (Option.some.inj heq)
    exact .postToken hnew
  | record token json =>
    obtain ⟨hc, heq⟩ := Option.ite_none_right_eq_some.mp h
    obtain ⟨-, rfl⟩ := Prod.ext_iff.mp (Option.some.inj heq)
    exact .record luck.expiresIn luck.write hc
  | discard =>
    obtain ⟨-, rfl⟩ := Prod.ext_iff.mp (Option.some.inj h)
    exact .discard luck.unlinked
  | other q => exact absurd h (by simp [answeringToken])

theorem passing_passes (d : ℕ) (w w' : AuthWorld ι) (h : passing d w = some w') : w.Passes w' := by
  obtain rfl := Option.some.inj h
  exact ⟨w.now + d, le_add_of_nonneg_right (Nat.cast_nonneg d), rfl⟩

theorem visits_reachable (C : AuthWorld Visit → CachedToken → FileWrite → Prop)
    [∀ w new write, Decidable (C w new write)] (turns : List (Pool.Turn Visit Luck ℕ)) :
    Reachable (Pool.Start AuthWorld.Opening) (sharing Visit.job C).Step (visits C turns) := by
  refine Pool.play_reachable AuthWorld.Opening (answeringToken_answers C) passing_passes ?_ turns
  exact ⟨rfl, rfl, rfl, fun t ht => (nomatch ht), rfl, fun _ => rfl⟩

/-- The call goes on, so many times, with this luck. -/
def visit (i : Visit) (n : ℕ) (luck : Luck) : List (Pool.Turn Visit Luck ℕ) :=
  List.replicate n (.go i luck)

/-- A token is issued for a day and thrown away, though its file stays; another is issued for ten
    minutes, and the disk is written or not. -/
def turnover (write : FileWrite) : List (Pool.Turn Visit Luck ℕ) :=
  visit .first 7 (.issues "D" 86400 .written) ++ visit .drop 4 { unlinked := false } ++
    visit .second 7 (.issues "E" 600 write)

/-- The file is overwritten: four minutes later the second token is still the one. -/
theorem discarded_stays_out_written :
    (visits AuthWorld.Careful (turnover .written ++ [.world 240] ++
      visit .third 5 {})).returned .third = some (some "E") ∧
    "E" ∉ (visits AuthWorld.Careful (turnover .written ++ [.world 240] ++
      visit .third 5 {})).world.barred .third := by
  have h : (visits AuthWorld.Careful (turnover .written ++ [.world 240] ++
      visit .third 5 {})).returned .third = some (some "E") := by decide +kernel
  exact ⟨h, discarded_stays_out (visits_reachable _ _) h⟩

/-- The file is not overwritten: six minutes later the first token is back. -/
theorem discarded_comes_back :
    Reachable (Pool.Start AuthWorld.Opening) (sharing Visit.job fun _ _ _ => True).Step
      (visits (fun _ _ _ => True) (turnover .kept ++ [.world 360] ++ visit .third 5 {})) ∧
    (visits (fun _ _ _ => True) (turnover .kept ++ [.world 360] ++
      visit .third 5 {})).returned .third = some (some "D") ∧
    "D" ∈ (visits (fun _ _ _ => True) (turnover .kept ++ [.world 360] ++
      visit .third 5 {})).world.barred .third :=
  ⟨visits_reachable _ _, by decide +kernel, by decide +kernel⟩

end Proof
end TossSleeve
