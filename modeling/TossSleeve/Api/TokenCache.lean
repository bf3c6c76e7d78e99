import TossSleeve.Api.Rest
import TossSleeve.RateLimit

/-!
# `Api/TokenCache.lean` — one `TossAuth` and its concurrent callers (`api/auth.py`)

To a method that needs a token, `TossAuth.token` is: one that is cached, or else one that is
issued. Several callers of one `TossAuth` see more of it. The token is kept in memory and on disk,
each copy with its expiry, and a flag says that the copy on disk is not to be trusted; a first look
takes no lock, everything else does; and the lock is held across the POST that issues a token.

§1 is what is kept and what each stretch of code between two awaits does to it; the file may fail
to be read, written or removed, and nobody is told. §2 is the methods, as programs that ask for
those stretches one by one. §3: a run of `token` seen by one caller is a run of the simpler one.
-/

set_option autoImplicit false

namespace TossSleeve

open Lib

/-! ## 1. What is kept -/

/-- `TOKEN_REFRESH_MARGIN_SECONDS`. -/
def tokenRefreshMarginSeconds : Time := 300

/-- `_CachedToken`. -/
structure CachedToken where
  accessToken : String
  expiresAt : Time
  deriving DecidableEq

/-- The token of a response, as `_issue_token` caches it. -/
def CachedToken.issued (now : Time) (accessToken : String) (expiresIn : Time) : CachedToken :=
  let ttl := max 0 (expiresIn - tokenRefreshMarginSeconds)
  { accessToken, expiresAt := now + ttl }

/-- `_token`, `_invalidated`, and the cache file: the token `_read_disk_cache` finds in it when it
    can be read, if it is there and in order. Only a `TossAuth` writes to the file, so that reading
    it never raises. -/
structure TokenStore where
  token : Option CachedToken
  invalidated : Bool
  file : Option CachedToken
  deriving DecidableEq

/-- How `_write_disk_cache` leaves the file: written; as it was, where it could not be opened; or
    cut off in the middle. -/
inductive FileWrite where
  | written | kept | spoiled
  deriving DecidableEq

namespace TokenStore

/-- The token in memory, unless it has expired. -/
def cached (s : TokenStore) (now : Time) : Option String :=
  (s.token.filter fun t => now < t.expiresAt).map (·.accessToken)

/-- `token`, from the lock on: memory once more, then the disk unless `_invalidated`. -/
def recheck (s : TokenStore) (now : Time) (readable : Bool) : Option String × TokenStore :=
  match s.cached now with
  | some token => (some token, s)
  | none =>
    if s.invalidated then (none, s)
    else
      match (if readable then s.file else none).filter fun t => now < t.expiresAt with
      | some disk => (some disk.accessToken, { s with token := some disk })
      | none => (none, s)

/-- `_issue_token`, once the token is made up: memory, then the flag, then the disk. -/
def record (s : TokenStore) (cached : CachedToken) (write : FileWrite) : TokenStore where
  token := some cached
  invalidated := false
  file := match write with
    | .written => some cached
    | .kept => s.file
    | .spoiled => none

/-- `invalidate`, with the lock held. -/
def discard (s : TokenStore) (unlinked : Bool) : TokenStore :=
  { token := none
    invalidated := true
    file := if unlinked then none else s.file }

/-- The tokens in memory and on disk, expired or not. -/
def tokens (s : TokenStore) : List String :=
  (s.token.toList ++ s.file.toList).map (·.accessToken)

end TokenStore

/-! ## 2. The methods -/

/-- What the callers of one `TossAuth` ask for. -/
inductive AuthReq where
  /-- The first look, without the lock. -/
  | cached
  | lock
  | unlock
  | recheck
  | postToken
  /-- A token was issued; what `_to_float` makes of its `expires_in` is the world's business. -/
  | record (accessToken : String) (expiresIn : Json)
  | discard
  /-- Anything that is not about tokens. -/
  | other (q : BrokerReq)

abbrev AuthReq.Resp : AuthReq → Type
  | .cached => Option String
  | .lock => Unit
  | .unlock => Unit
  | .recheck => Option String
  | .postToken => PostOutcome
  | .record _ _ => Unit
  | .discard => Unit
  | .other q => q.Resp

/-- A coroutine that shares a `TossAuth`. -/
abbrev AuthProg (α : Type) : Type := Proc Unit AuthReq AuthReq.Resp Exc α

namespace AuthProg

def askAuth (q : AuthReq) : AuthProg q.Resp := Proc.request q

/-- `async with self._issue_lock`: whatever happens inside, the lock is given back. -/
def locked {α : Type} (body : AuthProg α) : AuthProg α := do
  askAuth .lock
  body.attempt (fun a => do askAuth .unlock; .ret a) fun e => do askAuth .unlock; .raise e

end AuthProg

/-- `data.get("expires_in")`. -/
def expiresInOf : PostOutcome → Json
  | .answered resp =>
    match parseToss resp with
    | .ok data => data.field "expires_in"
    | .error _ => .null
  | _ => .null

namespace SharedAuth

open AuthProg

/-- The token of a token grant, or the exception. -/
def granted (outcome : PostOutcome) : AuthProg String :=
  match issueToken outcome with
  | .ok token => do
    askAuth (.record token (expiresInOf outcome))
    .ret token
  | .error f => .raise f.exc

/-- `_issue_token`. -/
def issue : AuthProg String := do granted (← askAuth .postToken)

/-- `token`. -/
def token : AuthProg String := do
  match ← askAuth .cached with
  | some token => .ret token
  | none => locked do
    match ← askAuth .recheck with
    | some token => .ret token
    | none => issue

/-- `invalidate`. -/
def invalidate : AuthProg Unit := locked (askAuth .discard)

def authHeaders : AuthProg String := do return "Bearer " ++ (← token)

/-- How a lookup ends, as the answer to the request for it. -/
def outcome {α : Type} (p : AuthProg α) : AuthProg (Except LookupFailure α) :=
  p.attempt (fun a => .ret (.ok a)) fun
    | .toss e => .ret (.error (.toss e))
    | .http => .ret (.error .http)
    | .python e => .ret (.error (.python e))
    | .ledger e => .raise (.ledger e)

/-- A caller's requests for headers, and to invalidate them, are run; its other requests are
    asked for. -/
def serve : (q : BrokerReq) → AuthProg q.Resp
  | .authHeaders => outcome authHeaders
  | .invalidate => invalidate
  | q => askAuth (.other q)

/-- `request_with_reauth`, with what it does to the `TossAuth` it shares. -/
def requestWithReauth (send : String → Prog Response) (ambiguous : Bool) : AuthProg Json :=
  (TossSleeve.requestWithReauth send ambiguous).inline serve

end SharedAuth

/-! ## 3. What one caller sees -/

/-- An event of a shared run, as the caller who does not share sees it. -/
def unshared : Event AuthReq.Resp → List (Event BrokerReq.Resp)
  | ⟨.cached, some token⟩ => [⟨.cachedToken, some token⟩]
  | ⟨.cached, none⟩ => []
  | ⟨.recheck, token⟩ => [⟨.cachedToken, token⟩]
  | ⟨.postToken, outcome⟩ => [⟨.postToken, outcome⟩]
  | ⟨.record token _, ()⟩ => [⟨.cacheToken token, ()⟩]
  | ⟨.other q, x⟩ => [⟨q, x⟩]
  | ⟨.lock, _⟩ => []
  | ⟨.unlock, _⟩ => []
  | ⟨.discard, _⟩ => []

theorem runs_cachedToken (t : String) :
    Proc.Runs TossAuth.token [⟨.cachedToken, some t⟩] (.ok t) := by
  apply @Proc.Runs.await BrokerReq BrokerReq.Resp Exc String .cachedToken
  exact Proc.Runs.ret t

/-- Whatever the token endpoint answers, the rest of the two is the same. -/
theorem granted_unshared {outcome : PostOutcome} {tr : List (Event AuthReq.Resp)}
    {r : Except Exc String} (h : Proc.Runs (SharedAuth.granted outcome) tr r) :
    Proc.Runs TossAuth.token
      (⟨.cachedToken, none⟩ :: ⟨.postToken, outcome⟩ :: tr.flatMap unshared) r := by
  apply @Proc.Runs.await BrokerReq BrokerReq.Resp Exc String .cachedToken
  apply @Proc.Runs.await BrokerReq BrokerReq.Resp Exc String .postToken
  show Proc.Runs (Prog.lookup (issueToken outcome) >>= fun token => do
    TossSleeve.ask (.cacheToken token)
    return token) (tr.flatMap unshared) r
  unfold SharedAuth.granted at h
  cases hi : issueToken outcome with
  | ok token =>
    rw [hi] at h
    cases h with
    | await x h =>
      cases h
      apply @Proc.Runs.await BrokerReq BrokerReq.Resp Exc String (.cacheToken token)
      exact Proc.Runs.ret token
  | error f =>
    rw [hi] at h
    cases h
    exact Proc.Runs.raise f.exc

/-- A stretch under the lock, without the lock. -/
theorem locked_unshared {α : Type} {body : AuthProg α} {tr : List (Event AuthReq.Resp)}
    {r : Except Exc α} (h : Proc.Runs (AuthProg.locked body) tr r) :
    ∃ tr', Proc.Runs body tr' r ∧ tr.flatMap unshared = tr'.flatMap unshared := by
  cases h with
  | await x h =>
    have h' : Proc.Runs (body.attempt (fun a => do AuthProg.askAuth .unlock; .ret a)
        fun e => do AuthProg.askAuth .unlock; .raise e) _ r := h
    obtain ⟨tr₁, tr₂, rfl, hends⟩ := Proc.Runs.of_attempt h'
    have hunlock : tr₂.flatMap unshared = [] ∧ Proc.Runs body tr₁ r := by
      rcases hends with ⟨a, hbody, hrest⟩ | ⟨e, hbody, hrest⟩
      · cases hrest with
        | await x hrest =>
          cases hrest
          exact ⟨rfl, hbody⟩
      · cases hrest with
        | await x hrest =>
          cases hrest
          exact ⟨rfl, hbody⟩
    refine ⟨tr₁, hunlock.2, ?_⟩
    show (tr₁ ++ tr₂).flatMap unshared = _
    rw [List.flatMap_append, hunlock.1, List.append_nil]

/-- **To one caller, `token` is the lookup of a token.** -/
theorem token_unshared {tr : List (Event AuthReq.Resp)} {r : Except Exc String}
    (h : Proc.Runs SharedAuth.token tr r) : Proc.Runs TossAuth.token (tr.flatMap unshared) r := by
  cases h with
  | await x h =>
    cases x with
    | some token =>
      cases h
      exact runs_cachedToken token
    | none =>
      have hcons : ∀ tr : List (Event AuthReq.Resp),
          (⟨.cached, none⟩ :: tr).flatMap unshared = tr.flatMap unshared := fun _ => rfl
      obtain ⟨tr', hbody, heq⟩ := locked_unshared h
      rw [hcons, heq]
      cases hbody with
      | await x h =>
        cases x with
        | some token =>
          cases h
          exact runs_cachedToken token
        | none =>
          cases h with
          | await outcome h => exact granted_unshared h

end TossSleeve
