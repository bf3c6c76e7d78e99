import TossSleeve.Broker
import TossSleeve.Lib.Trace

/-!
# `Proof/Submission.lean` — one call submits an order at most once

Two retries are nested in a call: `_send` repeats a transmission that never left, and
`request_with_reauth` repeats one that was turned away for a dead token. A third thing decides
what the caller is told: the class of the exception. Each is harmless alone. What has to be true of
them together is that nothing is ever sent again after bytes may have reached Toss, and that a call
says *ambiguous* exactly when its last transmission may have been taken.

The proof follows the nesting. The ghost (`Tally`) counts what a trace has transmitted so far;
`SendEnds` is what one `_send` can add to it, `Course` what one `_post` can, and `Concludes` how a
`_post` ends, read off the last transmission. `place` and `cancel` add no transmission of their own,
so the main theorem reads its parts off the specification of `_post`.
-/

set_option autoImplicit false

namespace TossSleeve.Proof

open Lib Lib.Proc

/-! ## 1. What a trace has transmitted -/

/-- Read off a trace, event by event. -/
structure Tally where
  /-- How each transmission ended, in order. -/
  sent : List PostOutcome := []
  /-- A slot of the rate limiter was acquired, and no transmission has used it yet. -/
  acquired : Bool := false
  /-- Every transmission so far had acquired a slot of its own. -/
  paced : Bool := true
  /-- No lookup of the token or of the account has failed. -/
  lookedUp : Bool := true
  /-- What the last look into `_acks` found. -/
  ack : Option OrderAck := none

def Tally.next (t : Tally) : Event BrokerReq.Resp → Tally
  | ⟨.post _ _ _, x⟩ =>
    { t with sent := t.sent ++ [x], paced := t.paced && t.acquired, acquired := false }
  | ⟨.acquire, _⟩ => { t with acquired := true }
  | ⟨.authHeaders, x⟩ => { t with lookedUp := t.lookedUp && x.toBool }
  | ⟨.accountSeq, x⟩ => { t with lookedUp := t.lookedUp && x.toBool }
  | ⟨.cachedAck _ _, x⟩ => { t with ack := x }
  | _ => t

def tally (tr : List (Event BrokerReq.Resp)) : Tally := tr.foldl Tally.next {}

/-- Turned away at the door: a 401 whose code says that the token is dead. -/
def turnedAway : PostOutcome → Bool
  | .answered r => decide (r.status = 401 ∧ errorField r "code" = some invalidTokenCode)
  | _ => false

/-- **At most once.** Everything but the last transmission failed to connect or was turned away, at
    most one was turned away and followed by another, their number is bounded by the retries, and
    each had a slot of the rate limiter of its own. -/
structure AtMostOnce (retries : ℕ) (t : Tally) : Prop where
  resendable : ∀ x ∈ t.sent.dropLast, x = .connectFailed ∨ turnedAway x
  reauth : t.sent.dropLast.countP turnedAway ≤ 1
  bound : t.sent.length ≤ 2 * (retries + 1)
  paced : t.paced

/-- The outcomes of an order's transmission that leave open whether Toss took it, when the last
    look into `_acks` found `ack`. -/
def Unsettled (ack : Option OrderAck) : PostOutcome → Prop
  | .connectFailed => False
  | .sendFailed => True
  | .answered r =>
    r.status ≥ 500 ∨ r.status = 429 ∨ (r.status = 409 ∧ ack = none) ∨
      (¬ r.Success ∧ r.status ≠ 409 ∧ (jsonOrNone r).isNull)

/-- Does the call raise `TossAmbiguousOrderError`? -/
def RaisesAmbiguous {α : Type} : Except Exc α → Prop
  | .error (.toss e) => e.cls = .ambiguous
  | _ => False

/-! ## 2. `_send` -/

/-- Between two tallies, exactly `xs` was transmitted, each with its slot. -/
structure Grows (t : Tally) (xs : List PostOutcome) (t' : Tally) : Prop where
  sent : t'.sent = t.sent ++ xs
  paced : t'.paced = t.paced
  lookedUp : t'.lookedUp = t.lookedUp

theorem Grows.refl (t : Tally) : Grows t [] t := ⟨(List.append_nil _).symm, rfl, rfl⟩

theorem Grows.trans {t t' t'' : Tally} {xs ys : List PostOutcome} (h : Grows t xs t')
    (h' : Grows t' ys t'') : Grows t (xs ++ ys) t'' := by
  refine ⟨?_, h'.paced.trans h.paced, h'.lookedUp.trans h.lookedUp⟩
  rw [h'.sent, h.sent, List.append_assoc]

/-- One attempt: a slot, and the transmission that uses it. -/
theorem grows_attempt (t : Tally) (path : String) (payload : Payload) (headers : Headers)
    (x : PostOutcome) :
    Grows t [x] ((t.next ⟨.acquire, ()⟩).next ⟨.post path payload headers, x⟩) :=
  ⟨rfl, Bool.and_true _, rfl⟩

/-- How a `_send` with `n` attempts can go: what it transmits, and how it ends. -/
inductive SendEnds (ambiguous : Bool) : ℕ → List PostOutcome → Except Exc Response → Prop
  | exhausted {e : TossError} (hcls : e.cls = .transport) (hstatus : e.status = none) :
      SendEnds ambiguous 0 [] (.error (.toss e))
  | answered {n : ℕ} (resp : Response) :
      SendEnds ambiguous (n + 1) [.answered resp] (.ok resp)
  | sendFailed {n : ℕ} {e : TossError} (hcls : e.cls = if ambiguous then .ambiguous else .transport)
      (hstatus : e.status = none) :
      SendEnds ambiguous (n + 1) [.sendFailed] (.error (.toss e))
  | retry {n : ℕ} {xs : List PostOutcome} {r : Except Exc Response}
      (h : SendEnds ambiguous n xs r) : SendEnds ambiguous (n + 1) (.connectFailed :: xs) r

/-- What every discipline of this file allows: anything. Only the ends matter. -/
abbrev free : Tally → BrokerReq → Prop := fun _ _ => True

variable {b : TossBroker}

theorem sendLoop_along (path : String) (payload : Payload) (headers : Headers) (ambiguous : Bool) :
    ∀ (n : ℕ) (t : Tally), Along Tally.next free
      (fun t' r => ∃ xs, Grows t xs t' ∧ SendEnds ambiguous n xs r)
      (b.sendLoop (ask (.post path payload headers)) ambiguous n) t
  | 0, t => ⟨[], .refl t, .exhausted rfl rfl⟩
  | n + 1, t => by
    refine ⟨trivial, fun _ => ⟨trivial, fun x => ?_⟩⟩
    have hgrows := grows_attempt t path payload headers x
    cases x with
    | answered resp => exact ⟨[.answered resp], hgrows, .answered resp⟩
    | sendFailed => exact ⟨[.sendFailed], hgrows, .sendFailed rfl rfl⟩
    | connectFailed =>
      -- Nothing left: the rest is the same loop with one attempt less.
      refine Along.mono ?_ (sendLoop_along path payload headers ambiguous n _)
      intro t' r h
      obtain ⟨xs, hxs, hends⟩ := h
      exact ⟨.connectFailed :: xs, hgrows.trans hxs, .retry hends⟩

/-- Only the last transmission of a `_send` can be anything but a failure to connect. -/
theorem SendEnds.dropLast {ambiguous : Bool} {n : ℕ} {xs : List PostOutcome}
    {r : Except Exc Response} (h : SendEnds ambiguous n xs r) :
    xs.length ≤ n ∧ ∀ x ∈ xs.dropLast, x = .connectFailed := by
  induction h with
  | exhausted => exact ⟨le_refl _, fun x hx => absurd hx (by simp)⟩
  | answered => exact ⟨by simp, fun x hx => absurd hx (by simp)⟩
  | sendFailed => exact ⟨by simp, fun x hx => absurd hx (by simp)⟩
  | @retry n xs r _ ih =>
    refine ⟨by simpa using ih.1, fun x hx => ?_⟩
    cases xs with
    | nil => exact absurd hx (by simp)
    | cons y ys =>
      rw [List.dropLast_cons_cons] at hx
      rcases List.mem_cons.mp hx with rfl | hmem
      · rfl
      · exact ih.2 x hmem

/-- A `_send` that returned did so with its last transmission's answer. -/
theorem SendEnds.ok {ambiguous : Bool} {n : ℕ} {xs : List PostOutcome} {resp : Response}
    {r : Except Exc Response} (h : SendEnds ambiguous n xs r) (hr : r = .ok resp) :
    ∃ pre, xs = pre ++ [.answered resp] ∧ ∀ x ∈ pre, x = .connectFailed := by
  induction h with
  | exhausted => exact absurd hr (by simp)
  | answered resp' =>
    obtain rfl := Except.ok.inj hr
    exact ⟨[], rfl, fun x hx => absurd hx (by simp)⟩
  | sendFailed => exact absurd hr (by simp)
  | retry _ ih =>
    obtain ⟨pre, rfl, hpre⟩ := ih hr
    refine ⟨.connectFailed :: pre, rfl, fun x hx => ?_⟩
    rcases List.mem_cons.mp hx with rfl | hmem
    · rfl
    · exact hpre x hmem

/-! ## 3. `_post` -/

/-- How a `_post` ends, read off its last transmission. -/
inductive Concludes (ambiguous : Bool) : List PostOutcome → Except Exc Json → Prop
  | payload {p : List PostOutcome} {resp : Response} {payload : Json}
      (h : parseToss resp ambiguous = .ok payload) :
      Concludes ambiguous (p ++ [.answered resp]) (.ok payload)
  | error {p : List PostOutcome} {resp : Response} {e : TossError}
      (h : parseToss resp ambiguous = .error e) :
      Concludes ambiguous (p ++ [.answered resp]) (.error (.toss e))
  | sendFailed {p : List PostOutcome} {e : TossError}
      (hcls : e.cls = if ambiguous then .ambiguous else .transport) (hstatus : e.status = none) :
      Concludes ambiguous (p ++ [.sendFailed]) (.error (.toss e))
  | exhausted {p : List PostOutcome} {e : TossError} (hcls : e.cls = .transport)
      (hstatus : e.status = none) :
      Concludes ambiguous (p ++ [.connectFailed]) (.error (.toss e))

theorem Concludes.prepend {ambiguous : Bool} {xs : List PostOutcome} {r : Except Exc Json}
    (ys : List PostOutcome) (h : Concludes ambiguous xs r) : Concludes ambiguous (ys ++ xs) r := by
  cases h with
  | payload h => rw [← List.append_assoc]; exact .payload h
  | error h => rw [← List.append_assoc]; exact .error h
  | sendFailed hcls hstatus => rw [← List.append_assoc]; exact .sendFailed hcls hstatus
  | exhausted hcls hstatus => rw [← List.append_assoc]; exact .exhausted hcls hstatus

/-- An exception of `_send` is `_post`'s. A `_send` has at least one attempt. -/
theorem SendEnds.concludes {ambiguous : Bool} {n : ℕ} {xs : List PostOutcome} {e : Exc}
    {r : Except Exc Response} (h : SendEnds ambiguous n xs r) (hr : r = .error e) :
    (n = 0 ∧ xs = [] ∧ ∃ err, e = .toss err ∧ err.cls = .transport ∧ err.status = none) ∨
      Concludes ambiguous xs (.error e) := by
  induction h with
  | exhausted hcls hstatus =>
    obtain rfl := Except.error.inj hr
    exact .inl ⟨rfl, rfl, _, rfl, hcls, hstatus⟩
  | answered => exact absurd hr (by simp)
  | sendFailed hcls hstatus =>
    obtain rfl := Except.error.inj hr
    exact .inr (.sendFailed (p := []) hcls hstatus)
  | retry _ ih =>
    rcases ih hr with ⟨-, rfl, err, rfl, hcls, hstatus⟩ | hends
    · exact .inr (.exhausted (p := []) hcls hstatus)
    · exact .inr (hends.prepend [.connectFailed])

/-- All that a `_post` with `n` attempts per `_send` may have transmitted: what one `_send` can, or
    what one that was turned away can and then another. -/
inductive Course (n : ℕ) : List PostOutcome → Prop
  | once {xs : List PostOutcome} (hlen : xs.length ≤ n)
      (hxs : ∀ x ∈ xs.dropLast, x = .connectFailed) : Course n xs
  | twice {pre zs : List PostOutcome} {x : PostOutcome} (hlen : pre.length + 1 ≤ n)
      (hpre : ∀ x ∈ pre, x = .connectFailed) (hx : turnedAway x) (hlen' : zs.length ≤ n)
      (hzs : ∀ x ∈ zs.dropLast, x = .connectFailed) : Course n (pre ++ x :: zs)

theorem countP_turnedAway_eq_zero {xs : List PostOutcome} (h : ∀ x ∈ xs, x = .connectFailed) :
    xs.countP turnedAway = 0 := by
  rw [List.countP_eq_zero]
  intro x hx
  rw [h x hx]
  exact Bool.false_ne_true

theorem Course.atMostOnce {retries : ℕ} {t : Tally} (h : Course (retries + 1) t.sent)
    (hpaced : t.paced) : AtMostOnce retries t := by
  obtain ⟨sent, acquired, paced, lookedUp, ack⟩ := t
  change Course (retries + 1) sent at h
  cases h with
  | once hlen hxs =>
    refine ⟨fun x hx => .inl (hxs x hx), ?_, ?_, hpaced⟩
    · show sent.dropLast.countP turnedAway ≤ 1
      rw [countP_turnedAway_eq_zero hxs]
      exact Nat.zero_le 1
    · show sent.length ≤ 2 * (retries + 1)
      omega
  | @twice pre zs x hlen hpre hx hlen' hzs =>
    -- Dropping the last of the whole drops the last of the second `_send`, or the one turned away.
    have hsub : (pre ++ x :: zs).dropLast.Sublist (pre ++ x :: zs.dropLast) := by
      rw [List.dropLast_append_of_ne_nil (List.cons_ne_nil x zs)]
      refine List.Sublist.append_left ?_ pre
      cases zs with
      | nil => exact List.nil_sublist _
      | cons y ys => exact List.Sublist.refl _
    refine ⟨fun y hy => ?_, ?_, ?_, hpaced⟩
    · rcases List.mem_append.mp (hsub.subset hy) with hmem | hmem
      · exact .inl (hpre y hmem)
      · rcases List.mem_cons.mp hmem with rfl | hmem
        · exact .inr hx
        · exact .inl (hzs y hmem)
    · have hcount := hsub.countP_le (p := turnedAway)
      rw [List.countP_append, List.countP_cons, countP_turnedAway_eq_zero hpre,
        countP_turnedAway_eq_zero hzs, if_pos hx] at hcount
      exact hcount
    · show (pre ++ x :: zs).length ≤ 2 * (retries + 1)
      rw [List.length_append, List.length_cons]
      omega

/-- A lookup failed: nothing was transmitted since `t`. -/
structure Stalls (t t' : Tally) : Prop where
  sent : t'.sent = t.sent
  paced : t'.paced = t.paced
  lookedUp : t'.lookedUp = false

theorem Stalls.of_grows {t t' t'' : Tally} (h : Grows t [] t') (h' : Stalls t' t'') :
    Stalls t t'' := by
  refine ⟨?_, h'.paced.trans h.paced, h'.lookedUp⟩
  rw [h'.sent, h.sent, List.append_nil]

/-- How a lookup ends. -/
def Looks {α : Type} (t t' : Tally) : Except Exc α → Prop
  | .ok _ => Grows t [] t'
  | .error _ => Stalls t t'

theorem authHeaders_along (t : Tally) : Along Tally.next free (Looks t) authHeaders t := by
  refine ⟨trivial, fun x => ?_⟩
  cases x with
  | ok h => exact ⟨(List.append_nil _).symm, rfl, Bool.and_true _⟩
  | error f => exact ⟨rfl, rfl, Bool.and_false _⟩

theorem accountSeq_along (t : Tally) : Along Tally.next free (Looks t)
    accountSeq t := by
  refine ⟨trivial, fun x => ?_⟩
  cases x with
  | ok h => exact ⟨(List.append_nil _).symm, rfl, Bool.and_true _⟩
  | error f => exact ⟨rfl, rfl, Bool.and_false _⟩

/-- The `send` that `_post` hands to `request_with_reauth`: the account, then a `_send`. -/
def Transmits (ambiguous : Bool) (n : ℕ) (t t' : Tally) (r : Except Exc Response) : Prop :=
  (∃ e, r = .error e ∧ Stalls t t') ∨ ∃ xs, Grows t xs t' ∧ SendEnds ambiguous n xs r

/-- The answers after which a body is sent again. -/
theorem turnedAway_of_invalidToken {resp : Response} {ambiguous : Bool} {e : TossError}
    (hparse : parseToss resp ambiguous = .error e) (h : e.InvalidToken) :
    turnedAway (.answered resp) := by
  obtain ⟨-, hof⟩ := of_parseToss_error hparse
  have hstatus : resp.status = 401 := Option.some.inj (hof.status.symm.trans h.1)
  exact decide_eq_true ⟨hstatus, hof.code.symm.trans h.2⟩

/-- How a `_post` that starts with nothing transmitted ends. -/
structure Posts (ambiguous : Bool) (n : ℕ) (t t' : Tally) (r : Except Exc Json) : Prop where
  paced : t'.paced = t.paced
  course : Course n t'.sent
  concludes : t'.lookedUp → Concludes ambiguous t'.sent r

/-- A stalled `_post` owes no conclusion. -/
theorem Posts.of_stalls {ambiguous : Bool} {n : ℕ} {t t₁ t' : Tally} {r : Except Exc Json}
    (hpaced : t₁.paced = t.paced) (hcourse : Course n t₁.sent) (h : Stalls t₁ t') :
    Posts ambiguous n t t' r := by
  refine ⟨h.paced.trans hpaced, ?_, fun hlooked => ?_⟩
  · rw [h.sent]; exact hcourse
  · rw [h.lookedUp] at hlooked
    exact absurd hlooked Bool.false_ne_true

/-- The answer of a `_send` is `_post`'s, by way of `parse_toss`. -/
theorem Concludes.parse {ambiguous : Bool} {resp : Response} (pre : List PostOutcome) :
    Concludes ambiguous (pre ++ [.answered resp]) (match parseToss resp ambiguous with
      | .ok body => .ok body
      | .error e => .error (.toss e)) := by
  cases hparse : parseToss resp ambiguous with
  | ok body => exact .payload hparse
  | error e => exact .error hparse

/-- A parsed answer ends `_post`. -/
theorem along_parse {G : Type} {next : G → Event BrokerReq.Resp → G} {ok : G → BrokerReq → Prop}
    {fin : G → Except Exc Json → Prop} {g : G} {resp : Response} {ambiguous : Bool}
    (h : fin g (match parseToss resp ambiguous with
      | .ok payload => .ok payload
      | .error e => .error (.toss e))) :
    Along next ok fin (match parseToss resp ambiguous with
      | .ok payload => .ret payload
      | .error e => .raise (.toss e) : Prog Json) g := by
  cases hparse : parseToss resp ambiguous with
  | ok payload => rw [hparse] at h; exact h
  | error e => rw [hparse] at h; exact h

/-- The second attempt of `request_with_reauth`, from a first that was turned away. -/
theorem reauth_along {send : String → Prog Response} {ambiguous : Bool} {n : ℕ}
    (hsend : ∀ authorization t,
      Along Tally.next free (Transmits ambiguous (n + 1) t) (send authorization) t)
    {t u : Tally} {pre : List PostOutcome} {x : PostOutcome} (hsent : u.sent = pre ++ [x])
    (hpaced : u.paced = t.paced) (hlen : pre.length + 1 ≤ n + 1)
    (hpre : ∀ x ∈ pre, x = .connectFailed) (hx : turnedAway x) :
    Along Tally.next free (Posts ambiguous (n + 1) t) (do
      let headers ← authHeaders
      let resp ← send headers
      match parseToss resp ambiguous with
      | .ok payload => .ret payload
      | .error e => .raise (.toss e)) u := by
  -- What the first attempt transmitted, and whatever the second one adds.
  have hcourse : ∀ zs : List PostOutcome, zs.length ≤ n + 1 →
      (∀ x ∈ zs.dropLast, x = .connectFailed) → Course (n + 1) (pre ++ x :: zs) :=
    fun zs hlen' hzs => .twice hlen hpre hx hlen' hzs
  have hstalled : Course (n + 1) u.sent :=
    hsent ▸ hcourse [] (Nat.zero_le _) (fun x hx => absurd hx (by simp))
  refine .bind (authHeaders_along u) (fun t₃ h hlook => ?_) (fun t₃ e hstall => ?_)
  swap
  · exact .of_stalls hpaced hstalled hstall
  refine .bind (hsend h t₃) (fun t₄ resp hends => ?_) (fun t₄ e hends => ?_)
  · rcases hends with ⟨e, habs, -⟩ | ⟨zs, hgrows, hends⟩
    · exact absurd habs (by simp)
    have hall := hlook.trans hgrows
    have hsent₄ : t₄.sent = pre ++ x :: zs := by
      rw [hall.sent, hsent, List.nil_append, List.append_assoc, List.singleton_append]
    refine along_parse ⟨hall.paced.trans hpaced, ?_, fun _ => ?_⟩
    · rw [hsent₄]
      exact hcourse zs hends.dropLast.1 hends.dropLast.2
    · obtain ⟨pre', rfl, -⟩ := hends.ok rfl
      rw [hsent₄, ← List.singleton_append, ← List.append_assoc]
      exact (Concludes.parse pre').prepend (pre ++ [x])
  · rcases hends with ⟨-, -, hstall⟩ | ⟨zs, hgrows, hends⟩
    · exact .of_stalls hpaced hstalled (hstall.of_grows hlook)
    have hall := hlook.trans hgrows
    have hsent₄ : t₄.sent = pre ++ x :: zs := by
      rw [hall.sent, hsent, List.nil_append, List.append_assoc, List.singleton_append]
    refine ⟨hall.paced.trans hpaced, ?_, fun _ => ?_⟩
    · rw [hsent₄]
      exact hcourse zs hends.dropLast.1 hends.dropLast.2
    · rcases hends.concludes rfl with ⟨hn, -⟩ | hconcludes
      · exact absurd hn (Nat.succ_ne_zero n)
      · rw [hsent₄, ← List.singleton_append, ← List.append_assoc]
        exact hconcludes.prepend (pre ++ [x])

theorem requestWithReauth_along {send : String → Prog Response} {ambiguous : Bool} {n : ℕ}
    (hsend : ∀ authorization t,
      Along Tally.next free (Transmits ambiguous (n + 1) t) (send authorization) t)
    {t : Tally} (ht : t.sent = []) :
    Along Tally.next free (Posts ambiguous (n + 1) t) (requestWithReauth send ambiguous) t := by
  have hnil : Course (n + 1) [] := .once (Nat.zero_le _) (fun x hx => absurd hx (by simp))
  refine .bind (authHeaders_along t) (fun t₁ h hlook => ?_) (fun t₁ e hstall => ?_)
  swap
  · exact .of_stalls rfl (ht ▸ hnil) hstall
  have hsent₁ : t₁.sent = [] := by rw [hlook.sent, ht, List.append_nil]
  refine .bind (hsend h t₁) (fun t₂ resp hends => ?_) (fun t₂ e hends => ?_)
  swap
  · -- The first `send` raised.
    rcases hends with ⟨-, -, hstall⟩ | ⟨xs, hgrows, hends⟩
    · exact .of_stalls hlook.paced (hsent₁ ▸ hnil) hstall
    · have hsent₂ : t₂.sent = xs := by rw [hgrows.sent, hsent₁, List.nil_append]
      refine ⟨hgrows.paced.trans hlook.paced, ?_, fun _ => ?_⟩
      · exact hsent₂ ▸ .once hends.dropLast.1 hends.dropLast.2
      · rcases hends.concludes rfl with ⟨hn, -⟩ | hconcludes
        · exact absurd hn (Nat.succ_ne_zero n)
        · exact hsent₂ ▸ hconcludes
  rcases hends with ⟨e, habs, -⟩ | ⟨xs, hgrows, hends⟩
  · exact absurd habs (by simp)
  obtain ⟨pre, rfl, hpre⟩ := hends.ok rfl
  have hsent₂ : t₂.sent = pre ++ [.answered resp] := by
    rw [hgrows.sent, hsent₁, List.nil_append]
  have hpaced₂ := hgrows.paced.trans hlook.paced
  have honce : Course (n + 1) t₂.sent := hsent₂ ▸ .once hends.dropLast.1 hends.dropLast.2
  cases hparse : parseToss resp ambiguous with
  | ok payload =>
    exact ⟨hpaced₂, honce, fun _ => hsent₂ ▸ .payload hparse⟩
  | error err =>
    by_cases htoken : err.InvalidToken
    swap
    · show Along _ _ _ (if err.InvalidToken then _ else _) _
      rw [if_neg htoken]
      exact ⟨hpaced₂, honce, fun _ => hsent₂ ▸ .error hparse⟩
    show Along _ _ _ (if err.InvalidToken then _ else _) _
    rw [if_pos htoken]
    have haway : turnedAway (.answered resp) := turnedAway_of_invalidToken hparse htoken
    refine ⟨trivial, fun _ => ?_⟩
    have hlen : pre.length + 1 ≤ n + 1 := by
      have := hends.dropLast.1
      rwa [List.length_append] at this
    exact reauth_along hsend (u := t₂.next ⟨.invalidate, ()⟩) hsent₂ hpaced₂ hlen hpre haway

theorem post_along (path : String) (payload : Payload) (ambiguous : Bool) {t : Tally}
    (ht : t.sent = []) : Along Tally.next free (Posts ambiguous (b.transportRetries + 1) t)
      (b.post path payload ambiguous) t := by
  refine requestWithReauth_along (fun authorization t => ?_) ht
  refine .bind (accountSeq_along t) (fun t₁ account hlook => ?_) (fun t₁ e hstall => ?_)
  · refine Along.mono ?_ (sendLoop_along path payload _ ambiguous _ t₁)
    intro t' r h
    obtain ⟨xs, hgrows, hends⟩ := h
    exact .inr ⟨xs, hlook.trans hgrows, hends⟩
  · exact .inl ⟨e, rfl, hstall⟩

/-! ## 4. `cancel` and `place` -/

/-- What a part of a method that transmits nothing leaves behind. -/
def Quiet {α : Type} (t t' : Tally) (r : Except Exc α) : Prop := t' = t ∧ ¬ RaisesAmbiguous r

/-- An exception passes through a continuation as it is. -/
theorem Quiet.error {α β : Type} {t t' : Tally} {e : Exc}
    (h : Quiet t t' (.error e : Except Exc α)) : Quiet t t' (.error e : Except Exc β) := by
  cases e <;> exact h

theorem ledgerCall_along (op : LedgerOp) (t : Tally) :
    Along Tally.next free (Quiet t) (discard <| ledgerCall op) t := by
  refine ⟨trivial, fun x => ?_⟩
  cases x with
  | done => exact ⟨rfl, id⟩
  | verdict v => exact ⟨rfl, id⟩
  | raised e => exact ⟨rfl, id⟩

theorem unwind_along (req : OrderRequest) (reserved sellRecorded : Bool) (t : Tally) :
    Along Tally.next free (Quiet t) (TossBroker.unwind req reserved sellRecorded) t := by
  unfold TossBroker.unwind
  split
  · exact ⟨rfl, id⟩
  · cases reserved <;> cases sellRecorded
    · exact ⟨rfl, id⟩
    · exact ledgerCall_along _ t
    · exact .bind (ledgerCall_along _ t) (fun _ _ h => h) (fun _ _ h => h)
    · refine .bind (ledgerCall_along _ t) (fun t' _ h => ?_) (fun _ _ h => h)
      obtain rfl := h.1
      exact ledgerCall_along _ _

theorem accept_along (req : OrderRequest) (reserved sellRecorded : Bool) (result : Json)
    (t : Tally) :
    Along Tally.next free (Quiet t) (b.accept req reserved sellRecorded result) t := by
  unfold TossBroker.accept
  dsimp only
  split
  · refine .bind (unwind_along req reserved sellRecorded t) (fun t' _ h => ?_)
      (fun _ _ h => h.error)
    exact ⟨h.1, fun hcls => by cases hcls⟩
  · split
    · exact ⟨rfl, id⟩
    · refine .bind (ledgerCall_along _ t) (fun t' _ h => ?_) (fun _ _ h => h.error)
      exact ⟨trivial, fun _ => ⟨h.1, id⟩⟩

/-- A look into `_acks`. -/
theorem cached_along {clientOrderId : String} (hc : clientOrderId ≠ "") (t : Tally) :
    Along Tally.next free (fun t' r => ∃ ack, r = .ok ack ∧ t' = { t with ack })
      (b.cached clientOrderId) t := by
  unfold TossBroker.cached
  rw [if_neg hc]
  exact ⟨trivial, fun ack => ⟨ack, rfl, rfl⟩⟩

/-- Between two tallies nothing was transmitted and nothing looked up. -/
structure Keeps (t t' : Tally) : Prop where
  sent : t'.sent = t.sent
  paced : t'.paced = t.paced
  lookedUp : t'.lookedUp = t.lookedUp

theorem Quiet.keeps {α : Type} {t t' : Tally} {r : Except Exc α} (h : Quiet t t' r) :
    Keeps t t' := by
  obtain rfl := h.1
  exact ⟨rfl, rfl, rfl⟩

/-- How the dispatch of an error ends: which errors become ambiguous. -/
def DispatchEnd (e : TossError) (t t' : Tally) (r : Except Exc OrderAck) : Prop :=
  Keeps t t' ∧ (RaisesAmbiguous r ↔
    (e.status = some 409 ∧ t'.ack = none) ∨ (e.status ≠ some 409 ∧ e.cls = .ambiguous))

/-- Past the conflict an error is ambiguous exactly when its class says so. -/
theorem dispatchEnd_plain {e : TossError} (h409 : e.status ≠ some 409) {t t' : Tally}
    {r : Except Exc OrderAck} (hkeeps : Keeps t t')
    (hiff : RaisesAmbiguous r ↔ e.cls = .ambiguous) : DispatchEnd e t t' r := by
  refine ⟨hkeeps, hiff.trans ⟨fun h => .inr ⟨h409, h⟩, ?_⟩⟩
  rintro (⟨h, -⟩ | ⟨-, h⟩)
  · exact absurd h h409
  · exact h

/-- `_unwind`, and then the end of the call, which is not an ambiguous one. -/
theorem unwind_end_along {e : TossError} (h409 : e.status ≠ some 409) (hcls : e.cls ≠ .ambiguous)
    (req : OrderRequest) (reserved sellRecorded : Bool) (t : Tally) {r : Except Exc OrderAck}
    {k : Prog OrderAck} (hk : ∀ t', Along Tally.next free (fun t'' r' => t'' = t' ∧ r' = r) k t')
    (hr : ¬ RaisesAmbiguous r) :
    Along Tally.next free (DispatchEnd e t)
      (do TossBroker.unwind req reserved sellRecorded; k) t := by
  refine .bind (unwind_along req reserved sellRecorded t) (fun t' _ h => ?_) (fun t' e' h => ?_)
  · refine Along.mono ?_ (hk t')
    intro t'' r' hw
    obtain ⟨rfl, rfl⟩ := hw
    exact dispatchEnd_plain h409 h.keeps (iff_of_false hr hcls)
  · have hquiet : Quiet t t' (.error e' : Except Exc OrderAck) := h.error
    exact dispatchEnd_plain h409 h.keeps (iff_of_false hquiet.2 hcls)

/-- The dispatch of an error. -/
theorem handleOrderError_along (e : TossError) (req : OrderRequest) (reserved sellRecorded : Bool)
    (hc : req.clientOrderId ≠ "") (t : Tally) :
    Along Tally.next free (DispatchEnd e t) (b.handleOrderError e req reserved sellRecorded) t := by
  unfold TossBroker.handleOrderError
  split
  · next h409 =>
    refine .bind (cached_along hc t) ?_ ?_
    · intro t' a hw
      obtain ⟨ack, ha, rfl⟩ := hw
      obtain rfl := Except.ok.inj ha
      cases a with
      | none => exact ⟨⟨rfl, rfl, rfl⟩, fun _ => .inl ⟨h409, rfl⟩, fun _ => rfl⟩
      | some ack =>
        refine ⟨⟨rfl, rfl, rfl⟩, False.elim, fun h => ?_⟩
        rcases h with ⟨-, hnone⟩ | ⟨hne, -⟩
        · exact absurd hnone (by simp)
        · exact absurd h409 hne
    · intro t' e' hw
      obtain ⟨ack, habs, -⟩ := hw
      exact absurd habs (by simp)
  · next h409 =>
    split
    · next hbusiness =>
      have hcls : e.cls ≠ .ambiguous := by simp [cls_of_isBusinessRejection hbusiness]
      exact unwind_end_along h409 hcls req reserved sellRecorded t (fun _ => ⟨rfl, rfl⟩) id
    · split
      · next hamb =>
        exact dispatchEnd_plain h409 ⟨rfl, rfl, rfl⟩ ⟨fun _ => hamb, fun _ => hamb⟩
      · next hcls =>
        exact unwind_end_along h409 hcls req reserved sellRecorded t (fun _ => ⟨rfl, rfl⟩) hcls

/-- What a call may end with: at most one submission, and — for `place`, if no lookup failed — the
    truth about its last transmission. -/
structure Classified (retries : ℕ) (t : Tally) (r : Except Exc OrderAck) : Prop where
  atMostOnce : AtMostOnce retries t
  truthful : t.lookedUp → ∀ x, t.sent.getLast? = some x → (RaisesAmbiguous r ↔ Unsettled t.ack x)

theorem Keeps.atMostOnce {retries : ℕ} {t t' : Tally} (h : Keeps t t')
    (ha : AtMostOnce retries t) : AtMostOnce retries t' := by
  obtain ⟨hres, hreauth, hbound, hpaced⟩ := ha
  exact ⟨h.sent ▸ hres, h.sent ▸ hreauth, h.sent ▸ hbound, h.paced ▸ hpaced⟩

/-- A success settles the order. -/
theorem not_unsettled_of_success {ack : Option OrderAck} {r : Response} (h : r.Success) :
    ¬ Unsettled ack (.answered r) := by
  have hlt : r.status < 300 := h.2
  rintro (h500 | h429 | ⟨h409, -⟩ | ⟨hno, -⟩)
  · omega
  · omega
  · omega
  · exact hno h

theorem success_of_parseToss {r : Response} {ambiguous : Bool} {payload : Json}
    (h : parseToss r ambiguous = .ok payload) : r.Success := by
  by_contra hno
  obtain ⟨e, he, -⟩ := parseToss_error hno ambiguous
  rw [he] at h
  exact absurd h (by simp)

/-- A payload came with a success. -/
theorem Concludes.last_of_ok {ambiguous : Bool} {sent : List PostOutcome} {result : Json}
    (h : Concludes ambiguous sent (.ok result)) :
    ∃ resp, sent.getLast? = some (.answered resp) ∧ resp.Success := by
  cases h with
  | payload hparse => exact ⟨_, List.getLast?_concat, success_of_parseToss hparse⟩

/-- After its lookups a `_post` raises nothing but the package's own errors. -/
theorem Concludes.toss_of_error {ambiguous : Bool} {sent : List PostOutcome} {e : Exc}
    (h : Concludes ambiguous sent (.error e)) : ∃ err, e = .toss err := by
  cases h <;> exact ⟨_, rfl⟩

/-- The dispatch of an error tells the truth about the transmission the error is about. -/
theorem unsettled_iff {sent : List PostOutcome} {e : TossError} {x : PostOutcome}
    (h : Concludes true sent (.error (.toss e))) (hx : sent.getLast? = some x)
    (ack : Option OrderAck) : Unsettled ack x ↔
      (e.status = some 409 ∧ ack = none) ∨ (e.status ≠ some 409 ∧ e.cls = .ambiguous) := by
  cases h with
  | @error pre resp _ hparse =>
    rw [List.getLast?_concat] at hx
    obtain rfl := Option.some.inj hx
    obtain ⟨hno, hof⟩ := of_parseToss_error hparse
    have hcls : e.cls = .ambiguous ↔
        resp.status ≥ 500 ∨ resp.status = 429 ∨ (jsonOrNone resp).isNull :=
      hof.ambiguous.trans ((and_iff_right rfl).trans hof.transport)
    have h409 : e.status = some 409 ↔ resp.status = 409 := by
      rw [hof.status, Option.some.injEq]
    rw [hcls, ne_eq, h409]
    show resp.status ≥ 500 ∨ resp.status = 429 ∨ (resp.status = 409 ∧ ack = none) ∨
      (¬ resp.Success ∧ resp.status ≠ 409 ∧ (jsonOrNone resp).isNull) ↔ _
    by_cases h : resp.status = 409
    · have h500 : ¬ resp.status ≥ 500 := by omega
      have h429 : resp.status ≠ 429 := by omega
      tauto
    · tauto
  | @sendFailed pre _ hcls hstatus =>
    rw [List.getLast?_concat] at hx
    obtain rfl := Option.some.inj hx
    refine ⟨fun _ => .inr ⟨?_, hcls⟩, fun _ => trivial⟩
    rw [hstatus]
    exact nofun
  | @exhausted pre _ hcls hstatus =>
    rw [List.getLast?_concat] at hx
    obtain rfl := Option.some.inj hx
    refine ⟨False.elim, ?_⟩
    rintro (⟨h, -⟩ | ⟨-, h⟩)
    · rw [hstatus] at h
      exact absurd h nofun
    · rw [hcls] at h
      exact absurd h nofun

theorem submit_along (req : OrderRequest) (reserved sellRecorded : Bool)
    (hc : req.clientOrderId ≠ "") {t : Tally} (ht : t.sent = []) (hpaced : t.paced) :
    Along Tally.next free (Classified b.transportRetries)
      (b.submit req reserved sellRecorded) t := by
  refine .attempt (fun t₁ result hposts => ?_) (fun t₁ e hposts => ?_)
    (post_along ordersPath (.order (buildBody req)) true ht)
  · have honce := hposts.course.atMostOnce (hposts.paced.trans hpaced)
    refine Along.mono (fun t' r hquiet => ?_) (accept_along req reserved sellRecorded result t₁)
    obtain ⟨rfl, hr⟩ := hquiet
    refine ⟨honce, fun hlooked x hx => ?_⟩
    obtain ⟨resp, hlast, hsuccess⟩ := (hposts.concludes hlooked).last_of_ok
    obtain rfl := Option.some.inj (hlast.symm.trans hx)
    exact ⟨fun h => absurd h hr, fun h => absurd h (not_unsettled_of_success hsuccess)⟩
  · have honce := hposts.course.atMostOnce (hposts.paced.trans hpaced)
    cases e with
    | toss e =>
      refine Along.mono (fun t' r h => ?_)
        (handleOrderError_along e req reserved sellRecorded hc t₁)
      obtain ⟨hkeeps, hiff⟩ := h
      refine ⟨hkeeps.atMostOnce honce, fun hlooked x hx => ?_⟩
      have hconcludes := hposts.concludes (hkeeps.lookedUp ▸ hlooked)
      exact hiff.trans (unsettled_iff hconcludes (hkeeps.sent ▸ hx) t'.ack).symm
    | http =>
      -- An `httpx` error comes from a lookup.
      have hfailed : ∀ r : Except Exc OrderAck, Classified b.transportRetries t₁ r := by
        intro r
        refine ⟨honce, fun hlooked => ?_⟩
        obtain ⟨err, habs⟩ := (hposts.concludes hlooked).toss_of_error
        exact absurd habs nofun
      refine .bind (unwind_along req reserved sellRecorded t₁) (fun t' _ hquiet => ?_)
        (fun t' e hquiet => ?_)
      · exact hquiet.1 ▸ hfailed _
      · exact hquiet.1 ▸ hfailed _
    | ledger e | python e =>
      refine ⟨honce, fun hlooked => ?_⟩
      obtain ⟨err, habs⟩ := (hposts.concludes hlooked).toss_of_error
      exact absurd habs (by simp)

/-- A call that ends before it transmits anything. -/
theorem classified_of_unsent {t : Tally} (ht : t.sent = []) (hpaced : t.paced)
    (r : Except Exc OrderAck) (retries : ℕ) : Classified retries t r := by
  have hcourse : Course (retries + 1) t.sent :=
    ht ▸ .once (Nat.zero_le _) (fun x hx => absurd hx (by simp))
  refine ⟨hcourse.atMostOnce hpaced, fun _ x hx => ?_⟩
  rw [ht] at hx
  exact absurd hx (by simp)

/-- The guards of `place` transmit nothing, and go on to `submit` only under a client order id. -/
theorem guard_along (req : OrderRequest) (op : LedgerOp) (reserved sellRecorded : Bool)
    (message : String) (hc : req.clientOrderId ≠ "") {t : Tally} (ht : t.sent = [])
    (hpaced : t.paced) : Along Tally.next free (Classified b.transportRetries) (do
      if (← ledgerCall op) = .verdict true then b.submit req reserved sellRecorded
      else .ret (reject req message)) t := by
  refine ⟨trivial, fun x => ?_⟩
  cases x with
  | done => exact classified_of_unsent ht hpaced _ _
  | raised e => exact classified_of_unsent ht hpaced _ _
  | verdict v =>
    cases v with
    | false => exact classified_of_unsent ht hpaced _ _
    | true => exact submit_along req reserved sellRecorded hc ht hpaced

theorem placeGuarded_along (req : OrderRequest) {t : Tally} (ht : t.sent = [])
    (hpaced : t.paced) :
    Along Tally.next free (Classified b.transportRetries) (b.placeGuarded req) t := by
  have hreject := fun r => classified_of_unsent ht hpaced r b.transportRetries
  unfold TossBroker.placeGuarded
  split
  · unfold TossBroker.placeBuy
    split
    · exact hreject _
    · split
      · exact hreject _
      · next hc =>
        split
        · exact hreject _
        · exact guard_along req _ true false _ hc ht hpaced
  · unfold TossBroker.placeSell
    split
    · exact hreject _
    · next hc =>
      split
      · exact hreject _
      · exact guard_along req _ false true _ hc ht hpaced

theorem place_along (req : OrderRequest) {t : Tally} (ht : t.sent = []) (hpaced : t.paced) :
    Along Tally.next free (Classified b.transportRetries) (b.place req) t := by
  unfold TossBroker.place
  by_cases hc : req.clientOrderId = ""
  · rw [TossBroker.cached, if_pos hc]
    exact placeGuarded_along req ht hpaced
  · refine .bind (cached_along hc t) ?_ ?_
    · intro t' a h
      obtain ⟨ack, ha, rfl⟩ := h
      obtain rfl := Except.ok.inj ha
      cases a with
      | some ack => exact classified_of_unsent (t := { t with ack := some ack }) ht hpaced _ _
      | none => exact placeGuarded_along req (t := { t with ack := none }) ht hpaced
    · intro t' e h
      obtain ⟨ack, habs, -⟩ := h
      exact absurd habs (by simp)

theorem cancel_along (orderId : String) {t : Tally} (ht : t.sent = []) (hpaced : t.paced) :
    Along Tally.next free (fun t' _ => AtMostOnce b.transportRetries t') (b.cancel orderId) t := by
  refine .attempt (fun t₁ result hposts => ?_) (fun t₁ e hposts => ?_)
    (post_along (cancelPath orderId) .empty false ht)
  · have honce := hposts.course.atMostOnce (hposts.paced.trans hpaced)
    refine ⟨trivial, fun x => ?_⟩
    cases x with
    | none => exact honce
    | some clientOrderId =>
      show Along _ _ _ (if clientOrderId = "" then _ else _) _
      split
      · exact honce
      · refine .bind (ledgerCall_along _ t₁) (fun t' _ h => ?_) (fun t' _ h => ?_)
        · exact h.1 ▸ honce
        · exact h.1 ▸ honce
  · have honce := hposts.course.atMostOnce (hposts.paced.trans hpaced)
    cases e with
    | toss e =>
      show Along _ _ _ (if isBusinessRejection e then _ else _) _
      split <;> exact honce
    | http => exact honce
    | python e => exact honce
    | ledger e => exact honce

/-- **One call, one submission.** In every run of `place` and of `cancel`, whatever is answered: at
    most the last transmission can have reached an order book. And a `place` whose lookups all
    succeeded raises the ambiguous error exactly when its last transmission left the matter open. -/
theorem submission (b : TossBroker) :
    (∀ req tr r, Runs (b.place req) tr r → Classified b.transportRetries (tally tr) r) ∧
      ∀ orderId tr r, Runs (b.cancel orderId) tr r →
        AtMostOnce b.transportRetries (tally tr) := by
  refine ⟨fun req tr r hruns => ?_, fun orderId tr r hruns => ?_⟩
  · exact (place_along req (t := {}) rfl rfl).runs hruns
  · exact (cancel_along orderId (t := {}) rfl rfl).runs hruns

/-- Answers in which every lookup succeeds, every guard passes, nothing is cached, and the
    transmissions end as scripted. -/
def scripted (outcomes : List PostOutcome) (past : List (Event BrokerReq.Resp)) :
    (q : BrokerReq) → q.Resp
  | .cachedAck _ _ => none
  | .cacheAck _ _ _ => ()
  | .ledger _ => .verdict true
  | .clientOrderIdFor _ => none
  | .authHeaders => .ok "Bearer t"
  | .invalidate => ()
  | .accountSeq => .ok "7"
  | .acquire => ()
  | .post _ _ _ => outcomes.getD (tally past).sent.length .connectFailed
  | .orderFill _ => .ok none
  | .cachedToken => some "t"
  | .cacheToken _ => ()
  | .postToken => .connectFailed
  | .cachedAccountSeq => some "7"
  | .cacheAccountSeq _ => ()
  | .acquireRead => ()
  | .get _ _ _ _ => .connectFailed

/-- A dead token, as Toss reports it. -/
def tokenDied : Response :=
  .of 401 (some (.obj [("error", .obj [("code", .str "invalid-token")])]))

def timedOutBuy : List (Event BrokerReq.Resp) × Except Exc OrderAck :=
  play (scripted [.connectFailed, .answered tokenDied, .sendFailed]) []
    (TossBroker.place { id := 0 } (.limit .BUY 1 50000 "gd:1"))

/-- No connection, then a dead token, then a timeout after sending: three transmissions, and the
    caller is told that the last may have been taken. -/
theorem submission_timedOutBuy :
    (tally timedOutBuy.1).sent.length = 3 ∧ AtMostOnce 2 (tally timedOutBuy.1) ∧
      RaisesAmbiguous timedOutBuy.2 := by
  have h : Classified 2 (tally timedOutBuy.1) timedOutBuy.2 :=
    (submission { id := 0 }).1 (.limit .BUY 1 50000 "gd:1") _ _ (play_runs _ _ [])
  refine ⟨by decide +kernel, h.atMostOnce, ?_⟩
  exact (h.truthful (by decide +kernel) .sendFailed rfl).mpr trivial

end TossSleeve.Proof
