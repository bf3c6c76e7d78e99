import TossSleeve.Api.Rest
import TossSleeve.Proof.Submission

/-!
# `Proof/Reading.lean` — one GET, and what it can end with

Everything `TossRest` reads goes through `_get`, so there is one statement about where a `_get` can
end, and the decoders are looked at afterwards. A `_get` sends once or twice; what it returns or
raises is decided by the last answer, and an answer that is followed by another one was a 401 with
a dead token.

A run is known by the GETs in it (`gets`), in their order.
-/

set_option autoImplicit false

namespace TossSleeve

open Lib Lib.Proc

/-! ## 1. The GETs of a run -/

/-- The outcome of a GET. -/
def getOutcome : Event BrokerReq.Resp → Option PostOutcome
  | ⟨.get _ _ _ _, x⟩ => some x
  | _ => none

/-- How the GETs of a run ended, in order. -/
def gets (tr : List (Event BrokerReq.Resp)) : List PostOutcome := tr.filterMap getOutcome

namespace Proof

/-- The GETs seen so far. -/
abbrev seeing : List PostOutcome → Event BrokerReq.Resp → List PostOutcome := collect getOutcome

/-- What is sent is only looked at. -/
abbrev Sees {α : Type} (fin : List PostOutcome → Except Exc α → Prop) (p : Prog α)
    (seen : List PostOutcome) : Prop := Along seeing (fun _ _ => True) fin p seen

/-- What a routine that saw no more than this can end with, a run of it ends with. -/
theorem Sees.runs {α : Type} {fin : List PostOutcome → Except Exc α → Prop} {p : Prog α}
    (h : Sees fin p []) {tr : List (Event BrokerReq.Resp)} {r : Except Exc α}
    (hr : Runs p tr r) : fin (gets tr) r := by
  have hend := Along.runs hr h
  rwa [foldl_collect, List.nil_append] at hend

/-! ## 2. One GET -/

/-- The first attempt, or the second after a 401 for a dead token. -/
inductive Attempt (seen : List PostOutcome) : List PostOutcome → Prop
  | first : Attempt seen seen
  | second {x : PostOutcome} (h : turnedAway x = true) : Attempt seen (seen ++ [x])

/-- The answer to a dead token is no success, and it has a body. -/
theorem of_turnedAway {r : Response} (h : turnedAway (.answered r) = true) :
    ¬ r.Success ∧ r.body ≠ none := by
  obtain ⟨hstatus, hcode⟩ := of_decide_eq_true h
  constructor
  · intro hs
    have hlt : r.status < 300 := hs.2
    omega
  · intro hbody
    -- Without a body there is no code.
    have hnone : errorField r "code" = none := by
      rw [errorField, jsonOrNone, hbody]
      rfl
    rw [hnone] at hcode
    exact absurd hcode (by simp)

/-- How a GET ends, from what was seen before it. -/
inductive GetEnd (seen : List PostOutcome) : List PostOutcome → Except Exc Json → Prop
  | payload {xs : List PostOutcome} (hxs : Attempt seen xs) {r : Response} (h : r.Success) :
      GetEnd seen (xs ++ [.answered r]) (.ok r.result)
  | refused {xs : List PostOutcome} (hxs : Attempt seen xs) {r : Response} {e : TossError}
      (h : parseToss r = .error e) : GetEnd seen (xs ++ [.answered r]) (.error (.toss e))
  | failed {xs : List PostOutcome} (hxs : Attempt seen xs) {x : PostOutcome}
      (h : ∀ r, x ≠ .answered r) {e : TossError} (hcls : e.cls = .transport) :
      GetEnd seen (xs ++ [x]) (.error (.toss e))
  | lost {xs : List PostOutcome} (hxs : Attempt seen xs) (f : LookupFailure) :
      GetEnd seen xs (.error f.exc)

/-- How the `send` of a GET ends. -/
inductive FetchEnd (seen : List PostOutcome) : List PostOutcome → Except Exc Response → Prop
  | answered (r : Response) : FetchEnd seen (seen ++ [.answered r]) (.ok r)
  | failed {x : PostOutcome} (h : ∀ r, x ≠ .answered r) {e : TossError} (hcls : e.cls = .transport) :
      FetchEnd seen (seen ++ [x]) (.error (.toss e))
  | lost (f : LookupFailure) : FetchEnd seen seen (.error f.exc)

theorem fetch_sees (path : String) (params : List (String × String)) (authorization : String)
    (account : Option String) (message : String) (seen : List PostOutcome) :
    Sees (FetchEnd seen) (TossRest.fetch path params authorization account message) seen := by
  refine ⟨trivial, fun x => ?_⟩
  cases x with
  | answered r => exact .answered r
  | connectFailed => exact .failed (by simp) rfl
  | sendFailed => exact .failed (by simp) rfl

/-- What `_get` hands to `request_with_reauth`. -/
theorem send_sees (path : String) (account : Bool) (params : List (String × String))
    (authorization : String) (seen : List PostOutcome) : Sees (FetchEnd seen) (do
      ask .acquireRead
      let seq ← if account then some <$> TossSleeve.accountSeq else .ret none
      TossRest.fetch path params authorization seq "Toss 읽기 전송 실패") seen := by
  have hacquired : seeing seen ⟨.acquireRead, ()⟩ = seen := List.append_nil seen
  refine ⟨trivial, fun _ => ?_⟩
  rw [hacquired]
  cases account with
  | false => exact fetch_sees path params authorization none _ seen
  | true =>
    refine ⟨trivial, fun x => ?_⟩
    have hlooked : seeing seen ⟨.accountSeq, x⟩ = seen := List.append_nil seen
    rw [hlooked]
    cases x with
    | error f => exact .lost f
    | ok seq => exact fetch_sees path params authorization (some seq) _ seen

theorem authHeaders_sees {α : Type} {fin : List PostOutcome → Except Exc α → Prop}
    {f : String → Prog α} {seen : List PostOutcome} (hf : ∀ s, Sees fin (f s) seen)
    (hlost : ∀ e : LookupFailure, fin seen (.error e.exc)) :
    Sees fin (TossSleeve.authHeaders >>= f) seen := by
  refine ⟨trivial, fun x => ?_⟩
  have hlooked : seeing seen ⟨.authHeaders, x⟩ = seen := List.append_nil seen
  rw [hlooked]
  cases x with
  | ok s => exact hf s
  | error e => exact hlost e

/-- A `send` that raised ends the GET. -/
theorem FetchEnd.raised {seen xs seen' : List PostOutcome} (hxs : Attempt seen xs) {e : Exc}
    (h : FetchEnd xs seen' (.error e)) : GetEnd seen seen' (.error e) := by
  cases h with
  | failed h hcls => exact .failed hxs h hcls
  | lost f => exact .lost hxs f

/-- What `parse_toss` makes of the last answer. -/
theorem getEnd_parse {seen xs : List PostOutcome} (hxs : Attempt seen xs) (r : Response) :
    GetEnd seen (xs ++ [.answered r])
      (match parseToss r with
        | .ok payload => .ok payload
        | .error e => .error (.toss e)) := by
  by_cases hs : r.Success
  · rw [parseToss_success hs]
    exact .payload hxs hs
  · obtain ⟨e, he, -⟩ := parseToss_error hs false
    rw [he]
    exact .refused hxs he

/-- **One GET.** The last answer decides. -/
theorem get_sees (path : String) (account : Bool) (params : List (String × String))
    (seen : List PostOutcome) : Sees (GetEnd seen) (TossRest.get path account params) seen := by
  refine authHeaders_sees (fun s => ?_) fun e => .lost .first e
  refine .bind (send_sees path account params s seen) (fun seen' r hr => ?_) fun _ _ he =>
    he.raised .first
  cases hr
  have hend := @getEnd_parse seen seen .first r
  cases hparse : parseToss r with
  | ok payload =>
    rw [hparse] at hend
    exact hend
  | error e =>
    rw [hparse] at hend
    show Sees _ (if e.InvalidToken then _ else _) _
    split
    · next htoken =>
      have haway : Attempt seen (seen ++ [.answered r]) :=
        .second (turnedAway_of_invalidToken hparse htoken)
      refine ⟨trivial, fun x => ?_⟩
      have hinvalidated : seeing (seen ++ [.answered r]) ⟨.invalidate, x⟩ =
        seen ++ [.answered r] := List.append_nil _
      rw [hinvalidated]
      refine authHeaders_sees (fun s => ?_) fun e => .lost haway e
      refine .bind (send_sees path account params s _) (fun seen' r' hr' => ?_) fun _ _ he =>
        he.raised haway
      cases hr'
      exact along_parse (getEnd_parse haway r')
    · exact hend

/-! ## 3. Decoding what was got -/

/-- A decoder that can raise. -/
theorem lookup_sees {α : Type} {fin : List PostOutcome → Except Exc α → Prop}
    {x : Except LookupFailure α} {seen : List PostOutcome}
    (h : fin seen (x.mapError LookupFailure.exc)) : Sees fin (Prog.lookup x) seen := by
  cases x with
  | ok a => exact h
  | error f => exact h

theorem decoded_sees {α : Type} {fin : List PostOutcome → Except Exc α → Prop}
    {x : Except PyError α} {seen : List PostOutcome} (h : fin seen (x.mapError Exc.python)) :
    Sees fin (Prog.decoded x) seen := by
  cases x with
  | ok a => exact h
  | error e => exact h

/-- The last answer to a GET that did not return a payload was no success. -/
theorem GetEnd.not_success {xs : List PostOutcome} {e : Exc} (h : GetEnd [] xs (.error e))
    {resp : Response} (hlast : xs.getLast? = some (.answered resp)) : ¬ resp.Success := by
  cases h with
  | @refused _ _ r e hparse =>
    rw [List.getLast?_concat] at hlast
    obtain rfl := PostOutcome.answered.inj (Option.some.inj hlast)
    exact (of_parseToss_error hparse).1
  | failed _ hno =>
    rw [List.getLast?_concat] at hlast
    exact absurd (Option.some.inj hlast) (hno resp)
  | lost hxs =>
    cases hxs with
    | first => exact absurd hlast (by simp)
    | second haway =>
      rw [List.getLast?_concat] at hlast
      rw [Option.some.inj hlast] at haway
      exact (of_turnedAway haway).1

/-- **`order_fill` decodes the payload of the last answer, if that is a success.** -/
theorem orderFill_runs {orderId : String} {tr : List (Event BrokerReq.Resp)}
    {r : Except Exc (Option Fill)} (hruns : Runs (TossRest.orderFill orderId) tr r)
    {resp : Response} (hlast : (gets tr).getLast? = some (.answered resp)) (hs : resp.Success) :
    r = (orderFillOf orderId resp.result).mapError LookupFailure.exc := by
  have hsees : Sees (fun xs r => ∀ resp, xs.getLast? = some (.answered resp) → resp.Success →
      r = (orderFillOf orderId resp.result).mapError LookupFailure.exc)
      (TossRest.orderFill orderId) [] := by
    refine .bind (get_sees _ _ _ []) (fun xs payload hend => ?_) fun xs e hend resp hlast hs =>
      absurd hs (hend.not_success hlast)
    cases hend with
    | @payload _ hxs r hsuccess =>
      refine lookup_sees fun resp hlast _ => ?_
      rw [List.getLast?_concat] at hlast
      rw [PostOutcome.answered.inj (Option.some.inj hlast)]
  exact hsees.runs hruns resp hlast hs

/-! ## 4. A GET that is answered with a success -/

/-- The trace of a `_get` whose lookups succeed, and that is answered at once. -/
def answeredGet (path : String) (account : Bool) (params : List (String × String))
    (resp : Response) : List (Event BrokerReq.Resp) :=
  match account with
  | true => [⟨.authHeaders, .ok "Bearer t"⟩, ⟨.acquireRead, ()⟩, ⟨.accountSeq, .ok "7"⟩,
      ⟨.get path params "Bearer t" (some "7"), .answered resp⟩]
  | false => [⟨.authHeaders, .ok "Bearer t"⟩, ⟨.acquireRead, ()⟩,
      ⟨.get path params "Bearer t" none, .answered resp⟩]

theorem gets_answeredGet (path : String) (account : Bool) (params : List (String × String))
    (resp : Response) : gets (answeredGet path account params resp) = [.answered resp] := by
  cases account <;> rfl

/-- A success ends a request, whatever would have been tried after an error. -/
theorem runs_parse {resp : Response} (hs : resp.Success) (ambiguous : Bool)
    (retry : TossError → Prog Json) : Runs (match parseToss resp ambiguous with
      | .ok payload => .ret payload
      | .error e => retry e) [] (.ok resp.result) := by
  rw [parseToss_success hs]
  exact .ret _

theorem get_answered (path : String) (account : Bool) (params : List (String × String))
    {resp : Response} (hs : resp.Success) : Runs (TossRest.get path account params)
      (answeredGet path account params resp) (.ok resp.result) := by
  cases account with
  | true => exact .await _ (.await _ (.await _ (.await _ (runs_parse hs false _))))
  | false => exact .await _ (.await _ (.await _ (runs_parse hs false _)))

/-- A GET with a decoder behind it. -/
theorem get_answered_decoded {α : Type} {path : String} {account : Bool}
    {params : List (String × String)} {resp : Response} (hs : resp.Success)
    {decode : Json → Prog α} {r : Except Exc α} (h : Runs (decode resp.result) [] r) :
    Runs (TossRest.get path account params >>= decode) (answeredGet path account params resp) r := by
  have hbind := (get_answered path account params hs).bind h
  rwa [List.append_nil] at hbind

/-- A run of `order_fill` that is answered at once. -/
theorem orderFill_answered (orderId : String) {resp : Response} (hs : resp.Success) :
    Runs (TossRest.orderFill orderId) (answeredGet (orderDetailPath orderId) true [] resp)
      ((orderFillOf orderId resp.result).mapError LookupFailure.exc) := by
  refine get_answered_decoded hs ?_
  cases orderFillOf orderId resp.result with
  | ok x => exact .ret x
  | error f => exact .raise f.exc

end Proof
end TossSleeve
