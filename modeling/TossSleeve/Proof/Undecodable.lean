import TossSleeve.Proof.Posting
import TossSleeve.Proof.Reading

/-!
# `Proof/Undecodable.lean` — what becomes of an answer that is no JSON

A gateway in front of Toss answers with a page of its own, and sometimes with status 200. To
`json_or_none` such an answer is `None`, and so is a JSON `null`; from there on it depends on which
check comes first. `parse_toss` looks at the status before it looks at the body, so a page with a
status of its own is an error of the transport, and a page with a 2xx is the payload `None`.

Every caller then has its own reading of `None`. `order_fill` sees an order nobody has executed yet,
`holdings` and `prices` an empty list, and `cancel` a cancellation that succeeded. `undecodable_iff`
goes through them: each is right about such an answer if and only if its status is not a 2xx.
-/

set_option autoImplicit false

namespace TossSleeve

open Lib Lib.Proc

/-! ## 1. Answers that are no JSON -/

/-- The call raised `TossTransportError`, or the class below it. -/
def RaisesTransport {α : Type} : Except Exc α → Prop
  | .error (.toss e) => e.IsTransport
  | _ => False

/-- An exception is what it is, whatever else could have been returned. -/
theorem RaisesTransport.error {α β : Type} {e : Exc}
    (h : RaisesTransport (.error e : Except Exc α)) :
    RaisesTransport (.error e : Except Exc β) := by
  cases e <;> exact h

/-- The outcome of a POST. -/
def postOutcome : Event BrokerReq.Resp → Option PostOutcome
  | ⟨.post _ _ _, x⟩ => some x
  | _ => none

/-- How the POSTs of a run ended, in order. -/
def posts (tr : List (Event BrokerReq.Resp)) : List PostOutcome := tr.filterMap postOutcome

/-- A call of the ledger. -/
def ledgerWrite : Event BrokerReq.Resp → Option LedgerOp
  | ⟨.ledger op, _⟩ => some op
  | _ => none

/-- What a run wrote to the ledger, in order. -/
def writes (tr : List (Event BrokerReq.Resp)) : List LedgerOp := tr.filterMap ledgerWrite

namespace Proof

/-- Every answer that is no JSON came with a 2xx. -/
def AllDecoded (xs : List PostOutcome) : Prop :=
  ∀ resp, PostOutcome.answered resp ∈ xs → resp.body = none → resp.Success

theorem allDecoded_nil : AllDecoded [] := fun _ hmem => absurd hmem (by simp)

theorem AllDecoded.concat {xs : List PostOutcome} (h : AllDecoded xs) {x : PostOutcome}
    (hx : ∀ resp, x = .answered resp → resp.body = none → resp.Success) :
    AllDecoded (xs ++ [x]) := by
  intro resp hmem hbody
  rcases List.mem_append.mp hmem with hold | hnew
  · exact h resp hold hbody
  · exact hx resp (List.mem_singleton.mp hnew).symm hbody

/-- What a caller that goes by the JSON is given: the errors of the transport are not among it. -/
theorem isTransport_of_undecoded {r : Response} {ambiguous : Bool} {e : TossError}
    (hparse : parseToss r ambiguous = .error e) (hbody : r.body = none) : e.IsTransport := by
  obtain ⟨-, hof⟩ := of_parseToss_error hparse
  refine hof.transport.mpr (.inr (.inr ?_))
  rw [jsonOrNone, hbody]
  rfl

/-! ## 2. Reading -/

/-- A GET that saw an answer it could not decode raised, unless that came with a 2xx. -/
theorem GetEnd.allDecoded {seen xs : List PostOutcome} {r : Except Exc Json} (h : GetEnd seen xs r)
    (hseen : AllDecoded seen) : AllDecoded xs ∨ RaisesTransport r := by
  have hattempt : ∀ {xs}, Attempt seen xs → AllDecoded xs := by
    intro xs hxs
    cases hxs with
    | first => exact hseen
    | second haway =>
      refine hseen.concat fun resp hx hbody => ?_
      rw [hx] at haway
      exact absurd hbody (of_turnedAway haway).2
  cases h with
  | payload hxs hs =>
    refine .inl ((hattempt hxs).concat fun resp hx _ => ?_)
    rw [← PostOutcome.answered.inj hx]
    exact hs
  | @refused _ hxs r e hparse =>
    by_cases hbody : r.body = none
    · exact .inr (isTransport_of_undecoded hparse hbody)
    · refine .inl ((hattempt hxs).concat fun resp hx hbody' => ?_)
      rw [← PostOutcome.answered.inj hx] at hbody'
      exact absurd hbody' hbody
  | failed hxs hno => exact .inl ((hattempt hxs).concat fun resp hx => absurd hx (hno resp))
  | lost hxs => exact .inl (hattempt hxs)

/-- What a reading routine ends with. -/
def Decoded {α : Type} (xs : List PostOutcome) (r : Except Exc α) : Prop :=
  AllDecoded xs ∨ RaisesTransport r

/-- A GET, and a decoder behind it. -/
theorem get_decoded {α : Type} {path : String} {account : Bool} {params : List (String × String)}
    {decode : Json → Prog α} {seen : List PostOutcome} (hseen : AllDecoded seen)
    (h : ∀ payload xs, AllDecoded xs → Sees Decoded (decode payload) xs) :
    Sees Decoded (TossRest.get path account params >>= decode) seen := by
  refine .bind (get_sees path account params seen) (fun xs payload hend => ?_) fun xs e hend => ?_
  · exact h payload xs ((hend.allDecoded hseen).resolve_right id)
  · exact (hend.allDecoded hseen).imp_right RaisesTransport.error

theorem orderFill_decoded (orderId : String) : Sees Decoded (TossRest.orderFill orderId) [] :=
  get_decoded allDecoded_nil fun _ _ hxs => lookup_sees (.inl hxs)

theorem holdings_decoded : Sees Decoded TossRest.holdings [] :=
  get_decoded allDecoded_nil fun _ _ hxs => decoded_sees (.inl hxs)

/-- By induction on the batches that are left. -/
theorem pricesLoop_decoded : ∀ batches out seen, AllDecoded seen →
    Sees Decoded (TossRest.pricesLoop batches out) seen := by
  intro batches
  induction batches with
  | nil => exact fun _ _ hseen => .inl hseen
  | cons batch batches ih =>
    intro out seen hseen
    refine get_decoded hseen fun payload xs hxs => ?_
    cases hrows : pricesOf payload with
    | error e => exact .inl hxs
    | ok rows => exact ih _ xs hxs

theorem prices_decoded (symbols : List String) : Sees Decoded (TossRest.prices symbols) [] :=
  pricesLoop_decoded _ _ _ allDecoded_nil

/-- A routine that is always so raises on an answer that is no JSON and no 2xx. -/
theorem Sees.raises {α : Type} {p : Prog α} (h : Sees Decoded p [])
    {tr : List (Event BrokerReq.Resp)} {r : Except Exc α} (hr : Runs p tr r) {resp : Response}
    (hbody : resp.body = none) (hs : ¬ resp.Success) (hmem : .answered resp ∈ gets tr) :
    RaisesTransport r :=
  (h.runs hr).resolve_left fun hall => hs (hall resp hmem hbody)

/-! ## 3. Cancelling -/

/-- What a call has sent, and written. -/
structure Done where
  posts : List PostOutcome := []
  writes : List LedgerOp := []

def Done.next (d : Done) (e : Event BrokerReq.Resp) : Done where
  posts := collect postOutcome d.posts e
  writes := collect ledgerWrite d.writes e

theorem foldl_done (tr : List (Event BrokerReq.Resp)) : ∀ d : Done, tr.foldl Done.next d =
    ⟨tr.foldl (collect postOutcome) d.posts, tr.foldl (collect ledgerWrite) d.writes⟩ := by
  induction tr with
  | nil => exact fun d => rfl
  | cons e tr ih => exact fun d => ih (d.next e)

/-- Nothing was written yet, and everything sent so far was decoded. -/
def Posting.Sound (d : Done) : Prop := AllDecoded d.posts ∧ d.writes = []

def Done.sent (d : Done) (x : PostOutcome) : Done := { d with posts := d.posts ++ [x] }

/-- An event that is neither sent nor written. -/
theorem Done.next_of_none {d : Done} {e : Event BrokerReq.Resp} (hpost : postOutcome e = none)
    (hwrite : ledgerWrite e = none) : d.next e = d := by
  rw [Done.next, collect, collect, hpost, hwrite, Option.toList_none, Option.toList_none,
    List.append_nil, List.append_nil]

theorem Done.next_post (d : Done) (path : String) (payload : Payload) (headers : Headers)
    (x : PostOutcome) : d.next ⟨.post path payload headers, x⟩ = d.sent x := by
  have hwrite : ledgerWrite ⟨.post path payload headers, x⟩ = none := rfl
  rw [Done.next, collect, collect, hwrite, Option.toList_none, List.append_nil]
  rfl

/-- Anything may be posted, and it changes nothing but what was sent. -/
theorem canPost_done (path : String) (payload : Payload) (ambiguous : Bool) :
    Posting.CanPost Done.next (fun _ _ => True) path payload ambiguous Posting.Sound Done.sent
      (fun d _ => d) where
  authHeaders d _ := ⟨trivial, fun x => by cases x <;> exact Done.next_of_none rfl rfl⟩
  invalidate d _ := ⟨trivial, fun _ => Done.next_of_none rfl rfl⟩
  accountSeq d _ := ⟨trivial, fun x => by cases x <;> exact Done.next_of_none rfl rfl⟩
  acquire d _ := ⟨trivial, fun _ => Done.next_of_none rfl rfl⟩
  post d _ headers := ⟨trivial, fun x => d.next_post path payload headers x⟩
  unsent d hd := ⟨hd.1.concat fun resp hx => absurd hx (by simp), hd.2⟩
  deadToken d hd r e hparse htoken := by
    refine ⟨hd.1.concat fun resp hx hbody => ?_, hd.2⟩
    rw [← PostOutcome.answered.inj hx] at hbody
    exact absurd hbody (of_turnedAway (turnedAway_of_invalidToken hparse htoken)).2

/-- How a `cancel` ends: if it could not decode an answer that was no 2xx, it raised, and has not
    written anything. -/
def CancelEnd (d : Done) (r : Except Exc Bool) : Prop :=
  AllDecoded d.posts ∨ (RaisesTransport r ∧ d.writes = [])

/-- A `_post` that raised: everything was decoded, but for an answer that made it raise an error of
    the transport. -/
theorem Posting.PostEnd.raised {ambiguous : Bool} {d : Done} {e : Exc}
    (h : Posting.PostEnd ambiguous Posting.Sound Done.sent (fun d _ => d) d (.error e)) :
    AllDecoded d.posts ∨ ∃ err, e = .toss err ∧ err.IsTransport ∧ d.writes = [] := by
  cases h with
  | @refused d hd r e hparse =>
    by_cases hbody : r.body = none
    · exact .inr ⟨e, rfl, isTransport_of_undecoded hparse hbody, hd.2⟩
    · refine .inl (hd.1.concat fun resp hx hbody' => ?_)
      rw [← PostOutcome.answered.inj hx] at hbody'
      exact absurd hbody' hbody
  | @sendFailed d hd => exact .inl (hd.1.concat fun resp hx => absurd hx (by simp))
  | exhausted hd => exact .inl hd.1
  | lost hd => exact .inl hd.1

theorem cancel_decoded (b : TossBroker) (orderId : String) :
    Along Done.next (fun _ _ => True) CancelEnd (b.cancel orderId) {} := by
  refine .attempt (fun d payload hend => ?_) (fun d e hend => ?_)
    (Posting.post_along (canPost_done (cancelPath orderId) .empty false) ⟨allDecoded_nil, rfl⟩)
  · -- A payload: whatever is written now, everything was decoded.
    cases hend with
    | @payload d hd r hs =>
      have hall : AllDecoded (d.sent (.answered r)).posts :=
        hd.1.concat fun resp hx _ => PostOutcome.answered.inj hx ▸ hs
      refine ⟨trivial, fun x => ?_⟩
      rw [Done.next_of_none rfl rfl]
      cases x with
      | none => exact .inl hall
      | some c =>
        show Along _ _ _ (if c = "" then _ else _) _
        split
        · exact .inl hall
        · refine ⟨trivial, fun reply => ?_⟩
          have hnext : ((d.sent (.answered r)).next
              ⟨.ledger (.markOrderTerminal c .CANCELLED), reply⟩).posts =
              (d.sent (.answered r)).posts := List.append_nil _
          have hall' := hnext.symm ▸ hall
          cases reply with
          | done => exact .inl hall'
          | verdict v => exact .inl hall'
          | raised e => exact .inl hall'
  · rcases hend.raised with hall | ⟨err, rfl, htransport, hwrites⟩
    · cases e with
      | toss e =>
        show Along _ _ _ (if isBusinessRejection e then _ else _) _
        split <;> exact .inl hall
      | http => exact .inl hall
      | python e => exact .inl hall
      | ledger e => exact .inl hall
    · have hno : isBusinessRejection err = false := by
        rw [isBusinessRejection, decide_eq_false (not_not.mpr htransport), Bool.false_and]
      show Along _ _ _ (if isBusinessRejection err then _ else _) _
      rw [hno, if_neg Bool.false_ne_true]
      exact .inr ⟨htransport, hwrites⟩

/-- What a run of `cancel` ends with. -/
theorem cancel_raises {b : TossBroker} {orderId : String} {tr : List (Event BrokerReq.Resp)}
    {r : Except Exc Bool} (hr : Runs (b.cancel orderId) tr r) {resp : Response}
    (hbody : resp.body = none) (hs : ¬ resp.Success) (hmem : .answered resp ∈ posts tr) :
    RaisesTransport r ∧ writes tr = [] := by
  have hend := (cancel_decoded b orderId).runs hr
  rw [foldl_done, foldl_collect, foldl_collect] at hend
  exact hend.resolve_left fun hall => hs (hall resp hmem hbody)

/-! ## 4. With a 2xx, and without -/

/-- Without a body, the payload of a success is `None`. -/
theorem result_of_undecoded {resp : Response} (hbody : resp.body = none) :
    resp.result = .null := by
  rw [Response.result, jsonOrNone, hbody]
  rfl

variable {resp : Response}

theorem orderFill_undecoded (hbody : resp.body = none) (hs : resp.Success) (orderId : String) :
    Runs (TossRest.orderFill orderId) (answeredGet (orderDetailPath orderId) true [] resp)
      (.ok none) := by
  refine get_answered_decoded hs ?_
  rw [result_of_undecoded hbody]
  exact .ret none

theorem holdings_undecoded (hbody : resp.body = none) (hs : resp.Success) :
    Runs TossRest.holdings (answeredGet holdingsPath true [] resp) (.ok []) := by
  refine get_answered_decoded hs ?_
  rw [result_of_undecoded hbody]
  exact .ret []

theorem prices_undecoded (hbody : resp.body = none) (hs : resp.Success) (symbol : String) :
    Runs (TossRest.prices [symbol]) (answeredGet pricesPath false [("symbols", symbol)] resp)
      (.ok []) := by
  refine get_answered_decoded hs ?_
  rw [result_of_undecoded hbody]
  exact .ret []

/-- The trace of a `cancel` whose lookups succeed, and that is answered at once. -/
def answeredCancel (orderId : String) (resp : Response) (clientOrderId : String) :
    List (Event BrokerReq.Resp) :=
  [⟨.authHeaders, .ok "Bearer t"⟩, ⟨.accountSeq, .ok "7"⟩, ⟨.acquire, ()⟩,
    ⟨.post (cancelPath orderId) .empty ⟨"Bearer t", "7"⟩, .answered resp⟩,
    ⟨.clientOrderIdFor orderId, some clientOrderId⟩,
    ⟨.ledger (.markOrderTerminal clientOrderId .CANCELLED), .done⟩]

/-- A body that was posted at once, and answered with a success. -/
theorem post_answered (hs : resp.Success) (b : TossBroker) (path : String) (payload : Payload)
    (ambiguous : Bool) : Runs (b.post path payload ambiguous)
      [⟨.authHeaders, .ok "Bearer t"⟩, ⟨.accountSeq, .ok "7"⟩, ⟨.acquire, ()⟩,
        ⟨.post path payload ⟨"Bearer t", "7"⟩, .answered resp⟩] (.ok resp.result) :=
  .await _ (.await _ (.await _ (.await _ (runs_parse hs ambiguous _))))

/-- A cancellation that was answered with a success is one, whatever the body. -/
theorem cancel_answered (hs : resp.Success) (b : TossBroker) (orderId : String)
    {clientOrderId : String} (hc : clientOrderId ≠ "") :
    Runs (b.cancel orderId) (answeredCancel orderId resp clientOrderId) (.ok true) := by
  refine (post_answered hs b (cancelPath orderId) .empty false).attempt rfl ?_
  refine .await _ ?_
  show Runs (if clientOrderId = "" then _ else _) _ _
  rw [if_neg hc]
  exact .await _ (.ret true)

/-- **An answer that is no JSON is kept out of the data exactly where its status is no 2xx**: by
    `parse_toss`, and by each of its callers in every run in which it is answered so. -/
theorem undecodable_iff (hbody : resp.body = none) (b : TossBroker) :
    ((∀ ambiguous, ∃ e, parseToss resp ambiguous = .error e ∧
        e.cls = if ambiguous then .ambiguous else .transport) ↔ ¬ resp.Success) ∧
      ((∀ orderId tr r, Runs (TossRest.orderFill orderId) tr r → .answered resp ∈ gets tr →
        r ≠ .ok none) ↔ ¬ resp.Success) ∧
      ((∀ tr r, Runs TossRest.holdings tr r → .answered resp ∈ gets tr → r ≠ .ok []) ↔
        ¬ resp.Success) ∧
      ((∀ symbols tr r, Runs (TossRest.prices symbols) tr r → .answered resp ∈ gets tr →
        r ≠ .ok []) ↔ ¬ resp.Success) ∧
      ((∀ orderId tr r, Runs (b.cancel orderId) tr r → .answered resp ∈ posts tr →
        r ≠ .ok true ∧ writes tr = []) ↔ ¬ resp.Success) := by
  have hgot : ∀ path account params,
      PostOutcome.answered resp ∈ gets (answeredGet path account params resp) := by
    intro path account params
    rw [gets_answeredGet]
    exact List.mem_singleton_self _
  refine ⟨⟨fun h hs => ?_, fun hs ambiguous => ?_⟩, ⟨fun h hs => ?_, ?_⟩, ⟨fun h hs => ?_, ?_⟩,
    ⟨fun h hs => ?_, ?_⟩, ⟨fun h hs => ?_, ?_⟩⟩
  · obtain ⟨e, he, -⟩ := h false
    exact (of_parseToss_error he).1 hs
  · obtain ⟨e, he, hof⟩ := parseToss_error hs ambiguous
    have htransport := isTransport_of_undecoded he hbody
    refine ⟨e, he, ?_⟩
    cases ambiguous with
    | true => exact hof.ambiguous.mpr ⟨rfl, htransport⟩
    | false =>
      have hno : e.cls ≠ .ambiguous := fun hamb => absurd (hof.ambiguous.mp hamb).1 (by simp)
      cases hcls : e.cls with
      | error => exact absurd hcls htransport
      | transport => rfl
      | ambiguous => exact absurd hcls hno
  · exact h "o1" _ _ (orderFill_undecoded hbody hs "o1") (hgot _ _ _) rfl
  · intro hs orderId tr r hr hmem heq
    exact (heq ▸ (orderFill_decoded orderId).raises hr hbody hs hmem :)
  · exact h _ _ (holdings_undecoded hbody hs) (hgot _ _ _) rfl
  · intro hs tr r hr hmem heq
    exact (heq ▸ holdings_decoded.raises hr hbody hs hmem :)
  · exact h ["AAA"] _ _ (prices_undecoded hbody hs "AAA") (hgot _ _ _) rfl
  · intro hs symbols tr r hr hmem heq
    exact (heq ▸ (prices_decoded symbols).raises hr hbody hs hmem :)
  · have hmem : PostOutcome.answered resp ∈ posts (answeredCancel "o1" resp "c1") :=
      List.mem_singleton_self _
    exact (h "o1" _ _ (cancel_answered hs b "o1" (by decide)) hmem).1 rfl
  · intro hs orderId tr r hr hmem
    obtain ⟨hraises, hwrites⟩ := cancel_raises hr hbody hs hmem
    exact ⟨fun heq => (heq ▸ hraises :), hwrites⟩

/-- A page of a gateway. -/
def gatewayPage (status : ℕ) : Response := .of status none

/-- With status 502 it is an error of the transport, which says that an order may have been
    taken. -/
theorem undecodable_iff_badGateway : ∃ e, parseToss (gatewayPage 502) true = .error e ∧
    e.cls = .ambiguous :=
  (undecodable_iff rfl { id := 0 }).1.mpr (by decide) true

/-- With status 200 it is an order that was not executed, an account without holdings, a list
    without prices, and a cancellation that the ledger is told of. -/
theorem undecodable_data : parseToss (gatewayPage 200) = .ok .null ∧
    Runs (TossRest.orderFill "o1") (answeredGet (orderDetailPath "o1") true [] (gatewayPage 200))
      (.ok none) ∧
    Runs TossRest.holdings (answeredGet holdingsPath true [] (gatewayPage 200)) (.ok []) ∧
    Runs (TossRest.prices ["AAA"])
      (answeredGet pricesPath false [("symbols", "AAA")] (gatewayPage 200)) (.ok []) ∧
    Runs (TossBroker.cancel { id := 0 } "o1") (answeredCancel "o1" (gatewayPage 200) "b1")
      (.ok true) ∧
    writes (answeredCancel "o1" (gatewayPage 200) "b1") = [.markOrderTerminal "b1" .CANCELLED] := by
  have hs : (gatewayPage 200).Success := by decide
  exact ⟨parseToss_success hs false, orderFill_undecoded rfl hs "o1", holdings_undecoded rfl hs,
    prices_undecoded rfl hs "AAA", cancel_answered hs { id := 0 } "o1" (by decide), rfl⟩

end Proof
end TossSleeve
