import TossSleeve.Proof.Phases
import TossSleeve.Ledger.Steps

/-!
# `Proof/Cover.lean` — every transmitted order is covered

A guard takes the cover of an order before anything is sent: a reservation of the whole amount, or
a row with the whole quantity. Any number of calls of `place`, each under an id of its own, go on
next to each other on one broker and one ledger; a call can be anywhere in its retries while the
others take and give back covers of theirs.

Two facts carry the file. What a call does to the ledger concerns its own id (`covered_of_other`),
and a phase that holds a cover got it from a guard that said yes (`covered_of_own`). So a body on
its way is covered (§4), and the amounts of all that may be live fit together into the settled cash
(§5), as long as no success came without an order id: such a one is unwound although Toss has it,
and §6 shows what becomes of the cap then.
-/

set_option autoImplicit false

namespace TossSleeve

open Lib Lib.Proc InMemorySleeveLedger

/-! ## 1. Covers -/

/-- The ledger holds the whole of what the request may cost: a reservation of its full amount, or
    an open SELL of its full quantity. -/
inductive Covered (l : InMemorySleeveLedger) (req : OrderRequest) : Prop
  | reserved {amount : Decimal} (hside : req.side = .BUY) (hamount : reserveAmount req = some amount)
      (h : l.reserved.get? req.clientOrderId = some (req.currency, amount))
  | registered {o : Order} (hside : req.side = .SELL) (h : l.orders.get? req.clientOrderId = some o)
      (hsymbol : o.symbol = req.ticker) (hsell : o.side = .SELL) (hopen : o.status ∈ openStatuses)
      (hquantity : req.quantity = some o.quantity)

namespace Proof

/-- Operations under other ids leave a cover alone. -/
theorem covered_of_not_concerns {l : InMemorySleeveLedger} {req : OrderRequest} {today : String}
    {op : LedgerOp} (hop : ¬ op.Concerns req.clientOrderId) (h : Covered l req) :
    Covered (l.step today op).1 req := by
  obtain ⟨hreserved, horders⟩ := @step_of_not_concerns l today _ _ hop
  cases h with
  | reserved hside hamount hget => exact .reserved hside hamount (hreserved.trans hget)
  | registered hside hget hsymbol hsell hopen hquantity =>
    exact .registered hside (horders.trans hget) hsymbol hsell hopen hquantity

/-- A guard that says yes has taken the cover. -/
theorem covered_of_verdict {l : InMemorySleeveLedger} {b : TossBroker} {req : OrderRequest}
    {today : String} {op : LedgerOp} (h : Covers b req op)
    (hyes : (l.step today op).2 = .verdict true) : Covered (l.step today op).1 req := by
  have heffect := l.step_effect today op
  generalize (l.step today op).1 = l' at heffect ⊢
  rw [hyes] at heffect
  cases h with
  | reserve hside _ hamount =>
    cases heffect with
    | reserved => exact .reserved hside hamount (by rw [Dict.get?_set, if_pos rfl])
  | reserveSell hside hquantity =>
    cases heffect with
    | sellReserved =>
      exact .registered hside (by rw [get?_recordOrder, if_pos rfl]) rfl rfl
        pending_mem_openStatuses hquantity

/-- Recording the order that Toss accepted keeps the cover. -/
theorem covered_recordOrder {l : InMemorySleeveLedger} {req : OrderRequest} (o : String)
    (h : Covered l req) : Covered (l.recordOrder req.clientOrderId o req.ticker req.side
      req.currency (req.quantity.getD 0)) req := by
  cases h with
  | reserved hside hamount hget => exact .reserved hside hamount hget
  | registered hside _ _ _ _ hquantity =>
    refine .registered hside (by rw [get?_recordOrder, if_pos rfl]) rfl hside
      pending_mem_openStatuses ?_
    rw [hquantity, Option.getD_some]

/-! ## 2. What one request of a `place` does to the covers -/

/-- What a call asks of the ledger concerns its own id. -/
theorem concerns_of_permitted {b : TossBroker} {req : OrderRequest} {p : Phase} {op : LedgerOp}
    (h : Permitted b req p (.ledger op)) {c : String} (hc : op.Concerns c) :
    c = req.clientOrderId := by
  have hunwind : (unwindOp req).Concerns c → c = req.clientOrderId := by
    unfold unwindOp
    cases req.side <;> exact fun h => h.symm
  cases h with
  | cover _ hop => cases hop <;> exact hc.symm
  | unwind => exact hunwind hc
  | unwindLost => exact hunwind hc
  | record => exact hc.symm

/-- The covers of other ids are out of a call's reach. -/
theorem covered_of_other {b : TossBroker} {req req' : OrderRequest} {p : Phase} {w : World}
    {q : BrokerReq} (h : Permitted b req p q) (x : q.Resp)
    (hne : req'.clientOrderId ≠ req.clientOrderId) (hcov : Covered w.ledger req') :
    Covered (w.after ⟨q, x⟩).ledger req' := by
  cases q with
  | ledger op =>
    exact covered_of_not_concerns (fun hc => hne (concerns_of_permitted h hc)) hcov
  | _ => exact hcov

/-- A call that holds its cover after a request held it before, or has just taken it. -/
theorem covered_of_own {b : TossBroker} {req : OrderRequest} {p : Phase} {w : World}
    {q : BrokerReq} {x : q.Resp} (h : Permitted b req p q) (hx : w.Gives ⟨q, x⟩)
    (hcov : p.Holds → Covered w.ledger req) (hp : (p.next req ⟨q, x⟩).Holds) :
    Covered (w.after ⟨q, x⟩).ledger req := by
  cases h with
  | look => exact hcov hp
  | cover _ hop =>
    rw [next_cover hop] at hp
    split at hp
    · next hyes =>
      exact covered_of_verdict hop (hyes ▸ (show x = _ from hx).symm)
    · exact hp.elim
  | authHeaders => exact hcov hp
  | invalidate => exact hcov hp
  | accountSeq => exact hcov hp
  | acquire => exact hcov hp
  | post => exact hcov trivial
  | unwind =>
    rw [next_unwind] at hp
    exact hp.elim
  | unwindLost =>
    rw [next_unwind] at hp
    exact hp.elim
  | record => exact covered_recordOrder _ (hcov trivial)
  | cache => exact hcov hp

/-! ## 3. What a phase remembers -/

/-- What the phase of a call says of its request and of its outcomes. -/
structure Sound (b : TossBroker) (req : OrderRequest) (p : Phase) : Prop where
  keyed : p.Holds → req.clientOrderId ≠ ""
  allowed : p.Holds → req.side = .BUY → req.ticker ∉ b.denylist
  priced : p.Holds → req.side = .BUY → (reserveAmount req).isSome
  /-- A cover is given back under an open outcome only if that was a success without an order
      id. -/
  lost : ∀ x, p = .unwound (some x) → x.Nameless

theorem sound_guarding (b : TossBroker) (req : OrderRequest) : Sound b req .guarding :=
  ⟨False.elim, False.elim, False.elim, fun _ h => absurd h nofun⟩

theorem sound_next {b : TossBroker} {req : OrderRequest} {p : Phase} {q : BrokerReq}
    (h : Permitted b req p q) (x : q.Resp) (hp : Sound b req p) :
    Sound b req (p.next req ⟨q, x⟩) := by
  cases h with
  | look => exact hp
  | cover hc hop =>
    rw [next_cover hop]
    split
    · refine ⟨fun _ => hc, fun _ hside => ?_, fun _ hside => ?_, fun _ h => absurd h nofun⟩
      · cases hop with
        | reserve _ hdeny _ => exact hdeny
        | reserveSell hsell _ => exact absurd (hside.symm.trans hsell) nofun
      · cases hop with
        | reserve _ _ hamount => rw [hamount, Option.isSome_some]
        | reserveSell hsell _ => exact absurd (hside.symm.trans hsell) nofun
    · exact hp
  | authHeaders => exact hp
  | invalidate => exact hp
  | accountSeq => exact hp
  | acquire => exact hp
  | post =>
    show Sound b req (if _ then _ else _)
    split
    · exact hp
    · exact ⟨fun _ => hp.keyed trivial, fun _ => hp.allowed trivial, fun _ => hp.priced trivial,
        fun _ h => absurd h nofun⟩
  | unwind =>
    rw [next_unwind]
    exact ⟨False.elim, False.elim, False.elim, fun _ h => absurd h nofun⟩
  | unwindLost hlost =>
    rw [next_unwind]
    refine ⟨False.elim, False.elim, False.elim, fun x hx => ?_⟩
    exact Option.some.inj (Phase.unwound.inj hx) ▸ hlost
  | record =>
    rw [next_record]
    exact hp
  | cache => exact hp

/-- While the last outcome is open, the phase is that outcome's. -/
theorem phase_of_open (req : OrderRequest) (past : List (Event BrokerReq.Resp)) :
    ∀ x, (tally past).sent.getLast? = some x → ¬ x.Definitive →
      past.foldl (Phase.next req) .guarding = .undecided x ∨
        past.foldl (Phase.next req) .guarding = .unwound (some x) := by
  induction past using List.reverseRecOn with
  | nil => exact fun x hx => absurd hx (by simp [tally])
  | append_singleton past e ih =>
    intro x hx hopen
    obtain ⟨q, y⟩ := e
    have htally : tally (past ++ [⟨q, y⟩]) = (tally past).next ⟨q, y⟩ := by
      simp only [tally, List.foldl_append, List.foldl_cons, List.foldl_nil]
    rw [htally] at hx
    rw [List.foldl_append, List.foldl_cons, List.foldl_nil]
    cases q with
    | post path payload headers =>
      have hlast : ((tally past).sent ++ [y]).getLast? = some x := hx
      rw [List.getLast?_concat] at hlast
      obtain rfl : y = x := Option.some.inj hlast
      exact .inl (if_neg hopen)
    | ledger op =>
      rcases ih x hx hopen with hp | hp
      · rw [hp]
        show (if op = unwindOp req then _ else _) = _ ∨ (if op = unwindOp req then _ else _) = _
        split
        · exact .inr rfl
        · exact .inl rfl
      · rw [hp]
        show (if op = unwindOp req then _ else _) = _ ∨ (if op = unwindOp req then _ else _) = _
        split
        · exact .inr rfl
        · exact .inr rfl
    | _ => exact ih x hx hopen

/-! ## 4. Many calls on one broker -/

section Placing

variable {ι : Type} [DecidableEq ι]

/-- Calls of `place` on one broker, one for each request, and nothing else. -/
def placing (b : TossBroker) (req : ι → OrderRequest) :
    Pool World ι BrokerReq.Resp Exc OrderAck where
  program i := b.place (req i)
  Answer w _ e w' := w.Gives e ∧ w' = w.after e
  Env _ _ := False

/-- Every call that holds a cover is covered, and its phase is sound. -/
structure PlacingInv (b : TossBroker) (req : ι → OrderRequest) (w : World)
    (ph : ι → Option Phase) : Prop where
  covered : ∀ i p, ph i = some p → p.Holds → Covered w.ledger (req i)
  sound : ∀ i p, ph i = some p → Sound b (req i) p

variable {b : TossBroker} {req : ι → OrderRequest}

/-- The phase of each thread. -/
abbrev phases (req : ι → OrderRequest) (s : Pool.State World ι BrokerReq.Resp Exc OrderAck) :
    ι → Option Phase :=
  Pool.phase (fun i => Phase.next (req i)) (fun _ => .guarding) s

theorem placingInv (hdistinct : Function.Injective fun i => (req i).clientOrderId)
    {start : World → Prop} {s : Pool.State World ι BrokerReq.Resp Exc OrderAck}
    (hs : Reachable (Pool.Start start) (placing b req).Step s) :
    PlacingInv b req s.world (phases req s) := by
  refine Pool.inv (P := placing b req) (fun i => Permitted b (req i))
    (fun i => place_follows b (req i)) (PlacingInv b req) ?_ ?_ ?_ ?_ hs
  · intro w _
    exact ⟨fun _ _ h => absurd h nofun, fun _ _ h => absurd h nofun⟩
  · intro w ph i hinv _
    exact ⟨Pool.forall_update False.elim (fun j p _ hj => hinv.covered j p hj),
      Pool.forall_update (sound_guarding b (req i)) (fun j p _ hj => hinv.sound j p hj)⟩
  · intro w ph i g q x _ hinv hg hok hw
    obtain ⟨hx, rfl⟩ := hw
    refine ⟨Pool.forall_update ?_ fun j p hij hj hp => ?_,
      Pool.forall_update ?_ fun j p _ hj => hinv.sound j p hj⟩
    · exact covered_of_own hok hx (hinv.covered i g hg)
    · exact covered_of_other hok x (fun he => hij (hdistinct he)) (hinv.covered j p hj hp)
    · exact sound_next hok x (hinv.sound i g hg)
  · exact fun _ _ _ _ henv => henv.elim

/-- A body on its way: its order is under the call's own id, and the ledger holds what it
    authorises. -/
def BodyCovered (b : TossBroker) (l : InMemorySleeveLedger) (req : OrderRequest)
    (body : OrderBody) : Prop :=
  body.clientOrderId = some req.clientOrderId ∧
    ((body.side = "BUY" ∧ body.symbol ∉ b.denylist ∧ ∃ amount, body.notional = some amount ∧
        l.reserved.get? req.clientOrderId = some (req.currency, amount)) ∨
      (body.side = "SELL" ∧ ∃ o, l.orders.get? req.clientOrderId = some o ∧ o.side = .SELL ∧
        o.status ∈ openStatuses ∧ o.symbol = body.symbol ∧ body.quantity = some o.quantity))

theorem bodyCovered {l : InMemorySleeveLedger} {req : OrderRequest} {p : Phase} (hp : p.Holds)
    (hsound : Sound b req p) (hcov : Covered l req) : BodyCovered b l req (buildBody req) := by
  refine ⟨if_neg (hsound.keyed hp), ?_⟩
  cases hcov with
  | @reserved amount hside hamount hget =>
    refine .inl ⟨?_, hsound.allowed hp hside, amount, ?_, hget⟩
    · simp only [buildBody, hside]
    · rw [notional_buildBody, hamount]
  | @registered o hside hget hsymbol hsell hopen hquantity =>
    refine .inr ⟨?_, o, hget, hsell, hopen, hsymbol, hquantity⟩
    simp only [buildBody, hside]

/-- A request in flight keeps to the phase of its call. -/
theorem permitted_of_await {start : World → Prop}
    {s : Pool.State World ι BrokerReq.Resp Exc OrderAck}
    (hs : Reachable (Pool.Start start) (placing b req).Step s) {i : ι}
    {th : Thread BrokerReq.Resp Exc OrderAck} (hi : s.thread i = some th) {q : BrokerReq}
    {k : q.Resp → Prog OrderAck} (hq : th.rest = .await q k) :
    ∃ p, phases req s i = some p ∧ Permitted b (req i) p q := by
  refine ⟨th.past.foldl (Phase.next (req i)) .guarding, ?_, ?_⟩
  · show (s.thread i).map _ = _
    rw [hi]
    rfl
  · have hkeeps := Pool.disciplined (P := placing b req) (fun i => Permitted b (req i))
      (fun i => place_follows b (req i)) hs i th hi
    rw [hq] at hkeeps
    exact hkeeps.1

/-! ## 5. The hard cap, with many calls in flight -/

/-- The cash of a currency whose proceeds have arrived. -/
def settledCash (w : World) (c : Currency) : Decimal :=
  w.ledger.virtualCash c - w.ledger.settlementPending w.today c

/-- Nothing is overdrawn. -/
structure Solvent (w : World) : Prop where
  amounts : w.ledger.ReservedNonneg
  available : ∀ c, 0 ≤ w.ledger.available w.today c

/-- Giving a cover back leaves more available. -/
theorem available_unwindOp {l : InMemorySleeveLedger} (h : l.ReservedNonneg) (req : OrderRequest)
    (today : String) (c : Currency) :
    l.available today c ≤ (l.step today (unwindOp req)).1.available today c := by
  have hheld := heldFor_nonneg h req.clientOrderId c
  have herase : ∀ l' : InMemorySleeveLedger, (∀ c, l'.vc c = l.vc c) →
      l'.snapshots = l.snapshots → l'.reserved = l.reserved.erase req.clientOrderId →
      l.available today c ≤ l'.available today c := by
    intro l' hvc hs hres
    rw [available_erase l hvc hs hres]
    linarith
  cases hside : req.side with
  | BUY =>
    rw [unwindOp_eq_of_buy hside]
    exact herase (l.release req.clientOrderId) (fun _ => rfl) rfl rfl
  | SELL =>
    rw [unwindOp_eq_of_sell hside]
    exact herase (l.markOrderTerminal req.clientOrderId .REJECTED) (vc_markOrderTerminal l _ _)
      (snapshots_markOrderTerminal l _ _) (reserved_markOrderTerminal l _ _)

/-- A guard takes a cover only out of what is available. -/
theorem available_cover {l : InMemorySleeveLedger} (h : l.ReservedNonneg) {today : String}
    (hav : ∀ c, 0 ≤ l.available today c) {req : OrderRequest} {op : LedgerOp}
    (hop : Covers b req op) (c : Currency) : 0 ≤ (l.step today op).1.available today c := by
  have heffect := l.step_effect today op
  generalize hl : (l.step today op).1 = l' at heffect ⊢
  generalize (l.step today op).2 = reply at heffect
  cases hop with
  | @reserve amount =>
    have hset : ∀ l' : InMemorySleeveLedger, l' = { l with
        reserved := l.reserved.set req.clientOrderId (req.currency, amount) } →
        l'.available today c = l.available today c + l.heldFor req.clientOrderId c -
          if req.currency = c then amount else 0 := by
      intro l' hl'
      exact available_set l (fun _ => by rw [hl']; rfl) (by rw [hl']) (by rw [hl']) today c
    cases heffect with
    | reserveRaised => exact hav c
    | reserveRefused => exact hav c
    | reserved _ _ hcap =>
      rw [hset _ rfl]
      by_cases hc : req.currency = c
      · subst hc
        rw [if_pos rfl]
        linarith
      · have hheld := heldFor_nonneg h req.clientOrderId c
        have hold := hav c
        rw [if_neg hc]
        linarith
  | reserveSell =>
    cases heffect with
    | sellRaised => exact hav c
    | sellRefused => exact hav c
    | sellReserved => exact hav c

/-- The requests of `place` keep a ledger solvent. -/
theorem solvent_of_permitted {req : OrderRequest} {p : Phase} {w : World} {q : BrokerReq}
    (h : Permitted b req p q) (x : q.Resp) (hw : Solvent w) : Solvent (w.after ⟨q, x⟩) := by
  have hunwind : ∀ x, Solvent (w.after ⟨.ledger (unwindOp req), x⟩) := fun x =>
    ⟨reservedNonneg_step hw.amounts w.today _,
      fun c => le_trans (hw.available c) (available_unwindOp hw.amounts req w.today c)⟩
  cases h with
  | look => exact hw
  | cover _ hop =>
    exact ⟨reservedNonneg_step hw.amounts w.today _, available_cover hw.amounts hw.available hop⟩
  | authHeaders => exact hw
  | invalidate => exact hw
  | accountSeq => exact hw
  | acquire => exact hw
  | post => exact hw
  | unwind => exact hunwind x
  | unwindLost => exact hunwind x
  | record => exact ⟨hw.amounts, hw.available⟩
  | cache => exact ⟨hw.amounts, hw.available⟩

/-- The request in flight is a POST. -/
def InFlight {α : Type} : Prog α → Prop
  | .await (.post _ _ _) _ => True
  | _ => False

instance {α : Type} : DecidablePred (InFlight (α := α))
  | .ret _ => inferInstanceAs (Decidable False)
  | .raise _ => inferInstanceAs (Decidable False)
  | .act _ _ => inferInstanceAs (Decidable False)
  | .await q _ => by cases q <;> unfold InFlight <;> infer_instance

/-- The call has a transmission on its way, or its last one was not definitively rejected. -/
def Live (s : Pool.State World ι BrokerReq.Resp Exc OrderAck) (i : ι) : Prop :=
  ∃ th ∈ s.thread i, InFlight th.rest ∨ ∃ x ∈ (tally th.past).sent.getLast?, ¬ x.Definitive

instance (s : Pool.State World ι BrokerReq.Resp Exc OrderAck) : DecidablePred (Live s) :=
  fun _ => inferInstanceAs (Decidable (∃ _ ∈ _, _ ∨ ∃ _ ∈ _, _))

/-- No transmission of the call was answered with a success that names no order id. -/
def Named (s : Pool.State World ι BrokerReq.Resp Exc OrderAck) (i : ι) : Prop :=
  ∀ th ∈ s.thread i, ∀ x ∈ (tally th.past).sent, ¬ x.Nameless

instance (s : Pool.State World ι BrokerReq.Resp Exc OrderAck) : DecidablePred (Named s) :=
  fun _ => inferInstanceAs (Decidable (∀ _ ∈ _, ∀ _ ∈ _, _))

/-- A live call holds its cover, unless its order was accepted without an id. -/
theorem holds_of_live {start : World → Prop}
    (hdistinct : Function.Injective fun i => (req i).clientOrderId)
    {s : Pool.State World ι BrokerReq.Resp Exc OrderAck}
    (hs : Reachable (Pool.Start start) (placing b req).Step s) {i : ι} (hlive : Live s i)
    (hnamed : Named s i) : ∃ p, phases req s i = some p ∧ p.Holds := by
  obtain ⟨th, hi, hlive⟩ := hlive
  have hphase : phases req s i = some (th.past.foldl (Phase.next (req i)) .guarding) := by
    show (s.thread i).map _ = _
    rw [hi]
    rfl
  refine ⟨_, hphase, ?_⟩
  rcases hlive with hflight | ⟨x, hx, hopen⟩
  · -- Only a covered call transmits.
    cases hrest : th.rest with
    | await q k =>
      obtain ⟨p, hp, hok⟩ := permitted_of_await hs hi hrest
      rw [Option.some.inj (hphase.symm.trans hp)]
      rw [hrest] at hflight
      cases q with
      | post path payload headers =>
        cases hok with
        | post => trivial
      | _ => exact hflight.elim
    | _ => rw [hrest] at hflight; exact hflight.elim
  · rcases phase_of_open (req i) th.past x hx hopen with hp | hp
    · rw [hp]
      trivial
    · have hlost := ((placingInv hdistinct hs).sound i _ hphase).lost x hp
      exact absurd hlost (hnamed th hi x (List.mem_of_getLast? hx))

theorem solvent {start : World → Prop} (hstart : ∀ w, start w → Solvent w)
    {s : Pool.State World ι BrokerReq.Resp Exc OrderAck}
    (hs : Reachable (Pool.Start start) (placing b req).Step s) : Solvent s.world := by
  refine Pool.inv (P := placing b req) (fun i => Permitted b (req i))
    (fun i => place_follows b (req i)) (fun w _ => Solvent w) ?_ ?_ ?_ ?_ hs
  · exact fun w hw => hstart w hw
  · exact fun w ph i hinv _ => hinv
  · intro w ph i g q x _ hinv hg hok h
    obtain ⟨-, rfl⟩ := h
    exact solvent_of_permitted hok x hinv
  · exact fun _ _ _ _ henv => henv.elim

/-- The notional of a covered BUY is what the ledger holds for it. -/
theorem heldFor_covered {l : InMemorySleeveLedger} {req : OrderRequest} (hcov : Covered l req)
    (hside : req.side = .BUY) :
    ((buildBody req).notional).getD 0 = l.heldFor req.clientOrderId req.currency := by
  cases hcov with
  | reserved _ hamount hget =>
    unfold heldFor
    rw [notional_buildBody, hamount, hget, Option.getD_some, Option.elim_some, if_pos rfl]
  | registered hsell => exact absurd (hside.symm.trans hsell) nofun

/-- What is held under distinct ids is held out of the cash that has settled. -/
theorem sum_heldFor_le {w : World} (hw : Solvent w) (c : Currency) {ids : List String}
    (hids : ids.Nodup) : (ids.map fun id => w.ledger.heldFor id c).sum ≤ settledCash w c := by
  have hsum : (ids.map fun id => w.ledger.heldFor id c).sum ≤ w.ledger.reservedTotal c := by
    rw [reservedTotal_eq]
    show (ids.map (w.ledger.reserved.weightAt fun e => if e.2.1 = c then e.2.2 else 0)).sum ≤ _
    refine Dict.sum_weightAt_le (fun e he => ?_) hids
    split
    · exact hw.amounts e.1 e.2.1 e.2.2 (Dict.mem_rows_iff.mp he)
    · exact le_refl _
  have hav := hw.available c
  unfold available at hav
  show _ ≤ w.ledger.vc c - _
  linarith

/-- **Every transmitted order is covered**, and while every accepted BUY was given an order id, the
    BUYs that Toss has or may have fit together into the settled cash. -/
theorem transmitted_covered (b : TossBroker) (req : ι → OrderRequest)
    (hdistinct : Function.Injective fun i => (req i).clientOrderId) {w₀ : World}
    {s : Pool.State World ι BrokerReq.Resp Exc OrderAck}
    (hs : Reachable (Pool.Start (· = w₀)) (placing b req).Step s) :
    (∀ i th path payload headers k, s.thread i = some th →
      th.rest = .await (.post path payload headers) k → path = ordersPath ∧
        ∃ body, payload = .order body ∧ BodyCovered b s.world.ledger (req i) body) ∧
    ((∃ sleeveId cap cur ops, w₀.ledger = (fresh sleeveId cap cur).run ops) →
      (∀ c, 0 ≤ w₀.ledger.available w₀.today c) →
      (∀ i, (req i).side = .BUY → Named s i) →
      ∀ (c : Currency) (is : List ι), is.Nodup →
        (∀ i ∈ is, Live s i ∧ (req i).side = .BUY ∧ (req i).currency = c) →
        (is.map fun i => ((buildBody (req i)).notional).getD 0).sum ≤ settledCash s.world c) := by
  have hinv := placingInv hdistinct hs
  refine ⟨fun i th path payload headers k hi hrest => ?_, ?_⟩
  · obtain ⟨p, hp, hok⟩ := permitted_of_await hs hi hrest
    cases hok with
    | post =>
      refine ⟨rfl, _, rfl, ?_⟩
      exact bodyCovered (p := .covered) trivial (hinv.sound i _ hp) (hinv.covered i _ hp trivial)
  · rintro ⟨sleeveId, cap, cur, ops, hledger⟩ hav hnamed c is his hlive
    have hamounts : w₀.ledger.ReservedNonneg := by
      rw [hledger]
      exact reservedNonneg_run (reservedNonneg_fresh sleeveId cap cur) ops
    have hw : Solvent s.world := solvent (fun w (hw : w = w₀) => hw ▸ ⟨hamounts, hav⟩) hs
    have hheld : ∀ i ∈ is, ((buildBody (req i)).notional).getD 0 =
        s.world.ledger.heldFor (req i).clientOrderId c := by
      intro i hmem
      obtain ⟨hl, hside, rfl⟩ := hlive i hmem
      obtain ⟨p, hp, hholds⟩ := holds_of_live hdistinct hs hl (hnamed i hside)
      exact heldFor_covered (hinv.covered i p hp hholds) hside
    have hids : (is.map fun i => (req i).clientOrderId).Nodup := his.map hdistinct
    have hsum := sum_heldFor_le hw c hids
    rw [List.map_map] at hsum
    rw [List.map_congr_left hheld]
    exact hsum

end Placing

/-! ## 6. Two calls -/

/-- A sleeve with nothing but cash. -/
def cashOnly (cap : ℕ) : World :=
  { ledger := fresh "sleeve" cap .KRW, today := "2024-01-02", acks := fun _ _ => none }

/-- Two BUYs for the same amount. -/
def twoBuys (price : ℕ) (second : Bool) : OrderRequest :=
  .limit .BUY 1 price (if second then "gd:2" else "gd:1")

/-- The answers of a concrete run, with a script for the outcome of the next POST. -/
def answering {ι : Type} (outcome : PostOutcome) (w : World) (_ : ι) (q : BrokerReq) :
    Option (q.Resp × World) :=
  let x := w.respond outcome none q
  some (x, w.after ⟨q, x⟩)

/-- A schedule of the two calls: who goes on, and how its POST ends if that is what it waits
    for. -/
def twoCalls (cap price : ℕ) (turns : List (Pool.Turn Bool PostOutcome Empty)) :
    Pool.State World Bool BrokerReq.Resp Exc OrderAck :=
  (placing { id := 0 } (twoBuys price)).play answering (fun m _ => m.elim) (cashOnly cap) turns

theorem twoCalls_reachable (cap price : ℕ) (turns : List (Pool.Turn Bool PostOutcome Empty)) :
    Reachable (Pool.Start (· = cashOnly cap)) (placing { id := 0 } (twoBuys price)).Step
      (twoCalls cap price turns) := by
  refine Pool.play_reachable (· = cashOnly cap) ?_ (fun m => m.elim) rfl turns
  intro outcome w i q _ _ h
  cases h
  exact ⟨w.gives_respond outcome none q, rfl⟩

/-- Six turns bring a call to its POST. -/
def toPost (second : Bool) : List (Pool.Turn Bool PostOutcome Empty) :=
  List.replicate 6 (.go second .connectFailed)

theorem twoBuys_distinct (price : ℕ) :
    Function.Injective fun second => (twoBuys price second).clientOrderId := by
  rintro (_ | _) (_ | _) h
  · rfl
  · exact absurd h (show ("gd:1" : String) ≠ "gd:2" by decide)
  · exact absurd h (show ("gd:2" : String) ≠ "gd:1" by decide)
  · rfl

/-- What the two orders may cost. -/
def bothNotionals (price : ℕ) : Decimal :=
  ([false, true].map fun i => ((buildBody (twoBuys price i)).notional).getD 0).sum

/-- Both orders are on their way, and the cash is just enough. -/
theorem transmitted_covered_twoBuys : bothNotionals 100000 = 200000 ∧ bothNotionals 100000 ≤
    settledCash (twoCalls 200000 100000 (toPost false ++ toPost true)).world .KRW := by
  refine ⟨by decide +kernel, ?_⟩
  refine (transmitted_covered _ _ (twoBuys_distinct 100000)
    (twoCalls_reachable 200000 100000 (toPost false ++ toPost true))).2
    ⟨"sleeve", 200000, .KRW, [], rfl⟩ ?_ ?_ .KRW [false, true] (by decide) ?_
  · rintro (_ | _)
    · decide +kernel
    · decide +kernel
  · rintro (_ | _) _
    · decide +kernel
    · decide +kernel
  · decide +kernel

/-- The run ends with two live BUYs that cost more than there is. -/
def Overcommits (cap price : ℕ) (turns : List (Pool.Turn Bool PostOutcome Empty)) : Prop :=
  Reachable (Pool.Start (· = cashOnly cap)) (placing { id := 0 } (twoBuys price)).Step
    (twoCalls cap price turns) ∧
  0 ≤ (cashOnly cap).ledger.available (cashOnly cap).today .KRW ∧
  Live (twoCalls cap price turns) false ∧ Live (twoCalls cap price turns) true ∧
  settledCash (twoCalls cap price turns).world .KRW < bothNotionals price

/-- The first order is accepted, by a success that does not say as what: `_unwind` frees its cash,
    and the second order takes it. -/
theorem overcommits_nameless : Overcommits 100000 100000
    (toPost false ++ [.go false (.answered (.of 200 (some (.obj [])))), .go false .connectFailed] ++
      toPost true) :=
  ⟨twoCalls_reachable _ _ _, by decide +kernel, by decide +kernel, by decide +kernel,
    by decide +kernel⟩

end Proof

end TossSleeve
