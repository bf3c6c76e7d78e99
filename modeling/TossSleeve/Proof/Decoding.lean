import TossSleeve.Proof.Reading

/-!
# `Proof/Decoding.lean` — what `order_fill` makes of a report

`order_fill` is where a report becomes cash: the side decides the sign, the currency the bucket,
and everything else the amount. It has two kinds of helpers. The strict ones refuse a report that
does not say what they need; the lenient ones put something in its place — no amount is zero, no
currency is won, and no side is a BUY — or raise what `Decimal` and `Fill` raise, which is nothing
the caller is told to expect.

`Faithful` says what a decoder should do: report what is stated, report nothing where nothing
happened, or raise the package's own error. `faithful_iff` says on which reports this one does.
-/

set_option autoImplicit false

namespace TossSleeve

open Lib Lib.Proc

/-! ## 1. What a report states -/

namespace Json

/-- The amount a field states. -/
def amount (x : Json) : Option PyDecimal := if x.isBlank then none else pyDecimal x.pyStr

/-- The field states a finite amount that satisfies `p`. -/
def IsAmount (p : Decimal → Prop) (x : Json) : Prop := ∃ d ∈ x.amount, d.Is p

theorem isAmount_iff {p : Decimal → Prop} {x : Json} :
    x.IsAmount p ↔ ∃ q, p q ∧ x.amount = some (.finite q) := by
  constructor
  · intro h
    obtain ⟨d, hd, hp⟩ := h
    obtain ⟨q, hq, rfl⟩ := PyDecimal.is_iff.mp hp
    exact ⟨q, hq, hd⟩
  · intro h
    obtain ⟨q, hq, hd⟩ := h
    exact ⟨_, hd, hq⟩

instance (p : Decimal → Prop) [DecidablePred p] : DecidablePred (IsAmount p) :=
  fun _ => inferInstanceAs (Decidable (∃ d ∈ _, _))

end Json

/-- The side a report states, in capitals or not. -/
def sideStated (report : Json) : Option OrderSide :=
  let side := pyUpper (report.field "side").pyStr
  if side = "SELL" then some .SELL else if side = "BUY" then some .BUY else none

/-- The field of the report's `execution`. -/
def executed (report : Json) (key : String) : Json := (report.field "execution").field key

/-- Nothing was executed: there is no execution, or no quantity in it, or one that is not
    positive. -/
def NothingExecuted (report : Json) : Prop :=
  (report.field "execution").isDict = false ∨ (executed report "filledQuantity").isBlank ∨
    ∃ q ∈ (executed report "filledQuantity").amount, q.nonPositive = .ok true

instance : DecidablePred NothingExecuted := fun _ => inferInstanceAs (Decidable (_ ∨ _ ∨ ∃ q ∈ _, _))

/-- The fill says what the report says. -/
structure States (report : Json) (f : Fill) : Prop where
  side : sideStated report = some f.side
  currency : currencyNamed (report.field "currency") = some f.currency
  filledQuantity : (executed report "filledQuantity").amount = some (.finite f.filledQuantity)
  avgPrice : (executed report "averageFilledPrice").amount = some (.finite f.avgPrice)
  commission : ¬ (executed report "commission").isBlank →
    (executed report "commission").amount = some (.finite f.commission)
  tax : ¬ (executed report "tax").isBlank →
    (executed report "tax").amount = some (.finite f.tax)

/-- What may become of a report. -/
def Faithful (report : Json) : Except Exc (Option Fill) → Prop
  | .ok none => NothingExecuted report
  | .ok (some f) => States report f
  | .error (.toss _) => True
  | .error _ => False

/-! ## 2. The reports that are decoded so -/

/-- Something was executed, at a price that is missing, unreadable or not positive. -/
def Unpriced (report : Json) : Prop :=
  (∃ q ∈ (executed report "filledQuantity").amount, q.nonPositive = .ok false) ∧
    ∀ p ∈ (executed report "averageFilledPrice").amount, p.nonPositive = .ok true

instance : DecidablePred Unpriced :=
  fun _ => inferInstanceAs (Decidable ((∃ q ∈ _, _) ∧ ∀ p ∈ _, _))

/-- The report states a side, a currency and positive amounts, and no fee that cannot be one. -/
structure Complete (report : Json) : Prop where
  side : sideStated report ≠ none
  currency : currencyNamed (report.field "currency") ≠ none
  filledQuantity : (executed report "filledQuantity").IsAmount (0 < ·)
  avgPrice : (executed report "averageFilledPrice").IsAmount (0 < ·)
  commission : (executed report "commission").isBlank ∨ (executed report "commission").IsAmount (0 ≤ ·)
  tax : (executed report "tax").isBlank ∨ (executed report "tax").IsAmount (0 ≤ ·)

instance : DecidablePred Complete := fun _ =>
  decidable_of_iff (_ ∧ _ ∧ _ ∧ _ ∧ _ ∧ _)
    ⟨fun h => ⟨h.1, h.2.1, h.2.2.1, h.2.2.2.1, h.2.2.2.2.1, h.2.2.2.2.2⟩,
      fun h => ⟨h.1, h.2, h.3, h.4, h.5, h.6⟩⟩

/-- Nothing was executed, or the report says that it cannot be booked, or it is complete. -/
def Decodable (report : Json) : Prop :=
  NothingExecuted report ∨ Unpriced report ∨ Complete report

instance : DecidablePred Decodable := fun _ => inferInstanceAs (Decidable (_ ∨ _ ∨ _))

namespace Proof

/-! ## 3. The helpers -/

theorem money_blank {x : Json} (h : x.isBlank = true) : money x = .ok (.finite 0) := by
  rw [money, if_pos h]

theorem money_amount {x : Json} {d : PyDecimal} (h : x.amount = some d) : money x = .ok d := by
  unfold Json.amount at h
  split at h
  · exact absurd h (by simp)
  · next hblank =>
    rw [money, if_neg hblank, h]

/-- What `money` returned is what was stated, or zero for nothing. -/
theorem amount_of_money {x : Json} {d : PyDecimal} (h : money x = .ok d) :
    (x.isBlank = true ∧ d = .finite 0) ∨ (¬ x.isBlank = true ∧ x.amount = some d) := by
  by_cases hblank : x.isBlank = true
  · rw [money_blank hblank] at h
    exact .inl ⟨hblank, (Except.ok.inj h).symm⟩
  · refine .inr ⟨hblank, ?_⟩
    rw [money, if_neg hblank] at h
    rw [Json.amount, if_neg hblank]
    cases hd : pyDecimal x.pyStr with
    | none =>
      rw [hd] at h
      exact absurd h (by simp)
    | some d' =>
      rw [hd] at h
      rw [Except.ok.inj h]

theorem requiredMoney_eq (d : Json) (key : String) : requiredMoney d key = (d.field key).amount :=
  rfl

/-- The side `order_fill` takes is the side stated, if one is. -/
theorem sideIn_eq {report : Json} {side : OrderSide} (h : sideStated report = some side) :
    sideIn report = side := by
  have hfield : pyUpper ((report.get? "side").getD (.str "")).pyStr = "SELL" ↔
      pyUpper (report.field "side").pyStr = "SELL" := by
    unfold Json.field
    cases report.get? "side" with
    | some x => exact Iff.rfl
    | none => exact iff_of_false (by decide) (by decide)
  unfold sideStated at h
  simp only at h
  unfold sideIn
  split at h
  · next hsell =>
    rw [if_pos (hfield.mpr hsell)]
    exact Option.some.inj h
  · next hsell =>
    rw [if_neg fun h => hsell (hfield.mp h)]
    split at h
    · exact Option.some.inj h
    · exact absurd h (by simp)

/-- A `Fill` that was built has the side, the currency and the amounts it was built from. -/
theorem newFill_ok {o c sym : String} {side : OrderSide} {cur : Currency}
    {q p commission tax : PyDecimal} {at' date : String} {f : Fill}
    (h : newFill o c sym side cur q p commission tax at' date = .ok f) :
    f.side = side ∧ f.currency = cur ∧ q = .finite f.filledQuantity ∧ p = .finite f.avgPrice ∧
      commission = .finite f.commission ∧ tax = .finite f.tax := by
  unfold newFill at h
  cases hq : q.checked (0 < ·) "filled_quantity 는 양수여야 함: " with
  | error => rw [hq] at h; exact absurd h (by simp [bind, Except.bind])
  | ok q' =>
    cases hp : p.checked (0 < ·) "avg_price 는 양수여야 함: " with
    | error => rw [hq, hp] at h; exact absurd h (by simp [bind, Except.bind])
    | ok p' =>
      cases hc : commission.checked (0 ≤ ·) "commission 은 음수일 수 없음: " with
      | error => rw [hq, hp, hc] at h; exact absurd h (by simp [bind, Except.bind])
      | ok c' =>
        cases ht : tax.checked (0 ≤ ·) "tax 는 음수일 수 없음: " with
        | error => rw [hq, hp, hc, ht] at h; exact absurd h (by simp [bind, Except.bind])
        | ok t' =>
          rw [hq, hp, hc, ht] at h
          obtain rfl := Except.ok.inj h
          exact ⟨rfl, rfl, PyDecimal.checked_ok.mp hq, PyDecimal.checked_ok.mp hp,
            PyDecimal.checked_ok.mp hc, PyDecimal.checked_ok.mp ht⟩

/-- Good amounts make a `Fill`. -/
theorem newFill_of_amounts (o c sym : String) (side : OrderSide) (cur : Currency)
    {q p commission tax : Decimal} (hq : 0 < q) (hp : 0 < p) (hc : 0 ≤ commission) (ht : 0 ≤ tax)
    (at' date : String) : ∃ f, newFill o c sym side cur (.finite q) (.finite p)
      (.finite commission) (.finite tax) at' date = .ok f := by
  have hchecked : ∀ {p : Decimal → Prop} [DecidablePred p] (message : String) (q : Decimal)
      (h : p q), (PyDecimal.finite q).checked p message = .ok ⟨q, h⟩ :=
    fun message q h => PyDecimal.checked_ok.mpr rfl
  unfold newFill
  rw [hchecked _ q hq, hchecked _ p hp, hchecked _ commission hc, hchecked _ tax ht]
  exact ⟨_, rfl⟩

/-! ## 4. `order_fill` -/

variable {report : Json} {orderId : String}

/-- How the decoder ends. -/
inductive DecodeEnd (orderId : String) (report : Json) :
    Except LookupFailure (Option Fill) → Prop
  | nothing (h : NothingExecuted report) : DecodeEnd orderId report (.ok none)
  | unpriced (h : Unpriced report) (e : TossError) : DecodeEnd orderId report (.error (.toss e))
  | raised (e : PyError) (h : ¬ NothingExecuted report) (hprice : ¬ Unpriced report)
      (hamounts : ¬ Complete report) : DecodeEnd orderId report (.error (.python e))
  | booked {q p : PyDecimal} (hq : (executed report "filledQuantity").amount = some q)
      (hp : (executed report "averageFilledPrice").amount = some p)
      (h : ¬ NothingExecuted report) (hprice : ¬ Unpriced report) :
      DecodeEnd orderId report (some <$> (filledOf orderId report q p).mapError .python)

/-- An execution whose quantity is stated, and is no number that is zero or less. -/
theorem not_nothingExecuted (hdict : (report.field "execution").isDict = true) {q : PyDecimal}
    (hq : (executed report "filledQuantity").amount = some q) (hpos : q.nonPositive ≠ .ok true) :
    ¬ NothingExecuted report := by
  rintro (hno | hblank | ⟨q', hq', hle⟩)
  · rw [hdict] at hno
    exact absurd hno (by decide)
  · rw [Json.amount, if_pos hblank] at hq
    exact absurd hq (by simp)
  · obtain rfl := Option.some.inj (hq.symm.trans hq')
    exact hpos hle

/-- A complete report states finite amounts. -/
theorem nonPositive_of_complete (h : Complete report) {key : String} {x : PyDecimal}
    (hkey : key = "filledQuantity" ∨ key = "averageFilledPrice")
    (hx : (executed report key).amount = some x) : x.nonPositive = .ok false := by
  have hpos : (executed report key).IsAmount (0 < ·) := by
    rcases hkey with rfl | rfl
    · exact h.filledQuantity
    · exact h.avgPrice
  obtain ⟨q, hq, hstated⟩ := Json.isAmount_iff.mp hpos
  obtain rfl := Option.some.inj (hx.symm.trans hstated)
  exact congrArg Except.ok (decide_eq_false (not_le.mpr hq))

/-- The price is looked at only where there is a positive quantity. -/
theorem pricedEnd {q : PyDecimal} (hq : (executed report "filledQuantity").amount = some q)
    (hpos : q.nonPositive = .ok false) (hsome : ¬ NothingExecuted report) :
    DecodeEnd orderId report (pricedOf orderId report q) := by
  unfold pricedOf
  rw [requiredMoney_eq]
  cases hp : ((report.field "execution").field "averageFilledPrice").amount with
  | none =>
    refine .unpriced ⟨⟨q, hq, hpos⟩, fun p hp' => ?_⟩ _
    exact absurd (hp.symm.trans hp') (by simp)
  | some p =>
    show DecodeEnd orderId report (do
      if ← p.nonPositive.mapError .python then .error (.toss (noPrice orderId))
      else some <$> (filledOf orderId report q p).mapError .python)
    cases hle : p.nonPositive with
    | error e =>
      refine .raised e hsome ?_ ?_
      · intro hw
        obtain ⟨-, hprice⟩ := hw
        exact absurd (hle.symm.trans (hprice p hp)) (by simp)
      · intro h
        exact absurd (hle.symm.trans (nonPositive_of_complete h (.inr rfl) hp)) (by simp)
    | ok v =>
      cases v with
      | true =>
        refine .unpriced ⟨⟨q, hq, hpos⟩, fun p' hp' => ?_⟩ _
        obtain rfl := Option.some.inj (hp.symm.trans hp')
        exact hle
      | false =>
        refine .booked hq hp hsome ?_
        intro hw
        obtain ⟨-, hprice⟩ := hw
        exact absurd (hle.symm.trans (hprice p hp)) (by simp)

theorem decodeEnd : DecodeEnd orderId report (orderFillOf orderId report) := by
  unfold orderFillOf
  by_cases hdict : (report.field "execution").isDict = true
  · rw [if_pos hdict]
    cases hmoney : money ((report.field "execution").field "filledQuantity") with
    | error e =>
      -- The quantity is no numeral.
      have hblank : ¬ (executed report "filledQuantity").isBlank = true := by
        intro hblank
        exact absurd (hmoney.symm.trans (money_blank hblank)) (by simp)
      have hnone : (executed report "filledQuantity").amount = none := by
        cases hq : (executed report "filledQuantity").amount with
        | none => rfl
        | some q => exact absurd (hmoney.symm.trans (money_amount hq)) (by simp)
      refine .raised e ?_ ?_ ?_
      · rintro (hno | hno | ⟨q, hq, -⟩)
        · rw [hdict] at hno
          exact absurd hno (by decide)
        · exact hblank hno
        · exact absurd (hnone.symm.trans hq) (by simp)
      · intro hw
        obtain ⟨⟨q, hq, -⟩, -⟩ := hw
        exact absurd (hnone.symm.trans hq) (by simp)
      · intro h
        obtain ⟨q, hq, -⟩ := h.filledQuantity
        exact absurd (hnone.symm.trans hq) (by simp)
    | ok q =>
      rcases amount_of_money hmoney with ⟨hblank, rfl⟩ | ⟨-, hq⟩
      · exact .nothing (.inr (.inl hblank))
      · show DecodeEnd orderId report (do
          if ← q.nonPositive.mapError .python then return none else pricedOf orderId report q)
        cases hle : q.nonPositive with
        | error e =>
          -- The quantity is a NaN.
          refine .raised e (not_nothingExecuted hdict hq (by rw [hle]; simp)) ?_ ?_
          · intro hw
            obtain ⟨⟨q', hq', hpos⟩, -⟩ := hw
            obtain rfl := Option.some.inj (hq.symm.trans hq')
            exact absurd (hle.symm.trans hpos) (by simp)
          · intro h
            exact absurd (hle.symm.trans (nonPositive_of_complete h (.inl rfl) hq)) (by simp)
        | ok v =>
          cases v with
          | true => exact .nothing (.inr (.inr ⟨q, hq, hle⟩))
          | false => exact pricedEnd hq hle (not_nothingExecuted hdict hq (by rw [hle]; simp))
  · rw [if_neg hdict]
    exact .nothing (.inl (Bool.eq_false_iff.mpr hdict))

/-- With a quantity and a price, a fill is built exactly from a report without a bad amount. -/
theorem filledOf_ok {q p : PyDecimal} {f : Fill} (hq : (executed report "filledQuantity").amount = some q)
    (hp : (executed report "averageFilledPrice").amount = some p)
    (h : filledOf orderId report q p = .ok f) : f.side = sideIn report ∧
      f.currency = currencyOr (report.field "currency") ∧
      (executed report "filledQuantity").amount = some (.finite f.filledQuantity) ∧
      (executed report "averageFilledPrice").amount = some (.finite f.avgPrice) ∧
      ((executed report "commission").isBlank = true ∨
        (executed report "commission").amount = some (.finite f.commission)) ∧
      ((executed report "tax").isBlank = true ∨
        (executed report "tax").amount = some (.finite f.tax)) := by
  unfold filledOf at h
  dsimp only at h
  cases hc : money ((report.field "execution").field "commission") with
  | error e =>
    rw [hc] at h
    exact absurd h (by simp [bind, Except.bind])
  | ok commission =>
    cases ht : money ((report.field "execution").field "tax") with
    | error e =>
      rw [hc, ht] at h
      exact absurd h (by simp [bind, Except.bind])
    | ok tax =>
      rw [hc, ht] at h
      obtain ⟨hside, hcur, rfl, rfl, rfl, rfl⟩ := newFill_ok h
      refine ⟨hside, hcur, hq, hp, ?_, ?_⟩
      · exact (amount_of_money hc).imp And.left And.right
      · exact (amount_of_money ht).imp And.left And.right

/-- An amount that may be left open, as `money` reads it. -/
theorem money_of_isAmount {x : Json} (h : x.isBlank = true ∨ x.IsAmount (0 ≤ ·)) :
    ∃ q, 0 ≤ q ∧ money x = .ok (.finite q) := by
  rcases h with hblank | hamount
  · exact ⟨0, le_refl 0, money_blank hblank⟩
  · obtain ⟨q, hq, hstated⟩ := Json.isAmount_iff.mp hamount
    exact ⟨q, hq, money_amount hstated⟩

theorem filledOf_of_complete (h : Complete report) {q p : PyDecimal}
    (hq : (executed report "filledQuantity").amount = some q)
    (hp : (executed report "averageFilledPrice").amount = some p) :
    ∃ f, filledOf orderId report q p = .ok f := by
  obtain ⟨q', hqpos, hq'⟩ := Json.isAmount_iff.mp h.filledQuantity
  obtain ⟨p', hppos, hp'⟩ := Json.isAmount_iff.mp h.avgPrice
  obtain rfl := Option.some.inj (hq.symm.trans hq')
  obtain rfl := Option.some.inj (hp.symm.trans hp')
  obtain ⟨c, hc, hcommission⟩ := money_of_isAmount h.commission
  obtain ⟨t, ht, htax⟩ := money_of_isAmount h.tax
  unfold filledOf
  dsimp only
  rw [show money ((report.field "execution").field "commission") = _ from hcommission,
    show money ((report.field "execution").field "tax") = _ from htax]
  exact newFill_of_amounts _ _ _ _ _ hqpos hppos hc ht _ _

/-- The decoder's part of `order_fill`: an answer with this payload. -/
theorem faithful_decode_iff :
    Faithful report ((orderFillOf orderId report).mapError LookupFailure.exc) ↔
      Decodable report := by
  have hend := @decodeEnd report orderId
  generalize orderFillOf orderId report = x at hend
  cases hend with
  | nothing h => exact iff_of_true h (.inl h)
  | unpriced h e => exact iff_of_true trivial (.inr (.inl h))
  | raised e h hprice hamounts =>
    refine iff_of_false id ?_
    rintro (habs | habs | habs)
    · exact h habs
    · exact hprice habs
    · exact hamounts habs
  | @booked q p hq hp h hprice =>
    have hcomplete : Decodable report ↔ Complete report :=
      ⟨fun hd => (hd.resolve_left h).resolve_left hprice, fun hc => .inr (.inr hc)⟩
    rw [hcomplete]
    constructor
    · intro hfaithful
      cases hf : filledOf orderId report q p with
      | error e =>
        rw [hf] at hfaithful
        exact hfaithful.elim
      | ok f =>
        rw [hf] at hfaithful
        have hstates : States report f := hfaithful
        refine ⟨?_, ?_, ⟨_, hstates.filledQuantity, f.filledQuantity_pos⟩,
          ⟨_, hstates.avgPrice, f.avgPrice_pos⟩, ?_, ?_⟩
        · rw [hstates.side]
          exact Option.some_ne_none _
        · rw [hstates.currency]
          exact Option.some_ne_none _
        · by_cases hblank : (executed report "commission").isBlank = true
          · exact .inl hblank
          · exact .inr ⟨_, hstates.commission hblank, f.commission_nonneg⟩
        · by_cases hblank : (executed report "tax").isBlank = true
          · exact .inl hblank
          · exact .inr ⟨_, hstates.tax hblank, f.tax_nonneg⟩
    · intro hc
      obtain ⟨f, hf⟩ := @filledOf_of_complete _ orderId hc _ _ hq hp
      rw [hf]
      obtain ⟨hside, hcur, hqty, hprice, hcommission, htax⟩ := filledOf_ok hq hp hf
      obtain ⟨side, hside'⟩ := Option.ne_none_iff_exists'.mp hc.side
      obtain ⟨cur, hcur'⟩ := Option.ne_none_iff_exists'.mp hc.currency
      refine ⟨?_, ?_, hqty, hprice, fun hno => hcommission.resolve_left hno,
        fun hno => htax.resolve_left hno⟩
      · rw [hside, sideIn_eq hside', hside']
      · rw [hcur, currencyOr, hcur']
        rfl

/-- **Which reports `order_fill` decodes faithfully or refuses.** -/
theorem order_fill_faithful_iff (orderId : String) {tr : List (Event BrokerReq.Resp)}
    {r : Except Exc (Option Fill)} (hruns : Runs (TossRest.orderFill orderId) tr r)
    {resp : Response} (hlast : (gets tr).getLast? = some (.answered resp)) (hs : resp.Success) :
    Faithful resp.result r ↔ Decodable resp.result := by
  rw [orderFill_runs hruns hlast hs]
  exact faithful_decode_iff

/-! ## 5. Reports -/

/-- A report of these fields about the order, and these about its execution. -/
def reportOf (order execution : List (String × String)) : Response :=
  .of 200 (some (.obj [("result", .obj (order.map (fun e => (e.1, .str e.2)) ++
    [("execution", .obj (execution.map fun e => (e.1, .str e.2)))]))]))

/-- Ten shares executed, for a hundred each. -/
def ten : List (String × String) :=
  [("filledQuantity", "10"), ("averageFilledPrice", "100"), ("filledAt", "2024-01-02")]

def dollarSale : Response :=
  reportOf [("side", "SELL"), ("currency", "USD")] (ten ++ [("commission", "0.25")])

theorem order_fill_faithful_iff_dollarSale : Faithful dollarSale.result
    ((orderFillOf "o1" dollarSale.result).mapError LookupFailure.exc) := by
  refine (order_fill_faithful_iff "o1" (orderFill_answered "o1" (by decide))
    (congrArg List.getLast? (gets_answeredGet _ true _ dollarSale)) (by decide)).mpr ?_
  decide +kernel

/-- What `order_fill` makes of the answer, and that it is not faithful. -/
def Misreads (resp : Response) (x : Except LookupFailure (Option Fill)) : Prop :=
  resp.Success ∧ orderFillOf "o1" resp.result = x ∧
    Runs (TossRest.orderFill "o1") (answeredGet (orderDetailPath "o1") true [] resp)
      (x.mapError LookupFailure.exc) ∧
    ¬ Faithful resp.result (x.mapError LookupFailure.exc)

theorem misreads {resp : Response} (hs : resp.Success) {x : Except LookupFailure (Option Fill)}
    (hx : orderFillOf "o1" resp.result = x) (h : ¬ Decodable resp.result) : Misreads resp x := by
  subst hx
  exact ⟨hs, rfl, orderFill_answered "o1" hs, fun hf => h (faithful_decode_iff.mp hf)⟩

/-- Ten shares, bought or sold for a hundred won each. -/
def tenFilled (side : OrderSide) : Fill := .whole "o1" "" "" side .KRW 10 100 0 ""

def inWon : List (String × String) := [("side", "SELL"), ("currency", "KRW")]

/-- No side is a BUY, no currency is won, and what is no amount raises what Python raises. -/
theorem order_fill_misread :
    Misreads (reportOf [("currency", "KRW")] ten) (.ok (some (tenFilled .BUY))) ∧
    Misreads (reportOf [("side", "SELL"), ("currency", "EUR")] ten) (.ok (some (tenFilled .SELL))) ∧
    Misreads (reportOf inWon [("filledQuantity", "NaN")]) (.error (.python .invalidOperation)) ∧
    Misreads (reportOf inWon [("filledQuantity", "ten")]) (.error (.python .invalidOperation)) ∧
    Misreads (reportOf inWon [("filledQuantity", "Infinity"), ("averageFilledPrice", "100.5")])
      (.error (.python (.valueError "filled_quantity 는 양수여야 함: Infinity"))) ∧
    Misreads (reportOf inWon (ten ++ [("tax", "-1")]))
      (.error (.python (.valueError "tax 는 음수일 수 없음: -1"))) := by
  refine ⟨misreads ?_ ?_ ?_, misreads ?_ ?_ ?_, misreads ?_ ?_ ?_, misreads ?_ ?_ ?_,
    misreads ?_ ?_ ?_, misreads ?_ ?_ ?_⟩ <;> decide +kernel

end Proof
end TossSleeve
