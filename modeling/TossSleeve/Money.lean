import TossSleeve.Http
import TossSleeve.Types

/-!
# `TossSleeve/Money.lean` — amounts that came as text (`types.py`)

Toss sends its amounts as JSON strings or numbers, and `money` makes a `Decimal` of whatever
`str` prints for one. Most texts are no numeral and raise; some are numerals of values that are no
amounts: `Infinity`, and `NaN`, which cannot even be compared. All of that comes before the
development's own `Decimal`, so it is kept apart: `PyDecimal` is what the constructor returns, and
the checks of `Fill.__post_init__` are where a finite one is let through.

The numerals are those of the `decimal` module: white space around the text and every underscore
are dropped, the digits may be of any script, and the exponent has the module's limits.
-/

set_option autoImplicit false

namespace TossSleeve

/-! ## 1. Numerals -/

/-- What `Decimal(text)` returns. The sign and the payload of a NaN decide nothing here. -/
inductive PyDecimal where
  | finite (q : Decimal)
  | infinity (negative : Bool)
  | nan
  deriving DecidableEq

/-- The zeros of the scripts that have decimal digits; the other nine follow each of them. -/
def zeroDigits : List ℕ :=
  [0x30, 0x660, 0x6f0, 0x7c0, 0x966, 0x9e6, 0xa66, 0xae6, 0xb66, 0xbe6, 0xc66, 0xce6, 0xd66, 0xde6,
    0xe50, 0xed0, 0xf20, 0x1040, 0x1090, 0x17e0, 0x1810, 0x1946, 0x19d0, 0x1a80, 0x1a90, 0x1b50,
    0x1bb0, 0x1c40, 0x1c50, 0xa620, 0xa8d0, 0xa900, 0xa9d0, 0xa9f0, 0xaa50, 0xabf0, 0xff10,
    0x104a0, 0x10d30, 0x11066, 0x110f0, 0x11136, 0x111d0, 0x112f0, 0x11450, 0x114d0, 0x11650,
    0x116c0, 0x11730, 0x118e0, 0x11950, 0x11c50, 0x11d50, 0x11da0, 0x16a60, 0x16ac0, 0x16b50,
    0x1d7ce, 0x1d7d8, 0x1d7e2, 0x1d7ec, 0x1d7f6, 0x1e140, 0x1e2f0, 0x1e950, 0x1fbf0]

/-- The value of a decimal digit. -/
def digit? (c : Char) : Option ℕ :=
  (zeroDigits.find? fun z => z ≤ c.toNat ∧ c.toNat < z + 10).map fun z => c.toNat - z

/-- The text as the scanner reads it: no white space around it, no underscores, one script. -/
def numeralChars (text : String) : List Char :=
  ((strip text).toList.filter (· ≠ '_')).map fun c =>
    ((digit? c).map Nat.digitChar).getD c

/-- An optional sign: is it a minus? -/
def scanSign : List Char → Bool × List Char
  | '-' :: cs => (true, cs)
  | '+' :: cs => (false, cs)
  | cs => (false, cs)

/-- The digits in front. -/
def scanDigits (cs : List Char) : List Char × List Char := cs.span Char.isDigit

def natOfDigits (ds : List Char) : ℕ := ds.foldl (fun n d => 10 * n + (d.toNat - '0'.toNat)) 0

/-- An optional exponent, up to the end of the text. -/
def scanExponent : List Char → Option ℤ
  | [] => some 0
  | c :: cs =>
    let (negative, cs) := scanSign cs
    let (ds, rest) := scanDigits cs
    if c.toLower = 'e' ∧ ds ≠ [] ∧ rest = [] then
      some (if negative then -natOfDigits ds else natOfDigits ds)
    else none

/-- An unsigned numeral: the digits of its coefficient, and its exponent. -/
def scanNumeral (cs : List Char) : Option (List Char × ℤ) :=
  let (whole, rest) := scanDigits cs
  let (fraction, rest) := match rest with
    | '.' :: cs => scanDigits cs
    | cs => ([], cs)
  if whole ++ fraction = [] then none
  else (scanExponent rest).map fun e => (whole ++ fraction, e - fraction.length)

/-- `MAX_EMAX`, the largest exponent a first digit may have. -/
def maxEmax : ℤ := 999999999999999999

/-- `MIN_ETINY`, the smallest exponent a last digit may have. -/
def minEtiny : ℤ := -1999999999999999997

/-- The value of a numeral, if it is in the module's range. -/
def numeralValue (ds : List Char) (e : ℤ) : Option Decimal :=
  let significant := (ds.dropWhile (· = '0')).length
  if minEtiny ≤ e ∧ e + max significant 1 - 1 ≤ maxEmax then
    some (natOfDigits ds * (10 : ℚ) ^ e)
  else none

/-- `Decimal(text)`; `none` where it raises `InvalidOperation`. -/
def pyDecimal (text : String) : Option PyDecimal :=
  let (negative, cs) := scanSign (numeralChars text)
  let word := cs.map Char.toLower
  if word = "inf".toList ∨ word = "infinity".toList then some (.infinity negative)
  else
    match word with
    | 'n' :: 'a' :: 'n' :: ds => if ds.all Char.isDigit then some .nan else none
    | 's' :: 'n' :: 'a' :: 'n' :: ds => if ds.all Char.isDigit then some .nan else none
    | _ => do
      let (ds, e) ← scanNumeral cs
      let q ← numeralValue ds e
      some (.finite (if negative then -q else q))

/-! ## 2. `money`, and a `Fill` -/

/-- An exception of Python's own that the package does not catch. -/
inductive PyError where
  | valueError (message : String)
  | invalidOperation
  | overflowError
  deriving DecidableEq

/-- No value, as `money` sees it: `None` or `""`. -/
def Json.isBlank : Json → Bool
  | .null => true
  | .str s => s = ""
  | _ => false

/-- `money`. -/
def money (value : Json) : Except PyError PyDecimal :=
  if value.isBlank then .ok (.finite 0)
  else
    match pyDecimal value.pyStr with
    | some d => .ok d
    | none => .error .invalidOperation

namespace PyDecimal

/-- `x <= 0`, which raises for a NaN. -/
def nonPositive : PyDecimal → Except PyError Bool
  | .finite q => .ok (q ≤ 0)
  | .infinity negative => .ok negative
  | .nan => .error .invalidOperation

/-- `x.is_finite()`, and what is asked of the number. -/
def Is (p : Decimal → Prop) : PyDecimal → Prop
  | .finite q => p q
  | _ => False

instance (p : Decimal → Prop) [DecidablePred p] : DecidablePred (Is p)
  | .finite q => inferInstanceAs (Decidable (p q))
  | .infinity _ => inferInstanceAs (Decidable False)
  | .nan => inferInstanceAs (Decidable False)

theorem is_iff {p : Decimal → Prop} {x : PyDecimal} : x.Is p ↔ ∃ q, p q ∧ x = .finite q := by
  cases x with
  | finite q => simp [Is]
  | infinity => simp [Is]
  | nan => simp [Is]

/-- `str(x)`. -/
def text : PyDecimal → String
  | .finite q => toString q
  | .infinity negative => if negative then "-Infinity" else "Infinity"
  | .nan => "NaN"

/-- A check of `__post_init__`: `x.is_finite()`, and what it asks of the number. -/
def checked (p : Decimal → Prop) [DecidablePred p] (message : String) :
    PyDecimal → Except PyError {q : Decimal // p q}
  | .finite q => if h : p q then .ok ⟨q, h⟩ else .error (.valueError (message ++ toString q))
  | x => .error (.valueError (message ++ x.text))

theorem checked_ok {p : Decimal → Prop} [DecidablePred p] {message : String} {x : PyDecimal}
    {q : {q : Decimal // p q}} : x.checked p message = .ok q ↔ x = .finite q := by
  cases x with
  | finite r =>
    show (if h : p r then _ else _) = _ ↔ _
    split
    · simp [Subtype.ext_iff]
    · next h =>
      constructor
      · intro habs
        exact absurd habs (by simp)
      · intro heq
        rw [PyDecimal.finite.inj heq] at h
        exact absurd q.2 h
  | infinity => simp [checked]
  | nan => simp [checked]

end PyDecimal

/-- `Fill(...)`, with the checks of `__post_init__` in their order. -/
def newFill (orderId clientOrderId symbol : String) (side : OrderSide) (currency : Currency)
    (filledQuantity avgPrice commission tax : PyDecimal) (filledAt settlementDate : String) :
    Except PyError Fill := do
  let filledQuantity ← filledQuantity.checked (0 < ·) "filled_quantity 는 양수여야 함: "
  let avgPrice ← avgPrice.checked (0 < ·) "avg_price 는 양수여야 함: "
  let commission ← commission.checked (0 ≤ ·) "commission 은 음수일 수 없음: "
  let tax ← tax.checked (0 ≤ ·) "tax 는 음수일 수 없음: "
  return {
    orderId, clientOrderId, symbol, side, currency
    filledQuantity := filledQuantity
    avgPrice := avgPrice
    commission := commission
    tax := tax
    filledAt, settlementDate
    filledQuantity_pos := filledQuantity.2
    avgPrice_pos := avgPrice.2
    commission_nonneg := commission.2
    tax_nonneg := tax.2 }

end TossSleeve
