import Mathlib.Data.String.Basic

/-!
# `TossSleeve/Http.lean` — what the HTTP client hands back

The package talks to Toss through `httpx` and reads the bodies with `json`. Neither is part of the
repository, and little of either matters to it: a POST has one of three outcomes, a response has
a status, a header and perhaps a JSON body, and the values in that body are turned into text with
`str` and `strip`.

A JSON number stands for the text Python prints for it; nothing here computes with one.
-/

set_option autoImplicit false

namespace TossSleeve

/-! ## 1. JSON, as Python reads it -/

inductive Json where
  | null
  | bool (b : Bool)
  | num (text : String)
  | str (s : String)
  | arr (items : List Json)
  | obj (fields : List (String × Json))

/-- `str.isspace`, the characters `str.strip` drops. -/
def pyIsSpace (c : Char) : Bool :=
  c.val ∈ [0x20, 0x85, 0xa0, 0x1680, 0x2028, 0x2029, 0x202f, 0x205f, 0x3000] ||
  (0x09 ≤ c.val && c.val ≤ 0x0d) || (0x1c ≤ c.val && c.val ≤ 0x1f) ||
  (0x2000 ≤ c.val && c.val ≤ 0x200a)

/-- `s.strip()`. -/
def strip (s : String) : String :=
  let front := s.toList.dropWhile pyIsSpace
  String.ofList (front.reverse.dropWhile pyIsSpace).reverse

/-- `repr(s)` of a string: double quotes only around a text that has a single one and no double
    one. -/
def reprStr (s : String) : String :=
  let q := if '\'' ∈ s.toList ∧ '"' ∉ s.toList then '"' else '\''
  let esc : Char → List Char := fun c =>
    if c = '\\' ∨ c = q then ['\\', c]
    else if c = '\n' then ['\\', 'n']
    else if c = '\r' then ['\\', 'r']
    else if c = '\t' then ['\\', 't']
    else [c]
  String.ofList (q :: s.toList.flatMap esc ++ [q])

namespace Json

mutual

/-- `repr(x)`. -/
def repr : Json → String
  | .null => "None"
  | .bool true => "True"
  | .bool false => "False"
  | .num text => text
  | .str s => reprStr s
  | .arr items => "[" ++ ", ".intercalate (reprItems items) ++ "]"
  | .obj fields => "\x7b" ++ ", ".intercalate (reprFields fields) ++ "\x7d"

def reprItems : List Json → List String
  | [] => []
  | x :: xs => x.repr :: reprItems xs

def reprFields : List (String × Json) → List String
  | [] => []
  | (k, x) :: xs => (reprStr k ++ ": " ++ x.repr) :: reprFields xs

end

/-- `str(x)`: a string is its own text. -/
def pyStr : Json → String
  | .str s => s
  | x => x.repr

/-- `x.get(key)` of a dict; nothing else has keys. -/
def get? (key : String) : Json → Option Json
  | .obj fields => (fields.find? (fun e => e.1 = key)).map Prod.snd
  | _ => none

/-- `x is None`. -/
def isNull : Json → Bool
  | .null => true
  | _ => false

end Json

/-! ## 2. Responses -/

/-- A final HTTP response. `body` is what `resp.json()` returns, `none` where it raises. -/
structure Response where
  status : ℕ
  body : Option Json
  /-- The `x-request-id` header. -/
  requestId : Option String := none
  final : 200 ≤ status ∧ status < 600 := by decide

/-- A response of the given status, brought into the range of final ones. The concrete runs of the
later files are told with these. -/
def Response.of (status : ℕ) (body : Option Json) : Response where
  status := min (max status 200) 599
  body
  final := by omega

/-- `httpx.codes.OK <= status < httpx.codes.MULTIPLE_CHOICES`. -/
def Response.Success (r : Response) : Prop := 200 ≤ r.status ∧ r.status < 300

instance (r : Response) : Decidable r.Success := inferInstanceAs (Decidable (_ ∧ _))

/-- `json_or_none`: no JSON, and JSON's own `null`, are both `None`. -/
def jsonOrNone (r : Response) : Json := r.body.getD .null

/-- How one transmission ended. -/
inductive PostOutcome where
  /-- `ConnectError`, `ConnectTimeout`, `PoolTimeout`: nothing was sent. -/
  | connectFailed
  /-- Any other `httpx.HTTPError`: something may have arrived. -/
  | sendFailed
  | answered (r : Response)

end TossSleeve
