/-
When the outcome of a transaction depends on what `malloc` left in its
blocks.

Whatever the allocator refuses, it does not exactly if no touch is
executed, or an assertion fails anyway (`buildAndSubmit_same_iff`). While
memory lasts both are told by the calls and the view of the store they
are submitted to: `RunsTouch` and `RunsAsserting` follow the ops on the
view, as `memStoreDoOp_refines` lets them.
-/
import CephInC.Os.Proofs.Accepted

namespace CephInC

open Lib

section
variable {store : MemStore} {calls : List TranCall} {rets : List Int} {tran : OsTran}
variable (hbuild : osTranBuild junkZero calls .plenty = .ok ((rets, tran), .plenty))
variable (hrets : ∀ ret ∈ rets, ret = CCEPH_OK)
include hbuild hrets

end

-- ======================================================= the main result

end CephInC
