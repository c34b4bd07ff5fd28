/-
A write stays inside the block of its object, or runs off it.

The block is as long as the object says in every reachable store, whatever
`malloc` refuses (`ReachableAny.keyed`). So the growth test finds what is
missing, unless the sum it tests is no `int64_t`: that sum is negative,
nothing grows, and the copy goes outside (`WriteDone.outside`).
-/
import CephInC.Os.Proofs.Existence
import CephInC.Os.Refused

namespace CephInC

open Lib

theorem ReachableNode.sized {onode : MemStoreObjectNode} (h : ReachableNode onode) :
    onode.Sized := by
  cases h with
  | stored h hcoll hobject =>
      exact ((h.keyed.colls.nodes _ _ hcoll).objects.nodes _ _ hobject).sized
  | @new oid ret _ s s' h =>
      have hnew := memStoreObjectNodeNew_ensures oid s _ s' h
      rw [hnew.2 onode rfl]
      exact (objectKeyed_new oid).sized

end CephInC
