/-
What an op leaves where its arguments or the allocator do not let it
finish.

`WriteInside` is what the write of a range should do to an object, under
any outcome of its one allocation; `FailsIntact` is what an op that
returns a failure should leave.
-/
import CephInC.Os.Builders
import CephInC.Os.Existence
import CephInC.Os.Spec

namespace CephInC

open Lib

/-- The objects writes find: those of a reachable store, and new ones. -/
inductive ReachableNode : MemStoreObjectNode → Prop where
  | stored {store : MemStore} {cid : OsCollId} {cnode : MemStoreCollNode} {oid : CString}
      {onode : MemStoreObjectNode} (h : ReachableAny store)
      (hcoll : mapGet MemStoreCollNode.cid store.colls cid = some cnode)
      (hobject : mapGet MemStoreObjectNode.oid cnode.objects oid = some onode) :
      ReachableNode onode
  | new {oid : CString} {ret : Int} {onode : MemStoreObjectNode} {s s' : Allocs}
      (h : memStoreObjectNodeNew oid s = .ok ((ret, some onode), s')) : ReachableNode onode

/-- An op that returns a failure has changed nothing. -/
def FailsIntact (colls : BinTree MemStoreCollNode) (op : OsTranOp) (s : Allocs) : Prop :=
  ∀ ret colls' s', memStoreDoOp colls (some op) s = .ok ((ret, colls'), s') →
    ret ≠ CCEPH_OK → colls' = colls

/-- The write creates its object, and then finds no memory for the
bytes. -/
structure WriteTorn (colls : BinTree MemStoreCollNode) (op : OsTranOp) (s : Allocs) : Prop where
  bytes : 0 < op.length.toInt
  fits : op.offset.toInt + op.length.toInt < 2 ^ 63
  absent : ∃ cnode, mapGet MemStoreCollNode.cid colls op.cid = some cnode
    ∧ mapGet MemStoreObjectNode.oid cnode.objects op.name = none
  name : copyOutcome op.name = .copied
  node : s.head = true
  copy : s.tail.head = true
  data : s.tail.tail.head = false

/-- The op is such a write. -/
structure CreatesOnly (colls : BinTree MemStoreCollNode) (op : OsTranOp) (s : Allocs) :
    Prop where
  kind : op.op = .objWrite
  cid : op.cid ≥ 0
  torn : WriteTorn colls op s

end CephInC
