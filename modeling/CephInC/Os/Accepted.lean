/-
What the builders accept, against what the executors assert.

The builders of `coll_create` and `coll_remove` assert `cid >= 0`, the
other five take any id, and every executor asserts it. So it matters
whether an op for an id below zero comes to be executed, and that is
said here by what the ops before it do to the view of the store.
-/
import CephInC.Os.Builders
import CephInC.Os.Namespace

namespace CephInC

open Lib

namespace TranCall

/-- The slot, where it held zeros. -/
def op (call : TranCall) : OsTranOp := call.fill (junkZero 0 0)

def cid : TranCall → OsCollId
  | collCreate cid _ => cid
  | collRemove cid _ => cid
  | collMap cid _ _ => cid
  | objTouch cid _ _ => cid
  | objWrite cid _ _ _ _ _ => cid
  | objMap cid _ _ _ => cid
  | objRemove cid _ _ => cid

/-- The map, if there is one, has the bytes it claims. -/
def MapBuilt : TranCall → Prop
  | collMap _ map _ => ∀ nodes ∈ map, NodesBuilt nodes
  | objMap _ _ map _ => ∀ nodes ∈ map, NodesBuilt nodes
  | _ => True

end TranCall

/-- An op for an id below zero comes to be executed: each op before it
succeeds. -/
def RunsNegative : List TranCall → StoreView → Prop
  | [], _ => False
  | call :: calls, v =>
      call.cid < 0 ∨ ∃ v', viewOp call.op v = .ok (CCEPH_OK, v') ∧ RunsNegative calls v'

end CephInC
