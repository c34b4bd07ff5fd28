/-
What an object store holds, and what an op does to it, told without
trees, blocks and pointers.

A store is a map from collection ids to collections, a collection a map
from object ids to objects and a map of attributes, an object its
content and a map of attributes. An op is a `Step` on the part of the
store it names: `viewOp` says which part, which code it returns and what
it leaves there, for every op a slot can hold. Allocations succeed; what
is left of the machine is that a name too long for the `int` its length
is kept in is not copied (`copyOutcome`), and that a write whose end has
no `int64_t` runs off its block.

`collsView` reads a store off its trees.
-/
import CephInC.Common.Proofs.Map
import CephInC.Lib.Steps
import CephInC.Os.MemStore

namespace CephInC

open Lib

-- ================================================================ views

/-- The value of each attribute that is set. -/
abbrev AttrsView := CString → Option (List UInt8)

structure ObjectView where
  content : List UInt8
  attrs : AttrsView

structure CollView where
  objects : CString → Option ObjectView
  attrs : AttrsView

abbrev StoreView := OsCollId → Option CollView

/-- Nothing in it. -/
def ObjectView.empty : ObjectView := ⟨[], fun _ => none⟩

/-- Nothing in it. -/
def CollView.empty : CollView := ⟨fun _ => none, fun _ => none⟩

/-- The attributes of an object, as a part of it. -/
def ObjectView.attrsLens : Lens ObjectView AttrsView where
  get v := v.attrs
  set a v := { v with attrs := a }
  get_set _ _ := rfl
  set_get _ := rfl
  set_set _ _ _ := rfl

/-- The attributes of a collection, as a part of it. -/
def CollView.attrsLens : Lens CollView AttrsView where
  get v := v.attrs
  set a v := { v with attrs := a }
  get_set _ _ := rfl
  set_get _ := rfl
  set_set _ _ _ := rfl

/-- An object of a collection, as a part of it. -/
def CollView.objectLens (oid : CString) : Lens CollView (Option ObjectView) where
  get v := v.objects oid
  set o v := { v with objects := Function.update v.objects oid o }
  get_set o v := Function.update_self ..
  set_get v := by
    obtain ⟨objects, attrs⟩ := v
    rw [CollView.mk.injEq]
    exact ⟨Function.update_eq_self .., rfl⟩
  set_set o o' v := by
    rw [CollView.mk.injEq]
    exact ⟨Function.update_idem .., rfl⟩

theorem independent_objects {oid oid' : CString} (h : oid ≠ oid') :
    Independent (CollView.objectLens oid) (CollView.objectLens oid') where
  get_left o v := by
    show Function.update v.objects oid' o oid = v.objects oid
    rw [Function.update_of_ne h]
  get_right o v := by
    show Function.update v.objects oid o oid' = v.objects oid'
    rw [Function.update_of_ne h.symm]
  set_comm o o' v := by
    show CollView.mk _ _ = CollView.mk _ _
    rw [CollView.mk.injEq]
    refine ⟨?_, rfl⟩
    show Function.update (Function.update v.objects oid' o') oid o
      = Function.update (Function.update v.objects oid o) oid' o'
    rw [Function.update_comm h]

theorem independent_object_attrs (oid : CString) :
    Independent (CollView.objectLens oid) CollView.attrsLens where
  get_left _ _ := rfl
  get_right _ _ := rfl
  set_comm _ _ _ := rfl

-- ======================================================== ops on a part

/-- What copying a string comes to while memory lasts: its length is
kept in an `int`, and the block is as long as that `int` says. -/
inductive CopyOutcome where
  | copied
  | refused
  | overrun
  deriving DecidableEq

def copyOutcome (s : CString) : CopyOutcome :=
  let n := (Int32.ofInt (strlen s + 1)).toInt
  if n < 0 then .refused
  else if strlen s + 1 ≤ n then .copied
  else .overrun

/-- Attributes after the nodes of an input tree were applied in order. A
key that cannot be copied ends the update early, its old value gone. -/
def attrsUpdate : List OsMapNode → AttrsView → Except Fault AttrsView
  | [], attrs => .ok attrs
  | node :: rest, attrs =>
      if node.valueLength ≤ 0 then
        attrsUpdate rest (Function.update attrs node.key none)
      else
        match node.value with
        | none => .error .assertFail
        | some bytes =>
            match copyOutcome node.key with
            | .overrun => .error .outOfBounds
            | .refused => .ok (Function.update attrs node.key none)
            | .copied =>
                if node.valueLength.toInt ≤ bytes.length then
                  attrsUpdate rest (Function.update attrs node.key
                    (some (bytes.take node.valueLength.toInt.toNat)))
                else .error .outOfBounds

def attrsStep (map : List OsMapNode) : Step Fault AttrsView := fun attrs =>
  match attrsUpdate map attrs with
  | .error e => .error e
  | .ok attrs => .ok (CCEPH_OK, attrs)

/-- Content after `bytes` were put at `offset`; a gap reads as zeros. -/
def overlay (content : List UInt8) (offset : Nat) (bytes : List UInt8) :
    List UInt8 :=
  let grown := content
    ++ List.replicate (offset + bytes.length - content.length) 0
  grown.take offset ++ bytes ++ grown.drop (offset + bytes.length)

/-- The object, created empty if it is not there. -/
def objectOpen (oid : CString) : Step Fault (Option ObjectView)
  | some v => .ok (CCEPH_OK, some v)
  | none =>
      match copyOutcome oid with
      | .copied => .ok (CCEPH_OK, some .empty)
      | .refused => .ok (CCEPH_ERR_NO_ENOUGH_MEM, none)
      | .overrun => .error .outOfBounds

/-- Content after a write of `length` of the given bytes; none for the
write of no bytes, a touch. -/
def contentWrite (content : List UInt8) (offset length : Int64)
    (data : List UInt8) : Except Fault (List UInt8) :=
  if length = 0 then .ok content
  else if offset.toInt + length.toInt < 2 ^ 63
      ∧ length.toInt ≤ data.length then
    .ok (overlay content offset.toInt.toNat (data.take length.toInt.toNat))
  else .error .outOfBounds

def objectWrite (oid : CString) (offset length : Int64) (data : List UInt8) :
    Step Fault (Option ObjectView) := fun o =>
  match objectOpen oid o with
  | .error e => .error e
  | .ok (c, none) => .ok (c, none)
  | .ok (c, some v) =>
      match contentWrite v.content offset length data with
      | .error e => .error e
      | .ok content => .ok (c, some { v with content })

def objectRemove : Step Fault (Option ObjectView)
  | none => .ok (CCEPH_ERR_OBJECT_NOT_EXIST, none)
  | some _ => .ok (CCEPH_OK, none)

def objectMap (map : List OsMapNode) : Step Fault (Option ObjectView) :=
  .onSome CCEPH_ERR_MAP_NODE_NOT_EXIST
    (.over ObjectView.attrsLens (attrsStep map))

def collCreate : Step Fault (Option CollView)
  | none => .ok (CCEPH_OK, some .empty)
  | some v => .ok (CCEPH_ERR_COLL_ALREADY_EXIST, some v)

def collRemove : Step Fault (Option CollView)
  | none => .ok (CCEPH_ERR_COLL_NOT_EXIST, none)
  | some _ => .ok (CCEPH_OK, none)

def collMap (map : List OsMapNode) : Step Fault (Option CollView) :=
  .onSome CCEPH_ERR_MAP_NODE_NOT_EXIST
    (.over CollView.attrsLens (attrsStep map))

/-- A step on an object of a collection; `c` if there is no collection. -/
def inColl (c : Int) (oid : CString) (f : Step Fault (Option ObjectView)) :
    Step Fault (Option CollView) :=
  .onSome c (.over (CollView.objectLens oid) f)

-- ================================================== ops on the store

/-- The oid an op names. -/
def OsTranOp.name (op : OsTranOp) : CString :=
  op.oid.getD ⟨[], List.not_mem_nil⟩

/-- The attribute nodes an op brings. -/
def OsTranOp.nodes (op : OsTranOp) : List OsMapNode :=
  (op.map.getD .nil).toList

/-- The step of `cceph_mem_store_do_op_obj_write`. -/
def viewWrite (op : OsTranOp) : Step Fault StoreView :=
  .guard (op.cid ≥ 0) .assertFail <|
  .guard op.oid.isSome .assertFail <|
  .guard (op.offset ≥ 0) .assertFail <|
  .guard (op.length ≥ 0) .assertFail <|
  .guard (op.length > 0 → op.data.isSome) .assertFail <|
  .over (.at op.cid) (inColl CCEPH_ERR_COLL_NOT_EXIST op.name
    (objectWrite op.name op.offset op.length (op.data.getD [])))

/-- What an op does. The guards are the assertions it starts with. -/
def viewOp (op : OsTranOp) : Step Fault StoreView :=
  match op.op with
  | .noop => .code CCEPH_OK
  | .unknown => .code CCEPH_ERR_UNKNOWN_OS_OP
  | .collCreate =>
      .guard (op.cid ≥ 0) .assertFail <|
      .over (.at op.cid) collCreate
  | .collRemove =>
      .guard (op.cid ≥ 0) .assertFail <|
      .over (.at op.cid) collRemove
  | .collMap =>
      .guard (op.cid ≥ 0) .assertFail <|
      .guard op.map.isSome .assertFail <|
      .over (.at op.cid) (collMap op.nodes)
  | .objTouch => viewWrite { op with length := 0 }
  | .objWrite => viewWrite op
  | .objRemove =>
      .guard (op.cid ≥ 0) .assertFail <|
      .guard op.oid.isSome .assertFail <|
      .over (.at op.cid) (inColl CCEPH_ERR_COLL_NOT_EXIST op.name
        objectRemove)
  | .objMap =>
      .guard (op.cid ≥ 0) .assertFail <|
      .guard op.oid.isSome .assertFail <|
      .guard op.map.isSome .assertFail <|
      .over (.at op.cid) (inColl CCEPH_ERR_MAP_NODE_NOT_EXIST op.name
        (objectMap op.nodes))

-- =================================================== the view of a store

/-- The value a tree of attribute nodes gives each key. -/
def attrsView (map : BinTree OsMapNode) : AttrsView := fun key =>
  (mapGet OsMapNode.key map key).bind OsMapNode.value

/-- The bytes of an object's block. -/
def MemStoreObjectNode.content (onode : MemStoreObjectNode) : List UInt8 :=
  onode.data.getD []

def objectView (onode : MemStoreObjectNode) : ObjectView :=
  ⟨onode.content, attrsView onode.map⟩

def objectsView (objects : BinTree MemStoreObjectNode) :
    CString → Option ObjectView := fun oid =>
  (mapGet MemStoreObjectNode.oid objects oid).map objectView

def collView (cnode : MemStoreCollNode) : CollView :=
  ⟨objectsView cnode.objects, attrsView cnode.map⟩

def collsView (colls : BinTree MemStoreCollNode) : StoreView := fun cid =>
  (mapGet MemStoreCollNode.cid colls cid).map collView

end CephInC
