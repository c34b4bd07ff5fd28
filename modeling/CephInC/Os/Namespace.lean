/-
Which collections and objects there are: a plain map, and what ops do to
it.

This is the store seen from further off than `StoreView`: no content, no
attributes, no return codes, only liveness and whether an op fails.
`nsRun` applies transactions to it, each up to its first failing op.

`OpBuilt` are the ops the builders hand out for a caller that passes
sound arguments: a collection id that is not negative, data as long as it
says, attribute nodes that have the bytes they claim. `OpSafe` is what
the code needs beyond that for an op to do what the plain map does.
-/
import CephInC.Os.Existence
import CephInC.Os.Spec

namespace CephInC

open Lib

/-- The live collections, and which objects each holds. -/
abbrev Namespace := OsCollId → Option (CString → Bool)

/-- The namespace of a new store. -/
def Namespace.empty : Namespace := fun _ => none

/-- Is the object live? -/
def Namespace.live (n : Namespace) (cid : OsCollId) (oid : CString) : Bool :=
  match n cid with
  | none => false
  | some objects => objects oid

/-- An op on the plain map; none if it fails. -/
def nsOp (op : OsTranOp) (n : Namespace) : Option Namespace :=
  match op.op with
  | .noop => some n
  | .unknown => none
  | .collCreate =>
      match n op.cid with
      | none => some (Function.update n op.cid (some fun _ => false))
      | some _ => none
  | .collRemove =>
      match n op.cid with
      | none => none
      | some _ => some (Function.update n op.cid none)
  | .collMap =>
      match n op.cid with
      | none => none
      | some _ => some n
  | .objTouch | .objWrite =>
      match n op.cid with
      | none => none
      | some objects => some (Function.update n op.cid
          (some (Function.update objects op.name true)))
  | .objRemove =>
      match n op.cid with
      | none => none
      | some objects =>
          if objects op.name then some (Function.update n op.cid
            (some (Function.update objects op.name false)))
          else none
  | .objMap =>
      match n op.cid with
      | none => none
      | some objects => if objects op.name then some n else none

/-- The ops of a transaction up to the first that fails: did one fail,
and the map they leave. -/
def nsTran : List OsTranOp → Namespace → Bool × Namespace
  | [], n => (false, n)
  | op :: rest, n =>
      match nsOp op n with
      | none => (true, n)
      | some n => nsTran rest n

/-- The filled slots of a transaction. -/
def OsTran.ops (tran : OsTran) : List OsTranOp :=
  tran.opBuffer.take tran.opBufferIndex.toInt.toNat

/-- Transaction after transaction: which of them failed, and the map
they leave. -/
def nsRun : List OsTran → Namespace → List Bool × Namespace
  | [], n => ([], n)
  | tran :: rest, n =>
      let (failed, n) := nsTran tran.ops n
      let (rest, n) := nsRun rest n
      (failed :: rest, n)

-- ======================================================= sound arguments

/-- Attribute nodes that have the bytes they claim. -/
def NodesBuilt (map : BinTree OsMapNode) : Prop :=
  ∀ node ∈ map.toList, node.valueLength > 0 →
    ∃ bytes, node.value = some bytes ∧ node.valueLength.toInt ≤ bytes.length

/-- What the builders leave in a slot, whatever it held, for arguments
their assertions accept. -/
inductive OpBuilt : OsTranOp → Prop where
  | collCreate (slot cid logId) (hcid : cid ≥ 0) :
      OpBuilt (osTranCollCreate slot cid logId)
  | collRemove (slot cid logId) (hcid : cid ≥ 0) :
      OpBuilt (osTranCollRemove slot cid logId)
  | collMap (slot cid logId map) (hcid : cid ≥ 0) (hmap : NodesBuilt map) :
      OpBuilt (osTranCollMap slot cid logId map)
  | objTouch (slot cid logId oid) (hcid : cid ≥ 0) :
      OpBuilt (osTranObjTouch slot cid logId oid)
  | objWrite (slot cid logId oid offset length data) (hcid : cid ≥ 0)
      (hoff : offset ≥ 0) (hlen : length ≥ 0)
      (hdata : length > 0 → ∃ bytes, data = some bytes
        ∧ length.toInt ≤ bytes.length) :
      OpBuilt (osTranObjWrite slot cid logId oid offset length data)
  | objMap (slot cid logId oid map) (hcid : cid ≥ 0)
      (hmap : NodesBuilt map) :
      OpBuilt (osTranObjMap slot cid logId oid map)
  | objRemove (slot cid logId oid) (hcid : cid ≥ 0) :
      OpBuilt (osTranObjRemove slot cid logId oid)

/-- A transaction made by builders: its filled slots lie in its block,
and each was filled by a builder. -/
structure TranBuilt (tran : OsTran) : Prop where
  inside : tran.opBufferIndex.toInt ≤ tran.opBuffer.length
  built : ∀ op ∈ tran.ops, OpBuilt op

-- ============================================================ safe steps

/-- An update by these nodes copies no key past its block. A key that is
refused ends the update before the rest. -/
def KeysSafe : List OsMapNode → Prop
  | [] => True
  | node :: rest =>
      if node.valueLength ≤ 0 then KeysSafe rest
      else
        match copyOutcome node.key with
        | .overrun => False
        | .refused => True
        | .copied => KeysSafe rest

/-- What an op needs so that the code does what the plain map does: a
touch finds no negative offset left in its slot, the end of a write is
an `int64_t`, a new name can be copied, and so can the keys. -/
def OpSafe (n : Namespace) (op : OsTranOp) : Prop :=
  match op.op with
  | .objTouch => op.offset ≥ 0
      ∧ ((n op.cid).isSome → n.live op.cid op.name = false →
          copyOutcome op.name = .copied)
  | .objWrite =>
      (n op.cid).isSome →
        (n.live op.cid op.name = false → copyOutcome op.name = .copied)
        ∧ (op.length > 0 → op.offset.toInt + op.length.toInt < 2 ^ 63)
  | .collMap => (n op.cid).isSome → KeysSafe op.nodes
  | .objMap => n.live op.cid op.name = true → KeysSafe op.nodes
  | _ => True

/-- Every op that is run is safe where it is run, and its line fits. -/
def TranSafe (logId : Int64) : List OsTranOp → Namespace → Prop
  | [], _ => True
  | op :: rest, n =>
      OpSafe n op ∧ (∀ l ∈ op.line logId, l.Fits)
        ∧ ∀ n', nsOp op n = some n' → TranSafe logId rest n'

/-- Every step of a run is safe. A submission has a log id. -/
def RunSafe : List (Int64 × OsTran) → Namespace → Prop
  | [], _ => True
  | (logId, tran) :: rest, n =>
      TranSafe logId tran.ops n ∧ RunSafe rest (nsTran tran.ops n).2

end CephInC
