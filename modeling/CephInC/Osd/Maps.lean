/-
The five maps of the repository: `CCEPH_IMPL_MAP` for collections and
objects (`os/mem_store.c`), for osdmaps (`common/osdmap.c`) and for PGs
(`osd/pg.c`), and the attribute map `os/types.c` writes out.

Epochs and PG ids are `int32_t`, which `intcmp` compares as `int`s.
-/
import CephInC.Client.Client
import CephInC.Common.Proofs.MapRuns
import CephInC.Os.Proofs.DoOp

namespace CephInC

open Lib

-- ============================================== osdmaps and PGs by number

/-- `intcmp` of `common/util.c`. -/
def intcmp (a b : Int32) : Int :=
  if a > b then 1
  else if a < b then -1
  else 0

/-- `cceph_osdmap` as a node of a map. -/
structure OsdmapNode where
  epoch : Int32
  pgCount : Int32
  osdCount : Int32
  osds : List OsdEntity
  deriving DecidableEq

/-- `cceph_pg`. -/
structure Pg where
  pgId : Int32
  state : Int8
  lock : Mutex
  deriving DecidableEq

def osdmapMapInsert (root : BinTree OsdmapNode) (node : OsdmapNode) :
    Except Fault (Int × BinTree OsdmapNode) :=
  implMapInsert intcmp OsdmapNode.epoch root node

def osdmapMapRemove (node : Loc OsdmapNode) : Except Fault (Int × BinTree OsdmapNode) :=
  implMapRemove node

def osdmapMapSearch (root : BinTree OsdmapNode) (epoch : Int32) :
    Int × Option (Loc OsdmapNode) :=
  implMapSearch intcmp OsdmapNode.epoch root epoch

def pgMapInsert (root : BinTree Pg) (node : Pg) : Except Fault (Int × BinTree Pg) :=
  implMapInsert intcmp Pg.pgId root node

def pgMapRemove (node : Loc Pg) : Except Fault (Int × BinTree Pg) :=
  implMapRemove node

def pgMapSearch (root : BinTree Pg) (pgId : Int32) : Int × Option (Loc Pg) :=
  implMapSearch intcmp Pg.pgId root pgId

-- ============================================================= instances

def collNodeMap : MapImpl MemStoreCollNode OsCollId :=
  ⟨osCollIdCmp, MemStoreCollNode.cid, memStoreCollNodeMapInsert,
    memStoreCollNodeMapRemove, memStoreCollNodeMapSearch⟩

def objectNodeMap : MapImpl MemStoreObjectNode CString :=
  ⟨strcmp, MemStoreObjectNode.oid, memStoreObjectNodeMapInsert,
    memStoreObjectNodeMapRemove, memStoreObjectNodeMapSearch⟩

def osdmapMap : MapImpl OsdmapNode Int32 :=
  ⟨intcmp, OsdmapNode.epoch, osdmapMapInsert, osdmapMapRemove, osdmapMapSearch⟩

def pgMap : MapImpl Pg Int32 :=
  ⟨intcmp, Pg.pgId, pgMapInsert, pgMapRemove, pgMapSearch⟩

def osMap : MapImpl OsMapNode CString :=
  ⟨strcmp, OsMapNode.key, osMapNodeInsert, osMapNodeRemove, osMapNodeSearch⟩

/-- `intcmp` orders the `int32_t` keys as collection ids are ordered. -/
theorem linearCmp_intcmp : LinearCmp intcmp := linearCmp_osCollIdCmp

/-- Each of the five answers as a finite ordered map, whatever is
inserted, removed and searched from an empty root on. -/
theorem maps_law :
    (∀ s, (mapSystem collNodeMap).Reachable s → MapLaw collNodeMap s)
      ∧ (∀ s, (mapSystem objectNodeMap).Reachable s → MapLaw objectNodeMap s)
      ∧ (∀ s, (mapSystem osdmapMap).Reachable s → MapLaw osdmapMap s)
      ∧ (∀ s, (mapSystem pgMap).Reachable s → MapLaw pgMap s)
      ∧ (∀ s, (mapSystem osMap).Reachable s → MapLaw osMap s) := by
  refine ⟨?_, ?_, ?_, ?_, ?_⟩
  · intro s h
    exact implMap_law linearCmp_osCollIdCmp h
  · intro s h
    exact implMap_law linearCmp_strcmp h
  · intro s h
    exact implMap_law linearCmp_intcmp h
  · intro s h
    exact implMap_law linearCmp_intcmp h
  · intro s h
    exact implMap_law linearCmp_strcmp h

/-- A PG of this number, and the calls that put 5, 9 and 2 in and take 5,
the root, out. -/
def newPg (pgId : Int32) : Pg := ⟨pgId, 0, pthreadMutexInit⟩

def fiveRemoved : List (MapCall Pg Int32) :=
  [.insert (newPg 5), .insert (newPg 9), .insert (newPg 2),
    .remove ⟨.black, .node .red .nil (newPg 2) .nil, newPg 5,
      .node .red .nil (newPg 9) .nil, []⟩]

theorem maps_law_pgs : ∃ s, (mapSystem pgMap).exec ⟨.nil, fun _ => none⟩ fiveRemoved = some s
    ∧ s.tree.toList.map Pg.pgId = [2, 9] ∧ MapLaw pgMap s := by
  have hstart : (mapSystem pgMap).Reachable ⟨.nil, fun _ => none⟩ := .start rfl
  have hrun : ∃ s, (mapSystem pgMap).exec ⟨.nil, fun _ => none⟩ fiveRemoved = some s
      ∧ s.tree.toList.map Pg.pgId = [2, 9] := ⟨_, rfl, rfl⟩
  obtain ⟨s, hexec, hwalk⟩ := hrun
  exact ⟨s, hexec, hwalk,
    maps_law.2.2.2.1 s (hstart.exec fiveRemoved (fun _ _ _ => trivial) hexec)⟩

end CephInC
