/-
`osd/osd_create.c`: the collection an object server keeps about itself,
and its two attributes.

Three transactions make it, and any `malloc` of the three may fail.
`AllOrNothing` is what the caller hopes for: all of it, or a store on
which the creation can be tried again.
-/
import CephInC.Common.Proofs.Map
import CephInC.Os.ObjectStore
import CephInC.Osd.Osd

namespace CephInC

open Lib

def CCEPH_OSD_META_COLL_ID : OsCollId := 0

/-- `"osd_id"`. -/
def CCEPH_OSD_META_ATTR_OSD_ID : CString := ⟨[111, 115, 100, 95, 105, 100], by decide⟩

/-- `"osdmap_max_epoch"`. -/
def CCEPH_OSD_META_ATTR_OSDMAP_MAX_EPOCH : CString :=
  ⟨[111, 115, 100, 109, 97, 112, 95, 109, 97, 120, 95, 101, 112, 111, 99, 104], by decide⟩

/-- `cceph_osd_create`: the return code and the store `osd->os`. `junk n`
is what the blocks of transaction `n` hold at first. -/
def osdCreate {σ : Type} (junk : Nat → Junk) (osFuncs : OsFuncs σ) (os : σ)
    (osd : Option Osd) (logId : Int64) : Prog Allocs (Int × σ) := do
  assert (osd.isSome)
  let osd ← deref osd
  let (ret, os) ← osCreateColl (junk 0) osFuncs os CCEPH_OSD_META_COLL_ID logId
  if ret ≠ CCEPH_OK then
    return (ret, os)
  let (ret, os) ← osSetCollMapKey (junk 1) osFuncs os CCEPH_OSD_META_COLL_ID
    CCEPH_OSD_META_ATTR_OSD_ID (some (int32Codec.bytes osd.osdId))
    (Int32.ofNat int32Codec.size) logId
  if ret ≠ CCEPH_OK then
    return (ret, os)
  let maxEpoch : Int32 := 0
  let (ret, os) ← osSetCollMapKey (junk 2) osFuncs os CCEPH_OSD_META_COLL_ID
    CCEPH_OSD_META_ATTR_OSDMAP_MAX_EPOCH (some (int32Codec.bytes maxEpoch))
    (Int32.ofNat int32Codec.size) logId
  if ret ≠ CCEPH_OK then
    return (ret, os)
  return (CCEPH_OK, os)

-- ============================================================ the purpose

/-- The collection is not in the store. -/
def NoColl (store : MemStore) (cid : OsCollId) : Prop :=
  mapGet MemStoreCollNode.cid store.colls cid = none

/-- A read of the attribute gives these bytes, if it gets its block. -/
def ReadsBack (store : MemStore) (cid : OsCollId) (key : CString) (bytes : List UInt8) : Prop :=
  ∀ s : Allocs, s.Grants 1 → ∃ store' s', memStoreReadCollMapKey store cid key s
    = .ok ((CCEPH_OK, some (Int32.ofNat bytes.length), some bytes, store'), s')

/-- What a creation should come to, for these outcomes of its `malloc`
calls: it returns, with both attributes where it says `CCEPH_OK`, and
otherwise no meta collection, so that a second try succeeds while memory
lasts. -/
structure AllOrNothing (junk : Nat → Junk) (store : MemStore) (osd : Osd) (logId : Int64)
    (s : Allocs) : Prop where
  returns : ∃ r, osdCreate junk memStoreGetFuncs store (some osd) logId s = .ok r
  all : ∀ store' s',
    osdCreate junk memStoreGetFuncs store (some osd) logId s = .ok ((CCEPH_OK, store'), s') →
    ReadsBack store' CCEPH_OSD_META_COLL_ID CCEPH_OSD_META_ATTR_OSD_ID
        (int32Codec.bytes osd.osdId)
      ∧ ReadsBack store' CCEPH_OSD_META_COLL_ID CCEPH_OSD_META_ATTR_OSDMAP_MAX_EPOCH
        (int32Codec.bytes 0)
  nothing : ∀ ret store' s',
    osdCreate junk memStoreGetFuncs store (some osd) logId s = .ok ((ret, store'), s') →
    ret ≠ CCEPH_OK →
    NoColl store' CCEPH_OSD_META_COLL_ID
      ∧ ∃ store'' s'', osdCreate junk memStoreGetFuncs store' (some osd) logId .plenty
        = .ok ((CCEPH_OK, store''), s'')

end CephInC
