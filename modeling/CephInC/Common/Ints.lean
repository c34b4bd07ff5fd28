/-
Integers as they lie in memory, least significant byte first.
-/
import CephInC.Lib.Codec

namespace CephInC

open Lib

def int8Codec : Codec Int8 :=
  .ofNat 1 (fun x => x.toUInt8.toNat) (fun n => (UInt8.ofNat n).toInt8)
    (fun x => x.toUInt8.toNat_lt) (fun x => by simp) (fun n h => by simp; omega)

def int16Codec : Codec Int16 :=
  .ofNat 2 (fun x => x.toUInt16.toNat) (fun n => (UInt16.ofNat n).toInt16)
    (fun x => x.toUInt16.toNat_lt) (fun x => by simp) (fun n h => by simp; omega)

def int32Codec : Codec Int32 :=
  .ofNat 4 (fun x => x.toUInt32.toNat) (fun n => (UInt32.ofNat n).toInt32)
    (fun x => x.toUInt32.toNat_lt) (fun x => by simp) (fun n h => by simp; omega)

def int64Codec : Codec Int64 :=
  .ofNat 8 (fun x => x.toUInt64.toNat) (fun n => (UInt64.ofNat n).toInt64)
    (fun x => x.toUInt64.toNat_lt) (fun x => by simp) (fun n h => by simp; omega)

@[simp] theorem int8Codec_size : int8Codec.size = 1 := rfl
@[simp] theorem int16Codec_size : int16Codec.size = 2 := rfl
@[simp] theorem int32Codec_size : int32Codec.size = 4 := rfl
@[simp] theorem int64Codec_size : int64Codec.size = 8 := rfl

end CephInC
