/-
The path that `io_write_object` opens for an object, and where it may
lead.

An object's name is what a client sent, up to its first NUL. The path is
put together in a block of `max_path_length` bytes, by `strcat`. It is
to name an entry of the directory `./data`, in any file system.
-/
import CephInC.Lib.Paths
import CephInC.Osd.OsdMsgProcess

namespace CephInC

open Lib

/-- `strcat(path, s)`, where `path` is a block of `room` bytes. -/
def strcat (room : Nat) (path s : CString) : Except Fault CString :=
  if strlen path + strlen s + 1 ≤ room then
    .ok ⟨path.bytes ++ s.bytes, fun h => (List.mem_append.mp h).elim path.noNul s.noNul⟩
  else .error .outOfBounds

/-- `./data`. -/
def dataDirPath : CString := ⟨[46, 47, 100, 97, 116, 97], by decide⟩

/-- `/`. -/
def slash : CString := ⟨[47], by decide⟩

/-- The path in `io_write_object`, before it is opened. -/
def ioWriteObjectPath (oid : CString) : Except Fault CString := do
  let path ← strcat maxPathLength ⟨[], noNul_nil⟩ dataDirPath
  let path ← strcat maxPathLength path slash
  strcat maxPathLength path oid

-- ======================================================== what it is to name

/-- The names that a path goes by: the separator is `/`, and `.` is no
name. -/
def CString.names (path : CString) : List (List UInt8) := pathNames 47 46 path.bytes

/-- `data`, in the directory that the server was started in. -/
def dataName : List UInt8 := [100, 97, 116, 97]

/-- `..`. -/
def parentName : List UInt8 := [46, 46]

/-- Whatever files there are, the path names an entry of `./data`. -/
def InData (path : CString) : Prop :=
  ∃ name, name ≠ parentName ∧ ∀ (fs : FileSystem UInt8) (cwd data : fs.Dir),
    fs.enter cwd dataName = some data → fs.entry cwd path.names = some (data, name)

/-- The path of the object fits, and names an entry of `./data`. -/
def StaysInside (oid : CString) : Prop :=
  ∃ path, ioWriteObjectPath oid = .ok path ∧ InData path

/-- The name is not too long, and has one part, which is not `..`. -/
def PlainName (oid : CString) : Prop :=
  strlen oid ≤ 4088 ∧ ∃ name, oid.names = [name] ∧ name ≠ parentName

/-- The blocks that `cceph_recv_string` can return zero with. -/
def Delivered (oid : CharBlock) : Prop :=
  ∃ size string inbox n inbox', recvString size string inbox = .ok ((0, n, some oid), inbox')

end CephInC
