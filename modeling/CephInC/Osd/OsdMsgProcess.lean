/-
`osd/osd_msg_process.c`: what an object server does with a write request.

`IoOutcome` is what the three system calls of `io_write_object` return.
The count `pwrite` returns goes through an `int` before it is compared.

The LOG lines that print the name are the one of the request and the three
of a failure.
-/
import CephInC.Message.Msg

namespace CephInC

structure IoOutcome where
  oidFd : Int32
  written : Int64
  closed : Int32

def maxPathLength : Nat := 4096

/-- The bytes of `./data/`. -/
def dataDir : List UInt8 := [46, 47, 100, 97, 116, 97, 47]

/-- What `io_write_object` says of a failure, at this line. -/
def ioFailedLine (logId : Int64) (line : Nat) (what : List UInt8) (oid : CString)
    (errno : Int32) : LogLine :=
  ⟨logId, "osd/osd_msg_process.c", line, what ++ oid.bytes ++ ascii " failed, path " ++ dataDir
    ++ oid.bytes ++ ascii ", errno " ++ decimal errno.toInt⟩

def openFailedLine (logId : Int64) (oid : CString) (oidFd : Int32) : LogLine :=
  ioFailedLine logId 34 (ascii "Open fd for oid ") oid oidFd

def writeFailedLine (logId : Int64) (oid : CString) (ret : Int32) : LogLine :=
  ioFailedLine logId 40 (ascii "Write oid ") oid ret

def closeFailedLine (logId : Int64) (oid : CString) (oidFd ret : Int32) : LogLine :=
  ioFailedLine logId 47 (ascii "Close fd " ++ decimal oidFd.toInt ++ ascii " for oid ") oid ret

/-- `io_write_object`. -/
def ioWriteObject (logId : Int64) (oid : CString) (length : Int64) (io : IoOutcome) :
    Except Fault Int32 :=
  if maxPathLength < dataDir.length + strlen oid + 1 then .error .outOfBounds
  else if io.oidFd < 0 then do
    log (openFailedLine logId oid io.oidFd)
    return io.oidFd
  else
    let ret := io.written.toInt32
    if ret.toInt64 ≠ length then do
      log (writeFailedLine logId oid ret)
      return ret
    else if io.closed ≠ 0 then do
      log (closeFailedLine logId oid io.oidFd io.closed)
      return io.closed
    else return io.closed

/-- What is said of a request that comes in. -/
def doReqWriteLine (req : MsgWriteObjReq) (oid : CString) : LogLine :=
  ⟨req.header.logId, "osd/osd_msg_process.c", 66,
    ascii "do_req_write, client_id " ++ decimal req.clientId.toInt
      ++ ascii ", req_id " ++ decimal req.reqId.toInt ++ ascii ", oid " ++ oid.bytes
      ++ ascii ", offset " ++ decimal req.offset.toUInt64.toNat
      ++ ascii ", length " ++ decimal req.length.toUInt64.toNat ++ ascii "."⟩

/-- `do_object_write_req`, up to the call that sends the acknowledgement:
what `io_write_object` returned, and the acknowledgement. -/
def doObjectWriteReq (req : MsgWriteObjReq) (io : IoOutcome) :
    Except Fault (Int32 × MsgWriteObjAck) :=
  match req.oid with
  -- `strcat(path, oid)`
  | none => .error .nullDeref
  | some oid =>
      if (doReqWriteLine req oid.str).Fits then
        match ioWriteObject req.header.logId oid.str req.length io with
        | .error e => .error e
        | .ok ret =>
            let result := if ret = 0 then CCEPH_WRITE_OBJ_ACK_OK else ret.toInt8
            .ok (ret, ⟨⟨CCEPH_MSG_OP_WRITE_ACK, req.header.logId⟩, req.clientId, req.reqId,
              result⟩)
      else .error .outOfBounds

/-- The acknowledgement has the numbers of the request. -/
theorem doObjectWriteReq_ok {req : MsgWriteObjReq} {io : IoOutcome} {ret : Int32}
    {ack : MsgWriteObjAck} (h : doObjectWriteReq req io = .ok (ret, ack)) :
    ack.clientId = req.clientId ∧ ack.reqId = req.reqId := by
  unfold doObjectWriteReq at h
  split at h
  · cases h
  · split at h
    · split at h
      · cases h
      · cases h
        exact ⟨rfl, rfl⟩
    · cases h

end CephInC
