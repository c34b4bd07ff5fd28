/-
A write request that is sent, and what a reader makes of it.

The socket is one that takes all it is given; a `send` call that asks
for more than `SSIZE_MAX` bytes it refuses (`Unbroken`). So the outcome
of the calls lies in the request alone: in the length of its name, which
goes through an `int16_t`, and in the length of its data.
-/
import CephInC.Message.Calls

namespace CephInC

open Lib SendCall

/-- The calls of a request with this name and this data, after those of
its header. -/
def reqCalls (req : MsgWriteObjReq) (oid : CharBlock) (data : List UInt8) : List SendCall :=
  [int32Call req.clientId, int64Call req.reqId] ++ stringCalls req.header.logId oid
    ++ [int64Call req.offset] ++ dataCalls req.length data

/-- A call that asks for a possible size gets all of it, any other fails. -/
def Unbroken (calls : List SendCall) (coming : List SendOutcome) : Prop :=
  ∀ p ∈ meet calls coming,
    if p.1.size < 2 ^ 63 then p.1.Whole p.2 else ∃ errno, p.2 = .failed errno

/-- The object, the offset and the data are those that were sent. -/
structure Arrived (req got : MsgWriteObjReq) : Prop where
  oid : got.oid.map CharBlock.str = req.oid.map CharBlock.str
  offset : got.offset = req.offset
  length : got.length = req.length
  data : got.data = req.data.map fun bytes => bytes.take req.length.toInt.toNat

/-- A reader with memory to spare gets the request off the bytes, however
they are cut, and whatever follows. -/
def ReadBack (req : MsgWriteObjReq) (bs : List UInt8) : Prop :=
  ∀ inbox rest into, inbox.allocs = .plenty → inbox.delivered = bs ++ rest →
    into.oid = none → into.data = none →
    ∃ got inbox', msgWriteObjReqRecv into inbox = .ok ((0, got), inbox') ∧ Arrived req got

/-- If the sender returns zero, the request is read back off what it has
sent. -/
def ArrivesIfSent (req : MsgWriteObjReq) (out : Outbox) : Prop :=
  ∀ out' bs, msgWriteObjReqSend req out = .ok (0, out') → out'.sent = out.sent ++ bs →
    ReadBack req bs

/-- A name whose length no `int16_t` counts makes the sender fail. -/
def FailsIfLong (req : MsgWriteObjReq) (out : Outbox) : Prop :=
  ∀ oid, req.oid = some oid → 2 ^ 15 ≤ strlen oid.str →
    ∃ ret out', ret < 0 ∧ msgWriteObjReqSend req out = .ok (ret, out')

/-- The data is one that the sender refuses. -/
def DataRefused (length : Int64) : Prop := length.toInt < -1 ∨ 2 ^ 31 ≤ length.toInt

/-- An `int16_t` counts the name, and the data has a length; or the data is
refused, and the length of the name, as an `int16_t`, is at least -1. -/
def NameTravels (n : Nat) (length : Int64) : Prop :=
  if n < 2 ^ 15 then length ≠ -1
  else DataRefused length ∧ (n % 2 ^ 16 < 2 ^ 15 ∨ n % 2 ^ 16 = 2 ^ 16 - 1)

end CephInC
