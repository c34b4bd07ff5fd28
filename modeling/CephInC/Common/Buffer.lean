/-
`common/buffer.c`: bytes appended to a chain of blocks, flattened, and
read back by a reader.

The nodes of a buffer are kept in the order of their allocation, and a
pointer to a node is its place in that order; `head`, `current` and
`next` are such pointers. A pointer into the block of a node is its
offset. What `malloc` left in a fresh block is never read, so it is
zeros here.

A loop is given as many turns as it can need, and ends in
`Fault.blocked` without them.
-/
import CephInC.Common.CString
import CephInC.Common.Errno

namespace CephInC

def CCEPH_BUFFER_NODE_LENGTH : Nat := 4096

/-- `cceph_buffer_node`. -/
structure BufferNode where
  next : Option Nat
  ptr : Nat
  length : Int32
  data : List UInt8
  deriving DecidableEq

/-- `cceph_buffer`, with the nodes its pointers point at. -/
structure Buffer where
  nodes : List BufferNode
  head : Nat
  current : Nat
  length : Int32
  offset : Int32
  deriving DecidableEq

/-- `cceph_buffer_reader`; it points at its buffer, which its callers
pass along here. -/
structure BufferReader where
  node : Option Nat
  ptr : Option Nat
  deriving DecidableEq

def sizeofBufferNode : Nat := 4120
def sizeofBuffer : Nat := 24
def sizeofBufferReader : Nat := 24

/-- A node through its pointer. -/
def Buffer.node (buffer : Buffer) (i : Nat) : Prog Allocs BufferNode :=
  deref buffer.nodes[i]?

def Buffer.setNode (buffer : Buffer) (i : Nat) (node : BufferNode) : Buffer :=
  { buffer with nodes := buffer.nodes.set i node }

/-- `cceph_buffer_node_new`: the return code and `*node_ptr`. -/
def bufferNodeNew : Prog Allocs (Int × Option BufferNode) := do
  if !(← malloc sizeofBufferNode) then
    return (CCEPH_ERR_NO_ENOUGH_MEM, none)
  return (CCEPH_OK, some ⟨none, 0, Int32.ofNat CCEPH_BUFFER_NODE_LENGTH,
    List.replicate CCEPH_BUFFER_NODE_LENGTH 0⟩)

/-- `cceph_buffer_new`: the return code and `*buffer_ptr`. -/
def bufferNew : Prog Allocs (Int × Option Buffer) := do
  let (ret, node) ← bufferNodeNew
  if ret ≠ CCEPH_OK then
    return (ret, none)
  let node ← deref node
  if !(← malloc sizeofBuffer) then
    return (CCEPH_ERR_NO_ENOUGH_MEM, none)
  return (CCEPH_OK, some ⟨[node], 0, 0, node.length, 0⟩)

-- ============================================================== appending

/-- `node_empty_size` of `cceph_buffer_append`. -/
def BufferNode.emptySize (node : BufferNode) : Int32 :=
  node.length - Int32.ofNat node.ptr

/-- A new node behind the current one. -/
def bufferGrow (buffer : Buffer) : Prog Allocs (Int × Buffer) := do
  let (ret, newNode) ← bufferNodeNew
  if ret ≠ CCEPH_OK then
    return (ret, buffer)
  let newNode ← deref newNode
  let current ← buffer.node buffer.current
  let place := buffer.nodes.length
  let buffer := buffer.setNode buffer.current { current with next := some place }
  return (CCEPH_OK, { buffer with
    nodes := buffer.nodes ++ [newNode]
    current := place
    length := buffer.length + newNode.length })

/-- Room for a byte in the current node. -/
def bufferRoom (buffer : Buffer) : Prog Allocs (Int × Buffer) := do
  let node ← buffer.node buffer.current
  if node.emptySize = 0 then bufferGrow buffer
  else return (CCEPH_OK, buffer)

/-- The copy at the end of a turn of the loop: the buffer and how much was
copied. -/
def bufferFill (buffer : Buffer) (data : List UInt8) (length : Int32) :
    Prog Allocs (Buffer × Int32) := do
  let node ← buffer.node buffer.current
  let copySize := if length < node.emptySize then length else node.emptySize
  let block ← memcpy node.data node.ptr (some data) (sizeT copySize.toInt)
  let node := { node with data := block, ptr := node.ptr + sizeT copySize.toInt }
  let buffer : Buffer := { buffer.setNode buffer.current node with
    offset := buffer.offset + copySize }
  assert ((node.ptr : Int) ≤ node.length.toInt)
  assert (buffer.offset ≤ buffer.length)
  return (buffer, copySize)

/-- The loop of `cceph_buffer_append`. -/
def bufferAppendLoop : (turns : Nat) → Buffer → List UInt8 → Int32 →
    Prog Allocs (Int × Buffer)
  | turns, buffer, data, length => do
      if length > 0 then
        match turns with
        | 0 => fault .blocked
        | turns + 1 =>
            let (ret, buffer) ← bufferRoom buffer
            if ret ≠ CCEPH_OK then
              return (ret, buffer)
            let (buffer, copySize) ← bufferFill buffer data length
            bufferAppendLoop turns buffer (data.drop (sizeT copySize.toInt))
              (length - copySize)
      else
        return (CCEPH_OK, buffer)

/-- `cceph_buffer_append`. -/
def bufferAppend (buffer : Buffer) (data : List UInt8) (length : Int32) :
    Prog Allocs (Int × Buffer) := do
  assert (length > 0)
  bufferAppendLoop length.toInt.toNat buffer data length

-- ============================================================= flattening

/-- The loop of `cceph_buffer_flat`, `pos` bytes into the block. -/
def bufferFlatLoop (buffer : Buffer) : (turns : Nat) → Option Nat →
    (block : List UInt8) → (pos : Nat) → Prog Allocs (List UInt8)
  | _, none, block, _ => return block
  | 0, some _, _, _ => fault .blocked
  | turns + 1, some i, block, pos => do
      let node ← buffer.node i
      let contentLength := Int32.ofNat node.ptr
      let block ← memcpy block pos (some node.data) (sizeT contentLength.toInt)
      bufferFlatLoop buffer turns node.next block (pos + sizeT contentLength.toInt)

/-- `cceph_buffer_flat`: the return code, `*data` and `*length`. -/
def bufferFlat (buffer : Buffer) :
    Prog Allocs (Int × Option (List UInt8) × Option Int32) := do
  if buffer.offset = 0 then
    return (CCEPH_OK, none, some 0)
  let dataLength := buffer.offset
  let size := sizeT dataLength.toInt
  if !(← malloc size) then
    return (CCEPH_ERR_NO_ENOUGH_MEM, none, none)
  let data ← bufferFlatLoop buffer buffer.nodes.length (some buffer.head)
    (List.replicate size 0) 0
  return (CCEPH_OK, some data, some dataLength)

-- =============================================================== reading

/-- `cceph_buffer_reader_new`: the return code and `*reader`. -/
def bufferReaderNew (buffer : Buffer) : Prog Allocs (Int × Option BufferReader) := do
  if !(← malloc sizeofBufferReader) then
    return (CCEPH_ERR_NO_ENOUGH_MEM, none)
  return (CCEPH_OK, some ⟨some buffer.head, some 0⟩)

/-- One turn of the loop of `cceph_buffer_reader_read` at the offset `ptr`:
the reader, the bytes it copied, and `read_length`. -/
def bufferReadTurn (buffer : Buffer) (reader : BufferReader) (ptr : Nat)
    (length : Int32) : Prog Allocs (BufferReader × List UInt8 × Int32) := do
  let i ← deref reader.node
  let node ← buffer.node i
  let nodeLeft := Int32.ofInt ((node.ptr : Int) - ptr)
  let readLength := if length < nodeLeft then length else nodeLeft
  assert (readLength > 0)
  let size := sizeT readLength.toInt
  let bytes ← memcpy (List.replicate size 0) 0 (some (node.data.drop ptr)) size
  let ptr := ptr + size
  -- on to the next node, if this one has no more
  if ptr = node.ptr then
    match node.next with
    | none => return (⟨none, none⟩, bytes, readLength)
    | some next => return (⟨some next, some 0⟩, bytes, readLength)
  else
    return ({ reader with ptr := some ptr }, bytes, readLength)

/-- The loop of `cceph_buffer_reader_read`: the length left, the bytes
copied, and the reader. -/
def bufferReadLoop (buffer : Buffer) : (turns : Nat) → BufferReader → Int32 →
    Prog Allocs (Int32 × List UInt8 × BufferReader)
  | turns, reader, length => do
      match reader.ptr with
      | none => return (length, [], reader)
      | some ptr =>
          if length > 0 then
            match turns with
            | 0 => fault .blocked
            | turns + 1 =>
                let (reader, bytes, readLength) ← bufferReadTurn buffer reader ptr length
                let length := length - readLength
                if reader.node = none then
                  return (length, bytes, reader)
                let (length, rest, reader) ← bufferReadLoop buffer turns reader length
                return (length, bytes ++ rest, reader)
          else
            return (length, [], reader)

/-- `cceph_buffer_reader_read`: the return code, what it put into `data`,
and the reader. -/
def bufferReaderRead (buffer : Buffer) (reader : BufferReader) (length : Int32) :
    Prog Allocs (Int × List UInt8 × BufferReader) := do
  assert (length > 0)
  let (length, data, reader) ← bufferReadLoop buffer length.toInt.toNat reader length
  return (if length = 0 then CCEPH_OK else CCEPH_ERR_BUFFER_END, data, reader)

end CephInC
