import LuspUpload.Lib.Ring
import LuspUpload.Lib.Runs
import LuspUpload.Lib.TwoTier
import LuspUpload.MQ.Message
import LuspUpload.MQ.Streams

/-!
# MQ.Queue — the operations of `PersistentMessageQueue`

The state is the memory ring, the directory with its two streams, the disk index with its read position
and the counters.  Every operation is the source's, in the source's order.  A wait loop on a `ready`
flag that nobody will set never ends; such a call is `none`.

`memory_capacity_` is the type parameter `N`.  `size_t` is 64 bits wide; the atomic counters are
`UInt64` and wrap as the source's do.
-/

namespace LuspUpload.MQ

open Lib

/-- A slot of the memory queue. -/
structure MemoryNode where
  message : IpcMessage
  ready : Bool
  deriving DecidableEq, Repr

/-- `while (!ready.load()) yield()`, then the message. -/
def MemoryNode.await (node : MemoryNode) : Option IpcMessage :=
  if node.ready then some node.message else none

/-- A `(offset, size)` pair of `disk_index_`. -/
abbrev Entry := ℕ × ℕ

/-- The state of a `PersistentMessageQueue` with memory capacity `N`. -/
structure PersistentMessageQueue (N : ℕ) where
  ring : Ring N MemoryNode
  dir : Dir
  dataWriter : OStream
  dataReader : IStream
  maxDiskSize : UInt64
  currentDiskSize : UInt64
  diskIndex : List Entry
  diskReadPos : ℕ
  totalEnqueued : UInt64
  totalDequeued : UInt64
  nextMessageId : UInt64

namespace PersistentMessageQueue

variable {N : ℕ}

/-- The members before the constructor looks at the directory. -/
def initial (N : ℕ) [NeZero N] (maxDiskSize : UInt64) (dir : Dir) : PersistentMessageQueue N where
  ring := ⟨fun _ => ⟨⟨0, 0, 0, []⟩, false⟩, 0, 0⟩
  dir := dir
  dataWriter := .closed
  dataReader := .closed
  maxDiskSize := maxDiskSize
  currentDiskSize := 0
  diskIndex := []
  diskReadPos := 0
  totalEnqueued := 0
  totalDequeued := 0
  nextMessageId := 1

/-! ### Disk operations -/

/-- `write_to_disk`.  The stream's state is never tested after the write. -/
def writeToDisk (s : PersistentMessageQueue N) (message : IpcMessage) :
    PersistentMessageQueue N × Bool :=
  if s.maxDiskSize ≤ s.currentDiskSize then (s, false)
  else
    let data := serializeMessage message
    let writer := s.dataWriter.reopen s.dir.outcome.opens
    let offset := writer.tellp s.dir.bytes.length
    let written := writer.write s.dir.outcome.landed data
    ({ s with
        dir := { s.dir with
          data := (writer.create s.dir.data).map (· ++ written.2)
          outcomes := s.dir.outcomes.tail }
        dataWriter := written.1
        diskIndex := s.diskIndex ++ [(offset, data.length % 2 ^ 32)]
        currentDiskSize := s.currentDiskSize + .ofNat data.length }, true)

/-- Open `data_reader_` if needed, seek to the entry and read it. -/
def fetch (s : PersistentMessageQueue N) (e : Entry) : List UInt8 × IStream :=
  (s.dataReader.reopen s.dir.data).readAt s.dir.bytes e.1 e.2

/-- `read_from_disk`. -/
def readFromDisk (s : PersistentMessageQueue N) : PersistentMessageQueue N × Option IpcMessage :=
  match s.diskIndex[s.diskReadPos]? with
  | none => (s, none)
  | some e =>
    match deserializeMessage (s.fetch e).1 with
    | none => ({ s with dataReader := (s.fetch e).2 }, none)
    | some message =>
      ({ s with
          dataReader := (s.fetch e).2
          diskReadPos := s.diskReadPos + 1
          currentDiskSize := s.currentDiskSize - .ofNat e.2 }, some message)

/-! ### Queue operations -/

/-- The message with its id assigned. -/
def stamp (s : PersistentMessageQueue N) (message : IpcMessage) : IpcMessage :=
  if message.id = 0 then { message with id := s.nextMessageId } else message

/-- The id counter after `stamp`. -/
def bumpId (s : PersistentMessageQueue N) (message : IpcMessage) : PersistentMessageQueue N :=
  if message.id = 0 then { s with nextMessageId := s.nextMessageId + 1 } else s

/-- `enqueue`: into the ring, or to disk when the ring is full. -/
def enqueue (s : PersistentMessageQueue N) (message : IpcMessage) :
    PersistentMessageQueue N × Bool :=
  let m := s.stamp message
  let s := s.bumpId message
  if s.ring.Full then
    let w := s.writeToDisk m
    if w.2 then ({ w.1 with totalEnqueued := w.1.totalEnqueued + 1 }, true) else (w.1, false)
  else
    ({ s with ring := s.ring.put ⟨m, true⟩, totalEnqueued := s.totalEnqueued + 1 }, true)

/-- `dequeue`: from the ring, or from disk when the ring is empty. -/
def dequeue (s : PersistentMessageQueue N) :
    Option (PersistentMessageQueue N × Option IpcMessage) :=
  if s.ring.Empty then
    let r := s.readFromDisk
    some (if r.2.isSome then { r.1 with totalDequeued := r.1.totalDequeued + 1 } else r.1, r.2)
  else
    s.ring.head.await.map fun message =>
      -- the message is moved out: its payload stays behind empty
      ({ s with
          ring := (s.ring.setHead ⟨{ message with data := [] }, false⟩).advance
          totalDequeued := s.totalDequeued + 1 }, some message)

/-- `peek`; the disk head is read through a temporary stream. -/
def peek (s : PersistentMessageQueue N) : Option (Option IpcMessage) :=
  if s.ring.Empty then
    some <| match s.diskIndex[s.diskReadPos]?, s.dir.data with
      | some e, some bytes => deserializeMessage (IStream.readAt bytes e.1 e.2 (.opened false)).1
      | _, _ => none
  else
    s.ring.head.await.map some

/-- `pop_front`. -/
def popFront (s : PersistentMessageQueue N) : Option (PersistentMessageQueue N × Bool) :=
  if s.ring.Empty then
    some <| match s.diskIndex[s.diskReadPos]? with
      | none => (s, false)
      | some e =>
        ({ s with
            diskReadPos := s.diskReadPos + 1
            currentDiskSize := s.currentDiskSize - .ofNat e.2
            totalDequeued := s.totalDequeued + 1 }, true)
  else
    s.ring.head.await.map fun message =>
      ({ s with
          ring := (s.ring.setHead ⟨message, false⟩).advance
          totalDequeued := s.totalDequeued + 1 }, true)

/-- `size`. -/
def size (s : PersistentMessageQueue N) : ℕ := s.ring.len + (s.diskIndex.length - s.diskReadPos)

/-- `clear`.  The counters keep their values. -/
def clear [NeZero N] (s : PersistentMessageQueue N) : PersistentMessageQueue N :=
  { s with
    ring := { s.ring with readPos := 0, writePos := 0 }
    diskIndex := []
    diskReadPos := 0
    currentDiskSize := 0
    dataWriter := .closed
    dataReader := .closed
    dir := { s.dir with data := none, index := none } }

/-- The loop of `load_from_disk` over the entries not yet read. -/
def loadLoop : List Entry → PersistentMessageQueue N → PersistentMessageQueue N × ℕ
  | [], s => (s, 0)
  | e :: es, s =>
    if s.ring.Full then (s, 0)
    else
      match deserializeMessage (s.fetch e).1 with
      | none => loadLoop es { s with dataReader := (s.fetch e).2, diskReadPos := s.diskReadPos + 1 }
      | some message =>
        let r := loadLoop es { s with
          dataReader := (s.fetch e).2
          ring := s.ring.put ⟨message, true⟩
          diskReadPos := s.diskReadPos + 1 }
        (r.1, r.2 + 1)

/-- `load_from_disk`.  `current_disk_size_` is not lowered. -/
def loadFromDisk (s : PersistentMessageQueue N) : PersistentMessageQueue N × ℕ :=
  loadLoop (s.diskIndex.drop s.diskReadPos) s

/-- The loop of `flush_to_disk`; each round empties one slot or ends the loop. -/
def flushLoop : ℕ → PersistentMessageQueue N → Option (PersistentMessageQueue N × ℕ)
  | 0, _ => none
  | fuel + 1, s =>
    if s.ring.Empty then some (s, 0)
    else
      s.ring.head.await.bind fun message =>
        let w := s.writeToDisk message
        if w.2 then
          (flushLoop fuel { w.1 with
            ring := (w.1.ring.setHead ⟨message, false⟩).advance }).map fun r => (r.1, r.2 + 1)
        else some (w.1, 0)

/-- `flush_to_disk`. -/
def flushToDisk (s : PersistentMessageQueue N) : Option (PersistentMessageQueue N × ℕ) :=
  flushLoop (s.ring.len + 1) s

/-- `get_statistics`. -/
structure Statistics where
  memorySize : ℕ
  diskSize : ℕ
  totalEnqueued : UInt64
  totalDequeued : UInt64
  diskBytes : UInt64
  deriving DecidableEq, Repr

def getStatistics (s : PersistentMessageQueue N) : Statistics where
  memorySize := s.ring.len
  diskSize := s.diskIndex.length - s.diskReadPos
  totalEnqueued := s.totalEnqueued
  totalDequeued := s.totalDequeued
  diskBytes := s.currentDiskSize

/-! ### The queue as a machine -/

/-- The public calls. -/
inductive Op where
  | enqueue (message : IpcMessage)
  | dequeue
  | peek
  | popFront
  | loadFromDisk
  | flushToDisk
  | clear
  deriving DecidableEq, Repr

/-- Every message handed to the queue is short enough for its record. -/
def Op.Fits : Op → Prop
  | .enqueue message => message.Fits
  | _ => True

instance (op : Op) : Decidable op.Fits := by
  cases op <;> unfold Op.Fits <;> infer_instance

/-- The message at the head: the slot at the read position, or else the record of the first unread entry. -/
def front (s : PersistentMessageQueue N) : Option IpcMessage :=
  if s.ring.Empty then
    s.diskIndex[s.diskReadPos]?.bind fun e =>
      deserializeMessage (IStream.readAt s.dir.bytes e.1 e.2 (.opened false)).1
  else some s.ring.head.message

/-- One call, with what it accepts (an `enqueue` that returns true) and what it removes (the message
`dequeue` returns, the head that `pop_front` drops). -/
def step [NeZero N] (s : PersistentMessageQueue N) :
    Op → Option (PersistentMessageQueue N × List (Event IpcMessage))
  | .enqueue message =>
    some ((s.enqueue message).1, if (s.enqueue message).2 then [.accepted (s.stamp message)] else [])
  | .dequeue => s.dequeue.map fun r => (r.1, r.2.toList.map .removed)
  | .peek => s.peek.map fun _ => (s, [])
  | .popFront =>
    s.popFront.map fun r => (r.1, if r.2 then s.front.toList.map .removed else [])
  | .loadFromDisk => some (s.loadFromDisk.1, [])
  | .flushToDisk => s.flushToDisk.map fun r => (r.1, [])
  | .clear => some (s.clear, [])

/-- The queue as a machine over its public calls. -/
def machine (N : ℕ) [NeZero N] : Machine (PersistentMessageQueue N) Op (Event IpcMessage) := ⟨step⟩

/-! ### What is stored -/

/-- The messages in the ring window, oldest first. -/
def ringMessages (s : PersistentMessageQueue N) : List IpcMessage :=
  s.ring.contents.map (·.message)

/-- The unread entries of the disk index. -/
def unreadEntries (s : PersistentMessageQueue N) : List Entry := s.diskIndex.drop s.diskReadPos

/-- The messages that the unread entries hold. -/
def diskMessages (s : PersistentMessageQueue N) : List IpcMessage :=
  s.unreadEntries.filterMap fun e =>
    deserializeMessage (IStream.readAt s.dir.bytes e.1 e.2 (.opened false)).1

/-- The stored messages, the ring first. -/
def stored (s : PersistentMessageQueue N) : List IpcMessage := s.ringMessages ++ s.diskMessages

end PersistentMessageQueue

end LuspUpload.MQ
