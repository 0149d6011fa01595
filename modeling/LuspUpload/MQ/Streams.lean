import Mathlib.Algebra.Ring.Nat
import Mathlib.Data.List.Basic

/-!
# MQ.Streams — the queue directory and the standard streams on its files

`Dir` is what the persistence directory holds: `messages.dat`, `messages.idx`, and the outcomes that the
coming record writes will have (past the end of the list every write succeeds).  `OStream` is
`data_writer_`, opened with `binary | app`; `IStream` is `data_reader_`.

* An append stream reports `tellp() = 0` until its first write and the end of the file afterwards; on
  a closed or failed stream `tellp()` is `-1`, which is stored as a `uint64_t`.
* A write that fails part-way leaves the stream bad: later writes do nothing, without an exception.
* A read past the end of the file delivers what is there and sets the fail bit; the rest of the
  caller's buffer keeps its zeros.  A failed stream ignores `seekg` and `read`.

File offsets are natural numbers: no file reaches `2 ^ 63` bytes.
-/

namespace LuspUpload.MQ

/-- How one `write_to_disk` fares: whether `open` succeeds if it is called, and how many bytes land
before the stream goes bad (`none`: the whole record is written and flushed). -/
structure WriteOutcome where
  opens : Bool := true
  landed : Option ℕ := none
  deriving DecidableEq, Repr

/-- The persistence directory. -/
structure Dir where
  data : Option (List UInt8) := none
  index : Option (List UInt8) := none
  outcomes : List WriteOutcome := []
  deriving DecidableEq, Repr

namespace Dir

/-- The bytes of `messages.dat`; none if the file does not exist. -/
def bytes (d : Dir) : List UInt8 := d.data.getD []

/-- The outcome of the next record write. -/
def outcome (d : Dir) : WriteOutcome := d.outcomes.headD {}

end Dir

/-- `data_writer_`. -/
inductive OStream where
  | closed
  | opened (bad wrote : Bool)
  deriving DecidableEq, Repr

namespace OStream

/-- `open` unless the stream is open already. -/
def reopen (opens : Bool) : OStream → OStream
  | closed => if opens then opened false false else closed
  | opened bad wrote => opened bad wrote

/-- `tellp()` converted to `uint64_t`, on a file of `len` bytes. -/
def tellp (len : ℕ) : OStream → ℕ
  | opened false true => len
  | opened false false => 0
  | _ => 2 ^ 64 - 1

/-- `write` and `flush` of `record`; returns the bytes that reach the file. -/
def write (landed : Option ℕ) (record : List UInt8) : OStream → OStream × List UInt8
  | opened false _ =>
    let stored := record.take (landed.getD record.length)
    (opened (decide (stored.length < record.length)) true, stored)
  | w => (w, [])

/-- The file of an open stream exists. -/
def create (file : Option (List UInt8)) : OStream → Option (List UInt8)
  | closed => file
  | opened _ _ => some (file.getD [])

end OStream

/-- `data_reader_`. -/
inductive IStream where
  | closed
  | opened (fail : Bool)
  deriving DecidableEq, Repr

namespace IStream

/-- `open` unless the stream is open already; it fails when there is no file. -/
def reopen (file : Option (List UInt8)) : IStream → IStream
  | closed => if file.isSome then opened false else closed
  | opened fail => opened fail

/-- `seekg(offset)` and `read` of `size` bytes into a zeroed buffer. -/
def readAt (bytes : List UInt8) (offset size : ℕ) : IStream → List UInt8 × IStream
  | opened false =>
    let got := (bytes.drop offset).take size
    (got ++ List.replicate (size - got.length) 0, opened (decide (got.length < size)))
  | r => (List.replicate size 0, r)

/-- A read inside the file delivers the bytes and leaves the stream good. -/
theorem readAt_of_le {bytes : List UInt8} {offset size : ℕ} (h : offset + size ≤ bytes.length) :
    readAt bytes offset size (opened false) = ((bytes.drop offset).take size, opened false) := by
  have hlen : ((bytes.drop offset).take size).length = size := by
    simp only [List.length_take, List.length_drop]
    omega
  simp [readAt, hlen]

end IStream

end LuspUpload.MQ
