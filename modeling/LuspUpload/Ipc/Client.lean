import LuspUpload.Lib.Runs
import Mathlib.Tactic.Common

/-!
# Ipc.Client — the sending side of the IPC client, step by step

`send` runs on the notification thread; `handle_send_result` and `handle_connect_result` run on the io
thread.  Both end in `do_send_from_queue`, and each of its atomic steps may interleave with the other
thread's.  A schedule (`Act`) names the thread that moves next; what the environment decides (whether
the queue takes a message, how a write ends, whether the socket is open) is in the action.

The message queue is an ideal FIFO with atomic operations.  `record_send_success` and
`record_send_failure` touch nothing of this state: the answer of the latter is part of the outcome of
the write.
-/

namespace LuspUpload.Ipc

open Lib

/-- A queued message; `enqueue` gives every message an id of its own. -/
structure Message where
  id : ℕ
  data : List UInt8
  deriving DecidableEq, Repr

/-- The next atomic step of a call of `do_send_from_queue`. -/
inductive SendPc where
  | compareExchange
  | isConnected
  | peek
  | asyncWrite (m : Message)
  | release
  deriving DecidableEq, Repr

/-- How a write ends: `ec` is clear, or it is set and `record_send_failure` returns `need_reconnect`. -/
inductive Outcome where
  | sent
  | failed (needReconnect : Bool)
  deriving DecidableEq, Repr

/-- Where the io thread is: between two handlers, before `is_sending_.store(false)` or before
`pop_front` of `handle_send_result`, or in `do_send_from_queue`. -/
inductive IoPc where
  | idle
  | sendResult (msgId : ℕ) (o : Outcome)
  | popFront (msgId : ℕ)
  | sending (pc : SendPc)
  deriving DecidableEq, Repr

/-- What the two threads share. -/
structure Shared where
  queue : List Message
  nextId : ℕ
  isSending : Bool
  isOpen : Bool
  outstanding : List ℕ
  deriving DecidableEq, Repr

/-- The shared state and the program counters; `notify` is `none` between two calls of `send`. -/
structure Client where
  shared : Shared
  notify : Option SendPc
  io : IoPc
  deriving DecidableEq, Repr

/-- What a step does to the queue and to the socket. -/
inductive Event where
  | accepted (m : Message)
  | written (m : Message)
  | removed (msgId : ℕ) (popped : Option Message)
  deriving DecidableEq, Repr

/-- Who moves.  `send` calls `send`, and `fits` says whether the queue takes the message; `complete i o`
completes the `i`-th outstanding write; `connected` starts `handle_connect_result` on success; `notify`
and `io` run the next step of the call in progress; `link` opens or replaces the socket. -/
inductive Act where
  | send (data : List UInt8) (fits : Bool)
  | notify
  | complete (i : ℕ) (o : Outcome)
  | connected
  | io
  | link (isOpen : Bool)
  deriving DecidableEq, Repr

namespace Shared

/-- One step of `do_send_from_queue`: the state, the step that follows (`none` when the call returns) and
the events. -/
def sendStep (s : Shared) : SendPc → Shared × Option SendPc × List Event
  | .compareExchange =>
    if s.isSending then (s, none, []) else ({ s with isSending := true }, some .isConnected, [])
  | .isConnected => (s, some (if s.isOpen then .peek else .release), [])
  | .peek =>
    match s.queue.head? with
    | none => (s, some .release, [])
    | some m => (s, some (.asyncWrite m), [])
  | .asyncWrite m => ({ s with outstanding := s.outstanding ++ [m.id] }, none, [.written m])
  | .release => ({ s with isSending := false }, none, [])

/-- `message_queue_->enqueue` of an ideal queue. -/
def enqueue (s : Shared) (data : List UInt8) : Shared × List Event :=
  let m : Message := ⟨s.nextId, data⟩
  ({ s with queue := s.queue ++ [m], nextId := s.nextId + 1 }, [.accepted m])

end Shared

namespace Client

/-- Where the io thread stands after a step of `do_send_from_queue`. -/
def ioAfter : Option SendPc → IoPc
  | none => .idle
  | some pc => .sending pc

/-- One step of the io thread within a handler. -/
def ioStep (s : Client) : Option (Client × List Event) :=
  match s.io with
  | .idle => none
  | .sendResult msgId .sent =>
    some ({ s with shared := { s.shared with isSending := false }, io := .popFront msgId }, [])
  | .sendResult _ (.failed needReconnect) =>
    some ({ s with shared := { s.shared with isSending := false }
                   io := if needReconnect then .idle else .sending .compareExchange }, [])
  | .popFront msgId =>
    some ({ s with shared := { s.shared with queue := s.shared.queue.tail }
                   io := .sending .compareExchange }, [.removed msgId s.shared.queue.head?])
  | .sending pc =>
    let r := s.shared.sendStep pc
    some ({ s with shared := r.1, io := ioAfter r.2.1 }, r.2.2)

/-- One step of a schedule; `none` when the thread that is to move cannot. -/
def step (s : Client) : Act → Option (Client × List Event)
  | .send data fits =>
    if s.notify ≠ none then none
    else if fits then
      let r := s.shared.enqueue data
      some ({ s with shared := r.1, notify := some .compareExchange }, r.2)
    else some (s, [])
  | .notify => s.notify.map fun pc =>
      let r := s.shared.sendStep pc
      ({ s with shared := r.1, notify := r.2.1 }, r.2.2)
  | .complete i o =>
    if s.io ≠ .idle then none
    else s.shared.outstanding[i]?.map fun msgId =>
      ({ s with shared := { s.shared with outstanding := s.shared.outstanding.eraseIdx i }
                io := .sendResult msgId o }, [])
  | .connected => if s.io ≠ .idle then none else some ({ s with io := .sending .compareExchange }, [])
  | .io => s.ioStep
  | .link isOpen => some ({ s with shared := { s.shared with isOpen := isOpen } }, [])

/-- The two threads under a schedule. -/
def threads : Machine Client Act Event := ⟨step⟩

/-- A connected client with an empty queue and no call in progress. -/
def connected : Client := ⟨⟨[], 0, false, true, []⟩, none, .idle⟩

end Client

/-! ### What a run has done -/

/-- The messages that the queue has taken, in order. -/
def accepted (es : List Event) : List Message :=
  es.filterMap fun | .accepted m => some m | _ => none

/-- The messages whose write has been started, in order. -/
def written (es : List Event) : List Message :=
  es.filterMap fun | .written m => some m | _ => none

/-- The results of `pop_front`, each with the id of the completed write. -/
def removals (es : List Event) : List (ℕ × Option Message) :=
  es.filterMap fun | .removed msgId popped => some (msgId, popped) | _ => none

section Single

variable (m : Message) (msgId : ℕ) (popped : Option Message)

@[simp] theorem single_accepted :
    accepted [.accepted m] = [m] ∧ written [.accepted m] = [] ∧ removals [.accepted m] = [] :=
  ⟨rfl, rfl, rfl⟩

@[simp] theorem single_written :
    accepted [.written m] = [] ∧ written [.written m] = [m] ∧ removals [.written m] = [] :=
  ⟨rfl, rfl, rfl⟩

@[simp] theorem single_removed :
    accepted [.removed msgId popped] = [] ∧ written [.removed msgId popped] = [] ∧
      removals [.removed msgId popped] = [(msgId, popped)] :=
  ⟨rfl, rfl, rfl⟩

end Single

@[simp] theorem accepted_append (es fs : List Event) :
    accepted (es ++ fs) = accepted es ++ accepted fs := List.filterMap_append

@[simp] theorem written_append (es fs : List Event) :
    written (es ++ fs) = written es ++ written fs := List.filterMap_append

@[simp] theorem removals_append (es fs : List Event) :
    removals (es ++ fs) = removals es ++ removals fs := List.filterMap_append

end LuspUpload.Ipc
