import LuspUpload.Lib.Runs
import LuspUpload.Upload.FileInfo
import Mathlib.Tactic.Common

/-!
# Upload.Service — the upload queue and the notification loop

The UI thread pushes paths, one call of `Lusp_SyncUploadQueue::push` for a single path or a batch; the
notification thread runs `notificationLoop`; a third thread may call `stop`.  A schedule (`Turn`) names
the thread that moves next.  `uploadQueue` is a FIFO with atomic operations here, and a `waitAndPop` that has
to wait is a step that is not enabled; `Upload.Forward` runs the same threads on `ThreadSafeRowLockQueue`.
`socketSendFunc` returns normally.

An exception that the construction of a record throws leaves the whole call of `push`; the UI thread goes
on with its next call.
-/

namespace LuspUpload.Upload

open Lib

/-- A pushed path, and what the system answers while its record is built. -/
structure Element where
  path : List UInt16
  probe : Probe
  deriving DecidableEq, Repr

/-- `pushFile`: the record put into `uploadQueue`; `none` when the construction throws.  The validity flag
of the handler is not looked at. -/
def pushFile (env : Env) (e : Element) : Option SyncUploadFileInfo :=
  (FileInfoHandler.ofPath env e.probe e.path).map (queuedInfo e.probe)

/-- Where `notificationLoop` is: before one of its tests of `shouldStop`, in `waitAndPop`, before
`socketSendFunc`, or left. -/
inductive LoopPc where
  | testStop
  | waitAndPop
  | popped (info : SyncUploadFileInfo)
  | send (info : SyncUploadFileInfo)
  | exited
  deriving DecidableEq, Repr

/-- Where `stop` is. -/
inductive StopPc where
  | notCalled
  | notifyAll
  | returned
  deriving DecidableEq, Repr

/-- The state of the three threads; `calls` are the calls of `push` to come, the first one in progress. -/
structure Service where
  calls : List (List Element)
  queue : List SyncUploadFileInfo
  stopping : Bool
  shouldStop : Bool
  loop : LoopPc
  stop : StopPc
  deriving DecidableEq, Repr

/-- The thread that moves. -/
inductive Turn where
  | ui
  | loop
  | stop
  deriving DecidableEq, Repr

namespace Service

/-- One element of `pushFiles`, or the return from `push`. -/
def uiStep (env : Env) (s : Service) : Option Service :=
  match s.calls with
  | [] => none
  | [] :: calls => some { s with calls := calls }
  | (e :: es) :: calls =>
    match pushFile env e with
    | none => some { s with calls := calls }
    | some info => some { s with calls := es :: calls, queue := s.queue ++ [info] }

/-- One step of `notificationLoop`, with the records handed to `socketSendFunc`. -/
def loopStep (s : Service) : Option (Service × List SyncUploadFileInfo) :=
  match s.loop with
  | .testStop => some ({ s with loop := if s.shouldStop then .exited else .waitAndPop }, [])
  | .waitAndPop =>
    match s.queue with
    | info :: queue => some ({ s with queue := queue, loop := .popped info }, [])
    | [] =>
      if s.stopping then
        -- `waitAndPop` returns false
        some ({ s with loop := if s.shouldStop then .exited else .testStop }, [])
      else none
  | .popped info =>
    if s.shouldStop then some ({ s with loop := .exited }, [])
    -- a record without a name is taken for the sentinel
    else if info.sFileFullNameValue = [] then some ({ s with loop := .exited }, [])
    else some ({ s with loop := .send info }, [])
  | .send info => some ({ s with loop := .testStop }, [info])
  | .exited => none

/-- One step of `stop`. -/
def stopStep (s : Service) : Option Service :=
  match s.stop with
  | .notCalled => some { s with shouldStop := true, stop := .notifyAll }
  | .notifyAll => some { s with stopping := true, stop := .returned }
  | .returned => none

/-- One step of a schedule; `none` when the thread that is to move cannot. -/
def step (env : Env) (s : Service) : Turn → Option (Service × List SyncUploadFileInfo)
  | .ui => (s.uiStep env).map (·, [])
  | .loop => s.loopStep
  | .stop => s.stopStep.map (·, [])

/-- The service under a schedule; the events are the records handed to `socketSendFunc`. -/
def threads (env : Env) : Machine Service Turn SyncUploadFileInfo := ⟨step env⟩

/-- A running service before the calls `calls`. -/
def start (calls : List (List Element)) : Service := ⟨calls, [], false, false, .testStop, .notCalled⟩

end Service

end LuspUpload.Upload
