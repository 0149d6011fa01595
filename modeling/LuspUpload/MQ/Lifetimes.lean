import LuspUpload.MQ.IndexFile
import LuspUpload.MQ.Steps

/-!
# MQ.Lifetimes — queues that live one after another on one directory

A history is a sequence of calls and restarts: a restart is the destructor of the queue that is alive and
the constructor of the next one, with the same capacity and the same limit.  Each step emits what it does
to the data file: the messages whose records it appends, and the removal of the file by `clear`.  So the
`i`-th entry of the index was created for the `i`-th message of `logOf`.
-/

namespace LuspUpload.MQ

open Lib

/-- What happens to the data file. -/
inductive LogEvent where
  | wrote (m : IpcMessage)
  | erased
  deriving DecidableEq, Repr

namespace LogEvent

/-- The log of a data file after one more event. -/
def extend (log : List IpcMessage) : LogEvent → List IpcMessage
  | wrote m => log ++ [m]
  | erased => []

end LogEvent

/-- The messages written since the file was last removed, in order. -/
def logOf (h : List LogEvent) : List IpcMessage := h.foldl LogEvent.extend []

section LogOf

variable (h : List LogEvent) (ms log : List IpcMessage)

theorem foldl_extend_wrote : (ms.map LogEvent.wrote).foldl LogEvent.extend log = log ++ ms := by
  induction ms generalizing log with
  | nil => simp
  | cons m ms ih => simp [LogEvent.extend, ih]

@[simp] theorem logOf_wrote : logOf (h ++ ms.map .wrote) = logOf h ++ ms := by
  rw [logOf, List.foldl_append, foldl_extend_wrote]
  rfl

@[simp] theorem logOf_erased : logOf (h ++ [.erased]) = [] := by
  simp [logOf, LogEvent.extend]

end LogOf

namespace PersistentMessageQueue

/-- A call of the queue that is alive, or the change to the next one. -/
inductive Act where
  | call (op : Op)
  | restart
  deriving DecidableEq, Repr

/-- Every message handed to the queue is short enough for its record. -/
def Act.Fits : Act → Prop
  | .call op => op.Fits
  | .restart => True

variable {N : ℕ}

/-- The messages whose records a step appends to the data file; the destructor flushes the ring. -/
def writtenIn (s : PersistentMessageQueue N) : Act → List IpcMessage
  | .call op => s.writtenBy op
  | .restart => s.writtenBy .flushToDisk

/-- What a step does to the data file. -/
def logEvents (s : PersistentMessageQueue N) : Act → List LogEvent
  | .call .clear => [.erased]
  | a => (s.writtenIn a).map .wrote

/-- One call, or a restart on the same directory. -/
def lifeStep (crc : List UInt8 → UInt32) [NeZero N] (s : PersistentMessageQueue N) :
    Act → Option (PersistentMessageQueue N × List LogEvent)
  | .call op => (step s op).map fun r => (r.1, s.logEvents (.call op))
  | .restart => (s.destroy crc).bind fun dir =>
      (construct crc N s.maxDiskSize dir).map fun s' => (s', s.logEvents .restart)

/-- The queues of one directory as a machine. -/
def lifetimes (crc : List UInt8 → UInt32) (N : ℕ) [NeZero N] :
    Machine (PersistentMessageQueue N) Act LogEvent := ⟨lifeStep crc⟩

section Steps

variable {crc : List UInt8 → UInt32} {s s' : PersistentMessageQueue N}

/-- The destructor: a flush, and the index file if anything is left to read. -/
theorem destroy_trace {dir : Dir} (h : s.destroy crc = some dir) : ∃ ps s₁, Trace s ps s₁ ∧
    (∀ p ∈ ps, ∃ m, p = .flush m) ∧ written ps = s.writtenBy .flushToDisk ∧
    (dir = s₁.dir ∨ s₁.diskIndex ≠ [] ∧ dir = (s₁.saveDiskIndex crc).dir) := by
  have hsave : ∀ s₁ : PersistentMessageQueue N,
      let dir := if 0 < s₁.getStatistics.diskSize then (s₁.saveDiskIndex crc).dir else s₁.dir
      dir = s₁.dir ∨ s₁.diskIndex ≠ [] ∧ dir = (s₁.saveDiskIndex crc).dir := by
    intro s₁
    by_cases hdisk : 0 < s₁.getStatistics.diskSize
    · refine Or.inr ⟨?_, by simp [hdisk]⟩
      rintro hnil
      simp [getStatistics, hnil] at hdisk
    · exact Or.inl (by simp [hdisk])
  obtain ⟨s₁, hs₁, rfl⟩ := Option.map_eq_some_iff.mp h
  split_ifs at hs₁ with hmem
  · obtain ⟨r, hr, rfl⟩ := Option.map_eq_some_iff.mp hs₁
    obtain ⟨ps, htrace, hps, hwritten⟩ := flushLoop_trace hr
    refine ⟨ps, r.1, htrace, hps, ?_, hsave r.1⟩
    rw [hwritten, writtenBy, hr]
    rfl
  · obtain rfl := Option.some.inj hs₁
    refine ⟨[], s, .nil s, by simp, ?_, hsave s⟩
    have hnil : s.ringMessages = [] := by
      have hlen : s.ring.len = 0 := by
        simp only [getStatistics] at hmem
        omega
      rw [ringMessages, Ring.contents_of_empty (Ring.empty_iff_len.mpr hlen), List.map_nil]
    rw [writtenBy, hnil]
    cases s.flushToDisk <;> simp [written]

/-- The constructor touches the index, its read position and the byte counter only. -/
theorem construct_frame [NeZero N] {maxDiskSize : UInt64} {dir : Dir}
    (h : construct crc N maxDiskSize dir = some s) :
    ∃ i c, s = { initial N maxDiskSize dir with diskIndex := i, currentDiskSize := c } := by
  unfold construct at h
  split_ifs at h
  · simp only [rebuildDiskIndex] at h
    rcases (initial N maxDiskSize dir).loadDiskIndex_frame crc with ⟨i, c, hl⟩ | ⟨i, hl⟩
    · rw [hl] at h
      obtain rfl := Option.some.inj h
      exact ⟨i, c, rfl⟩
    · rw [hl] at h
      simp only [Bool.false_eq_true, if_false, rebuildDiskIndexFromData] at h
      split at h
      · obtain rfl := Option.some.inj h
        exact ⟨i, _, rfl⟩
      · obtain ⟨r, -, rfl⟩ := Option.map_eq_some_iff.mp h
        exact ⟨_, _, rfl⟩
  · obtain rfl := Option.some.inj h
    exact ⟨_, _, rfl⟩

/-- A step is a trace of parts, and then nothing, a `clear` or a new queue. -/
theorem lifeStep_cases [NeZero N] {a : Act} {es : List LogEvent}
    (h : lifeStep crc s a = some (s', es)) :
    (a = .call .clear ∧ s' = s.clear ∧ es = [.erased]) ∨
    (∃ op ps, a = .call op ∧ Trace s ps s' ∧ (∀ p ∈ ps, s.Allows op p) ∧
      written ps = s.writtenIn a ∧ es = (s.writtenIn a).map .wrote) ∨
    (∃ ps s₁ dir, a = .restart ∧ Trace s ps s₁ ∧ (∀ p ∈ ps, ∃ m, p = .flush m) ∧
      written ps = s.writtenIn a ∧ es = (s.writtenIn a).map .wrote ∧
      (dir = s₁.dir ∨ s₁.diskIndex ≠ [] ∧ dir = (s₁.saveDiskIndex crc).dir) ∧
      construct crc N s.maxDiskSize dir = some s') := by
  cases a with
  | call op =>
    obtain ⟨⟨s₁, es₁⟩, hs, heq⟩ := Option.map_eq_some_iff.mp h
    obtain ⟨rfl, rfl⟩ := Prod.mk.inj heq
    by_cases hclear : op = .clear
    · subst hclear
      simp only [step, Option.some.injEq, Prod.mk.injEq] at hs
      exact Or.inl ⟨rfl, hs.1.symm, rfl⟩
    · obtain ⟨ps, htrace, hps, hwritten⟩ := step_trace hs hclear
      refine Or.inr (Or.inl ⟨op, ps, rfl, htrace, hps, hwritten, ?_⟩)
      cases op <;> first
        | rfl
        | exact absurd rfl hclear
  | restart =>
    obtain ⟨dir, hdir, h⟩ := Option.bind_eq_some_iff.mp h
    obtain ⟨s₂, hs₂, heq⟩ := Option.map_eq_some_iff.mp h
    obtain ⟨rfl, rfl⟩ := Prod.mk.inj heq
    obtain ⟨ps, s₁, htrace, hps, hwritten, hsaved⟩ := destroy_trace hdir
    exact Or.inr (Or.inr ⟨ps, s₁, dir, rfl, htrace, hps, hwritten, rfl, hsaved, hs₂⟩)

end Steps

end PersistentMessageQueue

end LuspUpload.MQ
