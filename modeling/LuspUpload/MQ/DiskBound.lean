import LuspUpload.MQ.Coherence

/-!
# MQ.DiskBound — the limit and the length of the data file

`write_to_disk` compares `current_disk_size_` with the limit.  The counter is lowered when a message is
consumed, the file is never cut.  As long as no record is written while the counter is below the length
of the file, the file stays within the limit and one record (`lifetimes_bounded`), over any restarts
and whatever the writes do.
-/

namespace LuspUpload.MQ

open Lib

/-- The size of the last record after one more event. -/
def LogEvent.lastSize (size : ℕ) : LogEvent → ℕ
  | wrote m => (serializeMessage m).length
  | erased => size

/-- The size of the last record written; 0 before the first one. -/
def lastRecordSize (h : List LogEvent) : ℕ := h.foldl LogEvent.lastSize 0

theorem lastRecordSize_wrote (h : List LogEvent) {ms : List IpcMessage} {m : IpcMessage}
    (hlast : ms.getLast? = some m) :
    lastRecordSize (h ++ ms.map .wrote) = (serializeMessage m).length := by
  obtain ⟨ms, rfl⟩ := List.getLast?_eq_some_iff.mp hlast
  simp [lastRecordSize, LogEvent.lastSize]

/-- A record is shorter than `2 ^ 33` bytes, whatever the payload. -/
theorem length_serializeMessage_lt (m : IpcMessage) : (serializeMessage m).length < 2 ^ 33 := by
  have hmod : m.data.length % 2 ^ 32 < 2 ^ 32 := Nat.mod_lt _ (by omega)
  simp only [serializeMessage, List.length_append, leBytes_length, List.length_take]
  omega

namespace OStream

/-- The bytes that a write adds to the file are at most those of the record. -/
theorem length_write_le (landed : Option ℕ) (record : List UInt8) (w : OStream) :
    (w.write landed record).2.length ≤ record.length := by
  rcases w with _ | ⟨_ | _, wrote⟩
  · exact Nat.zero_le _
  · show (record.take _).length ≤ _
    rw [List.length_take]
    exact Nat.min_le_right _ _
  · exact Nat.zero_le _

/-- Creating the file adds no bytes. -/
theorem getD_create (w : OStream) (file : Option (List UInt8)) (bytes : List UInt8) :
    (((w.create file).map (· ++ bytes)).getD []).length ≤ (file.getD []).length + bytes.length := by
  rcases w with _ | _
  · cases file <;> simp [create]
  · simp [create]

end OStream

namespace PersistentMessageQueue

variable {N : ℕ} {s s' : PersistentMessageQueue N}

/-- The counter covers the file. -/
def Covered (s : PersistentMessageQueue N) : Prop := s.dir.bytes.length ≤ s.currentDiskSize.toNat

instance (s : PersistentMessageQueue N) : Decidable s.Covered := inferInstanceAs (Decidable (_ ≤ _))

/-- A step that appends a record finds the counter covering the file. -/
def WritesCovered (s : PersistentMessageQueue N) (a : Act) : Prop := s.writtenIn a ≠ [] → s.Covered

instance (s : PersistentMessageQueue N) (a : Act) : Decidable (s.WritesCovered a) :=
  inferInstanceAs (Decidable (_ → _))

/-! ### Parts of a call -/

/-- A record that is written: the counter still covers the file, and was below the limit before. -/
theorem Covered.write (h : s.Covered) (hmax : s.maxDiskSize.toNat + 2 ^ 33 ≤ 2 ^ 64) {m : IpcMessage}
    (hok : (s.writeToDisk m).2 = true) (r : Ring N MemoryNode) :
    Covered { (s.writeToDisk m).1 with ring := r } ∧ (s.writeToDisk m).1.maxDiskSize = s.maxDiskSize ∧
      (s.writeToDisk m).1.dir.bytes.length ≤ s.maxDiskSize.toNat + (serializeMessage m).length := by
  have hroom : s.currentDiskSize < s.maxDiskSize := by simpa [writeToDisk_snd] using hok
  have hgo : ¬ s.maxDiskSize ≤ s.currentDiskSize := by simpa using hroom
  have hlt := UInt64.lt_iff_toNat_lt.mp hroom
  have hrecord := length_serializeMessage_lt m
  have hcounter : (s.currentDiskSize + .ofNat (serializeMessage m).length).toNat =
      s.currentDiskSize.toNat + (serializeMessage m).length := by
    rw [UInt64.toNat_add, UInt64.toNat_ofNat_of_lt' (by
      show (serializeMessage m).length < 2 ^ 64
      omega)]
    exact Nat.mod_eq_of_lt (by omega)
  rw [writeToDisk, if_neg hgo]
  set writer := s.dataWriter.reopen s.dir.outcome.opens
  have hgrow := writer.getD_create s.dir.data (writer.write s.dir.outcome.landed (serializeMessage m)).2
  have hadded := writer.length_write_le s.dir.outcome.landed (serializeMessage m)
  have hbefore : (s.dir.data.getD []).length ≤ s.currentDiskSize.toNat := h
  refine ⟨?_, rfl, ?_⟩
  · show (((writer.create s.dir.data).map _).getD []).length ≤ (s.currentDiskSize + _).toNat
    rw [hcounter]
    omega
  · show (((writer.create s.dir.data).map _).getD []).length ≤ _
    omega

theorem Trace.quiet {ps : List Part} (ht : Trace s ps s') (h : written ps = []) :
    s'.dir = s.dir ∧ s'.maxDiskSize = s.maxDiskSize := by
  induction ht with
  | nil s => exact ⟨rfl, rfl⟩
  | @cons s s₁ s₂ p ps hd _ ih =>
    have hnone : ∀ q ∈ p :: ps, q.written = none := List.filterMap_eq_nil_iff.mp h
    obtain ⟨hdir, -, -, hmax⟩ := hd.quiet (hnone p List.mem_cons_self)
    obtain ⟨hdir', hmax'⟩ := ih (List.filterMap_eq_nil_iff.mpr fun q hq =>
      hnone q (List.mem_cons_of_mem _ hq))
    exact ⟨hdir'.trans hdir, hmax'.trans hmax⟩

/-- Every part but the one that lowers the counter keeps it covering the file. -/
theorem Covered.does_quiet (h : s.Covered) {p : Part} (hw : p.written = none) (htake : p ≠ .takeLog)
    (hd : Does s p s') : s'.Covered := by
  cases hd with
  | takeLog => exact absurd rfl htake
  | spill => exact absurd hw (by simp [Part.written])
  | flush => exact absurd hw (by simp [Part.written])
  | _ => exact h

/-- A trace that consumes nothing from disk: after its last record the file is within the limit and that
record. -/
theorem Covered.trace {ps : List Part} (ht : Trace s ps s') (h : s.Covered)
    (hmax : s.maxDiskSize.toNat + 2 ^ 33 ≤ 2 ^ 64) (htake : ∀ p ∈ ps, p ≠ .takeLog) :
    s'.maxDiskSize = s.maxDiskSize ∧ ∀ m, (written ps).getLast? = some m →
      s'.dir.bytes.length ≤ s.maxDiskSize.toNat + (serializeMessage m).length := by
  induction ht with
  | nil s => exact ⟨rfl, by simp [written]⟩
  | @cons s s₁ s₂ p ps hd hrest ih =>
    have htake' : ∀ q ∈ ps, q ≠ .takeLog := fun q hq => htake q (List.mem_cons_of_mem _ hq)
    rcases hw : p.written with _ | x
    · obtain ⟨-, -, -, hsame⟩ := hd.quiet hw
      have hcons : written (p :: ps) = written ps := List.filterMap_cons_none hw
      rw [hcons, ← hsame]
      exact ih (h.does_quiet hw (htake p List.mem_cons_self) hd) (hsame ▸ hmax) htake'
    · obtain ⟨hok, r, rfl⟩ := hd.appends hw
      obtain ⟨hcovered, hsame, hbytes⟩ := h.write hmax hok r
      have hcons : written (p :: ps) = x :: written ps := List.filterMap_cons_some hw
      obtain ⟨hsame', hlast⟩ := ih hcovered (by rw [hsame]; exact hmax) htake'
      rw [hsame] at hlast
      refine ⟨hsame'.trans hsame, ?_⟩
      intro m hm
      rw [hcons] at hm
      rcases hnil : written ps with _ | ⟨y, ys⟩
      · -- the record just written is the last one
        rw [hnil, List.getLast?_singleton] at hm
        obtain rfl := Option.some.inj hm
        rw [(hrest.quiet hnil).1]
        exact hbytes
      · rw [hnil, List.getLast?_cons_cons, ← hnil] at hm
        exact hlast m hm

/-- A call that appends a record consumes none. -/
theorem Allows.no_takeLog {op : Op} {p : Part} (h : s.Allows op p) (hw : s.writtenBy op ≠ []) :
    p ≠ .takeLog := by
  cases op with
  | enqueue m => rcases h with rfl | rfl | rfl <;> simp
  | flushToDisk => obtain ⟨m, rfl⟩ := h; simp
  | _ => exact absurd rfl hw

/-! ### Steps and runs -/

/-- The file is within the limit and the last record. -/
structure Bounded (maxDiskSize : UInt64) (s : PersistentMessageQueue N) (h : List LogEvent) : Prop where
  limit : s.maxDiskSize = maxDiskSize
  bytes : s.dir.bytes.length ≤ maxDiskSize.toNat + lastRecordSize h

variable {maxDiskSize : UInt64} {crc : List UInt8 → UInt32} {h es : List LogEvent}

theorem Bounded.trace {ps : List Part} (hs : Bounded maxDiskSize s h) (ht : Trace s ps s')
    (hmax : maxDiskSize.toNat + 2 ^ 33 ≤ 2 ^ 64)
    (hcovered : written ps ≠ [] → s.Covered ∧ ∀ p ∈ ps, p ≠ .takeLog) :
    Bounded maxDiskSize s' (h ++ (written ps).map .wrote) := by
  rcases hnil : written ps with _ | ⟨x, xs⟩
  · obtain ⟨hdir, hsame⟩ := ht.quiet hnil
    refine ⟨hsame.trans hs.limit, ?_⟩
    rw [hdir, List.map_nil, List.append_nil]
    exact hs.bytes
  · obtain ⟨hin, htake⟩ := hcovered (by simp [hnil])
    obtain ⟨hsame, hlast⟩ := hin.trace ht (hs.limit ▸ hmax) htake
    rw [hs.limit, hnil] at hlast
    refine ⟨hsame.trans hs.limit, ?_⟩
    obtain ⟨m, hm⟩ : ∃ m, (x :: xs).getLast? = some m :=
      ⟨_, List.getLast?_eq_getLast_of_ne_nil (List.cons_ne_nil x xs)⟩
    rw [lastRecordSize_wrote h hm]
    exact hlast m hm

theorem Bounded.step [NeZero N] {a : Act} (hs : Bounded maxDiskSize s h)
    (hmax : maxDiskSize.toNat + 2 ^ 33 ≤ 2 ^ 64) (hcovered : s.WritesCovered a)
    (hstep : lifeStep crc s a = some (s', es)) : Bounded maxDiskSize s' (h ++ es) := by
  rcases lifeStep_cases hstep with ⟨rfl, rfl, rfl⟩ | ⟨op, ps, rfl, htrace, hps, hwritten, rfl⟩ |
      ⟨ps, s₁, dir, rfl, htrace, hps, hwritten, rfl, hdir, hnew⟩
  · exact ⟨hs.limit, Nat.zero_le _⟩
  · rw [← hwritten]
    refine hs.trace htrace hmax ?_
    intro hne
    rw [hwritten] at hne
    exact ⟨hcovered hne, fun p hp => (hps p hp).no_takeLog hne⟩
  · rw [← hwritten]
    obtain ⟨hlimit, hbytes⟩ := hs.trace htrace hmax fun hne => ⟨hcovered (hwritten ▸ hne), by
      intro p hp
      obtain ⟨m, rfl⟩ := hps p hp
      simp⟩
    have hdata : dir.bytes = s₁.dir.bytes := by
      rcases hdir with rfl | ⟨hne, rfl⟩
      · rfl
      · rw [saveDiskIndex, if_neg hne]
        rfl
    obtain ⟨i, c, rfl⟩ := construct_frame hnew
    refine ⟨hs.limit, ?_⟩
    show dir.bytes.length ≤ _
    rw [hdata]
    exact hbytes

/-- **Bounded disk use**, as long as no record is written while the counter is below the length of the
file: over any calls, any number of restarts and any outcomes of the writes. -/
theorem lifetimes_bounded (crc : List UInt8 → UInt32) (N : ℕ) [NeZero N] (maxDiskSize : UInt64)
    (hmax : maxDiskSize.toNat + 2 ^ 33 ≤ 2 ^ 64) (outcomes : List WriteOutcome) (as : List Act)
    (hcovered : (lifetimes crc N).Along WritesCovered
      (initial N maxDiskSize { outcomes := outcomes }) as)
    {s : PersistentMessageQueue N} {h : List LogEvent}
    (hrun : (lifetimes crc N).run (initial N maxDiskSize { outcomes := outcomes }) as = some (s, h)) :
    s.dir.bytes.length ≤ maxDiskSize.toNat + lastRecordSize h := by
  have hstart : Bounded maxDiskSize (initial N maxDiskSize { outcomes := outcomes }) [] :=
    ⟨rfl, Nat.zero_le _⟩
  have hbounded := Machine.Along.invariant (M := lifetimes crc N) (I := Bounded maxDiskSize) ?_
    hcovered hstart hrun
  · exact hbounded.bytes
  · intro s h a s' es hs hcond hstep
    exact hs.step hmax hcond hstep

/-- Two records, the second one torn by a failing write, then a restart and a delivery from disk. -/
theorem lifetimes_bounded_torn : ∃ s h, (lifetimes (fun _ => 0) 2).run
    (initial 2 30 { outcomes := [{}, { landed := some 10 }] }) [.call (.enqueue ⟨1, 0, 0, [65]⟩),
      .call (.enqueue ⟨2, 0, 0, [66]⟩), .call (.enqueue ⟨3, 0, 0, [67]⟩), .restart, .call .dequeue] =
      some (s, h) ∧ s.dir.bytes.length ≤ (30 : UInt64).toNat + lastRecordSize h := by
  have hend : ((lifetimes (fun _ => 0) 2).run (initial 2 30
      { outcomes := [{}, { landed := some 10 }] }) [.call (.enqueue ⟨1, 0, 0, [65]⟩),
      .call (.enqueue ⟨2, 0, 0, [66]⟩), .call (.enqueue ⟨3, 0, 0, [67]⟩), .restart,
      .call .dequeue]).isSome = true := by decide +kernel
  obtain ⟨⟨s, h⟩, hrun⟩ := Option.isSome_iff_exists.mp hend
  exact ⟨s, h, hrun, lifetimes_bounded _ 2 30 (by decide) _ _ (by decide +kernel) hrun⟩

/-- Two records are delivered from disk before the third one is written: 75 bytes under a limit of 30. -/
theorem lifetimes_unbounded : ∃ s h, (lifetimes (fun _ => 0) 2).run (fresh 2 30)
    [.call (.enqueue ⟨1, 0, 0, [65]⟩), .call (.enqueue ⟨2, 0, 0, [66]⟩), .call (.enqueue ⟨3, 0, 0, [67]⟩),
      .call .dequeue, .call .dequeue, .call .dequeue, .call (.enqueue ⟨4, 0, 0, [68]⟩),
      .call (.enqueue ⟨5, 0, 0, [69]⟩)] = some (s, h) ∧ s.dir.bytes.length = 75 ∧
    lastRecordSize h = 25 ∧ ¬ s.dir.bytes.length ≤ (30 : UInt64).toNat + lastRecordSize h := by
  have hend : ((lifetimes (fun _ => 0) 2).run (fresh 2 30) [.call (.enqueue ⟨1, 0, 0, [65]⟩),
      .call (.enqueue ⟨2, 0, 0, [66]⟩), .call (.enqueue ⟨3, 0, 0, [67]⟩), .call .dequeue,
      .call .dequeue, .call .dequeue, .call (.enqueue ⟨4, 0, 0, [68]⟩),
      .call (.enqueue ⟨5, 0, 0, [69]⟩)]).map
        (fun r => (r.1.dir.bytes.length, lastRecordSize r.2)) = some (75, 25) := by decide +kernel
  obtain ⟨⟨s, h⟩, hrun, hq⟩ := Option.map_eq_some_iff.mp hend
  obtain ⟨hbytes, hlast⟩ := Prod.mk.inj hq
  refine ⟨s, h, hrun, hbytes, hlast, ?_⟩
  rw [hbytes, hlast]
  decide

end PersistentMessageQueue

end LuspUpload.MQ
