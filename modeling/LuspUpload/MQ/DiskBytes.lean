import LuspUpload.MQ.Coherence

/-!
# MQ.DiskBytes — the byte counter and the unread entries

`current_disk_size_` is raised by `write_to_disk` and lowered by `read_from_disk` and `pop_front`, each
by the size of the entry.  `load_from_disk` moves entries to memory, or skips them, and leaves the
counter alone.  So within one lifetime the counter is the sum of the unread entries as long as no
`load_from_disk` finds an entry to move (`run_accounted`).
-/

namespace LuspUpload.MQ

open Lib

theorem sum_layout {ms : List IpcMessage} (h : ∀ m ∈ ms, m.Fits) (offset : ℕ) :
    ((layout offset ms).map Prod.snd).sum = (records ms).length := by
  induction ms generalizing offset with
  | nil => rfl
  | cons m ms ih =>
    rw [layout, List.map_cons, List.sum_cons, ih fun x hx => h x (by simp [hx]), records_cons,
      List.length_append, length_serializeMessage (h m (by simp))]

namespace PersistentMessageQueue

variable {N : ℕ} {s s' : PersistentMessageQueue N} {log : List IpcMessage}

/-- The bytes that the unread entries stand for. -/
def unreadBytes (s : PersistentMessageQueue N) : ℕ := (s.unreadEntries.map Prod.snd).sum

/-- **Disk accounting.**  The counter is the sum of the unread entries, as a `uint64_t` and, while the
file is shorter than `2 ^ 64` bytes, as a number; `enqueue` gives up only when that sum has reached
the limit. -/
structure Accounted (s : PersistentMessageQueue N) : Prop where
  counter : s.currentDiskSize = .ofNat s.unreadBytes
  exact : s.dir.bytes.length < 2 ^ 64 → s.currentDiskSize.toNat = s.unreadBytes
  refuses : ∀ m, (s.enqueue m).2 = false → s.ring.Full ∧ s.maxDiskSize.toNat ≤ s.unreadBytes

/-- A `load_from_disk` finds nothing to move. -/
def LoadsNothing (s : PersistentMessageQueue N) (op : Op) : Prop :=
  op = .loadFromDisk → ¬ s.TakesFromDisk op

instance (s : PersistentMessageQueue N) (op : Op) : Decidable (s.LoadsNothing op) :=
  inferInstanceAs (Decidable (_ → _))

/-- The counter is booked: it agrees with the entries from the read position on. -/
structure Booked (s : PersistentMessageQueue N) : Prop where
  pos : s.diskReadPos ≤ s.diskIndex.length
  counter : s.currentDiskSize = .ofNat s.unreadBytes

/-! ### Parts of a call -/

/-- A record that is appended is one more unread entry. -/
theorem Booked.write (h : Booked s) {m : IpcMessage} (hm : m.Fits) (hok : (s.writeToDisk m).2 = true)
    (r : Ring N MemoryNode) : Booked { (s.writeToDisk m).1 with ring := r } := by
  have hgo : ¬ s.maxDiskSize ≤ s.currentDiskSize := by simpa [writeToDisk_snd] using hok
  have hsize : (serializeMessage m).length % 2 ^ 32 = (serializeMessage m).length := by
    rw [length_serializeMessage hm]
    exact Nat.mod_eq_of_lt (recordSize_lt hm)
  rw [writeToDisk, if_neg hgo]
  refine ⟨?_, ?_⟩
  · show s.diskReadPos ≤ (s.diskIndex ++ _).length
    have := h.pos
    rw [List.length_append]
    omega
  · show s.currentDiskSize + _ = .ofNat (((s.diskIndex ++ _).drop s.diskReadPos).map Prod.snd).sum
    rw [List.drop_append_of_le_length h.pos, List.map_append, List.sum_append, h.counter, hsize,
      UInt64.ofNat_add]
    simp [unreadBytes, unreadEntries]

/-- An entry that is consumed with the counter lowered. -/
theorem Booked.takeLog (h : Booked s) {e : Entry} (he : s.diskIndex[s.diskReadPos]? = some e)
    (r : IStream) : Booked { s with
      dataReader := r
      diskReadPos := s.diskReadPos + 1
      currentDiskSize := s.currentDiskSize - .ofNat e.2 } := by
  obtain ⟨hlt, hget⟩ := List.getElem?_eq_some_iff.mp he
  have hsum : s.unreadBytes = e.2 + ((s.diskIndex.drop (s.diskReadPos + 1)).map Prod.snd).sum := by
    rw [unreadBytes, unreadEntries, List.drop_eq_getElem_cons hlt, hget, List.map_cons, List.sum_cons]
  refine ⟨hlt, ?_⟩
  show s.currentDiskSize - _ = .ofNat ((s.diskIndex.drop (s.diskReadPos + 1)).map Prod.snd).sum
  rw [h.counter, hsum, UInt64.ofNat_add, UInt64.add_comm, UInt64.add_sub_cancel]

theorem Booked.does {crc : List UInt8 → UInt32} (h : Booked s) (hlaid : Laid crc s log) {p : Part}
    (hp : p.Fits) (hload : p ≠ .load ∧ p ≠ .skip) (hd : Does s p s') : Booked s' := by
  cases hd with
  | spill m hfull hok => exact h.write (hlaid.fits_written hp rfl (.spill s m hfull hok)) hok _
  | flush m hne hhead hok =>
    exact h.write (hlaid.fits_written hp rfl (.flush s m hne hhead hok)) hok _
  | takeLog r e he => exact h.takeLog he r
  | load => exact absurd rfl hload.1
  | skip => exact absurd rfl hload.2
  | _ => exact ⟨h.pos, h.counter⟩

/-! ### Calls and runs -/

/-- What a run keeps: the file is that of some log, new records go to its end, the counter is booked. -/
structure InOrder (s : PersistentMessageQueue N) : Prop where
  laid : ∃ log, Laid (fun _ => 0) s log
  outcomes : s.dir.outcomes = []
  inPlace : s.InPlace
  booked : Booked s

theorem inOrder_fresh [NeZero N] (maxDiskSize : UInt64) : InOrder (fresh N maxDiskSize) where
  laid := ⟨[], laid_initial maxDiskSize []⟩
  outcomes := rfl
  inPlace := Or.inr rfl
  booked := ⟨Nat.le_refl 0, rfl⟩

theorem InOrder.trace {ps : List Part} (ht : Trace s ps s') (h : InOrder s)
    (hps : ∀ p ∈ ps, p.Fits ∧ p ≠ .load ∧ p ≠ .skip) : InOrder s' := by
  induction ht with
  | nil => exact h
  | cons hd _ ih =>
    obtain ⟨hp, hload⟩ := hps _ List.mem_cons_self
    obtain ⟨log, hlaid⟩ := h.laid
    obtain ⟨hlaid', hin⟩ := hlaid.trace (.single hd) (by simpa using hp) (fun _ => h.inPlace)
      (succeeds_of_nil h.outcomes _)
    exact ih ⟨⟨_, hlaid'⟩, keeps_noOutcomes.does h.outcomes hd, hin h.inPlace,
      h.booked.does hlaid hp hload hd⟩
      fun q hq => hps q (List.mem_cons_of_mem _ hq)

/-- One call. -/
theorem InOrder.step [NeZero N] {op : Op} {es : List (Event IpcMessage)} (h : InOrder s) (hop : op.Fits)
    (hload : s.LoadsNothing op) (hs : step s op = some (s', es)) : InOrder s' := by
  by_cases hclear : op = .clear
  · subst hclear
    simp only [PersistentMessageQueue.step, Option.some.injEq, Prod.mk.injEq] at hs
    rw [← hs.1]
    exact ⟨⟨[], laid_clear s⟩, h.outcomes, Or.inr rfl, ⟨Nat.le_refl 0, rfl⟩⟩
  · obtain ⟨ps, htrace, hps, -⟩ := step_trace hs hclear
    refine h.trace htrace ?_
    intro p hp
    have hallow := hps p hp
    refine ⟨hallow.fits hop, ?_⟩
    cases op with
    | loadFromDisk => exact absurd hallow.2 (hload rfl)
    | enqueue m => rcases hallow with rfl | rfl | rfl <;> simp
    | dequeue => rcases hallow with rfl | rfl | rfl <;> simp
    | popFront => rcases hallow with rfl | rfl | rfl <;> simp
    | flushToDisk => obtain ⟨m, rfl⟩ := hallow; simp
    | peek => exact hallow.elim
    | clear => exact hallow.elim

/-- The unread entries stand for bytes of the file. -/
theorem Laid.unreadBytes_le {crc : List UInt8 → UInt32} (h : Laid crc s log) :
    s.unreadBytes ≤ s.dir.bytes.length := by
  have htotal := sum_layout h.fits_log 0
  rw [← List.take_append_drop s.diskReadPos (layout 0 log), List.map_append, List.sum_append] at htotal
  rw [unreadBytes, unreadEntries, h.index, h.bytes]
  omega

/-- `enqueue` returns false only after `write_to_disk` has refused. -/
theorem enqueue_refused {m : IpcMessage} (h : (s.enqueue m).2 = false) :
    s.ring.Full ∧ s.maxDiskSize ≤ s.currentDiskSize := by
  have hframe : (s.bumpId m).currentDiskSize = s.currentDiskSize ∧
      (s.bumpId m).maxDiskSize = s.maxDiskSize := by
    unfold bumpId
    split_ifs <;> exact ⟨rfl, rfl⟩
  by_cases hfull : s.ring.Full
  · refine ⟨hfull, ?_⟩
    simp only [enqueue, bumpId_ring, hfull, if_true] at h
    rw [writeToDisk_snd, hframe.1, hframe.2] at h
    by_contra hlt
    rw [if_pos (by simpa using hlt)] at h
    exact absurd h (by simp)
  · simp [enqueue, hfull] at h

theorem InOrder.accounted (h : InOrder s) : Accounted s where
  counter := h.booked.counter
  exact hlt := by
    obtain ⟨log, hlaid⟩ := h.laid
    have := hlaid.unreadBytes_le
    rw [h.booked.counter]
    exact UInt64.toNat_ofNat_of_lt' (by
      show s.unreadBytes < 2 ^ 64
      omega)
  refuses m hm := by
    obtain ⟨hfull, hle⟩ := enqueue_refused hm
    refine ⟨hfull, ?_⟩
    have := UInt64.le_iff_toNat_le.mp hle
    rw [h.booked.counter, UInt64.toNat_ofNat'] at this
    exact this.trans (Nat.mod_le _ _)

/-- **Disk accounting within one lifetime**: as long as no `load_from_disk` moves an entry. -/
theorem run_accounted (N : ℕ) [NeZero N] (maxDiskSize : UInt64) (ops : List Op)
    (hops : ∀ op ∈ ops, op.Fits) (hload : (machine N).Along LoadsNothing (fresh N maxDiskSize) ops)
    {s : PersistentMessageQueue N} {h : List (Event IpcMessage)}
    (hrun : (machine N).run (fresh N maxDiskSize) ops = some (s, h)) : Accounted s := by
  have hall := hload.and (Machine.along_of_forall hops _)
  have horder := Machine.Along.invariant (M := machine N) (I := fun s _ => InOrder s) ?_ hall
    (h := []) (inOrder_fresh maxDiskSize) hrun
  · exact horder.accounted
  · intro s h op s' es hs hcond hstep
    exact hs.step hcond.2 hcond.1 hstep

/-- Two messages spill; one comes back from disk and one is dropped there. -/
theorem run_accounted_drained : ∃ s h, (machine 2).run (fresh 2 50)
    [.enqueue ⟨1, 0, 0, [65]⟩, .loadFromDisk, .enqueue ⟨2, 0, 0, [66]⟩, .enqueue ⟨3, 0, 0, [67]⟩, .dequeue,
      .dequeue, .popFront, .flushToDisk] = some (s, h) ∧ Accounted s := by
  have hend : ((machine 2).run (fresh 2 50) [.enqueue ⟨1, 0, 0, [65]⟩, .loadFromDisk,
      .enqueue ⟨2, 0, 0, [66]⟩, .enqueue ⟨3, 0, 0, [67]⟩, .dequeue, .dequeue, .popFront,
      .flushToDisk]).isSome = true := by decide +kernel
  obtain ⟨⟨s, h⟩, hrun⟩ := Option.isSome_iff_exists.mp hend
  refine ⟨s, h, hrun, run_accounted 2 50 _ ?_ ?_ hrun⟩
  · simp [Op.Fits, IpcMessage.Fits]
  · decide +kernel

/-- Message 2 is moved from disk to memory: 25 bytes stay booked for no entry, and message 3 is refused
with nothing on disk. -/
theorem load_keeps_bytes : ∃ s h, (machine 2).run (fresh 2 25)
    [.enqueue ⟨1, 0, 0, [65]⟩, .enqueue ⟨2, 0, 0, [66]⟩, .dequeue, .loadFromDisk] = some (s, h) ∧
    s.currentDiskSize = 25 ∧ s.unreadBytes = 0 ∧ (s.enqueue ⟨3, 0, 0, [67]⟩).2 = false ∧
    ¬ Accounted s := by
  have hend : ((machine 2).run (fresh 2 25) [.enqueue ⟨1, 0, 0, [65]⟩, .enqueue ⟨2, 0, 0, [66]⟩,
      .dequeue, .loadFromDisk]).map
        (fun r => (r.1.currentDiskSize, r.1.unreadBytes, (r.1.enqueue ⟨3, 0, 0, [67]⟩).2)) =
      some (25, 0, false) := by decide +kernel
  obtain ⟨⟨s, h⟩, hrun, hq⟩ := Option.map_eq_some_iff.mp hend
  simp only [Prod.mk.injEq] at hq
  obtain ⟨hcounter, hunread, hrefused⟩ := hq
  refine ⟨s, h, hrun, hcounter, hunread, hrefused, ?_⟩
  rintro ⟨hbooked, -, -⟩
  rw [hcounter, hunread] at hbooked
  exact absurd hbooked (by decide)

end PersistentMessageQueue

end LuspUpload.MQ
