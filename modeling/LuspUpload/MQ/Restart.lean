import LuspUpload.MQ.Recovery
import LuspUpload.MQ.Refine

/-!
# MQ.Restart — the destructor, then the constructor on the same directory

The data file is append-only and the index file lists all its records from the first one on, with no
read position.  So the new queue holds every message ever written to disk: the pending ones, and
those that the old queue had read back from disk.  The pending messages are restored exactly when there
are none of the latter.
-/

namespace LuspUpload.MQ

open Lib

namespace PersistentMessageQueue

variable {N : ℕ} {crc : List UInt8 → UInt32}

/-- The pending messages after a restart are those accepted and not removed in the history `h`. -/
def RestartRestores (crc : List UInt8 → UInt32) (N' : ℕ) [NeZero N'] (maxDiskSize : UInt64)
    (s : PersistentMessageQueue N) (h : List (Event IpcMessage)) : Prop :=
  ∃ dir, ∃ s' : PersistentMessageQueue N', s.destroy crc = some dir ∧
    construct crc N' maxDiskSize dir = some s' ∧
    (s'.stored : Multiset IpcMessage) + Event.removes h = Event.accepts h

/-- The destructor's flush never meets the disk limit. -/
def FlushHasRoom (s : PersistentMessageQueue N) : Prop :=
  ∀ s₁ k, s.flushToDisk = some (s₁, k) → s₁.currentDiskSize < s₁.maxDiskSize

/-! ### No index file before the destructor -/

theorem keeps_noIndex : Keeps fun s : PersistentMessageQueue N => s.dir.index = none where
  put _ _ h _ := h
  drop _ _ h _ := h
  write s m h := by rw [writeToDisk_index]; exact h
  move _ _ _ _ _ _ _ h := h

theorem run_noIndex [NeZero N] {s s' : PersistentMessageQueue N} {ops : List Op}
    {es : List (Event IpcMessage)} (hrun : (machine N).run s ops = some (s', es))
    (h : s.dir.index = none) : s'.dir.index = none := by
  refine Machine.run_induction
    (R := fun s _ s' => s.dir.index = none → s'.dir.index = none) (fun _ h => h) ?_ ?_ hrun h
  · intro s₁ s₂ s₃ _ _ h₁ h₂ h
    exact h₂ (h₁ h)
  · intro s₁ op s₂ es' hs h
    by_cases hop : op = .clear
    · subst hop
      simp only [machine, step, Option.some.injEq, Prod.mk.injEq] at hs
      rw [← hs.1]
      rfl
    · exact keeps_noIndex.step h hs hop

/-! ### The destructor -/

section Destroy

variable {s : PersistentMessageQueue N} {m t u : List IpcMessage}

/-- The destructor's flush appends the ring to the log. -/
theorem Rep.destroy_flush (h : Rep s ⟨m, t, u⟩) (hroom : s.FlushHasRoom) :
    ∃ s₁, ∃ u' : List IpcMessage, (if 0 < s.getStatistics.memorySize then s.flushToDisk.map (·.1)
      else some s) = some s₁ ∧
      Rep s₁ ⟨[], t, u'⟩ ∧ (u' : Multiset IpcMessage) = (m ++ u : List IpcMessage) ∧
      (s.dir.index = none → s₁.dir.index = none) := by
  have hmem : s.getStatistics.memorySize = m.length := by
    show s.ring.len = _
    rw [← Ring.length_contents, h.mem, List.length_map]
  by_cases hpos : 0 < s.getStatistics.memorySize
  · obtain ⟨s₁, k, m', u', hs₁, hrep, hmoves, -, hend⟩ := h.flushToDisk
    have hm' : m' = [] := hend.resolve_right (not_not.mpr (hroom s₁ k hs₁))
    subst hm'
    refine ⟨s₁, u', ?_, hrep, ?_, fun hnone => keeps_noIndex.flushLoop hnone hs₁⟩
    · rw [if_pos hpos, hs₁]
      rfl
    · have := hmoves.conserve
      simpa [Event.accepts, Event.removes, TwoTier.stored] using this.symm
  · have hm : m = [] := List.length_eq_zero_iff.mp (by omega)
    subst hm
    exact ⟨s, u, if_neg hpos, h, rfl, id⟩

/-- What the destructor leaves behind: the records of the log, the flushed ring included. -/
theorem Rep.destroy (h : Rep s ⟨m, t, u⟩) (hindex : s.dir.index = none) (hroom : s.FlushHasRoom) :
    ∃ dir, ∃ u' : List IpcMessage, s.destroy crc = some dir ∧
      (u' : Multiset IpcMessage) = (m ++ u : List IpcMessage) ∧
      (∀ x ∈ t ++ u', x.Fits) ∧
      (dir.data = some (records (t ++ u')) ∨ dir.data = none ∧ t ++ u' = []) ∧
      (dir.index = none ∨ ∃ total, dir.index = some (savedIndex crc (layout 0 (t ++ u')) total)) := by
  obtain ⟨s₁, u', hs₁, hrep, hu', hnone⟩ := h.destroy_flush hroom
  have hdata : s₁.dir.data = some (records (t ++ u')) ∨ s₁.dir.data = none ∧ t ++ u' = [] := by
    have hbytes := hrep.bytes
    rcases hfile : s₁.dir.data with _ | bytes
    · refine Or.inr ⟨rfl, ?_⟩
      rw [Dir.bytes, hfile] at hbytes
      have hle := length_layout_le hrep.fits_log
      rw [← hbytes] at hle
      exact List.length_eq_zero_iff.mp (Nat.le_zero.mp hle)
    · left
      rw [Dir.bytes, hfile] at hbytes
      exact congrArg some hbytes
  unfold PersistentMessageQueue.destroy
  rw [hs₁, Option.map_some]
  by_cases hdisk : 0 < s₁.getStatistics.diskSize
  · rw [if_pos hdisk]
    have hne : s₁.diskIndex ≠ [] := by
      rintro hnil
      simp [getStatistics, hnil] at hdisk
    refine ⟨_, u', rfl, hu', hrep.fits_log, ?_, Or.inr ⟨s₁.currentDiskSize, ?_⟩⟩
    · rw [saveDiskIndex, if_neg hne]
      exact hdata
    · rw [saveDiskIndex, if_neg hne, hrep.index]
      rfl
  · rw [if_neg hdisk]
    exact ⟨_, u', rfl, hu', hrep.fits_log, hdata, Or.inl (hnone hindex)⟩

/-- After a restart the new queue holds the whole log and the old ring. -/
theorem Rep.restart {N' : ℕ} [NeZero N'] {maxDiskSize : UInt64} (h : Rep s ⟨m, t, u⟩)
    (hindex : s.dir.index = none) (hroom : s.FlushHasRoom) :
    ∃ dir, ∃ s' : PersistentMessageQueue N', s.destroy crc = some dir ∧
      construct crc N' maxDiskSize dir = some s' ∧
      (s'.stored : Multiset IpcMessage) = (t ++ (m ++ u) : List IpcMessage) := by
  obtain ⟨dir, u', hdir, hu', hfits, hdata, hidx⟩ := @Rep.destroy N crc s m t u h hindex hroom
  have hlog : ((t ++ u' : List IpcMessage) : Multiset IpcMessage) =
      (t ++ (m ++ u) : List IpcMessage) := by
    rw [← Multiset.coe_add, hu', Multiset.coe_add]
  rcases hdata with hdata | ⟨hdata, hnil⟩
  · obtain ⟨s', hs', hrest⟩ := @construct_records N' crc _ _ maxDiskSize _ hdata hfits hidx
    exact ⟨dir, s', hdir, hs', by rw [hrest.stored hfits, hlog]⟩
  · refine ⟨dir, initial N' maxDiskSize dir, hdir, ?_, ?_⟩
    · rw [construct, hdata]
      rfl
    · rw [← hlog, hnil, stored_initial]

end Destroy

/-- **Restart**: the pending messages are restored exactly when no call of the run took a message from
the disk tier. -/
theorem restart_restores_iff (crc : List UInt8 → UInt32) (N N' : ℕ) [NeZero N] [NeZero N']
    (maxDiskSize maxDiskSize' : UInt64) (ops : List Op) (hops : ∀ op ∈ ops, op.Fits ∧ op ≠ .clear)
    {s : PersistentMessageQueue N} {h : List (Event IpcMessage)}
    (hrun : (machine N).run (fresh N maxDiskSize) ops = some (s, h)) (hroom : s.FlushHasRoom) :
    RestartRestores crc N' maxDiskSize' s h ↔
      (machine N).Along (fun s op => ¬ s.TakesFromDisk op) (fresh N maxDiskSize) ops := by
  obtain ⟨s', h', ⟨m, t, u⟩, hrun', hrep, hmoves, htaken⟩ := run_refines
      (rep_initial (N := N) maxDiskSize) hops
  obtain ⟨rfl, rfl⟩ := Prod.mk.inj (Option.some.inj (hrun'.symm.trans hrun))
  obtain ⟨dir, s₂, hdir, hs₂, hstored⟩ :=
    @Rep.restart N crc _ _ _ _ N' _ maxDiskSize' hrep (run_noIndex hrun rfl) hroom
  have hbal : (Event.accepts h' : Multiset IpcMessage) = Event.removes h' + (m ++ u : List IpcMessage) := by
    have := hmoves.conserve
    simpa [TwoTier.empty, TwoTier.stored] using this
  have htaken' : t = [] ↔ (machine N).Along (fun s op => ¬ s.TakesFromDisk op)
      (fresh N maxDiskSize) ops := htaken
  rw [← htaken']
  have hkey : (s₂.stored : Multiset IpcMessage) + Event.removes h' = Event.accepts h' ↔ t = [] := by
    rw [hstored, hbal, ← Multiset.coe_add, add_assoc,
      add_comm ((m ++ u : List IpcMessage) : Multiset IpcMessage), add_eq_right, Multiset.coe_eq_zero]
  constructor
  · rintro ⟨dir', s₃, hdir', hs₃, heq⟩
    obtain rfl := Option.some.inj (hdir.symm.trans hdir')
    obtain rfl := Option.some.inj (hs₂.symm.trans hs₃)
    exact hkey.mp heq
  · intro ht
    exact ⟨dir, s₂, hdir, hs₂, hkey.mpr ht⟩

/-- Message 2 waits on disk and message 3 in the ring when the queue is destroyed: both come back. -/
theorem restart_restores_spilled : ∃ s h, (machine 2).run (fresh 2 1000)
    [.enqueue ⟨1, 0, 0, [65]⟩, .enqueue ⟨2, 0, 0, [66]⟩, .dequeue, .enqueue ⟨3, 0, 0, [67]⟩] =
      some (s, h) ∧ RestartRestores (fun _ => 0) 3 1000 s h := by
  have hroom : ((machine 2).run (fresh 2 1000) [.enqueue ⟨1, 0, 0, [65]⟩,
      .enqueue ⟨2, 0, 0, [66]⟩, .dequeue, .enqueue ⟨3, 0, 0, [67]⟩]).map
        (fun r => r.1.flushToDisk.map fun q => decide (q.1.currentDiskSize < q.1.maxDiskSize)) =
      some (some true) := by rfl
  obtain ⟨⟨s, h⟩, hrun, hq⟩ := Option.map_eq_some_iff.mp hroom
  refine ⟨s, h, hrun, (restart_restores_iff _ 2 3 1000 1000 _ ?_ hrun ?_).mpr ?_⟩
  · simp [Op.Fits, IpcMessage.Fits]
  · intro s₁ k hs₁
    simp only at hq
    rw [hs₁] at hq
    simpa using hq
  · decide +kernel

/-- Message 2 is delivered from disk and comes back after the restart. -/
theorem restart_redelivers : ∃ s h, (machine 2).run (fresh 2 1000)
    [.enqueue ⟨1, 0, 0, [65]⟩, .enqueue ⟨2, 0, 0, [66]⟩, .dequeue, .dequeue] = some (s, h) ∧
    s.FlushHasRoom ∧ Event.removes h = [⟨1, 0, 0, [65]⟩, ⟨2, 0, 0, [66]⟩] ∧
    ((s.destroy fun _ => 0).bind (construct (fun _ => 0) 2 1000)).map stored =
      some [⟨2, 0, 0, [66]⟩] ∧
    ¬ RestartRestores (fun _ => 0) 2 1000 s h := by
  have hend : ((machine 2).run (fresh 2 1000) [.enqueue ⟨1, 0, 0, [65]⟩,
      .enqueue ⟨2, 0, 0, [66]⟩, .dequeue, .dequeue]).map
        (fun r => (r.1.flushToDisk.map fun q => decide (q.1.currentDiskSize < q.1.maxDiskSize),
          ((r.1.destroy fun _ => 0).bind (construct (fun _ => 0) 2 1000)).map stored, r.2)) =
      some (some true, some [⟨2, 0, 0, [66]⟩], [.accepted ⟨1, 0, 0, [65]⟩,
        .accepted ⟨2, 0, 0, [66]⟩, .removed ⟨1, 0, 0, [65]⟩, .removed ⟨2, 0, 0, [66]⟩]) := by rfl
  obtain ⟨⟨s, h⟩, hrun, hq⟩ := Option.map_eq_some_iff.mp hend
  simp only [Prod.mk.injEq] at hq
  obtain ⟨hroom, hstored, rfl⟩ := hq
  refine ⟨s, _, hrun, ?_, rfl, hstored, ?_⟩
  · intro s₁ k hs₁
    rw [hs₁] at hroom
    simpa using hroom
  · rintro ⟨dir, s', hdir, hs', heq⟩
    rw [hdir, Option.bind_some, hs', Option.map_some, Option.some.injEq] at hstored
    rw [hstored] at heq
    revert heq
    decide

end PersistentMessageQueue

end LuspUpload.MQ
