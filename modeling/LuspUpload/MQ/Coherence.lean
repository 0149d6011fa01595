import LuspUpload.MQ.Lifetimes
import LuspUpload.MQ.Refine
import LuspUpload.MQ.Recovery

/-!
# MQ.Coherence — the index and the log

`Coherent s log` : the index has one entry for each message of the log, the unread ones name exactly the
records of their messages, and no two of them overlap.  What a run keeps is more, `Laid`: the data file
is the records of the log and the index is their layout.  A record that is appended through a stream
that has written nothing yet is entered at offset 0, which is right in an empty file only; without such a
step (`WritesInPlace`) every queue of the directory is coherent (`lifetimes_coherent`).
-/

namespace LuspUpload.MQ

open Lib

/-! ### Entries of a layout -/

section Layout

variable {ms : List IpcMessage} {m : IpcMessage} {pre : List UInt8} {e e' : Entry} {i j offset : ℕ}

/-- The `i`-th entry of a layout names the record of the `i`-th message. -/
theorem getElem?_layout (h : ∀ m ∈ ms, m.Fits) (hm : ms[i]? = some m)
    (he : (layout pre.length ms)[i]? = some e) :
    e.1 + e.2 ≤ (pre ++ records ms).length ∧
      ((pre ++ records ms).drop e.1).take e.2 = serializeMessage m := by
  induction ms generalizing pre i with
  | nil => simp at hm
  | cons x ms ih =>
    have hx : x.Fits := h x (by simp)
    have hlen := length_serializeMessage hx
    cases i with
    | zero =>
      simp only [layout, List.getElem?_cons_zero, Option.some.injEq] at hm he
      subst hm he
      refine ⟨?_, ?_⟩
      · simp only [records_cons, List.length_append, hlen]
        omega
      · rw [List.drop_left, records_cons, ← hlen, List.take_left]
    | succ i =>
      have hpre : pre.length + recordSize x = (pre ++ serializeMessage x).length := by
        rw [List.length_append, hlen]
      rw [List.getElem?_cons_succ] at hm
      rw [layout, List.getElem?_cons_succ, hpre] at he
      have := ih (fun y hy => h y (by simp [hy])) hm he
      rwa [List.append_assoc, ← records_cons] at this

theorem le_of_getElem?_layout (he : (layout offset ms)[i]? = some e) : offset ≤ e.1 := by
  induction ms generalizing offset i with
  | nil => simp [layout] at he
  | cons x ms ih =>
    cases i with
    | zero =>
      simp only [layout, List.getElem?_cons_zero, Option.some.injEq] at he
      rw [← he]
    | succ i =>
      rw [layout, List.getElem?_cons_succ] at he
      have := ih he
      omega

/-- Earlier entries of a layout end before later ones start. -/
theorem layout_ordered (hij : i < j) (he : (layout offset ms)[i]? = some e)
    (he' : (layout offset ms)[j]? = some e') : e.1 + e.2 ≤ e'.1 := by
  induction ms generalizing offset i j with
  | nil => simp [layout] at he
  | cons x ms ih =>
    obtain ⟨j, rfl⟩ := Nat.exists_eq_add_of_lt (Nat.zero_lt_of_lt hij)
    rw [Nat.zero_add, layout, List.getElem?_cons_succ] at he'
    cases i with
    | zero =>
      simp only [layout, List.getElem?_cons_zero, Option.some.injEq] at he
      subst he
      exact le_of_getElem?_layout he'
    | succ i =>
      rw [layout, List.getElem?_cons_succ] at he
      exact ih (by omega) he he'

/-- The bytes of a read have the length that was asked for. -/
theorem length_readAt (bytes : List UInt8) (offset size : ℕ) (r : IStream) :
    (IStream.readAt bytes offset size r).1.length = size := by
  rcases r with _ | fail | fail <;> simp [IStream.readAt]

/-- A message read from an entry of a log fits. -/
theorem fits_of_deserialize {data : List UInt8} (h : deserializeMessage data = some m)
    (hlen : data.length < 2 ^ 32) : m.Fits := by
  simp only [deserializeMessage] at h
  split_ifs at h with hshort hsize
  obtain rfl := Option.some.inj h
  show (data.drop HEADER_SIZE).length < _
  rw [List.length_drop]
  unfold HEADER_SIZE at hshort ⊢
  omega

theorem records_eq_nil (h : ∀ m ∈ ms, m.Fits) : records ms = [] ↔ ms = [] := by
  cases ms with
  | nil => simp
  | cons m ms =>
    have hlen := length_serializeMessage (h m (by simp))
    have hpos := recordSize_pos m
    constructor
    · intro hnil
      rw [records_cons, List.append_eq_nil_iff] at hnil
      rw [hnil.1, List.length_nil] at hlen
      omega
    · exact nofun

end Layout

namespace PersistentMessageQueue

variable {N : ℕ} {crc : List UInt8 → UInt32} {s s' : PersistentMessageQueue N} {log : List IpcMessage}

/-- **Index/log coherence.**  The `i`-th entry was created for the `i`-th message of the log. -/
structure Coherent (s : PersistentMessageQueue N) (log : List IpcMessage) : Prop where
  created : s.diskIndex.length = log.length
  denotes : ∀ i e m, s.diskReadPos ≤ i → s.diskIndex[i]? = some e → log[i]? = some m →
    e.1 + e.2 ≤ s.dir.bytes.length ∧ (s.dir.bytes.drop e.1).take e.2 = serializeMessage m
  disjoint : ∀ i j e e', s.diskReadPos ≤ i → i < j → s.diskIndex[i]? = some e →
    s.diskIndex[j]? = some e' → e.1 + e.2 ≤ e'.1 ∨ e'.1 + e'.2 ≤ e.1

/-- The position that the writer reports is the end of the file: the stream has been opened and has
written, or the file is empty. -/
def InPlace (s : PersistentMessageQueue N) : Prop := s.dataWriter ≠ .closed ∨ s.dir.bytes = []

instance (s : PersistentMessageQueue N) : Decidable s.InPlace :=
  inferInstanceAs (Decidable (_ ∨ _))

/-- A step that appends a record finds the writer in place. -/
def WritesInPlace (s : PersistentMessageQueue N) (a : Act) : Prop := s.writtenIn a ≠ [] → s.InPlace

instance (s : PersistentMessageQueue N) (a : Act) : Decidable (s.WritesInPlace a) :=
  inferInstanceAs (Decidable (_ → _))

/-- The next `n` writes succeed. -/
def Succeeds (s : PersistentMessageQueue N) (n : ℕ) : Prop := ∀ o ∈ s.dir.outcomes.take n, o = {}

instance (s : PersistentMessageQueue N) (n : ℕ) : Decidable (s.Succeeds n) :=
  inferInstanceAs (Decidable (∀ o ∈ _, _))

theorem succeeds_of_nil (h : s.dir.outcomes = []) (n : ℕ) : s.Succeeds n := by
  simp [Succeeds, h]

theorem Succeeds.outcome {n : ℕ} (h : s.Succeeds (n + 1)) : s.dir.outcome = {} := by
  rw [Dir.outcome]
  cases hout : s.dir.outcomes with
  | nil => rfl
  | cons o outcomes => exact h o (by simp [hout])

theorem Succeeds.tail {n : ℕ} (h : s.Succeeds (n + 1)) (hout : s'.dir.outcomes = s.dir.outcomes.tail) :
    s'.Succeeds n := by
  intro o ho
  refine h o ?_
  rw [hout] at ho
  cases hs : s.dir.outcomes with
  | nil => simp [hs] at ho
  | cons x outcomes =>
    rw [hs, List.tail_cons] at ho
    rw [List.take_succ_cons]
    exact List.mem_cons_of_mem _ ho

/-- The data file is the records of the log and the index is their layout.  An index file is that of
the same log; it is there only until the first write. -/
structure Laid (crc : List UInt8 → UInt32) (s : PersistentMessageQueue N) (log : List IpcMessage) :
    Prop where
  bytes : s.dir.bytes = records log
  index : s.diskIndex = layout 0 log
  fits_log : ∀ m ∈ log, m.Fits
  fits_ring : ∀ m ∈ s.ringMessages, m.Fits
  writer : s.dataWriter = .closed ∨
    (s.dataWriter = .opened false true ∧ s.dir.data.isSome ∧ s.dir.index = none)
  file : s.dir.index = none ∨
    (log ≠ [] ∧ ∃ total, s.dir.index = some (savedIndex crc (layout 0 log) total))

theorem Laid.coherent (h : Laid crc s log) : Coherent s log where
  created := by rw [h.index, layout_length]
  denotes i e m _ he hm := by
    rw [h.index] at he
    rw [h.bytes]
    exact @getElem?_layout log m [] e i h.fits_log hm he
  disjoint i j e e' _ hij he he' := by
    rw [h.index] at he he'
    exact Or.inl (layout_ordered hij he he')

theorem laid_initial [NeZero N] (maxDiskSize : UInt64) (outcomes : List WriteOutcome) :
    Laid crc (initial N maxDiskSize { outcomes := outcomes }) [] where
  bytes := rfl
  index := rfl
  fits_log := by simp
  fits_ring := by
    rw [ringMessages, Ring.contents_of_empty (by rfl)]
    simp
  writer := Or.inl rfl
  file := Or.inl rfl

/-! ### Parts of a call -/

/-- What a part may put into the ring or the file fits. -/
def Part.Fits : Part → Prop
  | .put m => m.Fits
  | .spill m => m.Fits
  | _ => True

theorem Allows.fits {op : Op} {p : Part} (h : s.Allows op p) (hop : op.Fits) : p.Fits := by
  cases op with
  | enqueue m => rcases h with rfl | rfl | rfl <;> first | trivial | exact stamp_fits s hop
  | dequeue => rcases h with rfl | rfl | rfl <;> trivial
  | peek => exact h.elim
  | popFront => rcases h with rfl | rfl | rfl <;> trivial
  | loadFromDisk => obtain ⟨rfl | rfl, -⟩ := h <;> trivial
  | flushToDisk => obtain ⟨m, rfl⟩ := h; trivial
  | clear => exact h.elim

theorem ringMessages_put (h : ¬ s.ring.Full) (m : IpcMessage) :
    (s.ring.put ⟨m, true⟩).contents.map MemoryNode.message = s.ringMessages ++ [m] := by
  rw [Ring.contents_put h, List.map_append]
  rfl

theorem ringMessages_drop (h : ¬ s.ring.Empty) (node : MemoryNode) :
    s.ringMessages = s.ring.head.message ::
      ((s.ring.setHead node).advance).contents.map MemoryNode.message := by
  rw [Ring.contents_setHead_advance h, ringMessages, Ring.contents_cons h]
  rfl

/-- Every entry of the index is that of a fitting message. -/
theorem Laid.entry_lt (h : Laid crc s log) {e : Entry} {i : ℕ} (he : s.diskIndex[i]? = some e) :
    e.2 < 2 ^ 32 := by
  rw [h.index] at he
  exact (layout_bounds h.fits_log e (List.mem_of_getElem? he)).2

/-- The ring holds fitting messages after every part. -/
theorem Laid.ring_does (h : Laid crc s log) {p : Part} (hp : p.Fits) (hd : Does s p s') :
    ∀ m ∈ s'.ringMessages, m.Fits := by
  have hput : ∀ {m : IpcMessage}, ¬ s.ring.Full → m.Fits →
      ∀ x ∈ (s.ring.put ⟨m, true⟩).contents.map MemoryNode.message, x.Fits := by
    intro m hfull hm x hx
    rw [ringMessages_put hfull] at hx
    rcases List.mem_append.mp hx with hx | hx
    · exact h.fits_ring x hx
    · rw [List.mem_singleton.mp hx]
      exact hm
  have hdrop : ∀ node, ¬ s.ring.Empty →
      ∀ x ∈ ((s.ring.setHead node).advance).contents.map MemoryNode.message, x.Fits := by
    intro node hne x hx
    refine h.fits_ring x ?_
    rw [ringMessages_drop hne node]
    exact List.mem_cons_of_mem _ hx
  cases hd with
  | count => exact h.fits_ring
  | put m hfull => exact hput hfull hp
  | spill m =>
    rw [ringMessages, writeToDisk_ring]
    exact h.fits_ring
  | take node hne => exact hdrop node hne
  | takeLog => exact h.fits_ring
  | load e m he hfull hm =>
    refine hput hfull (fits_of_deserialize hm ?_)
    rw [fetch, length_readAt]
    exact h.entry_lt he
  | skip => exact h.fits_ring
  | flush m hne =>
    show ∀ x ∈ ((((s.writeToDisk m).1.ring.setHead _).advance).contents.map _), _
    rw [writeToDisk_ring]
    exact hdrop _ hne

theorem Laid.does_quiet (h : Laid crc s log) {p : Part} (hp : p.Fits) (hw : p.written = none)
    (hd : Does s p s') : Laid crc s' log := by
  obtain ⟨hdir, hwriter, hindex, -⟩ := hd.quiet hw
  refine ⟨?_, ?_, h.fits_log, h.ring_does hp hd, ?_, ?_⟩
  · rw [hdir]; exact h.bytes
  · rw [hindex]; exact h.index
  · rw [hdir, hwriter]; exact h.writer
  · rw [hdir]; exact h.file

/-- The message whose record a part appends fits: it is the new one, or was in the ring. -/
theorem Laid.fits_written (h : Laid crc s log) {p : Part} {m : IpcMessage} (hp : p.Fits)
    (hw : p.written = some m) (hd : Does s p s') : m.Fits := by
  cases hd with
  | spill x =>
    obtain rfl := Option.some.inj hw
    exact hp
  | flush x hne hhead =>
    obtain rfl := Option.some.inj hw
    refine h.fits_ring x ?_
    rw [ringMessages_drop hne ⟨x, false⟩, hhead]
    exact List.mem_cons_self
  | _ => exact absurd hw (by simp [Part.written])

/-- A record that is appended in place goes to the end of the log. -/
theorem Laid.does_write (h : Laid crc s log) {p : Part} {m : IpcMessage} (hp : p.Fits)
    (hw : p.written = some m) (hin : s.InPlace) (hout : s.dir.outcome = {}) (hd : Does s p s') :
    Laid crc s' (log ++ [m]) ∧ s'.InPlace ∧ s'.dir.outcomes = s.dir.outcomes.tail := by
  have hm : m.Fits := h.fits_written hp hw hd
  have hring := h.ring_does hp hd
  obtain ⟨hok, r, rfl⟩ := hd.appends hw
  have hwriter : (s.dataWriter = .closed ∧ s.dir.bytes = []) ∨
      (s.dataWriter = .opened false true ∧ s.dir.data.isSome) := by
    rcases h.writer with hc | ⟨ho, hs, -⟩
    · exact Or.inl ⟨hc, hin.resolve_left (not_not.mpr hc)⟩
    · exact Or.inr ⟨ho, hs⟩
  have hnone : s.dir.index = none := by
    rcases hwriter with ⟨-, hb⟩ | ⟨ho, -⟩
    · refine h.file.resolve_right ?_
      rintro ⟨hne, -⟩
      exact hne ((records_eq_nil h.fits_log).mp (h.bytes ▸ hb))
    · rcases h.writer with hc | ⟨-, -, hi⟩
      · rw [ho] at hc
        exact absurd hc (by simp)
      · exact hi
  have hroom : s.currentDiskSize < s.maxDiskSize := by simpa [writeToDisk_snd] using hok
  have hsize : (serializeMessage m).length % 2 ^ 32 = recordSize m := by
    rw [length_serializeMessage hm]
    exact Nat.mod_eq_of_lt (recordSize_lt hm)
  rw [writeToDisk_whole s m hout hwriter hroom, hsize] at hring ⊢
  refine ⟨⟨?_, ?_, ?_, hring, Or.inr ⟨rfl, rfl, hnone⟩, Or.inl hnone⟩, Or.inl (by simp), rfl⟩
  · show s.dir.bytes ++ serializeMessage m = _
    rw [h.bytes, records_append, records_cons, records_nil, List.append_nil]
  · show s.diskIndex ++ _ = _
    rw [layout_append h.fits_log, h.index, h.bytes, Nat.zero_add]
    rfl
  · intro x hx
    rcases List.mem_append.mp hx with hx | hx
    · exact h.fits_log x hx
    · rw [List.mem_singleton.mp hx]
      exact hm

theorem InPlace.quiet {p : Part} (h : s.InPlace) (hw : p.written = none) (hd : Does s p s') :
    s'.InPlace := by
  obtain ⟨hdir, hwriter, -⟩ := hd.quiet hw
  unfold InPlace
  rw [hdir, hwriter]
  exact h

/-- A trace whose first record is appended in place, and whose writes succeed, extends the log by what it
writes. -/
theorem Laid.trace {ps : List Part} (ht : Trace s ps s') (h : Laid crc s log) (hps : ∀ p ∈ ps, p.Fits)
    (hin : written ps ≠ [] → s.InPlace) (hout : s.Succeeds (written ps).length) :
    Laid crc s' (log ++ written ps) ∧ (s.InPlace → s'.InPlace) := by
  induction ht generalizing log with
  | nil s => exact ⟨by simpa [written] using h, id⟩
  | @cons s s₁ s₂ p ps hd _ ih =>
    have hp : p.Fits := hps p List.mem_cons_self
    have hrest : ∀ q ∈ ps, q.Fits := fun q hq => hps q (List.mem_cons_of_mem _ hq)
    rcases hw : p.written with _ | m
    · have hcons : written (p :: ps) = written ps := List.filterMap_cons_none hw
      rw [hcons] at hin hout ⊢
      have hout₁ : s₁.Succeeds (written ps).length := by
        unfold Succeeds
        rw [(hd.quiet hw).1]
        exact hout
      obtain ⟨h₂, hin₂⟩ := ih (h.does_quiet hp hw hd) hrest (fun hne => (hin hne).quiet hw hd) hout₁
      exact ⟨h₂, fun hs => hin₂ (hs.quiet hw hd)⟩
    · have hcons : written (p :: ps) = m :: written ps := List.filterMap_cons_some hw
      rw [hcons] at hin hout ⊢
      obtain ⟨h₁, hin₁, htail⟩ := h.does_write hp hw (hin (by simp)) hout.outcome hd
      obtain ⟨h₂, hin₂⟩ := ih h₁ hrest (fun _ => hin₁) (hout.tail htail)
      rw [List.append_assoc, List.singleton_append] at h₂
      exact ⟨h₂, fun _ => hin₂ hin₁⟩

/-! ### Steps and runs -/

theorem laid_clear [NeZero N] (s : PersistentMessageQueue N) : Laid crc s.clear [] where
  bytes := rfl
  index := rfl
  fits_log := by simp
  fits_ring := by
    rw [ringMessages, Ring.contents_of_empty (by rfl)]
    simp
  writer := Or.inl rfl
  file := Or.inl rfl

/-- The queue made on what the destructor leaves has the same log. -/
theorem Laid.reopen [NeZero N] {maxDiskSize : UInt64} {dir : Dir} (h : Laid crc s log)
    (hdir : dir = s.dir ∨ s.diskIndex ≠ [] ∧ dir = (s.saveDiskIndex crc).dir)
    (hnew : construct crc N maxDiskSize dir = some s') : Laid crc s' log := by
  have hdata : dir.data = s.dir.data ∧ (dir.index = none ∨
      (log ≠ [] ∧ ∃ total, dir.index = some (savedIndex crc (layout 0 log) total))) := by
    rcases hdir with rfl | ⟨hne, rfl⟩
    · exact ⟨rfl, h.file⟩
    · rw [saveDiskIndex, if_neg hne]
      refine ⟨rfl, Or.inr ⟨?_, s.currentDiskSize, ?_⟩⟩
      · rintro rfl
        exact hne h.index
      · show some (savedIndex crc s.diskIndex _) = _
        rw [h.index]
  obtain ⟨hdata, hfile⟩ := hdata
  have hbytes : dir.bytes = records log := by rw [Dir.bytes, hdata]; exact h.bytes
  have hindex : s'.diskIndex = layout 0 log := by
    rcases hfound : dir.data with _ | bytes
    · -- no data file: the log is empty and so is the new index
      have hnil : log = [] := by
        refine (records_eq_nil h.fits_log).mp ?_
        rw [← hbytes, Dir.bytes, hfound]
        rfl
      rw [construct, hfound] at hnew
      obtain rfl := Option.some.inj hnew
      rw [hnil]
      rfl
    · have hrecords : dir.data = some (records log) := by
        rw [← hbytes, Dir.bytes, hfound]
        rfl
      obtain ⟨s₂, hs₂, hrest⟩ := @construct_records N crc log _ maxDiskSize dir hrecords h.fits_log
        (hfile.imp_right And.right)
      obtain rfl := Option.some.inj (hs₂.symm.trans hnew)
      exact hrest.index
  obtain ⟨i, c, rfl⟩ := construct_frame hnew
  refine ⟨hbytes, hindex, h.fits_log, ?_, Or.inl rfl, hfile⟩
  show ∀ m ∈ (initial N maxDiskSize dir).ring.contents.map _, _
  rw [Ring.contents_of_empty (by rfl)]
  simp

/-- One step. -/
theorem Laid.step [NeZero N] {a : Act} {es h : List LogEvent} (hs : Laid crc s (logOf h))
    (ha : a.Fits) (hin : s.WritesInPlace a) (hout : s.Succeeds (s.writtenIn a).length)
    (hstep : lifeStep crc s a = some (s', es)) : Laid crc s' (logOf (h ++ es)) := by
  rcases lifeStep_cases hstep with ⟨rfl, rfl, rfl⟩ | ⟨op, ps, rfl, htrace, hps, hwritten, rfl⟩ |
      ⟨ps, s₁, dir, rfl, htrace, hps, hwritten, rfl, hdir, hnew⟩
  · rw [logOf_erased]
    exact laid_clear s
  · rw [logOf_wrote, ← hwritten]
    exact (hs.trace htrace (fun p hp => (hps p hp).fits ha) (hwritten ▸ hin)
      (hwritten ▸ hout)).1
  · rw [logOf_wrote, ← hwritten]
    refine (hs.trace htrace ?_ (hwritten ▸ hin) (hwritten ▸ hout)).1.reopen hdir hnew
    intro p hp
    obtain ⟨m, rfl⟩ := hps p hp
    trivial

/-- Where all writes succeed, they go on to. -/
theorem keeps_noOutcomes : Keeps fun s : PersistentMessageQueue N => s.dir.outcomes = [] where
  put _ _ h _ := h
  drop _ _ h _ := h
  write s m h := by
    unfold writeToDisk
    split_ifs
    · exact h
    · show s.dir.outcomes.tail = []
      rw [h]
      rfl
  move _ _ _ _ _ _ _ h := h

theorem lifeStep_outcomes [NeZero N] {a : Act} {es : List LogEvent} (hout : s.dir.outcomes = [])
    (hstep : lifeStep crc s a = some (s', es)) : s'.dir.outcomes = [] := by
  rcases lifeStep_cases hstep with ⟨-, rfl, -⟩ | ⟨op, ps, -, htrace, -, -, -⟩ |
      ⟨ps, s₁, dir, -, htrace, -, -, -, hdir, hnew⟩
  · exact hout
  · exact keeps_noOutcomes.trace hout htrace
  · have hs₁ : s₁.dir.outcomes = [] := keeps_noOutcomes.trace hout htrace
    have hleft : dir.outcomes = [] := by
      rcases hdir with rfl | ⟨hne, rfl⟩
      · exact hs₁
      · rw [saveDiskIndex, if_neg hne]
        exact hs₁
    obtain ⟨i, c, rfl⟩ := construct_frame hnew
    exact hleft

/-- **Coherence over the lifetimes of a directory**: as long as every record is appended in place, by any
calls and any number of restarts. -/
theorem lifetimes_coherent (crc : List UInt8 → UInt32) (N : ℕ) [NeZero N] (maxDiskSize : UInt64)
    (as : List Act) (has : ∀ a ∈ as, a.Fits)
    (hin : (lifetimes crc N).Along WritesInPlace (fresh N maxDiskSize) as)
    {s : PersistentMessageQueue N} {h : List LogEvent}
    (hrun : (lifetimes crc N).run (fresh N maxDiskSize) as = some (s, h)) :
    Coherent s (logOf h) := by
  have hall := hin.and (Machine.along_of_forall has _)
  have hstart : Laid crc (fresh N maxDiskSize) (logOf []) ∧ (fresh N maxDiskSize).dir.outcomes = [] :=
    ⟨laid_initial maxDiskSize [], rfl⟩
  have hlaid := Machine.Along.invariant (M := lifetimes crc N)
    (I := fun s h => Laid crc s (logOf h) ∧ s.dir.outcomes = []) ?_ hall hstart hrun
  · exact hlaid.1.coherent
  · intro s h a s' es hs hcond hstep
    exact ⟨hs.1.step hcond.2 hcond.1 (succeeds_of_nil hs.2 _) hstep, lifeStep_outcomes hs.2 hstep⟩

/-- Two messages go to disk, one of them in the destructor; the next queue consumes them. -/
theorem lifetimes_coherent_restart : ∃ s h, (lifetimes (fun _ => 0) 2).run (fresh 2 1000)
    [.call (.enqueue ⟨1, 0, 0, [65]⟩), .call (.enqueue ⟨2, 0, 0, [66]⟩), .restart, .call .dequeue,
      .call (.enqueue ⟨3, 0, 0, [67]⟩)] = some (s, h) ∧ Coherent s (logOf h) := by
  have hend : ((lifetimes (fun _ => 0) 2).run (fresh 2 1000) [.call (.enqueue ⟨1, 0, 0, [65]⟩),
      .call (.enqueue ⟨2, 0, 0, [66]⟩), .restart, .call .dequeue,
      .call (.enqueue ⟨3, 0, 0, [67]⟩)]).isSome = true := by decide +kernel
  obtain ⟨⟨s, h⟩, hrun⟩ := Option.isSome_iff_exists.mp hend
  refine ⟨s, h, hrun, lifetimes_coherent _ 2 1000 _ ?_ ?_ hrun⟩
  · simp [Act.Fits, Op.Fits, IpcMessage.Fits]
  · decide +kernel

/-- After a restart the first record lands behind the old ones, and its entry says offset 0: the entry
made for message 4 reads as message 2. -/
theorem lifetimes_incoherent : ∃ s h, (lifetimes (fun _ => 0) 2).run (fresh 2 1000)
    [.call (.enqueue ⟨1, 0, 0, [65]⟩), .call (.enqueue ⟨2, 0, 0, [66]⟩), .restart,
      .call (.enqueue ⟨3, 0, 0, [67]⟩), .call (.enqueue ⟨4, 0, 0, [68]⟩)] = some (s, h) ∧
    s.diskIndex = [(0, 25), (25, 25), (0, 25)] ∧ s.diskReadPos = 0 ∧
    logOf h = [⟨2, 0, 0, [66]⟩, ⟨1, 0, 0, [65]⟩, ⟨4, 0, 0, [68]⟩] ∧
    (s.dir.bytes.drop 0).take 25 = serializeMessage ⟨2, 0, 0, [66]⟩ ∧ ¬ Coherent s (logOf h) := by
  have hend : ((lifetimes (fun _ => 0) 2).run (fresh 2 1000) [.call (.enqueue ⟨1, 0, 0, [65]⟩),
      .call (.enqueue ⟨2, 0, 0, [66]⟩), .restart, .call (.enqueue ⟨3, 0, 0, [67]⟩),
      .call (.enqueue ⟨4, 0, 0, [68]⟩)]).map
        (fun r => (r.1.diskIndex, r.1.diskReadPos, logOf r.2, (r.1.dir.bytes.drop 0).take 25)) =
      some ([(0, 25), (25, 25), (0, 25)], 0, [⟨2, 0, 0, [66]⟩, ⟨1, 0, 0, [65]⟩, ⟨4, 0, 0, [68]⟩],
        serializeMessage ⟨2, 0, 0, [66]⟩) := by decide +kernel
  obtain ⟨⟨s, h⟩, hrun, hq⟩ := Option.map_eq_some_iff.mp hend
  simp only [Prod.mk.injEq] at hq
  obtain ⟨hindex, hpos, hlog, hread⟩ := hq
  refine ⟨s, h, hrun, hindex, hpos, hlog, hread, ?_⟩
  rintro ⟨-, hdenotes, -⟩
  have hrecord := (hdenotes 2 (0, 25) ⟨4, 0, 0, [68]⟩ (by omega) (by rw [hindex]; rfl)
    (by rw [hlog]; rfl)).2
  rw [hread] at hrecord
  exact absurd hrecord (by decide)

end PersistentMessageQueue

end LuspUpload.MQ
