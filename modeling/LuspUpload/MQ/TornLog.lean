import LuspUpload.MQ.Recovery

/-!
# MQ.TornLog — recovery from a data file that was cut

A crash leaves a prefix of `messages.dat`.  The scan of `rebuild_disk_index_from_data` drops a torn header
but trusts the length field of a whole one, and `read_from_disk` does not look at how many bytes it got.
So a record cut inside its payload is delivered, its missing bytes zero (`drain_torn`); after every
other cut exactly the whole records are delivered (`drain_whole`).
-/

namespace LuspUpload.MQ

open Lib

/-! ### Cutting a log -/

/-- The messages whose records lie wholly inside the first `t` bytes. -/
def wholeRecords : List IpcMessage → ℕ → List IpcMessage
  | [], _ => []
  | m :: ms, t => if recordSize m ≤ t then m :: wholeRecords ms (t - recordSize m) else []

/-- The first `t` bytes end with a whole record header and a part of its payload. -/
def TornPayload : List IpcMessage → ℕ → Prop
  | [], _ => False
  | m :: ms, t => if recordSize m ≤ t then TornPayload ms (t - recordSize m) else HEADER_SIZE ≤ t

instance decidableTornPayload : ∀ ms t, Decidable (TornPayload ms t)
  | [], _ => inferInstanceAs (Decidable False)
  | m :: ms, t => by
    have := decidableTornPayload ms (t - recordSize m)
    unfold TornPayload
    infer_instance

section Cut

variable {ms : List IpcMessage} {t : ℕ}

theorem wholeRecords_fits (h : ∀ m ∈ ms, m.Fits) : ∀ m ∈ wholeRecords ms t, m.Fits := by
  induction ms generalizing t with
  | nil => simp [wholeRecords]
  | cons m ms ih =>
    unfold wholeRecords
    split_ifs
    · intro x hx
      rcases List.mem_cons.mp hx with rfl | hx
      · exact h x (by simp)
      · exact ih (fun y hy => h y (by simp [hy])) x hx
    · simp

/-- A cut log is its whole records and a tail: a part of a header, or a header and a part of a payload. -/
theorem take_records (h : ∀ m ∈ ms, m.Fits) :
    ∃ tail, (records ms).take t = records (wholeRecords ms t) ++ tail ∧
      ((¬ TornPayload ms t ∧ tail.length < 24) ∨
        (TornPayload ms t ∧ ∃ m r, IpcMessage.Fits m ∧ HEADER_SIZE ≤ r ∧ r < recordSize m ∧
          tail = (serializeMessage m).take r)) := by
  induction ms generalizing t with
  | nil => exact ⟨[], by simp [wholeRecords], by simp [TornPayload]⟩
  | cons m ms ih =>
    have hm : m.Fits := h m (by simp)
    have hlen := length_serializeMessage hm
    by_cases hle : recordSize m ≤ t
    · obtain ⟨tail, htake, htail⟩ := ih (fun y hy => h y (by simp [hy])) (t := t - recordSize m)
      refine ⟨tail, ?_, ?_⟩
      · rw [wholeRecords, if_pos hle, records_cons, List.take_append, hlen, htake, records_cons,
          List.take_of_length_le (hlen ▸ hle), List.append_assoc]
      · rw [TornPayload, if_pos hle]
        exact htail
    · have htake : (records (m :: ms)).take t = (serializeMessage m).take t := by
        rw [records_cons, List.take_append_of_le_length (by omega)]
      refine ⟨(serializeMessage m).take t, ?_, ?_⟩
      · rw [wholeRecords, if_neg hle, htake]
        rfl
      · rw [TornPayload, if_neg hle]
        by_cases h24 : HEADER_SIZE ≤ t
        · exact Or.inr ⟨h24, m, t, hm, h24, by omega, rfl⟩
        · refine Or.inl ⟨h24, ?_⟩
          rw [List.length_take]
          unfold HEADER_SIZE at h24
          omega

end Cut

namespace PersistentMessageQueue

variable {N : ℕ}

/-! ### Draining -/

/-- `while (!empty()) dequeue()`: the messages returned; `none` when the fuel runs out. -/
def drain : ℕ → PersistentMessageQueue N → Option (List IpcMessage)
  | 0, _ => none
  | fuel + 1, s =>
    if s.size = 0 then some []
    else s.dequeue.bind fun r => (drain fuel r.1).map (r.2.toList ++ ·)

theorem drain_mono {fuel fuel' : ℕ} {s : PersistentMessageQueue N} {ms : List IpcMessage}
    (hle : fuel ≤ fuel') (h : drain fuel s = some ms) : drain fuel' s = some ms := by
  induction fuel generalizing fuel' s ms with
  | zero => simp [drain] at h
  | succ fuel ih =>
    obtain ⟨k, rfl⟩ := Nat.exists_eq_add_of_le' (Nat.zero_lt_of_lt hle)
    rw [drain] at h ⊢
    split_ifs at h ⊢
    · exact h
    · obtain ⟨r, hr, h⟩ := Option.bind_eq_some_iff.mp h
      obtain ⟨ms', hms', rfl⟩ := Option.map_eq_some_iff.mp h
      rw [hr, Option.bind_some, ih (by omega) hms', Option.map_some]

/-- What is delivered does not depend on the fuel. -/
theorem drain_unique {fuel fuel' : ℕ} {s : PersistentMessageQueue N} {ms ms' : List IpcMessage}
    (h : drain fuel s = some ms) (h' : drain fuel' s = some ms') : ms = ms' := by
  have h₁ := drain_mono (Nat.le_max_left fuel fuel') h
  have h₂ := drain_mono (Nat.le_max_right fuel fuel') h'
  exact Option.some.inj (h₁.symm.trans h₂)

/-- The ring is empty, the file has the bytes `bytes`, and the entries `es` are unread. -/
structure OnDisk (s : PersistentMessageQueue N) (bytes : List UInt8) (es : List Entry) : Prop where
  ring : s.ring.Empty
  data : s.dir.data = some bytes
  unread : s.unreadEntries = es
  reader : s.dataReader = .closed ∨ s.dataReader = .opened false

section Drain

variable {s : PersistentMessageQueue N} {bytes : List UInt8} {es : List Entry} {e : Entry}

theorem OnDisk.size (h : OnDisk s bytes es) : s.size = es.length := by
  rw [PersistentMessageQueue.size, Ring.empty_iff_len.mp h.ring, ← h.unread, unreadEntries,
    List.length_drop, Nat.zero_add]

theorem OnDisk.drain_nil (h : OnDisk s bytes []) (fuel : ℕ) : drain (fuel + 1) s = some [] := by
  have h0 : s.size = 0 := h.size
  rw [drain, if_pos h0]

/-- The first unread entry. -/
theorem OnDisk.entry (h : OnDisk s bytes (e :: es)) : s.diskIndex[s.diskReadPos]? = some e := by
  have hun := h.unread
  unfold unreadEntries at hun
  rw [← List.head?_drop, hun]
  rfl

/-- It is read from a good stream. -/
theorem OnDisk.fetch (h : OnDisk s bytes es) (e : Entry) :
    s.fetch e = IStream.readAt bytes e.1 e.2 (.opened false) := by
  have hbytes : s.dir.bytes = bytes := by simp [Dir.bytes, h.data]
  have hopen : s.dataReader.reopen s.dir.data = .opened false := by
    rcases h.reader with hr | hr <;> simp [hr, IStream.reopen, h.data]
  rw [PersistentMessageQueue.fetch, hopen, hbytes]

/-- One `dequeue`, whether or not the read is short. -/
theorem OnDisk.dequeue (h : OnDisk s bytes (e :: es)) {m : IpcMessage}
    (hm : deserializeMessage (IStream.readAt bytes e.1 e.2 (.opened false)).1 = some m) :
    ∃ s', s.dequeue = some (s', some m) ∧ s'.ring.Empty ∧ s'.dir.data = some bytes ∧
      s'.unreadEntries = es ∧
      s'.dataReader = (IStream.readAt bytes e.1 e.2 (.opened false)).2 := by
  have hun := h.unread
  unfold unreadEntries at hun
  have hread : s.readFromDisk = ({ s with
      dataReader := (IStream.readAt bytes e.1 e.2 (.opened false)).2
      diskReadPos := s.diskReadPos + 1
      currentDiskSize := s.currentDiskSize - .ofNat e.2 }, some m) := by
    simp only [readFromDisk, h.entry, h.fetch, hm]
  have hun' : s.diskIndex.drop (s.diskReadPos + 1) = es := by
    rw [← List.drop_drop, hun]
    rfl
  have hdeq : s.dequeue = some ({ s with
      dataReader := (IStream.readAt bytes e.1 e.2 (.opened false)).2
      diskReadPos := s.diskReadPos + 1
      currentDiskSize := s.currentDiskSize - .ofNat e.2
      totalDequeued := s.totalDequeued + 1 }, some m) := by
    rw [PersistentMessageQueue.dequeue, if_pos h.ring, hread]
    rfl
  exact ⟨_, hdeq, h.ring, h.data, hun', rfl⟩

/-- The whole records are delivered unchanged and in order. -/
theorem OnDisk.drain_records {ms : List IpcMessage} {pre tail : List UInt8} (hms : ∀ m ∈ ms, m.Fits)
    (h : OnDisk s (pre ++ (records ms ++ tail)) (layout pre.length ms ++ es)) :
    ∃ s' : PersistentMessageQueue N, OnDisk s' (pre ++ (records ms ++ tail)) es ∧
      ∀ fuel, drain (fuel + ms.length) s = (drain fuel s').map (ms ++ ·) := by
  induction ms generalizing pre s with
  | nil => exact ⟨s, h, fun fuel => by simp⟩
  | cons m ms ih =>
    have hm : m.Fits := hms m (by simp)
    have hsplit : pre ++ (records (m :: ms) ++ tail) =
        (pre ++ serializeMessage m) ++ (records ms ++ tail) := by simp
    have hread : IStream.readAt (pre ++ (records (m :: ms) ++ tail)) pre.length (recordSize m)
        (.opened false) = (serializeMessage m, .opened false) := by
      rw [records_cons, List.append_assoc]
      exact readAt_record hm
    rw [layout, List.cons_append] at h
    obtain ⟨s₁, hs₁, hring, hdata, hun, hr⟩ :=
      h.dequeue (m := m) (by rw [hread]; exact deserializeMessage_serializeMessage hm)
    rw [hread] at hr
    have hpos : pre.length + recordSize m = (pre ++ serializeMessage m).length := by
      rw [List.length_append, length_serializeMessage hm]
    rw [hsplit] at hdata ⊢
    rw [hpos] at hun
    obtain ⟨s', hs', hdrain⟩ := ih (fun y hy => hms y (by simp [hy])) ⟨hring, hdata, hun, Or.inr hr⟩
    refine ⟨s', hs', fun fuel => ?_⟩
    have hne : ¬ s.size = 0 := by simp [h.size]
    rw [List.length_cons, ← Nat.add_assoc, drain, if_neg hne, hs₁, Option.bind_some, hdrain fuel,
      Option.map_map]
    rfl

end Drain

/-! ### Constructing on a cut file -/

section Construct

variable [NeZero N] {crc : List UInt8 → UInt32} {maxDiskSize : UInt64} {dir : Dir} {ms : List IpcMessage}
  {m : IpcMessage} {r : ℕ} {tail : List UInt8}

/-- Without a usable index file the constructor scans the data file. -/
theorem construct_scan {data : List UInt8} {fuel : ℕ} {p : List Entry × ℕ}
    (hdata : dir.data = some data) (hindex : ((initial N maxDiskSize dir).loadDiskIndex crc).2 = false)
    (hscan : scan data fuel 0 = some p) :
    ∃ s, construct crc N maxDiskSize dir = some s ∧ OnDisk s data p.1 := by
  obtain ⟨i, hload⟩ : ∃ i, (initial N maxDiskSize dir).loadDiskIndex crc =
      ({ initial N maxDiskSize dir with diskIndex := i }, false) := by
    rcases (initial N maxDiskSize dir).loadDiskIndex_frame crc with ⟨i, c, h⟩ | ⟨i, h⟩
    · rw [h] at hindex
      exact absurd hindex (by simp)
    · exact ⟨i, h⟩
  have hfuel := scan_fuel hscan
  rw [Nat.sub_zero] at hfuel
  have hs : construct crc N maxDiskSize dir = some { initial N maxDiskSize dir with
      diskIndex := p.1
      currentDiskSize := .ofNat p.2
      diskReadPos := 0 } := by
    have hsome : dir.data.isSome = true := by simp [hdata]
    have hdir : (initial N maxDiskSize dir).dir.data = some data := hdata
    rw [construct, if_pos hsome, rebuildDiskIndex, hload]
    simp only [Bool.false_eq_true, if_false, rebuildDiskIndexFromData, hdir, hfuel, Option.map_some]
  exact ⟨_, hs, by rfl, hdata, rfl, Or.inl rfl⟩

/-- A cut outside a payload: the whole records are delivered. -/
theorem drain_whole (hms : ∀ x ∈ ms, x.Fits) (hdata : dir.data = some (records ms ++ tail))
    (hindex : ((initial N maxDiskSize dir).loadDiskIndex crc).2 = false) (htail : tail.length < 24) :
    ∃ s, construct crc N maxDiskSize dir = some s ∧ drain (1 + ms.length) s = some ms := by
  have hscan : scan (records ms ++ tail) (ms.length + 1) 0 =
      some (layout 0 ms ++ [], (records ms).length) := by
    have := @scan_records ms [] tail hms 1
    simp only [List.nil_append, List.length_nil, Nat.zero_add] at this
    rw [this, scan_end (by rw [List.length_append]; omega)]
    rfl
  obtain ⟨s, hs, hdisk⟩ := construct_scan hdata hindex hscan
  obtain ⟨s', hs', hdrain⟩ := @OnDisk.drain_records _ _ _ _ [] _ hms hdisk
  refine ⟨s, hs, ?_⟩
  rw [hdrain 1, hs'.drain_nil]
  simp

/-- The message of a record of which `r` bytes are left: zeros stand for the lost payload. -/
def zeroPadded (m : IpcMessage) (r : ℕ) : IpcMessage :=
  { m with
    data := m.data.take (r - HEADER_SIZE) ++
      List.replicate (m.data.length - (r - HEADER_SIZE)) 0 }

theorem take_serializeMessage (hm : m.Fits) (h24 : HEADER_SIZE ≤ r) :
    (serializeMessage m).take r =
      (serializeMessage m).take HEADER_SIZE ++ m.data.take (r - HEADER_SIZE) := by
  have hdata : (serializeMessage m).drop HEADER_SIZE = m.data := by
    rw [serializeMessage_of_fits hm]
    exact List.drop_left' (by simp [HEADER_SIZE])
  have hlen : ((serializeMessage m).take HEADER_SIZE).length = HEADER_SIZE := by
    rw [List.length_take, length_serializeMessage hm, recordSize]
    omega
  conv_lhs => rw [← List.take_append_drop HEADER_SIZE (serializeMessage m), hdata, List.take_append, hlen]
  rw [List.take_take, Nat.min_eq_right h24]

/-- The read of a torn record, zeros after its bytes, decodes. -/
theorem deserializeMessage_torn {pre : List UInt8} (hm : m.Fits) (h24 : HEADER_SIZE ≤ r)
    (hr : r < recordSize m) :
    deserializeMessage (IStream.readAt (pre ++ (serializeMessage m).take r) pre.length (recordSize m)
      (.opened false)).1 = some (zeroPadded m r) := by
  have hlen : ((serializeMessage m).take r).length = r := by
    rw [List.length_take, length_serializeMessage hm]
    omega
  have hread : (IStream.readAt (pre ++ (serializeMessage m).take r) pre.length (recordSize m)
      (.opened false)).1 = (serializeMessage m).take r ++ List.replicate (recordSize m - r) 0 := by
    simp only [IStream.readAt, List.drop_left]
    rw [List.take_of_length_le (by omega), hlen]
  have hsub : recordSize m - r = m.data.length - (r - HEADER_SIZE) := by
    unfold recordSize
    omega
  rw [hread, take_serializeMessage hm h24, List.append_assoc, hsub]
  refine deserializeMessage_header hm ?_
  unfold recordSize at hr
  simp only [List.length_append, List.length_take, List.length_replicate]
  omega

/-- A cut inside a payload: the torn record is delivered too. -/
theorem drain_torn (hms : ∀ x ∈ ms, x.Fits) (hm : m.Fits) (h24 : HEADER_SIZE ≤ r)
    (hr : r < recordSize m) (hdata : dir.data = some (records ms ++ (serializeMessage m).take r))
    (hindex : ((initial N maxDiskSize dir).loadDiskIndex crc).2 = false) :
    ∃ s, construct crc N maxDiskSize dir = some s ∧
      drain (2 + ms.length) s = some (ms ++ [zeroPadded m r]) := by
  have hlen : ((serializeMessage m).take r).length = r := by
    rw [List.length_take, length_serializeMessage hm]
    omega
  have hscan : scan (records ms ++ (serializeMessage m).take r) (ms.length + 2) 0 =
      some (layout 0 ms ++ [((records ms).length, recordSize m)],
        (records ms).length + recordSize m) := by
    have hwalk := @scan_records ms [] ((serializeMessage m).take r) hms 2
    simp only [List.nil_append, List.length_nil, Nat.zero_add] at hwalk
    have hlast := @scan_record (records ms) m hm (m.data.take (r - HEADER_SIZE)) 1
    rw [← take_serializeMessage hm h24] at hlast
    rw [hwalk, hlast, scan_end (by rw [List.length_append]; omega)]
    rfl
  obtain ⟨s, hs, hdisk⟩ := construct_scan hdata hindex hscan
  obtain ⟨s', hs', hdrain⟩ := @OnDisk.drain_records _ _ _ _ [] _ hms hdisk
  obtain ⟨s₂, hs₂, hring, hdata₂, hun, -⟩ := hs'.dequeue (deserializeMessage_torn hm h24 hr)
  have hsize : s₂.size = 0 := by
    unfold unreadEntries at hun
    rw [PersistentMessageQueue.size, Ring.empty_iff_len.mp hring, ← List.length_drop, hun]
    rfl
  have hne : ¬ s'.size = 0 := by simp [hs'.size]
  refine ⟨s, hs, ?_⟩
  rw [hdrain 2, drain, if_neg hne, hs₂, Option.bind_some, drain, if_pos hsize]
  rfl

/-- **Recovery of a cut log**: the whole records and nothing else are delivered exactly when the cut is
not inside a payload. -/
theorem recovery_delivers_iff (crc : List UInt8 → UInt32) (N : ℕ) [NeZero N] (maxDiskSize : UInt64)
    (ms : List IpcMessage) (hms : ∀ m ∈ ms, m.Fits) (t : ℕ) (dir : Dir)
    (hdata : dir.data = some ((records ms).take t))
    (hindex : ((initial N maxDiskSize dir).loadDiskIndex crc).2 = false) :
    (∃ s fuel, construct crc N maxDiskSize dir = some s ∧
      drain fuel s = some (wholeRecords ms t)) ↔ ¬ TornPayload ms t := by
  obtain ⟨tail, htake, htail⟩ := take_records (t := t) hms
  have hwhole := wholeRecords_fits (t := t) hms
  rw [htake] at hdata
  constructor
  · rintro ⟨s, fuel, hs, hdrain⟩ htorn
    rcases htail with ⟨hno, -⟩ | ⟨-, m, r, hm, h24, hr, rfl⟩
    · exact hno htorn
    · obtain ⟨s', hs', hdrain'⟩ := drain_torn hwhole hm h24 hr hdata hindex
      obtain rfl := Option.some.inj (hs.symm.trans hs')
      have heq := drain_unique hdrain hdrain'
      simp at heq
  · intro hno
    obtain ⟨-, hlen⟩ := htail.resolve_right fun h => hno h.1
    obtain ⟨s, hs, hdrain⟩ := drain_whole hwhole hdata hindex hlen
    exact ⟨s, _, hs, hdrain⟩

/-- Two records, the second cut inside its header. -/
theorem recovery_delivers_header : ∃ s fuel, construct (fun _ => 0) 2 1000
    { data := some ((records [⟨1, 0, 0, [65]⟩, ⟨2, 0, 0, [66, 67]⟩]).take 40) } = some s ∧
    drain fuel s = some (wholeRecords [⟨1, 0, 0, [65]⟩, ⟨2, 0, 0, [66, 67]⟩] 40) := by
  refine (recovery_delivers_iff _ 2 1000 _ ?_ 40 _ rfl rfl).mpr ?_
  · simp [IpcMessage.Fits]
  · decide

/-- Two records, the second cut before its last byte: a message that nobody sent is delivered. -/
theorem recovery_delivers_torn : ∃ s, construct (fun _ => 0) 2 1000
    { data := some ((records [⟨1, 0, 0, [65]⟩, ⟨2, 0, 0, [66, 67]⟩]).take 50) } = some s ∧
    drain 10 s = some [⟨1, 0, 0, [65]⟩, ⟨2, 0, 0, [66, 0]⟩] ∧
    ∀ fuel, drain fuel s ≠ some (wholeRecords [⟨1, 0, 0, [65]⟩, ⟨2, 0, 0, [66, 67]⟩] 50) := by
  have hrun : (construct (fun _ => 0) 2 1000
      { data := some ((records [⟨1, 0, 0, [65]⟩, ⟨2, 0, 0, [66, 67]⟩]).take 50) }).map (drain 10) =
      some (some [⟨1, 0, 0, [65]⟩, ⟨2, 0, 0, [66, 0]⟩]) := by rfl
  obtain ⟨s, hs, hdrain⟩ := Option.map_eq_some_iff.mp hrun
  refine ⟨s, hs, hdrain, fun fuel hwhole => ?_⟩
  have heq := drain_unique hdrain hwhole
  revert heq
  decide

end Construct

end PersistentMessageQueue

end LuspUpload.MQ
