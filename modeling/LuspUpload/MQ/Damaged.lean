import LuspUpload.MQ.TornLog

/-!
# MQ.Damaged — recovery from any data file

`rebuild_disk_index_from_data` adds the 24 header bytes to the length field in `uint32_t`, so a field of
`2 ^ 32 - 24` or more gives a size below 24: the scan no longer advances by a header, and not at all if
the size is 0 (`scan_advances_iff`).  Such an entry cannot be decoded, and `read_from_disk` leaves the
read position in front of what it cannot decode (`neverBlocks_iff`).  `headers` are the record headers
that the length fields lead to if nothing wraps.
-/

namespace LuspUpload.MQ

open Lib

/-- The length field of a record that starts at `offset`. -/
def dataSizeAt (bytes : List UInt8) (offset : ℕ) : ℕ := leNat ((bytes.drop (offset + 20)).take 4)

/-- The whole record headers from `offset` on, each behind the record of the one before. -/
def headers (bytes : List UInt8) : ℕ → ℕ → List ℕ
  | 0, _ => []
  | hops + 1, offset =>
    if offset + 24 ≤ bytes.length then
      offset :: headers bytes hops (offset + (HEADER_SIZE + dataSizeAt bytes offset))
    else []

/-- Every length field that is met fits the `uint32_t` record size. -/
def Unwrapped (bytes : List UInt8) : Prop :=
  ∀ offset ∈ headers bytes bytes.length 0, dataSizeAt bytes offset < 2 ^ 32 - 24

instance (bytes : List UInt8) : Decidable (Unwrapped bytes) :=
  inferInstanceAs (Decidable (∀ offset ∈ headers bytes bytes.length 0, _ < _))

/-- The index entry of the record at `offset`. -/
def entryAt (bytes : List UInt8) (offset : ℕ) : Entry := (offset, HEADER_SIZE + dataSizeAt bytes offset)

/-! ### The scan -/

section Scan

variable {bytes : List UInt8} {hops fuel offset stop : ℕ} {entries : List Entry}

theorem dataSizeAt_lt (bytes : List UInt8) (offset : ℕ) : dataSizeAt bytes offset < 2 ^ 32 := by
  have hlt := leNat_lt ((bytes.drop (offset + 20)).take 4)
  have hlen : ((bytes.drop (offset + 20)).take 4).length ≤ 4 := List.length_take_le ..
  have hpow : 256 ^ ((bytes.drop (offset + 20)).take 4).length ≤ 256 ^ 4 :=
    Nat.pow_le_pow_right (by omega) hlen
  unfold dataSizeAt
  omega

theorem headers_cons (h : offset + 24 ≤ bytes.length) : headers bytes (hops + 1) offset =
    offset :: headers bytes hops (offset + (HEADER_SIZE + dataSizeAt bytes offset)) := by
  rw [headers, if_pos h]

theorem headers_end (h : bytes.length < offset + 24) : headers bytes hops offset = [] := by
  cases hops with
  | zero => rfl
  | succ hops => rw [headers, if_neg (by omega)]

/-- One round at a whole header. -/
theorem scan_round (h : offset + 24 ≤ bytes.length) (fuel : ℕ) : scan bytes (fuel + 1) offset =
    (scan bytes fuel (offset + (HEADER_SIZE + dataSizeAt bytes offset) % 2 ^ 32)).map fun r =>
      ((offset, (HEADER_SIZE + dataSizeAt bytes offset) % 2 ^ 32) :: r.1, r.2) := by
  have hlen : ((bytes.drop (offset + 20)).take 4).length = 4 := by
    simp only [List.length_take, List.length_drop]
    omega
  rw [scan, if_neg (by rw [hlen]; exact fun h => h rfl)]
  rfl

theorem scan_round_inv (h : offset + 24 ≤ bytes.length)
    (hscan : scan bytes fuel offset = some (entries, stop)) :
    ∃ fuel' rest, scan bytes fuel' (offset + (HEADER_SIZE + dataSizeAt bytes offset) % 2 ^ 32) =
        some (rest, stop) ∧
      entries = (offset, (HEADER_SIZE + dataSizeAt bytes offset) % 2 ^ 32) :: rest := by
  cases fuel with
  | zero => simp [scan] at hscan
  | succ fuel =>
    rw [scan_round h, Option.map_eq_some_iff] at hscan
    obtain ⟨⟨rest, stop'⟩, hrest, heq⟩ := hscan
    obtain ⟨rfl, rfl⟩ := Prod.mk.inj heq
    exact ⟨fuel, rest, hrest, rfl⟩

theorem size_unwrapped (h : dataSizeAt bytes offset < 2 ^ 32 - 24) :
    (HEADER_SIZE + dataSizeAt bytes offset) % 2 ^ 32 = HEADER_SIZE + dataSizeAt bytes offset :=
  Nat.mod_eq_of_lt (by unfold HEADER_SIZE; omega)

/-- A size that wraps is smaller than a header. -/
theorem size_wrapped (h : ¬ dataSizeAt bytes offset < 2 ^ 32 - 24) :
    (HEADER_SIZE + dataSizeAt bytes offset) % 2 ^ 32 < 24 := by
  have hlt := dataSizeAt_lt bytes offset
  unfold HEADER_SIZE
  rw [Nat.mod_eq_sub_mod (by omega), Nat.mod_eq_of_lt (by omega)]
  omega

/-- As long as no size wraps, the scan meets the headers. -/
theorem scan_headers (henough : bytes.length ≤ offset + hops)
    (h : ∀ o ∈ headers bytes hops offset, dataSizeAt bytes o < 2 ^ 32 - 24) :
    ∃ stop, scan bytes (hops + 1) offset = some
      ((headers bytes hops offset).map (entryAt bytes), stop) := by
  induction hops generalizing offset with
  | zero => exact ⟨offset, scan_end (by omega) 0⟩
  | succ hops ih =>
    by_cases hin : offset + 24 ≤ bytes.length
    · rw [headers_cons hin] at h ⊢
      have hsize := size_unwrapped (h offset (by simp))
      obtain ⟨stop, hstop⟩ := @ih (offset + (HEADER_SIZE + dataSizeAt bytes offset))
        (by unfold HEADER_SIZE; omega) (fun o ho => h o (by simp [ho]))
      refine ⟨stop, ?_⟩
      rw [scan_round hin, hsize, hstop]
      rfl
    · rw [headers_end (by omega)]
      exact ⟨offset, scan_end (by omega) _⟩

/-- Headers lie apart. -/
theorem length_headers : 24 * (headers bytes hops offset).length ≤ bytes.length - offset := by
  induction hops generalizing offset with
  | zero => simp [headers]
  | succ hops ih =>
    by_cases hin : offset + 24 ≤ bytes.length
    · have hrest := @ih (offset + (HEADER_SIZE + dataSizeAt bytes offset))
      have hhead : HEADER_SIZE = 24 := rfl
      rw [headers_cons hin, List.length_cons]
      omega
    · rw [headers_end (by omega)]
      simp

/-- A scan whose sizes hold a header each has met no size that wraps. -/
theorem headers_of_scan (hscan : scan bytes fuel offset = some (entries, stop))
    (hbig : ∀ e ∈ entries, 24 ≤ e.2) (hops : ℕ) :
    ∀ o ∈ headers bytes hops offset, dataSizeAt bytes o < 2 ^ 32 - 24 := by
  induction hops generalizing fuel offset entries with
  | zero => simp [headers]
  | succ hops ih =>
    by_cases hin : offset + 24 ≤ bytes.length
    · obtain ⟨fuel', rest, hrest, rfl⟩ := scan_round_inv hin hscan
      have hfirst : dataSizeAt bytes offset < 2 ^ 32 - 24 := by
        by_contra hwrap
        have hsmall := size_wrapped hwrap
        have hsize : 24 ≤ (HEADER_SIZE + dataSizeAt bytes offset) % 2 ^ 32 := hbig _ List.mem_cons_self
        omega
      rw [size_unwrapped hfirst] at hrest
      rw [headers_cons hin]
      intro o ho
      rcases List.mem_cons.mp ho with rfl | ho
      · exact hfirst
      · exact ih hrest (fun e he => hbig e (List.mem_cons_of_mem _ he)) o ho
    · rw [headers_end (by omega)]
      simp

end Scan

/-- **The scan ends** after at most one round per 24 bytes, each adding an entry of 24 bytes or more, if
and only if no length field that it meets wraps the record size. -/
theorem scan_advances_iff (bytes : List UInt8) :
    (∃ fuel entries stop, scan bytes fuel 0 = some (entries, stop) ∧
        entries.length ≤ bytes.length / 24 ∧ ∀ e ∈ entries, 24 ≤ e.2) ↔ Unwrapped bytes := by
  constructor
  · rintro ⟨fuel, entries, stop, hscan, -, hbig⟩
    exact headers_of_scan hscan hbig bytes.length
  · intro h
    obtain ⟨stop, hscan⟩ := scan_headers (by omega) h
    refine ⟨_, _, stop, hscan, ?_, ?_⟩
    · have := @length_headers bytes bytes.length 0
      rw [List.length_map]
      omega
    · intro e he
      obtain ⟨o, -, rfl⟩ := List.mem_map.mp he
      show 24 ≤ HEADER_SIZE + _
      unfold HEADER_SIZE
      omega

/-- The length field `2 ^ 32 - 24`: the size is 0 and the scan stays where it is. -/
theorem scan_stays : (∀ fuel, scan (List.replicate 20 0 ++ [0xE8, 0xFF, 0xFF, 0xFF]) fuel 0 = none) ∧
    ¬ Unwrapped (List.replicate 20 0 ++ [0xE8, 0xFF, 0xFF, 0xFF]) := by
  refine ⟨?_, by decide⟩
  intro fuel
  induction fuel with
  | zero => rfl
  | succ fuel ih =>
    have hsize : (HEADER_SIZE + dataSizeAt (List.replicate 20 0 ++ [0xE8, 0xFF, 0xFF, 0xFF]) 0) % 2 ^ 32 =
        0 := by decide
    rw [scan_round (by decide), hsize, ih]
    rfl

namespace PersistentMessageQueue

variable {N : ℕ}

/-! ### Decoding an entry -/

section Decode

variable {bytes : List UInt8} {offset size : ℕ}

theorem length_readAt (bytes : List UInt8) (offset size : ℕ) :
    (IStream.readAt bytes offset size (.opened false)).1.length = size := by
  simp only [IStream.readAt, List.length_append, List.length_replicate, List.length_take, List.length_drop]
  omega

/-- Fewer bytes than a header are no message. -/
theorem decode_small (h : size < 24) :
    deserializeMessage (IStream.readAt bytes offset size (.opened false)).1 = none := by
  have hlen := length_readAt bytes offset size
  rw [deserializeMessage, if_pos (by rw [hlen]; exact h)]

/-- A whole header decodes with the payload its length field asks for, zeros behind the end of the file. -/
theorem decode_entryAt (hin : offset + 24 ≤ bytes.length) :
    ∃ m, deserializeMessage (IStream.readAt bytes offset (HEADER_SIZE + dataSizeAt bytes offset)
      (.opened false)).1 = some m := by
  have hhead : HEADER_SIZE = 24 := rfl
  have hlen := length_readAt bytes offset (HEADER_SIZE + dataSizeAt bytes offset)
  set buffer := (IStream.readAt bytes offset (HEADER_SIZE + dataSizeAt bytes offset) (.opened false)).1
    with hbuffer
  have hfront : buffer.take 24 = (bytes.drop offset).take 24 := by
    rw [hbuffer]
    simp only [IStream.readAt]
    rw [List.take_append_of_le_length (by rw [List.length_take, List.length_drop]; omega), List.take_take,
      Nat.min_eq_left (by omega)]
  have hfield : leNat ((buffer.drop 20).take 4) = dataSizeAt bytes offset := by
    have hsame : (buffer.drop 20).take 4 = (bytes.drop (offset + 20)).take 4 := by
      have hcut := congrArg (List.drop 20) hfront
      rwa [List.drop_take, List.drop_take, List.drop_drop] at hcut
    rw [hsame]
    rfl
  rw [deserializeMessage, if_neg (by omega)]
  simp only [hfield]
  rw [if_neg (by rw [hlen]; exact fun h => h rfl)]
  exact ⟨_, rfl⟩

/-- A read inside the file leaves the stream good. -/
theorem readAt_good (h : offset + size ≤ bytes.length) :
    (IStream.readAt bytes offset size (.opened false)).2 = .opened false := by
  rw [IStream.readAt_of_le h]

end Decode

/-! ### Calls of `dequeue` -/

/-- `dequeue` on a queue that is not empty returns a message or shrinks the queue. -/
def Progresses (s : PersistentMessageQueue N) : Prop :=
  0 < s.size → ∃ r, s.dequeue = some r ∧ (r.2.isSome = true ∨ r.1.size < s.size)

/-- So it is in every state that calls of `dequeue` lead to. -/
def NeverBlocks [NeZero N] (s : PersistentMessageQueue N) : Prop :=
  ∀ calls s' es, (machine N).run s (List.replicate calls .dequeue) = some (s', es) → s'.Progresses

section Calls

variable {s s' : PersistentMessageQueue N} {bytes : List UInt8} {e : Entry} {es : List Entry}

theorem size_of_empty (hring : s.ring.Empty) : s.size = s.unreadEntries.length := by
  rw [PersistentMessageQueue.size, Ring.empty_iff_len.mp hring, unreadEntries, List.length_drop,
    Nat.zero_add]

/-- An entry that cannot be decoded stays in front. -/
theorem OnDisk.dequeue_none (h : OnDisk s bytes (e :: es))
    (hm : deserializeMessage (IStream.readAt bytes e.1 e.2 (.opened false)).1 = none) :
    ∃ s', s.dequeue = some (s', none) ∧ s'.size = s.size := by
  have hread : s.readFromDisk = ({ s with
      dataReader := (IStream.readAt bytes e.1 e.2 (.opened false)).2 }, none) := by
    simp only [readFromDisk, h.entry, h.fetch, hm]
  refine ⟨{ s with dataReader := (IStream.readAt bytes e.1 e.2 (.opened false)).2 }, ?_, rfl⟩
  rw [PersistentMessageQueue.dequeue, if_pos h.ring, hread]
  rfl

variable [NeZero N]

theorem NeverBlocks.progresses (h : NeverBlocks s) : s.Progresses := h 0 s [] rfl

theorem NeverBlocks.dequeue {m : Option IpcMessage} (h : NeverBlocks s) (hs : s.dequeue = some (s', m)) :
    NeverBlocks s' := by
  intro calls s₂ es hrun
  have hstep : (machine N).step s .dequeue = some (s', m.toList.map .removed) := by
    show s.dequeue.map _ = _
    rw [hs]
    rfl
  exact h (calls + 1) s₂ _ (Machine.run_cons hstep hrun)

theorem NeverBlocks.of_dequeue {m : Option IpcMessage} (hs : s.dequeue = some (s', m))
    (hnow : s.Progresses) (h : NeverBlocks s') : NeverBlocks s := by
  intro calls s₂ es hrun
  cases calls with
  | zero =>
    obtain ⟨rfl, -⟩ := Prod.mk.inj (Option.some.inj hrun)
    exact hnow
  | succ calls =>
    obtain ⟨s₁, es₁, es₂, h₁, h₂, -⟩ := Machine.run_cons_inv hrun
    obtain ⟨r, hr, heq⟩ := Option.map_eq_some_iff.mp h₁
    obtain rfl := Option.some.inj (hr.symm.trans hs)
    obtain ⟨rfl, -⟩ := Prod.mk.inj heq
    exact h calls s₂ es₂ h₂

/-- Nothing is left to read: the calls change nothing. -/
theorem neverBlocks_of_empty (hring : s.ring.Empty) (hun : s.unreadEntries = []) :
    NeverBlocks s ∧ drain 1 s = some [] := by
  have hsize : s.size = 0 := by rw [size_of_empty hring, hun]; rfl
  have hnone : s.diskIndex[s.diskReadPos]? = none := by
    rw [← List.head?_drop]
    exact congrArg List.head? hun
  have hread : s.readFromDisk = (s, none) := by simp only [readFromDisk, hnone]
  have hdeq : s.dequeue = some (s, none) := by
    rw [PersistentMessageQueue.dequeue, if_pos hring, hread]
    rfl
  refine ⟨?_, by rw [drain, if_pos hsize]⟩
  intro calls
  induction calls with
  | zero =>
    intro s' es hrun
    obtain ⟨rfl, -⟩ := Prod.mk.inj (Option.some.inj hrun)
    intro hpos
    omega
  | succ calls ih =>
    intro s' es hrun
    obtain ⟨s₁, es₁, es₂, h₁, h₂, -⟩ := Machine.run_cons_inv hrun
    obtain ⟨r, hr, heq⟩ := Option.map_eq_some_iff.mp h₁
    obtain rfl := Option.some.inj (hr.symm.trans hdeq)
    obtain ⟨rfl, -⟩ := Prod.mk.inj heq
    exact ih s' es₂ h₂

/-! ### Draining a scanned file -/

variable {hops fuel offset stop : ℕ} {entries : List Entry}

/-- The entries of whole headers are read one after another. -/
theorem OnDisk.neverBlocks (h : OnDisk s bytes ((headers bytes hops offset).map (entryAt bytes))) :
    NeverBlocks s ∧ ∃ fuel ms, drain fuel s = some ms := by
  induction hops generalizing s offset with
  | zero =>
    obtain ⟨hnever, hdrain⟩ := neverBlocks_of_empty h.ring h.unread
    exact ⟨hnever, 1, [], hdrain⟩
  | succ hops ih =>
    by_cases hin : offset + 24 ≤ bytes.length
    · rw [headers_cons hin, List.map_cons] at h
      obtain ⟨m, hm⟩ := decode_entryAt hin
      obtain ⟨s', hs', hring, hdata, hun, hreader⟩ := h.dequeue hm
      have hrest : NeverBlocks s' ∧ ∃ fuel ms, drain fuel s' = some ms := by
        by_cases hnext : offset + (HEADER_SIZE + dataSizeAt bytes offset) ≤ bytes.length
        · exact ih ⟨hring, hdata, hun, Or.inr (hreader.trans (readAt_good hnext))⟩
        · -- the read was short, and nothing lies behind it
          rw [headers_end (by omega)] at hun
          obtain ⟨hnever, hdrain⟩ := neverBlocks_of_empty hring hun
          exact ⟨hnever, 1, [], hdrain⟩
      obtain ⟨hnever, fuel, ms, hdrain⟩ := hrest
      refine ⟨hnever.of_dequeue hs' fun _ => ⟨_, hs', Or.inl rfl⟩, fuel + 1, m :: ms, ?_⟩
      have hsize : ¬ s.size = 0 := by simp [h.size]
      rw [drain, if_neg hsize, hs', Option.bind_some, hdrain]
      rfl
    · rw [headers_end (by omega)] at h
      obtain ⟨hnever, hdrain⟩ := neverBlocks_of_empty h.ring h.unread
      exact ⟨hnever, 1, [], hdrain⟩

/-- A queue that never blocks was scanned from a file in which no size wraps. -/
theorem OnDisk.unwrapped (h : OnDisk s bytes entries)
    (hscan : scan bytes fuel offset = some (entries, stop))
    (hnever : NeverBlocks s) (hops : ℕ) :
    ∀ o ∈ headers bytes hops offset, dataSizeAt bytes o < 2 ^ 32 - 24 := by
  induction hops generalizing s fuel offset entries with
  | zero => simp [headers]
  | succ hops ih =>
    by_cases hin : offset + 24 ≤ bytes.length
    · obtain ⟨fuel', rest, hrest, rfl⟩ := scan_round_inv hin hscan
      have hfirst : dataSizeAt bytes offset < 2 ^ 32 - 24 := by
        by_contra hwrap
        obtain ⟨s', hs', hsize⟩ := h.dequeue_none (decode_small (size_wrapped hwrap))
        obtain ⟨r, hr, hprogress⟩ := hnever.progresses (by rw [h.size]; exact Nat.succ_pos _)
        obtain rfl := Option.some.inj (hr.symm.trans hs')
        rcases hprogress with hsome | hlt
        · exact Bool.false_ne_true hsome
        · exact absurd hsize (Nat.ne_of_lt hlt)
      rw [size_unwrapped hfirst] at h hrest
      obtain ⟨m, hm⟩ := decode_entryAt hin
      obtain ⟨s', hs', hring, hdata, hun, hreader⟩ := h.dequeue hm
      rw [headers_cons hin]
      intro o ho
      rcases List.mem_cons.mp ho with rfl | ho
      · exact hfirst
      · by_cases hnext : offset + (HEADER_SIZE + dataSizeAt bytes offset) ≤ bytes.length
        · exact ih ⟨hring, hdata, hun, Or.inr (hreader.trans (readAt_good hnext))⟩ hrest
            (hnever.dequeue hs') o ho
        · rw [headers_end (by omega)] at ho
          exact absurd ho List.not_mem_nil
    · rw [headers_end (by omega)]
      simp

end Calls

section Construct

variable [NeZero N] {crc : List UInt8 → UInt32} {maxDiskSize : UInt64} {dir : Dir}
  {s : PersistentMessageQueue N}

/-- A constructor that returns without a usable index file has scanned the data file, if there is one. -/
theorem construct_scanned (hindex : ((initial N maxDiskSize dir).loadDiskIndex crc).2 = false)
    (hs : construct crc N maxDiskSize dir = some s) :
    (dir.data = none ∧ s = initial N maxDiskSize dir) ∨ ∃ data fuel p,
      dir.data = some data ∧ scan data fuel 0 = some p ∧ OnDisk s data p.1 := by
  rcases hdata : dir.data with _ | data
  · rw [construct, if_neg (by simp [hdata])] at hs
    exact Or.inl ⟨rfl, (Option.some.inj hs).symm⟩
  · refine Or.inr ⟨data, data.length + 1, ?_⟩
    rcases hscan : scan data (data.length + 1) 0 with _ | p
    · -- the constructor does not return
      have hdir : ((initial N maxDiskSize dir).loadDiskIndex crc).1.dir.data = some data := by
        rcases (initial N maxDiskSize dir).loadDiskIndex_frame crc with ⟨i, c, h⟩ | ⟨i, h⟩
        · rw [h]; exact hdata
        · rw [h]; exact hdata
      rw [construct, if_pos (by simp [hdata]), rebuildDiskIndex] at hs
      simp [hindex, rebuildDiskIndexFromData, hdir, hscan] at hs
    · obtain ⟨s', hs', hdisk⟩ := @construct_scan _ _ crc _ _ _ _ _ hdata hindex hscan
      obtain rfl := Option.some.inj (hs'.symm.trans hs)
      exact ⟨p, rfl, rfl, hdisk⟩

/-- **A damaged record does not block the queue**: in every state that calls of `dequeue` lead to from
the constructor, a call on a queue that is not empty returns a message or shrinks the queue, and the calls
drain it, if and only if no length field that the scan meets wraps the record size. -/
theorem neverBlocks_iff (crc : List UInt8 → UInt32) (N : ℕ) [NeZero N] (maxDiskSize : UInt64) (dir : Dir)
    (hindex : ((initial N maxDiskSize dir).loadDiskIndex crc).2 = false)
    {s : PersistentMessageQueue N} (hs : construct crc N maxDiskSize dir = some s) :
    (NeverBlocks s ∧ ∃ fuel ms, drain fuel s = some ms) ↔ Unwrapped dir.bytes := by
  rcases construct_scanned hindex hs with ⟨hdata, rfl⟩ | ⟨data, fuel, p, hdata, hscan, hdisk⟩
  · have hbytes : dir.bytes = [] := by simp [Dir.bytes, hdata]
    obtain ⟨hnever, hdrain⟩ := @neverBlocks_of_empty _ (initial N maxDiskSize dir) _ rfl rfl
    rw [hbytes]
    exact ⟨fun _ => by decide, fun _ => ⟨hnever, 1, [], hdrain⟩⟩
  · have hbytes : dir.bytes = data := by simp [Dir.bytes, hdata]
    rw [hbytes]
    constructor
    · rintro ⟨hnever, -⟩
      exact hdisk.unwrapped hscan hnever data.length
    · intro hunwrapped
      obtain ⟨stop, hheaders⟩ := scan_headers (by omega) hunwrapped
      obtain ⟨s', hs', hdisk'⟩ := @construct_scan _ _ crc _ _ _ _ _ hdata hindex hheaders
      obtain rfl := Option.some.inj (hs'.symm.trans hs)
      exact hdisk'.neverBlocks

/-- A file of a record, a record cut inside its payload, and nothing else. -/
theorem neverBlocks_torn : ∃ s : PersistentMessageQueue 2, construct (fun _ => 0) 2 1000
    { data := some ((records [⟨1, 0, 0, [65]⟩, ⟨2, 0, 0, [66, 67]⟩]).take 50) } = some s ∧
    NeverBlocks s ∧ ∃ fuel ms, drain fuel s = some ms := by
  have hsome : (construct (fun _ => 0) 2 1000
      { data := some ((records [⟨1, 0, 0, [65]⟩, ⟨2, 0, 0, [66, 67]⟩]).take 50) }).isSome = true := by rfl
  obtain ⟨s, hs⟩ := Option.isSome_iff_exists.mp hsome
  exact ⟨s, hs, (neverBlocks_iff (fun _ => 0) 2 1000 _ rfl hs).mpr (by decide)⟩

/-- A header whose length field is `2 ^ 32 - 1`: an entry of 23 bytes, which `dequeue` neither returns nor
skips, while `load_from_disk` skips it. -/
theorem wrapped_entry_blocks : ∃ s : PersistentMessageQueue 2, construct (fun _ => 0) 2 1000
    { data := some (List.replicate 20 0 ++ [0xFF, 0xFF, 0xFF, 0xFF]) } = some s ∧ s.size = 1 ∧
    (s.dequeue.map fun r => (r.2, r.1.size)) = some (none, 1) ∧ s.loadFromDisk.1.size = 0 ∧
    ¬ NeverBlocks s := by
  have hrun : (construct (fun _ => 0) 2 1000
      { data := some (List.replicate 20 0 ++ [0xFF, 0xFF, 0xFF, 0xFF]) }).map (fun s =>
        (s.size, s.dequeue.map fun r => (r.2, r.1.size), s.loadFromDisk.1.size)) =
      some (1, some (none, 1), 0) := by rfl
  obtain ⟨s, hs, hq⟩ := Option.map_eq_some_iff.mp hrun
  simp only [Prod.mk.injEq] at hq
  obtain ⟨hsize, hdeq, hload⟩ := hq
  refine ⟨s, hs, hsize, hdeq, hload, ?_⟩
  intro hnever
  obtain ⟨r, hr, hprogress⟩ := hnever.progresses (by omega)
  rw [hr] at hdeq
  obtain ⟨hnone, hsame⟩ := Prod.mk.inj (Option.some.inj hdeq)
  rcases hprogress with hsome | hlt
  · rw [hnone] at hsome
    exact Bool.false_ne_true hsome
  · omega

end Construct

end PersistentMessageQueue

end LuspUpload.MQ
