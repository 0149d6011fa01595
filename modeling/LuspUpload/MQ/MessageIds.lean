import LuspUpload.MQ.Coherence
import Mathlib.Data.List.Perm.Lattice
import Mathlib.Data.List.Nodup

/-!
# MQ.MessageIds — the ids of the stored messages

`next_message_id_` starts at 1 in every queue, and neither the index file nor the recovery scan looks at
the ids in the data file.  Within the first queue of a directory the ids are distinct.  A later queue
finds the records of the earlier ones, the consumed ones included, and numbers its own messages from 1
again.  The ids stay distinct as long as the counter does not meet the id of a stored message and every
record is appended in place: an entry that names another record than its own repeats that record's id.
-/

namespace LuspUpload.MQ

open Lib

/-- The ids of some messages. -/
def ids (ms : List IpcMessage) : List UInt64 := ms.map IpcMessage.id

namespace PersistentMessageQueue

variable {N : ℕ} {crc : List UInt8 → UInt32} {s s' : PersistentMessageQueue N} {log : List IpcMessage}

/-- The messages that all entries of the index hold, the read ones included. -/
def indexedMessages (s : PersistentMessageQueue N) : List IpcMessage :=
  s.diskIndex.filterMap fun e =>
    deserializeMessage (IStream.readAt s.dir.bytes e.1 e.2 (.opened false)).1

/-- The stored messages of a queue whose data file is the log: those in memory and the unread part. -/
def pending (s : PersistentMessageQueue N) (log : List IpcMessage) : List IpcMessage :=
  s.ringMessages ++ log.drop s.diskReadPos

theorem layout_drop (hfits : ∀ m ∈ log, m.Fits) (n : ℕ) :
    (layout 0 log).drop n = layout (records (log.take n)).length (log.drop n) := by
  have hall := @layout_append (log.take n) (log.drop n) 0 fun m hm => hfits m (List.mem_of_mem_take hm)
  rw [List.take_append_drop, Nat.zero_add] at hall
  by_cases hn : n ≤ log.length
  · rw [hall, List.drop_left' (by rw [layout_length, List.length_take, Nat.min_eq_left hn])]
  · have hle : log.length ≤ n := Nat.le_of_not_le hn
    rw [List.drop_eq_nil_of_le (by rw [layout_length]; exact hle), List.drop_eq_nil_of_le hle]
    rfl

/-- Where the log is laid out, the queue holds what it says. -/
theorem Laid.stored (h : Laid crc s log) : s.stored = s.pending log := by
  have hrest : ∀ m ∈ log.drop s.diskReadPos, m.Fits := fun m hm => h.fits_log m (List.mem_of_mem_drop hm)
  have hsplit : records log =
      records (log.take s.diskReadPos) ++ records (log.drop s.diskReadPos) := by
    rw [← records_append, List.take_append_drop]
  have hdisk : s.diskMessages = log.drop s.diskReadPos := by
    rw [diskMessages, unreadEntries, h.index, layout_drop h.fits_log, h.bytes, hsplit]
    exact decode_layout hrest
  rw [PersistentMessageQueue.stored, hdisk, pending]

theorem Laid.indexed (h : Laid crc s log) : s.indexedMessages = log := by
  rw [indexedMessages, h.index, h.bytes]
  exact @decode_layout log [] h.fits_log

/-- What the client does: messages with id 0, `dequeue`, and restarts. -/
def Act.Plain : Act → Prop
  | .call (.enqueue m) => m.id = 0
  | .call .dequeue => True
  | .restart => True
  | _ => False

instance (a : Act) : Decidable a.Plain :=
  match a with
  | .call (.enqueue m) => inferInstanceAs (Decidable (m.id = 0))
  | .call .dequeue => isTrue trivial
  | .restart => isTrue trivial
  | .call .peek => isFalse id
  | .call .popFront => isFalse id
  | .call .loadFromDisk => isFalse id
  | .call .flushToDisk => isFalse id
  | .call .clear => isFalse id

/-- The queue has no room for another message. -/
def NoRoom (s : PersistentMessageQueue N) : Prop := s.ring.Full ∧ s.maxDiskSize ≤ s.currentDiskSize

instance (s : PersistentMessageQueue N) : Decidable s.NoRoom := inferInstanceAs (Decidable (_ ∧ _))

/-- No clash comes up: the id that is assigned is not that of a stored message, and the data file that a
restart brings back has distinct ids. -/
def NoClash (s : PersistentMessageQueue N) : Act → Prop
  | .call (.enqueue _) => s.NoRoom ∨ s.nextMessageId ∉ ids s.stored
  | .restart => (ids (s.indexedMessages ++ s.writtenIn .restart)).Nodup
  | _ => True

instance (s : PersistentMessageQueue N) (a : Act) : Decidable (s.NoClash a) :=
  match a with
  | .call (.enqueue _) => inferInstanceAs (Decidable (_ ∨ _))
  | .restart => inferInstanceAs (Decidable (List.Nodup _))
  | .call .dequeue => isTrue trivial
  | .call .peek => isTrue trivial
  | .call .popFront => isTrue trivial
  | .call .loadFromDisk => isTrue trivial
  | .call .flushToDisk => isTrue trivial
  | .call .clear => isTrue trivial

instance (a : Act) : Decidable a.Fits :=
  match a with
  | .call op => inferInstanceAs (Decidable op.Fits)
  | .restart => isTrue trivial

/-- The records of the step reach the file whole, each with its own entry. -/
def Files (s : PersistentMessageQueue N) (a : Act) : Prop :=
  a.Fits ∧ s.WritesInPlace a ∧ s.Succeeds (s.writtenIn a).length

instance (s : PersistentMessageQueue N) (a : Act) : Decidable (s.Files a) :=
  inferInstanceAs (Decidable (_ ∧ _ ∧ _))

/-! ### What a step does to the pending messages -/

section Enqueue

variable {m : IpcMessage} (hm : m.id = 0)
include hm

theorem bumpId_zero : s.bumpId m = { s with nextMessageId := s.nextMessageId + 1 } := if_pos hm

theorem stamp_zero_id : (s.stamp m).id = s.nextMessageId := by
  rw [stamp, if_pos hm]

/-- Without room nothing changes but the counter. -/
theorem enqueue_noRoom (h : s.NoRoom) :
    (s.enqueue m).1.pending (log ++ s.writtenBy (.enqueue m)) = s.pending log := by
  obtain ⟨hfull, hlimit⟩ := h
  have hfull' : (s.bumpId m).ring.Full := by
    rw [bumpId_zero hm]
    exact hfull
  have hok : ((s.bumpId m).writeToDisk (s.stamp m)).2 = false := by
    rw [writeToDisk_snd, bumpId_zero hm]
    simpa using hlimit
  have henqueue : s.enqueue m = (s.bumpId m, false) := by
    rw [enqueue, if_pos hfull', if_neg (by rw [hok]; exact Bool.false_ne_true),
      writeToDisk_refused _ _ hok]
  have hwritten : s.writtenBy (.enqueue m) = [] := by
    rw [writtenBy, henqueue]
    exact if_neg fun h => Bool.false_ne_true h.2
  rw [hwritten, henqueue, List.append_nil, bumpId_zero hm]
  rfl

/-- A message that goes to memory joins the pending ones. -/
theorem enqueue_put (hfull : ¬ s.ring.Full) :
    (s.enqueue m).1.pending (log ++ s.writtenBy (.enqueue m)) =
      s.ringMessages ++ [s.stamp m] ++ log.drop s.diskReadPos := by
  have hfull' : ¬ (s.bumpId m).ring.Full := by
    rw [bumpId_zero hm]
    exact hfull
  have hwritten : s.writtenBy (.enqueue m) = [] := if_neg fun h => hfull h.1
  rw [hwritten, List.append_nil, enqueue, if_neg hfull', bumpId_zero hm]
  show (s.ring.put _).contents.map _ ++ _ = _
  rw [Ring.contents_put hfull, List.map_append]
  rfl

/-- So does a message that goes to disk. -/
theorem enqueue_spill (hfull : s.ring.Full) (hlimit : ¬ s.maxDiskSize ≤ s.currentDiskSize) :
    (s.enqueue m).1.pending (log ++ s.writtenBy (.enqueue m)) =
      s.ringMessages ++ (log ++ [s.stamp m]).drop s.diskReadPos := by
  have hfull' : (s.bumpId m).ring.Full := by
    rw [bumpId_zero hm]
    exact hfull
  have hok : ((s.bumpId m).writeToDisk (s.stamp m)).2 = true := by
    rw [writeToDisk_snd, bumpId_zero hm]
    simpa using hlimit
  have hpos : ((s.bumpId m).writeToDisk (s.stamp m)).1.diskReadPos = s.diskReadPos := by
    rw [writeToDisk, if_neg (by rw [bumpId_zero hm]; exact hlimit), bumpId_zero hm]
  have henqueue : s.enqueue m = ({ ((s.bumpId m).writeToDisk (s.stamp m)).1 with
      totalEnqueued := ((s.bumpId m).writeToDisk (s.stamp m)).1.totalEnqueued + 1 }, true) := by
    rw [enqueue, if_pos hfull', if_pos hok]
  have hwritten : s.writtenBy (.enqueue m) = [s.stamp m] := by
    rw [writtenBy, henqueue]
    exact if_pos ⟨hfull, rfl⟩
  rw [hwritten, henqueue]
  show ((s.bumpId m).writeToDisk (s.stamp m)).1.ringMessages ++
    (log ++ [s.stamp m]).drop ((s.bumpId m).writeToDisk (s.stamp m)).1.diskReadPos = _
  rw [hpos, ringMessages, writeToDisk_ring, bumpId_zero hm]
  rfl

/-- With room, one message with the next id joins the pending ones. -/
theorem enqueue_joins (h : ¬ s.NoRoom) :
    ((s.enqueue m).1.pending (log ++ s.writtenBy (.enqueue m))).Subperm (s.stamp m :: s.pending log) := by
  by_cases hfull : s.ring.Full
  · rw [enqueue_spill hm hfull fun hlimit => h ⟨hfull, hlimit⟩]
    have hsub : ((log ++ [s.stamp m]).drop s.diskReadPos).Sublist
        (log.drop s.diskReadPos ++ [s.stamp m]) := by
      rw [List.drop_append]
      exact List.Sublist.append_left (List.drop_sublist _ _) _
    refine (List.Sublist.append_left hsub _).subperm.trans ?_
    rw [← List.append_assoc]
    exact (List.perm_append_singleton _ _).subperm
  · rw [enqueue_put hm hfull, List.append_assoc]
    exact List.Perm.subperm List.perm_middle

end Enqueue

/-- `dequeue` only takes pending messages away. -/
theorem dequeue_pending {r : PersistentMessageQueue N × Option IpcMessage} (hr : s.dequeue = some r) :
    (r.1.pending log).Sublist (s.pending log) := by
  obtain ⟨ps, htrace, hps, -⟩ := dequeue_trace hr
  refine htrace.keeps (P := fun t => (t.pending log).Sublist (s.pending log)) ?_ (List.Sublist.refl _)
  intro p hp s₁ s₂ hsub hd
  refine List.Sublist.trans ?_ hsub
  rcases hps p hp with rfl | rfl | rfl
  · cases hd
    exact List.Sublist.refl _
  · cases hd with
    | take _ hne =>
      refine List.Sublist.append_right ?_ _
      show ((Ring.contents _).map _).Sublist _
      rw [Ring.contents_setHead_advance hne, ringMessages, Ring.contents_cons hne]
      exact (List.sublist_cons_self _ _).map _
  · cases hd
    refine List.Sublist.append_left ?_ _
    show (log.drop (s₁.diskReadPos + 1)).Sublist (log.drop s₁.diskReadPos)
    rw [← List.tail_drop]
    exact List.tail_sublist _

/-- A queue that was just made has the whole log pending. -/
theorem construct_pending [NeZero N] {maxDiskSize : UInt64} {dir : Dir}
    (h : construct crc N maxDiskSize dir = some s) : s.pending log = log := by
  obtain ⟨i, c, rfl⟩ := construct_frame h
  have hring : (initial N maxDiskSize dir).ringMessages = [] := by
    rw [ringMessages, Ring.contents_of_empty (by rfl), List.map_nil]
  show (initial N maxDiskSize dir).ringMessages ++ log.drop 0 = log
  rw [hring, List.nil_append, List.drop_zero]

/-! ### Runs -/

/-- What a run without clashes keeps. -/
structure Distinct (crc : List UInt8 → UInt32) (s : PersistentMessageQueue N) (log : List IpcMessage) :
    Prop where
  laid : Laid crc s log
  pos : s.diskReadPos ≤ log.length
  unique : (ids (s.pending log)).Nodup

/-- The read position stays inside the log. -/
theorem Laid.pos_step [NeZero N] {a : Act} {h es : List LogEvent} (hs : Laid crc s (logOf h))
    (hs' : Laid crc s' (logOf (h ++ es))) (hpos : s.diskReadPos ≤ (logOf h).length) (ha : a.Plain)
    (hstep : lifeStep crc s a = some (s', es)) : s'.diskReadPos ≤ (logOf (h ++ es)).length := by
  have hentries : ∀ {t : PersistentMessageQueue N} {ms : List IpcMessage}, Laid crc t ms →
      t.diskIndex.length = ms.length := by
    intro t ms ht
    rw [ht.index, layout_length]
  rw [← hentries hs] at hpos
  rw [← hentries hs']
  -- no call reads past the last entry
  have hkeeps : ∀ {ps : List Part} {t : PersistentMessageQueue N}, Trace s ps t →
      t.diskReadPos ≤ t.diskIndex.length := by
    intro ps t htrace
    refine htrace.keeps (P := fun t => t.diskReadPos ≤ t.diskIndex.length) ?_ hpos
    intro p _ s₁ s₂ hle hd
    have hwrite : ∀ m, s₁.diskReadPos ≤ (s₁.writeToDisk m).1.diskIndex.length ∧
        (s₁.writeToDisk m).1.diskReadPos = s₁.diskReadPos := by
      intro m
      unfold writeToDisk
      split_ifs
      · exact ⟨hle, rfl⟩
      · refine ⟨?_, rfl⟩
        show _ ≤ (s₁.diskIndex ++ _).length
        rw [List.length_append]
        exact hle.trans (Nat.le_add_right _ _)
    cases hd with
    | takeLog r e he | load e _ he | skip e he => exact (List.getElem?_eq_some_iff.mp he).1
    | spill m => exact (hwrite m).2 ▸ (hwrite m).1
    | flush m => exact (hwrite m).2 ▸ (hwrite m).1
    | _ => exact hle
  rcases lifeStep_cases hstep with ⟨rfl, -, -⟩ | ⟨op, ps, -, htrace, -, -, -⟩ |
      ⟨ps, s₁, dir, -, -, -, -, -, -, hnew⟩
  · exact ha.elim
  · exact hkeeps htrace
  · obtain ⟨i, c, rfl⟩ := construct_frame hnew
    exact Nat.zero_le _

/-- One step without a clash. -/
theorem unique_step [NeZero N] {h es : List LogEvent} {a : Act} (hs : Laid crc s (logOf h))
    (hunique : (ids (s.pending (logOf h))).Nodup) (ha : a.Plain) (hclash : s.NoClash a)
    (hstep : lifeStep crc s a = some (s', es)) : (ids (s'.pending (logOf (h ++ es)))).Nodup := by
  cases a with
  | restart =>
    obtain ⟨dir, -, hdir⟩ := Option.bind_eq_some_iff.mp hstep
    obtain ⟨s₁, hnew, heq⟩ := Option.map_eq_some_iff.mp hdir
    obtain ⟨rfl, rfl⟩ := Prod.mk.inj heq
    show (ids (s₁.pending (logOf (h ++ (s.writtenIn .restart).map .wrote)))).Nodup
    rw [logOf_wrote, construct_pending hnew, ← hs.indexed]
    exact hclash
  | call op =>
    obtain ⟨⟨s₁, es₁⟩, hop, heq⟩ := Option.map_eq_some_iff.mp hstep
    obtain ⟨rfl, rfl⟩ := Prod.mk.inj heq
    cases op with
    | enqueue m =>
      obtain ⟨rfl, -⟩ := Prod.mk.inj (Option.some.inj hop)
      have hlog : s.logEvents (.call (.enqueue m)) = (s.writtenBy (.enqueue m)).map .wrote := rfl
      simp only [hlog, logOf_wrote]
      by_cases hroom : s.NoRoom
      · rw [enqueue_noRoom ha hroom]
        exact hunique
      · have hnew : s.nextMessageId ∉ ids (s.pending (logOf h)) := hs.stored ▸ hclash.resolve_left hroom
        have hcons : (ids (s.stamp m :: s.pending (logOf h))).Nodup := by
          rw [ids, List.map_cons, List.nodup_cons, stamp_zero_id ha]
          exact ⟨hnew, hunique⟩
        obtain ⟨l, hperm, hsub⟩ := @enqueue_joins N s (logOf h) m ha hroom
        exact (hperm.map _).nodup_iff.mp (hcons.sublist (hsub.map _))
    | dequeue =>
      obtain ⟨r, hr, heq⟩ := Option.map_eq_some_iff.mp hop
      obtain ⟨rfl, -⟩ := Prod.mk.inj heq
      have hquiet : s.logEvents (.call .dequeue) = [] := rfl
      simp only [hquiet, List.append_nil]
      exact hunique.sublist ((dequeue_pending hr).map _)
    | _ => exact ha.elim

theorem Distinct.step [NeZero N] {h es : List LogEvent} {a : Act} (hs : Distinct crc s (logOf h))
    (ha : a.Plain) (hfiles : s.Files a) (hclash : s.NoClash a)
    (hstep : lifeStep crc s a = some (s', es)) : Distinct crc s' (logOf (h ++ es)) := by
  obtain ⟨hfits, hin, hout⟩ := hfiles
  have hlaid := hs.laid.step hfits hin hout hstep
  exact ⟨hlaid, hs.laid.pos_step hlaid hs.pos ha hstep, unique_step hs.laid hs.unique ha hclash hstep⟩

/-- A step with a clash ends the uniqueness: among the steps whose records are filed, the condition is
exact. -/
theorem Distinct.step_iff [NeZero N] {h es : List LogEvent} {a : Act} (hs : Distinct crc s (logOf h))
    (ha : a.Plain) (hfiles : s.Files a) (hstep : lifeStep crc s a = some (s', es)) :
    (ids s'.stored).Nodup ↔ s.NoClash a := by
  have hlaid' := hs.laid.step hfiles.1 hfiles.2.1 hfiles.2.2 hstep
  refine ⟨?_, fun hclash => hlaid'.stored ▸ unique_step hs.laid hs.unique ha hclash hstep⟩
  intro hunique
  rw [hlaid'.stored] at hunique
  cases a with
  | restart =>
    obtain ⟨dir, -, hdir⟩ := Option.bind_eq_some_iff.mp hstep
    obtain ⟨s₁, hnew, heq⟩ := Option.map_eq_some_iff.mp hdir
    obtain ⟨rfl, rfl⟩ := Prod.mk.inj heq
    have hids : (ids (s₁.pending (logOf (h ++ (s.writtenIn .restart).map .wrote)))).Nodup := hunique
    rw [logOf_wrote, construct_pending hnew, ← hs.laid.indexed] at hids
    exact hids
  | call op =>
    obtain ⟨⟨s₁, es₁⟩, hop, heq⟩ := Option.map_eq_some_iff.mp hstep
    obtain ⟨rfl, rfl⟩ := Prod.mk.inj heq
    cases op with
    | enqueue m =>
      obtain ⟨rfl, -⟩ := Prod.mk.inj (Option.some.inj hop)
      have hids : (ids ((s.enqueue m).1.pending
          (logOf (h ++ (s.writtenBy (.enqueue m)).map .wrote)))).Nodup := hunique
      rw [logOf_wrote] at hids
      by_cases hroom : s.NoRoom
      · exact .inl hroom
      · have hperm : ((s.enqueue m).1.pending (logOf h ++ s.writtenBy (.enqueue m))).Perm
            (s.stamp m :: s.pending (logOf h)) := by
          by_cases hfull : s.ring.Full
          · rw [enqueue_spill ha hfull fun hlimit => hroom ⟨hfull, hlimit⟩,
              List.drop_append_of_le_length hs.pos, ← List.append_assoc]
            exact List.perm_append_singleton _ _
          · rw [enqueue_put ha hfull, List.append_assoc]
            exact List.perm_middle
        have hcons := (hperm.map IpcMessage.id).nodup_iff.mp hids
        rw [List.map_cons, List.nodup_cons, stamp_zero_id ha, ← ids, ← hs.laid.stored] at hcons
        exact .inr hcons.1
    | dequeue => trivial
    | _ => exact ha.elim

/-- **Unique ids** over the lifetimes of a directory: in every state that a run without clashes reaches,
no two messages that the queue holds have the same id. -/
theorem lifetimes_uniqueIds (crc : List UInt8 → UInt32) (N : ℕ) [NeZero N] (maxDiskSize : UInt64)
    (outcomes : List WriteOutcome) (as : List Act) (has : ∀ a ∈ as, a.Plain)
    (hclash : (lifetimes crc N).Along (fun s a => s.Files a ∧ s.NoClash a)
      (initial N maxDiskSize { outcomes := outcomes }) as)
    {s : PersistentMessageQueue N} {h : List LogEvent}
    (hrun : (lifetimes crc N).run (initial N maxDiskSize { outcomes := outcomes }) as = some (s, h)) :
    (ids s.stored).Nodup := by
  have hstart : Distinct crc (initial N maxDiskSize { outcomes := outcomes }) (logOf []) := by
    refine ⟨laid_initial maxDiskSize outcomes, Nat.zero_le _, ?_⟩
    have hstored := (@laid_initial N crc _ maxDiskSize outcomes).stored
    rw [stored_initial] at hstored
    show (ids (pending _ [])).Nodup
    rw [← hstored]
    exact List.nodup_nil
  have hall := hclash.and (Machine.along_of_forall has _)
  have hdistinct := Machine.Along.invariant (M := lifetimes crc N)
    (I := fun s h => Distinct crc s (logOf h)) ?_ hall (h := []) hstart hrun
  · rw [hdistinct.laid.stored]
    exact hdistinct.unique
  · intro s h a s' es hs hcond hstep
    exact hs.step hcond.2 hcond.1.1 hcond.1.2 hstep

/-- Message 1 is consumed in the first lifetime and message 2 is pending in the second, which starts at 1. -/
theorem lifetimes_uniqueIds_drained : ∃ s h, (lifetimes (fun _ => 0) 2).run (fresh 2 1000)
    [.call (.enqueue ⟨0, 0, 0, [65]⟩), .call .dequeue, .call (.enqueue ⟨0, 0, 0, [66]⟩), .restart,
      .call (.enqueue ⟨0, 0, 0, [67]⟩)] = some (s, h) ∧
    s.stored = [⟨1, 0, 0, [67]⟩, ⟨2, 0, 0, [66]⟩] ∧ (ids s.stored).Nodup := by
  have hend : ((lifetimes (fun _ => 0) 2).run (fresh 2 1000) [.call (.enqueue ⟨0, 0, 0, [65]⟩),
      .call .dequeue, .call (.enqueue ⟨0, 0, 0, [66]⟩), .restart,
      .call (.enqueue ⟨0, 0, 0, [67]⟩)]).map (fun r => r.1.stored) =
      some [⟨1, 0, 0, [67]⟩, ⟨2, 0, 0, [66]⟩] := by
    decide +kernel
  obtain ⟨⟨s, h⟩, hrun, hstored⟩ := Option.map_eq_some_iff.mp hend
  exact ⟨s, h, hrun, hstored, lifetimes_uniqueIds _ 2 1000 [] _ (by decide) (by decide +kernel) hrun⟩

/-- A message is pending at a restart, and the next one gets its id. -/
theorem lifetimes_sameId : ∃ s h, (lifetimes (fun _ => 0) 2).run (fresh 2 1000)
    [.call (.enqueue ⟨0, 0, 0, [65]⟩), .restart, .call (.enqueue ⟨0, 0, 0, [66]⟩)] = some (s, h) ∧
    s.stored = [⟨1, 0, 0, [66]⟩, ⟨1, 0, 0, [65]⟩] ∧ ¬ (ids s.stored).Nodup := by
  have hend : ((lifetimes (fun _ => 0) 2).run (fresh 2 1000) [.call (.enqueue ⟨0, 0, 0, [65]⟩),
      .restart, .call (.enqueue ⟨0, 0, 0, [66]⟩)]).map (fun r => r.1.stored) =
      some [⟨1, 0, 0, [66]⟩, ⟨1, 0, 0, [65]⟩] := by decide +kernel
  obtain ⟨⟨s, h⟩, hrun, hstored⟩ := Option.map_eq_some_iff.mp hend
  have hstored : s.stored = [⟨1, 0, 0, [66]⟩, ⟨1, 0, 0, [65]⟩] := hstored
  refine ⟨s, h, hrun, hstored, ?_⟩
  rw [hstored]
  decide

end PersistentMessageQueue

end LuspUpload.MQ
