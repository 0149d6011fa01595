import LuspUpload.MQ.IndexFile
import LuspUpload.MQ.Steps
import Mathlib.Data.List.Range

/-!
# MQ.Head — the head that `peek` shows and the head that `pop_front` drops

A client peeks, writes the message and pops when the write completes, while producers go on.  `peek` and
`pop_front` each pick the tier from the ring positions of their own moment: a message that is peeked on
disk is no longer the head once a producer has put another one in the empty ring.

`places` lists where the stored messages lie, in the order in which they leave.  `popsPeeked_iff` holds
for every reachable state: any directory to start from, any outcomes of the writes, any calls.
-/

namespace LuspUpload.MQ

open Lib

/-- Where a stored message lies: a slot of the ring or an entry of the disk index. -/
inductive Place (N : ℕ) where
  | slot (i : Fin N)
  | entry (k : ℕ)
  deriving DecidableEq, Repr

namespace PersistentMessageQueue

variable {N : ℕ}

/-- The places of the stored messages, the ring window first. -/
def places (s : PersistentMessageQueue N) : List (Place N) :=
  s.ring.window.map .slot ++
    (List.range' s.diskReadPos (s.diskIndex.length - s.diskReadPos)).map .entry

/-- The message at a place. -/
def messageAt (s : PersistentMessageQueue N) : Place N → Option IpcMessage
  | .slot i => some (s.ring.slots i).message
  | .entry k => s.diskIndex[k]?.bind fun e =>
      deserializeMessage (IStream.readAt s.dir.bytes e.1 e.2 (.opened false)).1

/-- The state after the producers' calls. -/
def enqueueAll (s : PersistentMessageQueue N) (ms : List IpcMessage) : PersistentMessageQueue N :=
  ms.foldl (fun s m => (s.enqueue m).1) s

/-- After `ms` have been enqueued, `pop_front` removes the place at which `m` was peeked, and no other. -/
def PopsPeeked (s : PersistentMessageQueue N) (ms : List IpcMessage) (m : IpcMessage) : Prop :=
  ∃ p s', s.places.head? = some p ∧ s.messageAt p = some m ∧
    (s.enqueueAll ms).popFront = some (s', true) ∧
    (s.enqueueAll ms).places = p :: s'.places ∧
    ∀ q, s'.messageAt q = (s.enqueueAll ms).messageAt q

/-- A state that some queue on some directory gets into. -/
def Reachable [NeZero N] (crc : List UInt8 → UInt32) (s : PersistentMessageQueue N) : Prop :=
  ∃ maxDiskSize dir s₀ ops h, construct crc N maxDiskSize dir = some s₀ ∧
    (machine N).run s₀ ops = some (s, h)

/-! ### The slots of the window are ready -/

/-- No wait loop on a slot of the window spins. -/
def Ready (r : Ring N MemoryNode) : Prop := ∀ node ∈ r.contents, node.ready = true

theorem ready_of_empty {r : Ring N MemoryNode} (h : r.Empty) : Ready r := by
  simp [Ready, Ring.contents_of_empty h]

theorem Ready.put {r : Ring N MemoryNode} (h : Ready r) (hfull : ¬ r.Full) (m : IpcMessage) :
    Ready (r.put ⟨m, true⟩) := by
  intro node hnode
  rw [Ring.contents_put hfull, List.mem_append, List.mem_singleton] at hnode
  rcases hnode with hnode | rfl
  · exact h node hnode
  · rfl

theorem Ready.drop {r : Ring N MemoryNode} (h : Ready r) (hne : ¬ r.Empty) (node : MemoryNode) :
    Ready (r.setHead node).advance := by
  intro x hx
  rw [Ring.contents_setHead_advance hne] at hx
  refine h x ?_
  rw [Ring.contents_cons hne]
  exact List.mem_cons_of_mem _ hx

theorem Ready.await {r : Ring N MemoryNode} (h : Ready r) (hne : ¬ r.Empty) :
    r.head.await = some r.head.message := by
  have hhead : r.head.ready = true := h _ (by rw [Ring.contents_cons hne]; simp)
  simp [MemoryNode.await, hhead]

/-! ### The constructor and the calls keep them ready -/

section Keep

variable {s : PersistentMessageQueue N} {m : IpcMessage}

theorem loadDiskIndex_ring (crc : List UInt8 → UInt32) : (s.loadDiskIndex crc).1.ring = s.ring := by
  rcases s.loadDiskIndex_frame crc with ⟨i, c, h⟩ | ⟨i, h⟩ <;> rw [h]

theorem rebuildDiskIndexFromData_ring {s' : PersistentMessageQueue N}
    (h : s.rebuildDiskIndexFromData = some s') : s'.ring = s.ring := by
  unfold rebuildDiskIndexFromData at h
  split at h
  · simp only [Option.some.injEq] at h
    rw [h]
  · obtain ⟨r, -, rfl⟩ := Option.map_eq_some_iff.mp h
    rfl

theorem construct_ring [NeZero N] {crc : List UInt8 → UInt32} {maxDiskSize : UInt64} {dir : Dir}
    (h : construct crc N maxDiskSize dir = some s) : s.ring.Empty := by
  have hring : s.ring = (initial N maxDiskSize dir).ring := by
    unfold construct at h
    split_ifs at h
    · simp only [rebuildDiskIndex] at h
      split_ifs at h
      · simp only [Option.some.injEq] at h
        rw [← h, loadDiskIndex_ring]
      · rw [rebuildDiskIndexFromData_ring h, loadDiskIndex_ring]
    · simp only [Option.some.injEq] at h
      rw [← h]
  rw [hring]
  rfl

/-- What `enqueue` does to the ring and to the index. -/
theorem enqueue_frame (s : PersistentMessageQueue N) (m : IpcMessage) :
    (s.enqueue m).1.ring = (if s.ring.Full then s.ring else s.ring.put ⟨s.stamp m, true⟩) ∧
      (s.enqueue m).1.diskReadPos = s.diskReadPos ∧
      s.diskIndex.length ≤ (s.enqueue m).1.diskIndex.length := by
  have hb : (s.bumpId m).ring = s.ring ∧ (s.bumpId m).diskReadPos = s.diskReadPos ∧
      (s.bumpId m).diskIndex = s.diskIndex := by
    unfold bumpId
    split_ifs <;> exact ⟨rfl, rfl, rfl⟩
  have hw : ((s.bumpId m).writeToDisk (s.stamp m)).1.diskReadPos = s.diskReadPos ∧
      s.diskIndex.length ≤ ((s.bumpId m).writeToDisk (s.stamp m)).1.diskIndex.length := by
    rw [← hb.2.1, ← hb.2.2]
    unfold writeToDisk
    split_ifs <;> simp
  unfold enqueue
  simp only [hb.1]
  split_ifs with hfull hok
  · exact ⟨by simp [hb.1], hw⟩
  · exact ⟨by simp [hb.1], hw⟩
  · exact ⟨rfl, hb.2.1, by rw [hb.2.2]⟩

theorem keeps_ready : Keeps fun s : PersistentMessageQueue N => Ready s.ring where
  put _ m h hfull := h.put hfull m
  drop _ node h hne := h.drop hne node
  write s m h := by rw [writeToDisk_ring]; exact h
  move _ _ _ _ _ _ _ h := h

theorem Ready.step [NeZero N] {s' : PersistentMessageQueue N} {op : Op}
    {es : List (Event IpcMessage)} (h : Ready s.ring) (hs : step s op = some (s', es)) :
    Ready s'.ring := by
  by_cases hop : op = .clear
  · subst hop
    simp only [PersistentMessageQueue.step, Option.some.injEq, Prod.mk.injEq] at hs
    rw [← hs.1]
    exact ready_of_empty rfl
  · exact keeps_ready.step h hs hop

theorem Reachable.ready [NeZero N] {crc : List UInt8 → UInt32} (h : Reachable crc s) :
    Ready s.ring := by
  obtain ⟨maxDiskSize, dir, s₀, ops, es, hs₀, hrun⟩ := h
  have hkeep : Ready s₀.ring → Ready s.ring := by
    refine Machine.run_induction (R := fun s _ s' => Ready s.ring → Ready s'.ring)
      (fun _ h => h) ?_ ?_ hrun
    · intro s₁ s₂ s₃ _ _ h₁ h₂ h
      exact h₂ (h₁ h)
    · intro s₁ op s₂ es' hstep h
      exact h.step hstep
  exact hkeep (ready_of_empty (construct_ring hs₀))

theorem Ready.enqueueAll {ms : List IpcMessage} (h : Ready s.ring) :
    Ready (s.enqueueAll ms).ring := by
  induction ms generalizing s with
  | nil => exact h
  | cons m ms ih => exact ih (s := (s.enqueue m).1) (keeps_ready.enqueue h m)

end Keep

/-! ### The head place -/

section HeadPlace

variable {s : PersistentMessageQueue N} {p : Place N} {m : IpcMessage}

theorem places_of_not_empty (h : ¬ s.ring.Empty) :
    s.places = .slot s.ring.readPos :: (s.ring.advance.window.map .slot ++
      (List.range' s.diskReadPos (s.diskIndex.length - s.diskReadPos)).map .entry) := by
  rw [places, Ring.window_cons h]
  rfl

theorem places_of_empty (h : s.ring.Empty) :
    s.places = (List.range' s.diskReadPos (s.diskIndex.length - s.diskReadPos)).map .entry := by
  rw [places, Ring.window_of_empty h]
  rfl

theorem range'_pop {i n : ℕ} (h : i < n) :
    List.range' i (n - i) = i :: List.range' (i + 1) (n - (i + 1)) := by
  rw [show n - i = (n - (i + 1)) + 1 by omega]
  rfl

/-- The head place: the slot at the read position, or the first unread entry. -/
theorem head_places_iff : s.places.head? = some p ↔
    (¬ s.ring.Empty ∧ p = .slot s.ring.readPos) ∨
      (s.ring.Empty ∧ s.diskReadPos < s.diskIndex.length ∧ p = .entry s.diskReadPos) := by
  by_cases he : s.ring.Empty
  · rw [places_of_empty he]
    by_cases hd : s.diskReadPos < s.diskIndex.length
    · rw [range'_pop hd]
      simp [he, hd, eq_comm]
    · rw [show s.diskIndex.length - s.diskReadPos = 0 by omega]
      simp [he, hd]
  · rw [places_of_not_empty he]
    simp [he, eq_comm]

/-- `peek` shows the message at the head place. -/
theorem peek_place (h : s.peek = some (some m)) :
    ∃ p, s.places.head? = some p ∧ s.messageAt p = some m := by
  unfold peek at h
  split_ifs at h with he
  · simp only [Option.some.injEq] at h
    split at h
    · rename_i e bytes hentry hdata
      have hd : s.diskReadPos < s.diskIndex.length := (List.getElem?_eq_some_iff.mp hentry).1
      refine ⟨_, head_places_iff.mpr (Or.inr ⟨he, hd, rfl⟩), ?_⟩
      have hbytes : s.dir.bytes = bytes := by simp [Dir.bytes, hdata]
      rw [messageAt, hentry, hbytes]
      exact h
    · simp at h
  · refine ⟨_, head_places_iff.mpr (Or.inl ⟨he, rfl⟩), ?_⟩
    unfold MemoryNode.await at h
    split_ifs at h
    · simp only [Option.map_some, Option.some.injEq] at h
      rw [messageAt, ← h]
      rfl
    · simp at h

/-- `pop_front` removes the head place and no other, and leaves every message where it is. -/
theorem popFront_place (hready : Ready s.ring) (hp : s.places.head? = some p) :
    ∃ s', s.popFront = some (s', true) ∧ s.places = p :: s'.places ∧
      ∀ q, s'.messageAt q = s.messageAt q := by
  rcases head_places_iff.mp hp with ⟨he, rfl⟩ | ⟨he, hd, rfl⟩
  · have hpop : s.popFront = some ({ s with
        ring := (s.ring.setHead ⟨s.ring.head.message, false⟩).advance
        totalDequeued := s.totalDequeued + 1 }, true) := by
      rw [popFront, if_neg he, hready.await he]
      rfl
    refine ⟨_, hpop, places_of_not_empty he, ?_⟩
    rintro (i | k)
    · -- the message stays in its slot, only the flag goes
      by_cases hi : i = s.ring.readPos
      · subst hi
        simp [messageAt, Ring.setHead, Ring.advance, Ring.head]
      · simp [messageAt, Ring.setHead, Ring.advance, Function.update_of_ne hi]
    · rfl
  · have hentry := List.getElem?_eq_getElem hd
    refine ⟨_, by rw [popFront, if_pos he, hentry], ?_, fun q => ?_⟩
    · rw [places_of_empty he, range'_pop hd, places_of_empty (by exact he)]
      rfl
    · cases q <;> rfl

end HeadPlace

/-! ### Peek, enqueue, pop -/

section Agree

variable {s : PersistentMessageQueue N} {m : IpcMessage} {ms : List IpcMessage}

/-- An `enqueue` that finds a message in the ring, or a ring of capacity 1, leaves the head where it is. -/
theorem head_enqueue {p : Place N} (hp : s.places.head? = some p) (hor : ¬ s.ring.Empty ∨ N = 1) :
    (s.enqueue m).1.places.head? = some p ∧ (¬ (s.enqueue m).1.ring.Empty ∨ N = 1) := by
  obtain ⟨hring, hpos, hlen⟩ := enqueue_frame s m
  have hsame : (s.enqueue m).1.ring.readPos = s.ring.readPos ∧
      ((s.enqueue m).1.ring.Empty → s.ring.Empty) := by
    rw [hring]
    split_ifs with hfull
    · exact ⟨rfl, id⟩
    · refine ⟨rfl, fun h => ?_⟩
      rw [Ring.empty_iff_len, Ring.len_put hfull] at h
      omega
  refine ⟨head_places_iff.mpr ?_, hor.imp_left (mt hsame.2)⟩
  rcases head_places_iff.mp hp with ⟨he, rfl⟩ | ⟨he, hd, rfl⟩
  · exact Or.inl ⟨mt hsame.2 he, by rw [hsame.1]⟩
  · have hfull : s.ring.Full := (Ring.full_iff_of_empty he).mpr (hor.resolve_left (not_not.mpr he))
    rw [if_pos hfull] at hring
    exact Or.inr ⟨hring ▸ he, by omega, by rw [hpos]⟩

theorem head_enqueueAll {p : Place N} (hp : s.places.head? = some p)
    (hor : ¬ s.ring.Empty ∨ ms = [] ∨ N = 1) : (s.enqueueAll ms).places.head? = some p := by
  induction ms generalizing s with
  | nil => exact hp
  | cons x ms ih =>
    obtain ⟨hp', hor'⟩ := head_enqueue (m := x) hp (by simpa using hor)
    exact ih hp' (hor'.imp_right Or.inr)

/-- A message put in the ring stays there while producers go on. -/
theorem not_empty_enqueueAll (h : ¬ s.ring.Empty) : ¬ (s.enqueueAll ms).ring.Empty := by
  induction ms generalizing s with
  | nil => exact h
  | cons x ms ih =>
    refine ih (s := (s.enqueue x).1) ?_
    rw [(enqueue_frame s x).1]
    split_ifs with hfull
    · exact h
    · rw [Ring.empty_iff_len, Ring.len_put hfull]
      omega

theorem Ready.popsPeeked_iff (hready : Ready s.ring) (hpeek : s.peek = some (some m)) :
    s.PopsPeeked ms m ↔ ¬ s.ring.Empty ∨ ms = [] ∨ N = 1 := by
  obtain ⟨p, hp, hm⟩ := peek_place hpeek
  constructor
  · rintro ⟨q, s', hq, -, -, hpl, -⟩
    by_contra! hno
    obtain ⟨he, hne, hN⟩ := hno
    obtain ⟨x, ms, rfl⟩ := List.exists_cons_of_ne_nil hne
    -- the first of them goes to the empty ring and becomes the head
    have hring : ¬ (s.enqueue x).1.ring.Empty := by
      have hfull : ¬ s.ring.Full := mt (Ring.full_iff_of_empty he).mp hN
      rw [(enqueue_frame s x).1, if_neg hfull, Ring.empty_iff_len, Ring.len_put hfull]
      omega
    have hslot := @not_empty_enqueueAll _ _ ms hring
    have hhead : (s.enqueueAll (x :: ms)).places.head? = some q := by rw [hpl]; rfl
    rcases head_places_iff.mp hhead with ⟨-, rfl⟩ | ⟨he', -⟩
    · rcases head_places_iff.mp hq with ⟨hne', -⟩ | ⟨-, -, hslot'⟩
      · exact hne' he
      · exact absurd hslot' (by simp)
    · exact hslot he'
  · intro hor
    obtain ⟨s', hpop, hpl, hmsg⟩ := popFront_place hready.enqueueAll (head_enqueueAll hp hor)
    exact ⟨p, s', hp, hm, hpop, hpl, hmsg⟩

end Agree

/-- **Peek and pop agree** after any producers' calls exactly when the ring is not empty at the peek, or
nobody enqueues, or the capacity is 1 (such a ring takes no message). -/
theorem popFront_agrees_iff [NeZero N] {crc : List UInt8 → UInt32} {s : PersistentMessageQueue N}
    (h : Reachable crc s) {m : IpcMessage} (hpeek : s.peek = some (some m)) (ms : List IpcMessage) :
    s.PopsPeeked ms m ↔ ¬ s.ring.Empty ∨ ms = [] ∨ N = 1 :=
  h.ready.popsPeeked_iff hpeek

/-- A message peeked in the ring, one producer's call, the pop. -/
theorem popFront_agrees_iff_ring :
    ((fresh 2 1000).enqueue ⟨1, 0, 0, [65]⟩).1.PopsPeeked [⟨2, 0, 0, [66]⟩] ⟨1, 0, 0, [65]⟩ ↔
      ¬ ((fresh 2 1000).enqueue ⟨1, 0, 0, [65]⟩).1.ring.Empty ∨
        [(⟨2, 0, 0, [66]⟩ : IpcMessage)] = [] ∨ 2 = 1 :=
  @popFront_agrees_iff 2 _ (fun _ => 0) _
    ⟨1000, {}, _, [.enqueue ⟨1, 0, 0, [65]⟩], _, rfl, rfl⟩ _ rfl _

/-- Message 2 is peeked on disk, message 3 goes to the empty ring and is popped in its place. -/
theorem popFront_not_peeked : ∃ s : PersistentMessageQueue 2, Reachable (fun _ => 0) s ∧
    s.peek = some (some ⟨2, 0, 0, [66]⟩) ∧
    (s.enqueue ⟨3, 0, 0, [67]⟩).1.front = some ⟨3, 0, 0, [67]⟩ ∧
    ¬ s.PopsPeeked [⟨3, 0, 0, [67]⟩] ⟨2, 0, 0, [66]⟩ := by
  have hrun : ((machine 2).run (fresh 2 1000)
      [.enqueue ⟨1, 0, 0, [65]⟩, .enqueue ⟨2, 0, 0, [66]⟩, .dequeue]).map
        (fun r => (r.1.peek, (r.1.enqueue ⟨3, 0, 0, [67]⟩).1.front, decide r.1.ring.Empty)) =
      some (some (some ⟨2, 0, 0, [66]⟩), some ⟨3, 0, 0, [67]⟩, true) := by rfl
  obtain ⟨⟨s, h⟩, hs, heq⟩ := Option.map_eq_some_iff.mp hrun
  simp only [Prod.mk.injEq, decide_eq_true_eq] at heq
  obtain ⟨hpeek, hfront, he⟩ := heq
  have hr : Reachable (fun _ => 0) s := ⟨1000, {}, _, _, h, rfl, hs⟩
  refine ⟨s, hr, hpeek, hfront, fun hpop => ?_⟩
  have := (hr.ready.popsPeeked_iff hpeek).mp hpop
  simp [he] at this

end PersistentMessageQueue

end LuspUpload.MQ
