import LuspUpload.MQ.Refine

/-!
# MQ.Spsc — the memory ring between one producer and one consumer

`MQ.Queue` runs each call in one step.  Here the calls of a producer (`enqueue`) and of a consumer
(`dequeue`, `pop_front`) interleave: every load and store of `write_pos_`, `read_pos_` and `ready` and
every slot assignment is one step, and each side works with the copy of the other's position that it has
loaded.  Calls that find the ring full or empty turn to the disk and leave the ring as it is.  A call
with nobody in between is the step of `MQ.Queue` (`run_enqueue_alone`, `run_dequeue_alone`,
`run_popFront_alone`).

`run_spsc` : the ring is a first-in first-out queue in every state of every interleaving.
-/

namespace LuspUpload.MQ

open Lib

/-- The two calls that take a message from the ring. -/
inductive Taker where
  | dequeue
  | popFront
  deriving DecidableEq, Repr

/-- The next step of `enqueue`, with the copy of `write_pos_` that it works on. -/
inductive EnqueuePc (N : ℕ) where
  | idle
  | stamp (message : IpcMessage)
  | loadWrite (message : IpcMessage)
  | loadRead (message : IpcMessage) (writeIdx : Fin N)
  | assign (message : IpcMessage) (writeIdx : Fin N)
  | storeReady (message : IpcMessage) (writeIdx : Fin N)
  | storeWrite (message : IpcMessage) (writeIdx : Fin N)
  deriving DecidableEq, Repr

/-- The next step of `dequeue` or `pop_front`, with the copy of `read_pos_` that it works on; `dequeue`
carries the message that it has moved out. -/
inductive TakePc (N : ℕ) where
  | idle
  | loadRead (call : Taker)
  | loadWrite (call : Taker) (readIdx : Fin N)
  | awaitReady (call : Taker) (readIdx : Fin N)
  | moveOut (readIdx : Fin N)
  | storeReady (message : Option IpcMessage) (readIdx : Fin N)
  | storeRead (message : Option IpcMessage) (readIdx : Fin N)
  deriving DecidableEq, Repr

/-- The ring, the id counter and where the two calls stand. -/
structure SharedRing (N : ℕ) where
  ring : Ring N MemoryNode
  nextMessageId : UInt64
  producer : EnqueuePc N
  consumer : TakePc N

namespace SharedRing

variable {N : ℕ}

/-- A message enters the ring when `write_pos_` passes it, and leaves it when `read_pos_` does. -/
inductive Event where
  | placed (message : IpcMessage)
  | taken (message : IpcMessage)
  deriving DecidableEq, Repr

/-- A call starts, or makes its next step. -/
inductive Act where
  | enqueue (message : IpcMessage)
  | enqueueStep
  | take (call : Taker)
  | takeStep
  deriving DecidableEq, Repr

/-- The ring of a new queue, with both sides idle. -/
def initial (N : ℕ) [NeZero N] (maxDiskSize : UInt64) (dir : Dir) : SharedRing N where
  ring := (PersistentMessageQueue.initial N maxDiskSize dir).ring
  nextMessageId := (PersistentMessageQueue.initial N maxDiskSize dir).nextMessageId
  producer := .idle
  consumer := .idle

/-- One step of `enqueue`. -/
def enqueue (s : SharedRing N) : Option (SharedRing N × List Event) :=
  match s.producer with
  | .idle => none
  | .stamp message =>
    if message.id = 0 then
      some ({ s with
        nextMessageId := s.nextMessageId + 1
        producer := .loadWrite { message with id := s.nextMessageId } }, [])
    else some ({ s with producer := .loadWrite message }, [])
  | .loadWrite message => some ({ s with producer := .loadRead message s.ring.writePos }, [])
  | .loadRead message writeIdx =>
    -- full: the message goes to disk
    if Ring.next writeIdx = s.ring.readPos then some ({ s with producer := .idle }, [])
    else some ({ s with producer := .assign message writeIdx }, [])
  | .assign message writeIdx =>
    some ({ s with
      ring := s.ring.modify writeIdx fun node => { node with message := message }
      producer := .storeReady message writeIdx }, [])
  | .storeReady message writeIdx =>
    some ({ s with
      ring := s.ring.modify writeIdx fun node => { node with ready := true }
      producer := .storeWrite message writeIdx }, [])
  | .storeWrite message writeIdx =>
    some ({ s with
      ring := { s.ring with writePos := Ring.next writeIdx }
      producer := .idle }, [.placed message])

/-- One step of `dequeue` or `pop_front`. -/
def take (s : SharedRing N) : Option (SharedRing N × List Event) :=
  match s.consumer with
  | .idle => none
  | .loadRead call => some ({ s with consumer := .loadWrite call s.ring.readPos }, [])
  | .loadWrite call readIdx =>
    -- empty: the call turns to the disk
    if readIdx = s.ring.writePos then some ({ s with consumer := .idle }, [])
    else some ({ s with consumer := .awaitReady call readIdx }, [])
  | .awaitReady call readIdx =>
    if (s.ring.slots readIdx).ready then
      match call with
      | .dequeue => some ({ s with consumer := .moveOut readIdx }, [])
      | .popFront => some ({ s with consumer := .storeReady none readIdx }, [])
    else some (s, [])
  | .moveOut readIdx =>
    some ({ s with
      ring := s.ring.modify readIdx fun node =>
        { node with message := { node.message with data := [] } }
      consumer := .storeReady (some (s.ring.slots readIdx).message) readIdx }, [])
  | .storeReady message readIdx =>
    some ({ s with
      ring := s.ring.modify readIdx fun node => { node with ready := false }
      consumer := .storeRead message readIdx }, [])
  | .storeRead message readIdx =>
    some ({ s with
      ring := { s.ring with readPos := Ring.next readIdx }
      consumer := .idle }, [.taken (message.getD (s.ring.slots readIdx).message)])

/-- One step of a schedule; a side that is in a call does not start another. -/
def step (s : SharedRing N) : Act → Option (SharedRing N × List Event)
  | .enqueue message =>
    match s.producer with
    | .idle => some ({ s with producer := .stamp message }, [])
    | _ => none
  | .enqueueStep => s.enqueue
  | .take call =>
    match s.consumer with
    | .idle => some ({ s with consumer := .loadRead call }, [])
    | _ => none
  | .takeStep => s.take

/-- The producer and the consumer under a schedule. -/
def threads (N : ℕ) : Machine (SharedRing N) Act Event := ⟨step⟩

/-- The messages placed in the ring. -/
def placed (h : List Event) : List IpcMessage :=
  h.filterMap fun
    | .placed message => some message
    | .taken _ => none

/-- The messages taken from it. -/
def taken (h : List Event) : List IpcMessage :=
  h.filterMap fun
    | .placed _ => none
    | .taken message => some message

/-- The slot that the producer's next step assigns. -/
def assigned : EnqueuePc N → Option (Fin N)
  | .assign _ writeIdx => some writeIdx
  | .storeReady _ writeIdx => some writeIdx
  | _ => none

/-- The slot that the consumer works on. -/
def claimed : TakePc N → Option (Fin N)
  | .awaitReady _ readIdx => some readIdx
  | .moveOut readIdx => some readIdx
  | .storeReady _ readIdx => some readIdx
  | .storeRead _ readIdx => some readIdx
  | _ => none

/-- What a ring between a producer and a consumer is to give, in a state and after its events. -/
structure Correct (s : SharedRing N) (h : List Event) : Prop where
  fifo : taken h <+: placed h
  stored : (placed h).length = (taken h).length + s.ring.len
  bounded : s.ring.len ≤ N - 1
  apart : ∀ i ∈ assigned s.producer, i ∉ s.ring.window
  within : ∀ i ∈ claimed s.consumer, i ∈ s.ring.window
  seen : ∀ call readIdx, s.consumer = .loadWrite call readIdx → readIdx ≠ s.ring.writePos →
    (s.ring.slots readIdx).ready = true
  noSpin : ∀ call readIdx, s.consumer = .awaitReady call readIdx → (s.ring.slots readIdx).ready = true

/-! ### The invariant -/

/-- A node as the producer leaves it. -/
def filled (message : IpcMessage) : MemoryNode := ⟨message, true⟩

/-- The nodes in the window show the messages in the ring; the node that the consumer is emptying shows
its message through what the consumer carries. -/
def Shows : TakePc N → List MemoryNode → List IpcMessage → Prop
  | .storeReady message _, nodes, content => ∃ node rest,
      nodes = node :: rest.map filled ∧ content = message.getD node.message :: rest
  | .storeRead message _, nodes, content => ∃ node rest,
      nodes = node :: rest.map filled ∧ content = message.getD node.message :: rest
  | _, nodes, content => nodes = content.map filled

/-- Where the producer is: its copy of `write_pos_` is the position itself, and a slot that it has found
free stays free. -/
def Producing (ring : Ring N MemoryNode) : EnqueuePc N → Prop
  | .idle => True
  | .stamp _ => True
  | .loadWrite _ => True
  | .loadRead _ writeIdx => writeIdx = ring.writePos
  | .assign _ writeIdx => writeIdx = ring.writePos ∧ ¬ ring.Full
  | .storeReady message writeIdx =>
    writeIdx = ring.writePos ∧ ¬ ring.Full ∧ (ring.slots writeIdx).message = message
  | .storeWrite message writeIdx =>
    writeIdx = ring.writePos ∧ ¬ ring.Full ∧ ring.slots writeIdx = filled message

/-- Where the consumer is: its copy of `read_pos_` is the position itself, and a ring that it has found
filled stays filled. -/
def Consuming (ring : Ring N MemoryNode) : TakePc N → Prop
  | .idle => True
  | .loadRead _ => True
  | .loadWrite _ readIdx => readIdx = ring.readPos
  | .awaitReady _ readIdx => readIdx = ring.readPos ∧ ¬ ring.Empty
  | .moveOut readIdx => readIdx = ring.readPos ∧ ¬ ring.Empty
  | .storeReady _ readIdx => readIdx = ring.readPos ∧ ¬ ring.Empty
  | .storeRead _ readIdx => readIdx = ring.readPos ∧ ¬ ring.Empty

/-- What every step keeps. -/
structure Inv (s : SharedRing N) (h : List Event) : Prop where
  content : ∃ content, placed h = taken h ++ content ∧ Shows s.consumer s.ring.contents content
  producing : Producing s.ring s.producer
  consuming : Consuming s.ring s.consumer

section Steps

variable {s s' : SharedRing N} {h : List Event} {es : List Event} {pc pc' : TakePc N}
  {nodes : List MemoryNode} {content : List IpcMessage} {message : IpcMessage}

@[simp] theorem placed_append (h h' : List Event) : placed (h ++ h') = placed h ++ placed h' :=
  List.filterMap_append

@[simp] theorem taken_append (h h' : List Event) : taken (h ++ h') = taken h ++ taken h' :=
  List.filterMap_append

/-- A node that the producer publishes comes last. -/
theorem Shows.append (hshows : Shows pc nodes content) (message : IpcMessage) :
    Shows pc (nodes ++ [filled message]) (content ++ [message]) := by
  cases pc with
  | storeReady carried readIdx =>
    obtain ⟨node, rest, rfl, rfl⟩ := hshows
    exact ⟨node, rest ++ [message], by simp, by simp⟩
  | storeRead carried readIdx =>
    obtain ⟨node, rest, rfl, rfl⟩ := hshows
    exact ⟨node, rest ++ [message], by simp, by simp⟩
  | _ =>
    show nodes ++ [filled message] = (content ++ [message]).map filled
    rw [List.map_append, show nodes = content.map filled from hshows]
    rfl

/-- The ring holds as many messages as its window has slots. -/
theorem Shows.length (hshows : Shows pc nodes content) : nodes.length = content.length := by
  cases pc with
  | storeReady carried readIdx =>
    obtain ⟨node, rest, rfl, rfl⟩ := hshows
    simp
  | storeRead carried readIdx =>
    obtain ⟨node, rest, rfl, rfl⟩ := hshows
    simp
  | _ =>
    rw [show nodes = content.map filled from hshows, List.length_map]

/-- The consumer's positions under a change of slots. -/
theorem consuming_modify {ring : Ring N MemoryNode} {i : Fin N} {f : MemoryNode → MemoryNode} :
    Consuming (ring.modify i f) pc ↔ Consuming ring pc := by
  cases pc <;> exact Iff.rfl

/-- A change of another slot leaves the producer's slot as it is. -/
theorem Producing.modify {ring : Ring N MemoryNode} {pc : EnqueuePc N} (hpc : Producing ring pc)
    {i : Fin N} (hne : ring.writePos ≠ i) (f : MemoryNode → MemoryNode) :
    Producing (ring.modify i f) pc := by
  have hslot := Ring.slots_modify_of_ne (r := ring) hne f
  cases pc with
  | storeReady message writeIdx =>
    obtain ⟨rfl, hfull, hmessage⟩ := hpc
    exact ⟨rfl, hfull, by rw [hslot, hmessage]⟩
  | storeWrite message writeIdx =>
    obtain ⟨rfl, hfull, hnode⟩ := hpc
    exact ⟨rfl, hfull, by rw [hslot, hnode]⟩
  | _ => exact hpc

/-- A read leaves the producer where it is. -/
theorem Producing.advance {ring : Ring N MemoryNode} {pc : EnqueuePc N} (hpc : Producing ring pc)
    (hempty : ¬ ring.Empty) : Producing ring.advance pc := by
  have hroom := Ring.not_full_advance hempty
  cases pc with
  | assign message writeIdx => exact ⟨hpc.1, hroom⟩
  | storeReady message writeIdx => exact ⟨hpc.1, hroom, hpc.2.2⟩
  | storeWrite message writeIdx => exact ⟨hpc.1, hroom, hpc.2.2⟩
  | _ => exact hpc

/-- A write leaves the consumer where it is. -/
theorem Consuming.publish {ring : Ring N MemoryNode} (hpc : Consuming ring pc) (hfull : ¬ ring.Full) :
    Consuming ring.publish pc := by
  have hfilled := Ring.not_empty_publish hfull
  cases pc with
  | awaitReady call readIdx => exact ⟨hpc.1, hfilled⟩
  | moveOut readIdx => exact ⟨hpc.1, hfilled⟩
  | storeReady message readIdx => exact ⟨hpc.1, hfilled⟩
  | storeRead message readIdx => exact ⟨hpc.1, hfilled⟩
  | _ => exact hpc

/-- The producer moves on; the ring changes at most in a slot outside the window. -/
theorem Inv.produces (hinv : Inv s h) (ring : Ring N MemoryNode) (id : UInt64) (pc : EnqueuePc N)
    (hcontents : ring.contents = s.ring.contents) (hproducing : Producing ring pc)
    (hconsuming : Consuming ring s.consumer) :
    Inv { s with ring := ring, nextMessageId := id, producer := pc } (h ++ []) := by
  obtain ⟨content, hplaced, hshows⟩ := hinv.content
  rw [List.append_nil]
  refine ⟨⟨content, hplaced, ?_⟩, hproducing, hconsuming⟩
  rw [hcontents]
  exact hshows

/-- One step of `enqueue`. -/
theorem Inv.enqueue (hinv : Inv s h) (hs : s.enqueue = some (s', es)) : Inv s' (h ++ es) := by
  have hproducing := hinv.producing
  have houtside := s.ring.writePos_notMem_window
  unfold SharedRing.enqueue at hs
  cases hpc : s.producer with
  | idle => simp [hpc] at hs
  | stamp message =>
    simp only [hpc] at hs
    split_ifs at hs
    · cases hs
      exact hinv.produces s.ring _ _ rfl trivial hinv.consuming
    · cases hs
      exact hinv.produces s.ring _ _ rfl trivial hinv.consuming
  | loadWrite message =>
    simp only [hpc] at hs
    cases hs
    exact hinv.produces s.ring _ (.loadRead message _) rfl rfl hinv.consuming
  | loadRead message writeIdx =>
    rw [hpc] at hproducing
    simp only [hpc] at hs
    split_ifs at hs with hfull
    · cases hs
      exact hinv.produces s.ring _ _ rfl trivial hinv.consuming
    · cases hs
      obtain rfl : writeIdx = s.ring.writePos := hproducing
      exact hinv.produces s.ring _ (.assign message _) rfl ⟨rfl, hfull⟩ hinv.consuming
  | assign message writeIdx =>
    rw [hpc] at hproducing
    simp only [hpc] at hs
    cases hs
    obtain ⟨rfl, hfull⟩ := hproducing
    refine hinv.produces _ _ (.storeReady message _) (Ring.contents_modify houtside _)
      ⟨rfl, hfull, ?_⟩ ?_
    · rw [Ring.slots_modify_self]
    · exact consuming_modify.mpr hinv.consuming
  | storeReady message writeIdx =>
    rw [hpc] at hproducing
    simp only [hpc] at hs
    cases hs
    obtain ⟨rfl, hfull, hmessage⟩ := hproducing
    refine hinv.produces _ _ (.storeWrite message _) (Ring.contents_modify houtside _)
      ⟨rfl, hfull, ?_⟩ ?_
    · rw [Ring.slots_modify_self, hmessage]
      rfl
    · exact consuming_modify.mpr hinv.consuming
  | storeWrite message writeIdx =>
    rw [hpc] at hproducing
    simp only [hpc] at hs
    cases hs
    obtain ⟨rfl, hfull, hnode⟩ := hproducing
    obtain ⟨content, hplaced, hshows⟩ := hinv.content
    refine ⟨⟨content ++ [message], ?_, ?_⟩, trivial, ?_⟩
    · have hnone : taken [.placed message] = [] := rfl
      rw [placed_append, taken_append, hplaced, hnone, List.append_nil, List.append_assoc]
      rfl
    · -- the slot was assigned outside the window and joins it now
      show Shows s.consumer s.ring.publish.contents _
      rw [Ring.contents_publish hfull, hnode]
      exact hshows.append message
    · exact hinv.consuming.publish hfull

/-- The consumer moves on and leaves the ring as it is. -/
theorem Inv.consumes (hinv : Inv s h) (hpc : Shows pc s.ring.contents = Shows s.consumer s.ring.contents)
    (hconsuming : Consuming s.ring pc) : Inv { s with consumer := pc } (h ++ []) := by
  rw [List.append_nil]
  refine ⟨?_, hinv.producing, hconsuming⟩
  show ∃ content, _ ∧ Shows pc s.ring.contents content
  rw [hpc]
  exact hinv.content

/-- In a ring that is not empty, the node at the read position is the producer's. -/
theorem head_filled (hempty : ¬ s.ring.Empty) (hshows : s.ring.contents = content.map filled) :
    ∃ message rest, content = message :: rest ∧ s.ring.slots s.ring.readPos = filled message ∧
      s.ring.advance.contents = rest.map filled := by
  rw [Ring.contents_cons hempty] at hshows
  cases content with
  | nil => exact absurd hshows (by simp)
  | cons message rest =>
    obtain ⟨hhead, hrest⟩ := List.cons.inj hshows
    exact ⟨message, rest, rfl, hhead, hrest⟩

/-- One step of `dequeue` or `pop_front`. -/
theorem Inv.take (hinv : Inv s h) (hs : s.take = some (s', es)) : Inv s' (h ++ es) := by
  have hconsuming := hinv.consuming
  obtain ⟨content, hplaced, hshows⟩ := hinv.content
  unfold SharedRing.take at hs
  cases hpc : s.consumer with
  | idle => simp [hpc] at hs
  | loadRead call =>
    simp only [hpc] at hs
    cases hs
    exact hinv.consumes (by rw [hpc]; rfl) rfl
  | loadWrite call readIdx =>
    rw [hpc] at hconsuming
    simp only [hpc] at hs
    obtain rfl : readIdx = s.ring.readPos := hconsuming
    split_ifs at hs with hempty
    · cases hs
      exact hinv.consumes (by rw [hpc]; rfl) trivial
    · cases hs
      exact hinv.consumes (by rw [hpc]; rfl) ⟨rfl, hempty⟩
  | awaitReady call readIdx =>
    rw [hpc] at hconsuming hshows
    simp only [hpc] at hs
    obtain ⟨rfl, hempty⟩ := hconsuming
    obtain ⟨message, rest, rfl, hhead, hrest⟩ := head_filled hempty hshows
    -- a node in the window is ready: the loop ends at its first load
    rw [if_pos (by rw [hhead]; rfl)] at hs
    cases call with
    | dequeue =>
      cases hs
      exact hinv.consumes (by rw [hpc]; rfl) ⟨rfl, hempty⟩
    | popFront =>
      cases hs
      rw [List.append_nil]
      refine ⟨⟨message :: rest, hplaced, filled message, rest, hshows, rfl⟩, hinv.producing, rfl, hempty⟩
  | moveOut readIdx =>
    rw [hpc] at hconsuming hshows
    simp only [hpc] at hs
    cases hs
    obtain ⟨rfl, hempty⟩ := hconsuming
    obtain ⟨message, rest, rfl, hhead, hrest⟩ := head_filled hempty hshows
    have hcontents := Ring.contents_modify_head hempty fun node : MemoryNode =>
      { node with message := { node.message with data := [] } }
    rw [hrest] at hcontents
    rw [List.append_nil]
    refine ⟨⟨message :: rest, hplaced, _, rest, hcontents, ?_⟩, ?_, rfl, hempty⟩
    · rw [hhead]
      rfl
    · exact hinv.producing.modify (Ne.symm hempty) _
  | storeReady carried readIdx =>
    rw [hpc] at hconsuming hshows
    simp only [hpc] at hs
    cases hs
    obtain ⟨rfl, hempty⟩ := hconsuming
    obtain ⟨node, rest, hnodes, hcontent⟩ := hshows
    rw [Ring.contents_cons hempty] at hnodes
    obtain ⟨rfl, hrest⟩ := List.cons.inj hnodes
    have hcontents := Ring.contents_modify_head hempty fun node : MemoryNode =>
      { node with ready := false }
    rw [hrest] at hcontents
    rw [List.append_nil]
    refine ⟨⟨content, hplaced, _, rest, hcontents, hcontent⟩, ?_, rfl, hempty⟩
    · exact hinv.producing.modify (Ne.symm hempty) _
  | storeRead carried readIdx =>
    rw [hpc] at hconsuming hshows
    simp only [hpc] at hs
    cases hs
    obtain ⟨rfl, hempty⟩ := hconsuming
    obtain ⟨node, rest, hnodes, rfl⟩ := hshows
    rw [Ring.contents_cons hempty] at hnodes
    obtain ⟨rfl, hrest⟩ := List.cons.inj hnodes
    refine ⟨⟨rest, ?_, hrest⟩, hinv.producing.advance hempty, trivial⟩
    have hnone : placed [.taken (carried.getD s.ring.head.message)] = [] := rfl
    have hone : taken [.taken (carried.getD s.ring.head.message)] =
      [carried.getD s.ring.head.message] := rfl
    show placed (h ++ [.taken (carried.getD s.ring.head.message)]) =
      taken (h ++ [.taken (carried.getD s.ring.head.message)]) ++ rest
    rw [placed_append, taken_append, hplaced, hnone, hone, List.append_nil, List.append_assoc]
    rfl

/-- Every step keeps the invariant. -/
theorem step_inv {a : Act} (hinv : Inv s h) (hs : step s a = some (s', es)) : Inv s' (h ++ es) := by
  cases a with
  | enqueue message =>
    cases hpc : s.producer with
    | idle =>
      simp only [step, hpc] at hs
      cases hs
      exact hinv.produces s.ring _ _ rfl trivial hinv.consuming
    | _ => simp [step, hpc] at hs
  | enqueueStep => exact hinv.enqueue hs
  | take call =>
    cases hpc : s.consumer with
    | idle =>
      simp only [step, hpc] at hs
      cases hs
      exact hinv.consumes (by rw [hpc]; rfl) trivial
    | _ => simp [step, hpc] at hs
  | takeStep => exact hinv.take hs

/-- The read position is in the window of a ring that is not empty. -/
theorem readPos_mem_window (hempty : ¬ s.ring.Empty) : s.ring.readPos ∈ s.ring.window := by
  rw [Ring.window_cons hempty]
  exact List.mem_cons_self

/-- What the invariant says to an observer. -/
theorem Inv.correct (hinv : Inv s h) : s.Correct h := by
  have hproducing := hinv.producing
  have hconsuming := hinv.consuming
  obtain ⟨content, hplaced, hshows⟩ := hinv.content
  refine ⟨⟨content, hplaced.symm⟩, ?_, ?_, ?_, ?_, ?_, ?_⟩
  · rw [hplaced, List.length_append, ← hshows.length, Ring.length_contents]
  · have hlt := s.ring.len_lt
    omega
  · intro i hi
    have hw : i = s.ring.writePos := by
      cases hpc : s.producer with
      | assign message writeIdx =>
        rw [hpc] at hproducing hi
        exact (Option.some.inj hi).symm.trans hproducing.1
      | storeReady message writeIdx =>
        rw [hpc] at hproducing hi
        exact (Option.some.inj hi).symm.trans hproducing.1
      | _ => simp [hpc, assigned] at hi
    rw [hw]
    exact s.ring.writePos_notMem_window
  · intro i hi
    have hr : i = s.ring.readPos ∧ ¬ s.ring.Empty := by
      cases hpc : s.consumer with
      | awaitReady call readIdx =>
        rw [hpc] at hconsuming hi
        exact ⟨(Option.some.inj hi).symm.trans hconsuming.1, hconsuming.2⟩
      | moveOut readIdx =>
        rw [hpc] at hconsuming hi
        exact ⟨(Option.some.inj hi).symm.trans hconsuming.1, hconsuming.2⟩
      | storeReady message readIdx =>
        rw [hpc] at hconsuming hi
        exact ⟨(Option.some.inj hi).symm.trans hconsuming.1, hconsuming.2⟩
      | storeRead message readIdx =>
        rw [hpc] at hconsuming hi
        exact ⟨(Option.some.inj hi).symm.trans hconsuming.1, hconsuming.2⟩
      | _ => simp [hpc, claimed] at hi
    rw [hr.1]
    exact readPos_mem_window hr.2
  · intro call readIdx hpc hne
    rw [hpc] at hconsuming hshows
    obtain rfl : readIdx = s.ring.readPos := hconsuming
    obtain ⟨message, rest, -, hhead, -⟩ := head_filled hne hshows
    rw [hhead]
    rfl
  · intro call readIdx hpc
    rw [hpc] at hconsuming hshows
    obtain ⟨rfl, hempty⟩ := hconsuming
    obtain ⟨message, rest, -, hhead, -⟩ := head_filled hempty hshows
    rw [hhead]
    rfl

end Steps

theorem inv_initial [NeZero N] (maxDiskSize : UInt64) (dir : Dir) :
    Inv (initial N maxDiskSize dir) [] where
  content := ⟨[], rfl, Ring.contents_of_empty rfl⟩
  producing := trivial
  consuming := trivial

/-- **First in, first out** — in every state of every interleaving of one producer and one consumer: the
messages taken are a prefix of the messages placed, at most `N - 1` are in the ring, the producer assigns no
slot of the window and the consumer works on no other, and where the consumer sees the positions differ
its slot is ready. -/
theorem run_spsc [NeZero N] {maxDiskSize : UInt64} {dir : Dir} {as : List Act} {s : SharedRing N}
    {es : List Event} (hrun : (threads N).run (initial N maxDiskSize dir) as = some (s, es)) :
    s.Correct es := by
  have hall : (threads N).Along (fun _ _ => True) (initial N maxDiskSize dir) as :=
    Machine.along_of_forall (P := fun _ => True) (fun _ _ => trivial) _
  have hinv := hall.invariant (I := Inv) (fun s h a s' es hinv _ hs => step_inv hinv hs)
    (inv_initial maxDiskSize dir) hrun
  exact hinv.correct

/-- Two slots: `dequeue` takes the first message while the producer is in its second call, which finds room
only then. -/
theorem run_spsc_interleaved : ∃ s es,
    (threads 2).run (initial 2 100 {})
      [.enqueue ⟨0, 1, 2, [3]⟩, .enqueueStep, .enqueueStep, .enqueueStep, .enqueueStep, .enqueueStep,
        .enqueueStep, .enqueue ⟨0, 4, 5, [6]⟩, .take .dequeue, .takeStep, .takeStep, .enqueueStep,
        .takeStep, .takeStep, .enqueueStep, .takeStep, .takeStep, .enqueueStep, .enqueueStep,
        .enqueueStep, .enqueueStep] = some (s, es) ∧
    es = [.placed ⟨1, 1, 2, [3]⟩, .taken ⟨1, 1, 2, [3]⟩, .placed ⟨2, 4, 5, [6]⟩] ∧ s.Correct es := by
  have hend : ((threads 2).run (initial 2 100 {})
      [.enqueue ⟨0, 1, 2, [3]⟩, .enqueueStep, .enqueueStep, .enqueueStep, .enqueueStep, .enqueueStep,
        .enqueueStep, .enqueue ⟨0, 4, 5, [6]⟩, .take .dequeue, .takeStep, .takeStep, .enqueueStep,
        .takeStep, .takeStep, .enqueueStep, .takeStep, .takeStep, .enqueueStep, .enqueueStep,
        .enqueueStep, .enqueueStep]).map (·.2) =
      some [.placed ⟨1, 1, 2, [3]⟩, .taken ⟨1, 1, 2, [3]⟩, .placed ⟨2, 4, 5, [6]⟩] := by rfl
  obtain ⟨⟨s, es⟩, hrun, rfl⟩ := Option.map_eq_some_iff.mp hend
  exact ⟨s, _, hrun, rfl, run_spsc hrun⟩

/-! ### A call on its own -/

section Alone

variable (q : PersistentMessageQueue N)

/-- The ring of a queue, with both sides idle. -/
def ofQueue : SharedRing N := ⟨q.ring, q.nextMessageId, .idle, .idle⟩

/-- The first two steps of `enqueue`: the id, and the copy of `write_pos_`. -/
theorem run_enqueue_head (message : IpcMessage) :
    (threads N).run (ofQueue q) [.enqueue message, .enqueueStep, .enqueueStep] =
      some (⟨q.ring, (q.bumpId message).nextMessageId, .loadRead (q.stamp message) q.ring.writePos, .idle⟩,
        []) := by
  by_cases hid : message.id = 0
  · simp [threads, Machine.run, step, ofQueue, enqueue, hid, PersistentMessageQueue.bumpId,
      PersistentMessageQueue.stamp]
  · simp [threads, Machine.run, step, ofQueue, enqueue, hid, PersistentMessageQueue.bumpId,
      PersistentMessageQueue.stamp]

/-- A call of `enqueue` with nobody in between is the one step of `MQ.Queue`. -/
theorem run_enqueue_alone (message : IpcMessage) : ∃ k es,
    (threads N).run (ofQueue q) (.enqueue message :: List.replicate k .enqueueStep) =
      some (ofQueue (q.enqueue message).1, es) := by
  have hhead := run_enqueue_head q message
  by_cases hfull : q.ring.Full
  · have hqueue : ofQueue (q.enqueue message).1 =
        ⟨q.ring, (q.bumpId message).nextMessageId, .idle, .idle⟩ := by
      have hfull' : (q.bumpId message).ring.Full := by
        rw [PersistentMessageQueue.bumpId_ring]
        exact hfull
      rw [PersistentMessageQueue.enqueue, if_pos hfull', ofQueue]
      cases hok : ((q.bumpId message).writeToDisk (q.stamp message)).2 <;> simp [hok]
    have hnext : Ring.next q.ring.writePos = q.ring.readPos := hfull
    have htail : (threads N).run ⟨q.ring, (q.bumpId message).nextMessageId,
        .loadRead (q.stamp message) q.ring.writePos, .idle⟩ [.enqueueStep] =
        some (ofQueue (q.enqueue message).1, []) := by
      rw [hqueue]
      simp [threads, Machine.run, step, enqueue, hnext]
    exact ⟨3, [], Machine.run_append hhead htail⟩
  · have hqueue : ofQueue (q.enqueue message).1 =
        ⟨q.ring.put ⟨q.stamp message, true⟩, (q.bumpId message).nextMessageId, .idle, .idle⟩ := by
      have hfull' : ¬ (q.bumpId message).ring.Full := by
        rw [PersistentMessageQueue.bumpId_ring]
        exact hfull
      rw [PersistentMessageQueue.enqueue, if_neg hfull', ofQueue]
      simp
    have hnext : Ring.next q.ring.writePos ≠ q.ring.readPos := hfull
    have htail : (threads N).run ⟨q.ring, (q.bumpId message).nextMessageId,
        .loadRead (q.stamp message) q.ring.writePos, .idle⟩
        [.enqueueStep, .enqueueStep, .enqueueStep, .enqueueStep] =
        some (ofQueue (q.enqueue message).1, [.placed (q.stamp message)]) := by
      rw [hqueue]
      simp [threads, Machine.run, step, enqueue, hnext, Ring.put, Ring.modify]
    exact ⟨6, [.placed (q.stamp message)], Machine.run_append hhead htail⟩

/-- The first two steps of `dequeue` and `pop_front`: the copies of the positions. -/
theorem run_take_head (call : Taker) : (threads N).run (ofQueue q) [.take call, .takeStep, .takeStep] =
    some (⟨q.ring, q.nextMessageId, .idle,
      if q.ring.Empty then .idle else .awaitReady call q.ring.readPos⟩, []) := by
  by_cases hempty : q.ring.Empty
  · have heq : q.ring.readPos = q.ring.writePos := hempty
    simp [threads, Machine.run, step, ofQueue, take, hempty, heq]
  · have hne : q.ring.readPos ≠ q.ring.writePos := hempty
    simp [threads, Machine.run, step, ofQueue, take, hempty, hne]

/-- A call of `dequeue` with nobody in between is the one step of `MQ.Queue`. -/
theorem run_dequeue_alone {r : PersistentMessageQueue N × Option IpcMessage}
    (hr : q.dequeue = some r) : ∃ k es,
    (threads N).run (ofQueue q) (.take .dequeue :: List.replicate k .takeStep) =
      some (ofQueue r.1, es) := by
  have hhead := run_take_head q .dequeue
  unfold PersistentMessageQueue.dequeue at hr
  by_cases hempty : q.ring.Empty
  · rw [if_pos hempty] at hhead hr
    have hqueue : ofQueue r.1 = ofQueue q := by
      obtain rfl := Option.some.inj hr
      rcases q.readFromDisk_cases with ⟨reader, hread⟩ | ⟨reader, e, m, -, hread⟩
      · rw [hread]
        rfl
      · rw [hread]
        rfl
    rw [hqueue]
    exact ⟨2, [], hhead⟩
  · rw [if_neg hempty] at hhead hr
    obtain ⟨message, hawait, rfl⟩ := Option.map_eq_some_iff.mp hr
    have hnode : q.ring.slots q.ring.readPos = ⟨message, true⟩ :=
      PersistentMessageQueue.await_eq_some.mp hawait
    have htail : (threads N).run ⟨q.ring, q.nextMessageId, .idle, .awaitReady .dequeue q.ring.readPos⟩
        [.takeStep, .takeStep, .takeStep, .takeStep] =
        some (⟨(q.ring.setHead ⟨{ message with data := [] }, false⟩).advance,
          q.nextMessageId, .idle, .idle⟩, [.taken message]) := by
      simp [threads, Machine.run, step, take, hnode, Ring.setHead, Ring.advance, Ring.modify]
    exact ⟨6, [.taken message], Machine.run_append hhead htail⟩

/-- A call of `pop_front` with nobody in between is the one step of `MQ.Queue`. -/
theorem run_popFront_alone {r : PersistentMessageQueue N × Bool} (hr : q.popFront = some r) : ∃ k es,
    (threads N).run (ofQueue q) (.take .popFront :: List.replicate k .takeStep) =
      some (ofQueue r.1, es) := by
  have hhead := run_take_head q .popFront
  unfold PersistentMessageQueue.popFront at hr
  by_cases hempty : q.ring.Empty
  · rw [if_pos hempty] at hhead hr
    have hqueue : ofQueue r.1 = ofQueue q := by
      obtain rfl := Option.some.inj hr
      cases q.diskIndex[q.diskReadPos]? <;> rfl
    rw [hqueue]
    exact ⟨2, [], hhead⟩
  · rw [if_neg hempty] at hhead hr
    obtain ⟨message, hawait, rfl⟩ := Option.map_eq_some_iff.mp hr
    have hnode : q.ring.slots q.ring.readPos = ⟨message, true⟩ :=
      PersistentMessageQueue.await_eq_some.mp hawait
    have htail : (threads N).run ⟨q.ring, q.nextMessageId, .idle, .awaitReady .popFront q.ring.readPos⟩
        [.takeStep, .takeStep, .takeStep] =
        some (⟨(q.ring.setHead ⟨message, false⟩).advance,
          q.nextMessageId, .idle, .idle⟩, [.taken message]) := by
      simp [threads, Machine.run, step, take, hnode, Ring.setHead, Ring.advance, Ring.modify]
    exact ⟨5, [.taken message], Machine.run_append hhead htail⟩

end Alone

end SharedRing

end LuspUpload.MQ
