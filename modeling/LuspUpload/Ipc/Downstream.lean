import LuspUpload.Ipc.Frame
import LuspUpload.Ipc.Link

/-!
# Ipc.Downstream — from the server to the client

On one connection the server writes broadcasts (`Lusp_AsioIpcSender::broadcast`) and PONG replies
(`send_heartbeat_pong`).  A PONG is framed like the messages of the client; a broadcast is written as it
is.  The client does not unpack anything: every chunk that `async_read_some` returns goes to `on_message_`.
So the boundaries of the messages are lost, and survive only where there are none to lose.
-/

namespace LuspUpload.Ipc

open Lib Config

/-- What the server writes to a connection. -/
inductive Reply where
  | broadcast (message : List UInt8)
  | pong (payload : List UInt8)
  deriving DecidableEq, Repr

/-- The bytes of one write. -/
def Reply.bytes : Reply → List UInt8
  | .broadcast message => message
  | .pong payload => frame payload

/-- The bytes of all writes, each whole and in order. -/
def replyStream (replies : List Reply) : List UInt8 := replies.flatMap Reply.bytes

/-- The message of a broadcast. -/
def Reply.message? : Reply → Option (List UInt8)
  | .broadcast message => some message
  | .pong _ => none

/-- The messages that were broadcast. -/
def broadcasts (replies : List Reply) : List (List UInt8) := replies.filterMap Reply.message?

namespace LoopbackIpcClient

variable {p : Platform} {cfg : NetworkConfig} {s : LoopbackIpcClient}

/-- Reads of the client, each with its bytes and time, take the stream in: no read is empty, and none is
longer than the client's buffer. -/
structure Segments (cfg : NetworkConfig) (reads : List (List UInt8 × UInt64)) (stream : List UInt8) :
    Prop where
  whole : (reads.map Prod.fst).flatten = stream
  sized : ∀ r ∈ reads, r.1 ≠ [] ∧ r.1.length ≤ cfg.bufferSize.toNat

/-- The client has its callback, an open socket and a pending read. -/
structure Listening (s : LoopbackIpcClient) : Prop where
  callback : s.onMessage = true
  socket : s.isOpen = true
  pending : 0 < s.reads

/-- The completions of the reads. -/
def readActs (reads : List (List UInt8 × UInt64)) : List Act :=
  reads.map fun r => .readDone none r.1 r.2

/-- What `on_message_` was invoked with. -/
def Event.message? : Event → Option (List UInt8)
  | .message bytes => some bytes
  | _ => none

/-- The messages survive the stream: whatever the segmentation, `on_message_` is invoked with exactly the
broadcast messages, in order. -/
def Survives (p : Platform) (cfg : NetworkConfig) (replies : List Reply) : Prop :=
  ∀ s, Listening s → ∀ reads, Segments cfg reads (replyStream replies) →
    ∃ s' es, (link p cfg).run s (readActs reads) = some (s', es) ∧
      es.filterMap Event.message? = broadcasts replies

/-! ### What the client hands on -/

theorem readDone_listening (h : Listening s) {bytes : List UInt8} (hne : bytes ≠ []) (now : UInt64) :
    ∃ s', (link p cfg).step s (.readDone none bytes now) =
      some (s', [.received bytes now, .message bytes]) ∧ Listening s' := by
  obtain ⟨hcallback, hsocket, hpending⟩ := h
  refine ⟨{ s with reads := s.reads - 1 + 1 }, ?_, ⟨hcallback, hsocket, Nat.succ_pos _⟩⟩
  show (if 0 < s.reads then _ else none) = _
  rw [if_pos hpending]
  simp [handleReadResult, hne, doRead, hsocket, hcallback]

/-- Every read is handed on as it is. -/
theorem run_readActs {reads : List (List UInt8 × UInt64)} (h : Listening s) (hne : ∀ r ∈ reads, r.1 ≠ []) :
    ∃ s' es, (link p cfg).run s (readActs reads) = some (s', es) ∧
      es.filterMap Event.message? = reads.map Prod.fst := by
  induction reads generalizing s with
  | nil => exact ⟨s, [], rfl, rfl⟩
  | cons r reads ih =>
    obtain ⟨s₁, hstep, h₁⟩ := @readDone_listening p cfg s h r.1 (hne r List.mem_cons_self) r.2
    obtain ⟨s₂, es, hrun, hes⟩ := ih h₁ fun q hq => hne q (List.mem_cons_of_mem _ hq)
    refine ⟨s₂, _, Machine.run_cons hstep hrun, ?_⟩
    rw [List.filterMap_append, hes]
    rfl

/-- So the messages survive when every segmentation is the list of them. -/
theorem survives_iff_segments {replies : List Reply} : Survives p cfg replies ↔
    ∀ reads, Segments cfg reads (replyStream replies) → reads.map Prod.fst = broadcasts replies := by
  have hlistening : Listening { create 0 with onMessage := true, isOpen := true, reads := 1 } :=
    ⟨rfl, rfl, Nat.one_pos⟩
  constructor
  · intro h reads hseg
    obtain ⟨s', es, hrun, hes⟩ := h _ hlistening reads hseg
    obtain ⟨s₂, es₂, hrun₂, hes₂⟩ := @run_readActs p cfg _ _ hlistening fun r hr => (hseg.sized r hr).1
    obtain ⟨-, rfl⟩ := Prod.mk.inj (Option.some.inj (hrun.symm.trans hrun₂))
    exact hes₂.symm.trans hes
  · intro h s hs reads hseg
    obtain ⟨s', es, hrun, hes⟩ := @run_readActs p cfg _ _ hs fun r hr => (hseg.sized r hr).1
    exact ⟨s', es, hrun, hes.trans (h reads hseg)⟩

/-! ### Reads of one byte -/

/-- One read for every byte. -/
def bytewise (stream : List UInt8) : List (List UInt8 × UInt64) := stream.map fun b => ([b], 0)

theorem bytewise_fst (stream : List UInt8) : (bytewise stream).map Prod.fst = stream.map fun b => [b] := by
  rw [bytewise, List.map_map]
  rfl

theorem flatten_singletons (stream : List UInt8) : (stream.map fun b => [b]).flatten = stream := by
  induction stream with
  | nil => rfl
  | cons b stream ih => rw [List.map_cons, List.flatten_cons, ih, List.singleton_append]

theorem bytewise_segments (hbuf : 1 ≤ cfg.bufferSize.toNat) (stream : List UInt8) :
    Segments cfg (bytewise stream) stream := by
  refine ⟨?_, ?_⟩
  · rw [bytewise_fst, flatten_singletons]
  · intro r hr
    obtain ⟨b, -, rfl⟩ := List.mem_map.mp hr
    exact ⟨List.cons_ne_nil _ _, hbuf⟩

/-- The bytes of the broadcasts are a part of the stream. -/
theorem broadcasts_length_le (replies : List Reply) :
    (broadcasts replies).flatten.length ≤ (replyStream replies).length := by
  induction replies with
  | nil => exact le_rfl
  | cons r replies ih =>
    have hstream : replyStream (r :: replies) = r.bytes ++ replyStream replies := rfl
    rw [hstream, List.length_append]
    cases r with
    | broadcast message =>
      have hcons : broadcasts (.broadcast message :: replies) = message :: broadcasts replies := rfl
      rw [hcons, List.flatten_cons, List.length_append]
      exact Nat.add_le_add_left ih _
    | pong payload =>
      show (broadcasts replies).flatten.length ≤ _
      omega

/-- Only broadcasts of one byte survive reads of one byte. -/
theorem broadcasts_bytewise {replies : List Reply}
    (h : broadcasts replies = (replyStream replies).map fun b => [b]) :
    replies = (replyStream replies).map fun b => .broadcast [b] := by
  induction replies with
  | nil => rfl
  | cons r replies ih =>
    have hstream : replyStream (r :: replies) = r.bytes ++ replyStream replies := rfl
    cases r with
    | broadcast message =>
      have hcons : broadcasts (.broadcast message :: replies) = message :: broadcasts replies := rfl
      have hbytes : replyStream (.broadcast message :: replies) = message ++ replyStream replies := hstream
      rw [hcons, hbytes] at h
      rw [hbytes]
      obtain _ | ⟨b, tail⟩ := message
      · -- an empty message has no read of its own
        cases hrest : replyStream replies with
        | nil => simp [hrest] at h
        | cons b rest => simp [hrest] at h
      · simp only [List.cons_append, List.map_cons, List.cons.injEq] at h
        obtain ⟨⟨-, rfl⟩, h⟩ := h
        rw [List.cons_append, List.map_cons, List.nil_append, ← ih h]
    | pong payload =>
      -- the bytes of a PONG make the stream longer than the broadcasts
      have hle := broadcasts_length_le replies
      have hflat : (broadcasts replies).flatten = frame payload ++ replyStream replies := by
        have hpong : broadcasts (.pong payload :: replies) = broadcasts replies := rfl
        rw [← hpong, h, flatten_singletons]
        exact hstream
      rw [hflat, List.length_append, frame, List.length_append, leBytes_length] at hle
      omega

/-- **Server-to-client messages**: with a validated configuration the messages survive exactly when
nothing is sent, or a single broadcast of a single byte. -/
theorem survives_iff {errors : List String} (hvalid : (validateNetworkConfig cfg errors).1 = true)
    (replies : List Reply) :
    Survives p cfg replies ↔ replies = [] ∨ ∃ b, replies = [.broadcast [b]] := by
  have hbuf : 1024 ≤ cfg.bufferSize.toNat := UInt32.le_iff_toNat_le.mp (bufferSize_of_valid hvalid).1
  rw [survives_iff_segments]
  constructor
  · intro h
    have hbytes := h _ (bytewise_segments (by omega) (replyStream replies))
    rw [bytewise_fst] at hbytes
    have hones := broadcasts_bytewise hbytes.symm
    cases hstream : replyStream replies with
    | nil => exact .inl (by rw [hones, hstream]; rfl)
    | cons b rest =>
      cases rest with
      | nil => exact .inr ⟨b, by rw [hones, hstream]; rfl⟩
      | cons c rest =>
        -- two messages in one read
        rw [hstream] at h hbytes
        have htwo : Segments cfg (([b, c], 0) :: bytewise rest) (b :: c :: rest) := by
          obtain ⟨hwhole, hsized⟩ := @bytewise_segments cfg (by omega) rest
          refine ⟨?_, ?_⟩
          · rw [List.map_cons, List.flatten_cons, hwhole]
            rfl
          · intro r hr
            rcases List.mem_cons.mp hr with rfl | hr
            · exact ⟨List.cons_ne_nil _ _, by simp; omega⟩
            · exact hsized r hr
        have hjoined := (h _ htwo).trans hbytes.symm
        simp at hjoined
  · rintro (rfl | ⟨b, rfl⟩) reads ⟨hwhole, hsized⟩
    · cases reads with
      | nil => rfl
      | cons r reads =>
        have hempty : r.1 ++ (reads.map Prod.fst).flatten = [] := hwhole
        exact absurd (List.append_eq_nil_iff.mp hempty).1 (hsized r List.mem_cons_self).1
    · cases reads with
      | nil => cases hwhole
      | cons r reads =>
        have hone : r.1 ++ (reads.map Prod.fst).flatten = [b] := hwhole
        have hne := (hsized r List.mem_cons_self).1
        rcases List.append_eq_singleton_iff.mp hone with ⟨hnil, -⟩ | ⟨hr, hrest⟩
        · exact absurd hnil hne
        · cases reads with
          | nil =>
            show [r.1] = [[b]]
            rw [hr]
          | cons q reads =>
            have hq : q.1 ++ (reads.map Prod.fst).flatten = [] := hrest
            have hne := (hsized q (List.mem_cons_of_mem _ List.mem_cons_self)).1
            exact absurd (List.append_eq_nil_iff.mp hq).1 hne

/-- A broadcast of one byte. -/
theorem survives_one : Survives .posix {} [.broadcast [7]] :=
  (@survives_iff .posix {} [] (by decide) _).mpr (.inr ⟨7, rfl⟩)

/-- Two broadcasts that arrive in one read are one message to a connected client, and so is a PONG. -/
theorem broadcasts_coalesce :
    (∃ s es, (link .posix {}).run (create 1) [.onReceive, .connect true 0, .connectDone 0 none 1,
        .readDone none [97, 98] 2, .readDone none (frame [12, 0]) 3] = some (s, es) ∧
      es.filterMap Event.message? = [[97, 98], [2, 0, 0, 0, 12, 0]]) ∧
    ¬ Survives .posix {} [.broadcast [97], .broadcast [98], .pong [12, 0]] := by
  refine ⟨⟨_, _, rfl, by rfl⟩, ?_⟩
  intro h
  have hjoined := survives_iff_segments.mp h [([97, 98], 2), (frame [12, 0], 3)] ⟨rfl, by decide⟩
  exact absurd hjoined (by decide)

end LoopbackIpcClient

end LuspUpload.Ipc
