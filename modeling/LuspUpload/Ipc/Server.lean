import LuspUpload.Ipc.Frame

/-!
# Ipc.Server — the read handler of one server connection

`do_read` of `Lusp_AsioLoopbackIpcServer`, with `on_message_` installed: every successful read appends
its bytes to `state->buffer` and runs the unpack loop.  Which payloads count as heartbeat PINGs is a
parameter here (`Ipc.Demux` is about that test).  `on_message_` is user code: `throws` says of each
coming invocation whether it throws (past the end of the list none does).  A frame is erased after its
dispatch, so an exception that escapes the dispatch leaves it in the buffer and ends the reading.
-/

namespace LuspUpload.Ipc

open Lib

/-- What the unpack loop does with a payload. -/
inductive Delivery where
  | ping (payload : List UInt8)
  | message (payload : List UInt8)
  deriving DecidableEq, Repr

/-- The payload of a delivery. -/
def Delivery.payload : Delivery → List UInt8
  | .ping payload => payload
  | .message payload => payload

/-- How the read handler ends: waiting for more bytes, left by an exception, or with iterators beyond
the end of the buffer. -/
inductive Exit where
  | waiting (buffer : List UInt8)
  | thrown (buffer : List UInt8)
  | overrun
  deriving DecidableEq, Repr

/-- The `try` block around the dispatch of one payload, with the callback's exceptions left and whether
one escapes: `handle_heartbeat_ping` catches its own, and the handler of the `try` block calls
`on_message_` again. -/
def dispatch (isPing : List UInt8 → Bool) (msg : List UInt8) (throws : List Bool) :
    List Delivery × List Bool × Bool :=
  if isPing msg then ([.ping msg], throws, false)
  else if throws.headD false then
    ([.message msg, .message msg], throws.tail.tail, throws.tail.headD false)
  else ([.message msg], throws.tail, false)

/-- The unpack loop; every round erases at least four bytes, so `buffer.length` rounds are enough. -/
def unpackLoop (isPing : List UInt8 → Bool) :
    ℕ → List UInt8 → List Bool → List Delivery × List Bool × Exit
  | 0, buffer, throws => ([], throws, .waiting buffer)
  | rounds + 1, buffer, throws =>
    match front buffer with
    | .short => ([], throws, .waiting buffer)
    | .overrun => ([], throws, .overrun)
    | .frame msg rest =>
      let d := dispatch isPing msg throws
      if d.2.2 then (d.1, d.2.1, .thrown buffer)
      else
        let r := unpackLoop isPing rounds rest d.2.1
        (d.1 ++ r.1, r.2)

/-- The handler of one successful `async_read_some`. -/
def onRead (isPing : List UInt8 → Bool) (buffer : List UInt8) (throws : List Bool)
    (chunk : List UInt8) : List Delivery × List Bool × Exit :=
  unpackLoop isPing (buffer ++ chunk).length (buffer ++ chunk) throws

/-- Successive reads.  The handler starts the next read only when the loop waits for more bytes. -/
def receive (isPing : List UInt8 → Bool) :
    List (List UInt8) → List UInt8 → List Bool → List Delivery × List Bool × Exit
  | [], buffer, throws => ([], throws, .waiting buffer)
  | chunk :: chunks, buffer, throws =>
    match onRead isPing buffer throws chunk with
    | (ds, throws', .waiting buffer') =>
      let r := receive isPing chunks buffer' throws'
      (ds ++ r.1, r.2)
    | r => r

/-! ### A callback that does not throw -/

section Quiet

variable {isPing : List UInt8 → Bool}

/-- The delivery of a payload when the callback does not throw. -/
def deliver (isPing : List UInt8 → Bool) (msg : List UInt8) : Delivery :=
  if isPing msg then .ping msg else .message msg

@[simp] theorem deliver_payload (msg : List UInt8) : (deliver isPing msg).payload = msg := by
  unfold deliver
  split_ifs <;> rfl

theorem dispatch_quiet (msg : List UInt8) :
    dispatch isPing msg [] = ([deliver isPing msg], [], false) := by
  unfold dispatch deliver
  split_ifs with hping hthrow
  · rfl
  · exact absurd hthrow (by simp)
  · rfl

/-- The loop takes off what the incremental parser does, unless it runs into an overrun. -/
theorem unpackLoop_quiet {rounds : ℕ} {buffer : List UInt8}
    (h : front (framer.take rounds buffer).2 ≠ .overrun) :
    unpackLoop isPing rounds buffer [] =
      ((framer.take rounds buffer).1.map (deliver isPing), [],
        .waiting (framer.take rounds buffer).2) := by
  induction rounds generalizing buffer with
  | zero => rfl
  | succ rounds ih =>
    rw [unpackLoop]
    rcases hfront : front buffer with _ | ⟨msg, rest⟩ | _
    · have hnext : framer.next buffer = none := by simp only [framer, hfront]
      rw [Framer.take_of_none hnext]
      rfl
    · have hnext : framer.next buffer = some (msg, rest) := by simp only [framer, hfront]
      have htake : framer.take (rounds + 1) buffer =
          (msg :: (framer.take rounds rest).1, (framer.take rounds rest).2) := by
        simp only [Framer.take, hnext]
      rw [htake] at h ⊢
      simp only [dispatch_quiet, Bool.false_eq_true, if_false, ih h]
      rfl
    · have hnext : framer.next buffer = none := by simp only [framer, hfront]
      rw [Framer.take_of_none hnext] at h
      exact absurd hfront h

theorem onRead_quiet {buffer chunk : List UInt8}
    (h : front (framer.all (buffer ++ chunk)).2 ≠ .overrun) :
    onRead isPing buffer [] chunk = ((framer.all (buffer ++ chunk)).1.map (deliver isPing), [],
      .waiting (framer.all (buffer ++ chunk)).2) :=
  unpackLoop_quiet h

/-- Successive reads of a stream none of whose prefixes ends in an overrun. -/
theorem receive_quiet {chunks : List (List UInt8)} {buffer : List UInt8}
    (hbuf : framer.next buffer = none)
    (h : ∀ pre, pre <+: chunks.flatten → front (framer.all (buffer ++ pre)).2 ≠ .overrun) :
    receive isPing chunks buffer [] = ((framer.all (buffer ++ chunks.flatten)).1.map (deliver isPing),
      [], .waiting (framer.all (buffer ++ chunks.flatten)).2) := by
  induction chunks generalizing buffer with
  | nil =>
    rw [List.flatten_nil, List.append_nil, Framer.all_of_none hbuf]
    rfl
  | cons chunk chunks ih =>
    have hall := @Framer.all_append_append _ _ framer buffer chunk
    have hread := @onRead_quiet isPing _ _ (h chunk (List.prefix_append _ _))
    have hrest := ih (Framer.next_rest (buffer ++ chunk)) (by
      intro pre hpre
      have := h (chunk ++ pre) (by
        rw [List.flatten_cons]
        exact (List.prefix_append_right_inj chunk).mpr hpre)
      rwa [hall] at this)
    rw [receive, hread]
    simp only [hrest]
    rw [List.flatten_cons, hall, List.map_append]

end Quiet

/-! ### Streams of frames -/

/-- The payloads whose frames lie wholly inside the first `t` bytes of the stream. -/
def completePayloads (payloads : List (List UInt8)) (t : ℕ) : List (List UInt8) :=
  Framer.whole frame payloads t

/-- The deliveries of a cut stream of frames. -/
theorem receive_stream {isPing : List UInt8 → Bool} {payloads chunks : List (List UInt8)}
    (hpay : ∀ p ∈ payloads, Framable p) (hpre : chunks.flatten <+: payloads.flatMap frame) :
    receive isPing chunks [] [] =
      ((completePayloads payloads chunks.flatten.length).map (deliver isPing), [],
        .waiting (chunks.flatten.drop
          ((completePayloads payloads chunks.flatten.length).flatMap frame).length)) := by
  have hall : ∀ pre, pre <+: payloads.flatMap frame →
      framer.all pre = (completePayloads payloads pre.length,
        pre.drop ((completePayloads payloads pre.length).flatMap frame).length) := by
    intro pre h
    have := framer_undoes.all_take hpay pre.length
    rwa [← List.prefix_iff_eq_take.mp h] at this
  -- the bytes left are a proper prefix of a frame
  have hshort : ∀ pre, pre <+: payloads.flatMap frame → front (framer.all pre).2 ≠ .overrun := by
    intro pre h
    have hrest := Framer.drop_whole frame payloads pre.length
    rw [← List.prefix_iff_eq_take.mp h] at hrest
    rw [hall pre h]
    show front (pre.drop ((Framer.whole frame payloads pre.length).flatMap frame).length) ≠ _
    rcases hrest with hnil | ⟨p, hp, k, hk, heq⟩
    · rw [hnil]
      decide
    · rw [heq, front_partly (hpay p hp) hk]
      decide
  have hrec := @receive_quiet isPing chunks [] Framer.next_nil
    fun pre h => hshort pre (h.trans hpre)
  rw [List.nil_append, hall _ hpre] at hrec
  exact hrec

/-- **Deframing undoes framing**, however a prefix of the stream is cut into reads. -/
theorem receive_frames (isPing : List UInt8 → Bool) (payloads : List (List UInt8))
    (hpay : ∀ p ∈ payloads, Framable p) (chunks : List (List UInt8))
    (hpre : chunks.flatten <+: payloads.flatMap frame) :
    ∃ ds, receive isPing chunks [] [] = (ds, [], .waiting (chunks.flatten.drop
        ((completePayloads payloads chunks.flatten.length).flatMap frame).length)) ∧
      ds.map Delivery.payload = completePayloads payloads chunks.flatten.length := by
  refine ⟨_, receive_stream hpay hpre, ?_⟩
  rw [List.map_map]
  exact List.map_id'' (fun p => deliver_payload p) _

/-- Two frames, the second empty, and five bytes of a third, in reads that cut length prefixes. -/
theorem receive_frames_cut : ∃ ds, receive (fun _ => false)
    [[2, 0], [0, 0, 7, 8, 0], [0, 0, 0, 3, 0, 0, 0, 9]] [] [] =
      (ds, [], .waiting ([[2, 0], [0, 0, 7, 8, 0], [0, 0, 0, 3, 0, 0, 0, 9]].flatten.drop
        ((completePayloads [[7, 8], [], [9, 9, 9]] 15).flatMap frame).length)) ∧
    ds.map Delivery.payload = completePayloads [[7, 8], [], [9, 9, 9]] 15 :=
  receive_frames _ [[7, 8], [], [9, 9, 9]] (by decide) _ (by decide)

/-- One frame, in any number of reads. -/
theorem receive_frame {isPing : List UInt8 → Bool} {payload : List UInt8} {chunks : List (List UInt8)}
    (hpay : Framable payload) (hchunks : chunks.flatten = frame payload) :
    receive isPing chunks [] [] = ([deliver isPing payload], [], .waiting []) := by
  have hwhole : completePayloads [payload] chunks.flatten.length = [payload] := by
    simp [completePayloads, Framer.whole, hchunks]
  have := @receive_stream isPing [payload] chunks (by simpa using hpay) (by simp [hchunks])
  rw [this, hwhole, hchunks]
  simp

end LuspUpload.Ipc
