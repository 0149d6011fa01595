import LuspUpload.Ipc.Client
import LuspUpload.Ipc.Frame
import LuspUpload.Lib.Calls

/-!
# Ipc.Wire — what one connection carries

The client under a schedule, with the writes it has started on the socket of one connection: those of the
queue sender and the PINGs of the heartbeat timer.  `async_write` hands its buffer over piece by piece,
and the pieces of writes that are on their way together may alternate.  A write that fails may have handed
over a part; the queue sender then starts again with the whole frame.  The history of the machine is the
byte stream.

The stream consists of whole frames as long as no piece is handed over while another write, a failed one
included, stands in the middle of its frame (`run_framed`).
-/

namespace LuspUpload.Ipc

open Lib

/-- Who has started a write. -/
inductive Writer where
  | queue
  | heartbeat
  deriving DecidableEq, Repr

/-- An `async_write` of the frame of `payload`: how much of it is handed over, and whether the completion
handler has yet to run. -/
structure Write where
  payload : List UInt8
  transferred : ℕ
  writer : Writer
  live : Bool
  deriving DecidableEq, Repr

namespace Write

/-- The buffer of the write. -/
def buffer (w : Write) : List UInt8 := frame w.payload

/-- The part that is on the wire. -/
def sent (w : Write) : List UInt8 := w.buffer.take w.transferred

/-- A part of the frame is on the wire, not all of it. -/
def PartWay (w : Write) : Prop := 0 < w.transferred ∧ w.transferred < w.buffer.length

instance (w : Write) : Decidable w.PartWay := inferInstanceAs (Decidable (_ ∧ _))

end Write

/-- The client and the writes on its connection, finished ones included. -/
structure Wire where
  client : Client
  writes : List Write
  deriving DecidableEq, Repr

namespace Wire

/-- A connection right after `async_connect` has succeeded; the queue may hold messages. -/
def opened (queue : List Message) (nextId : ℕ) : Wire :=
  ⟨⟨⟨queue, nextId, false, true, []⟩, none, .idle⟩, []⟩

/-- What happens on a connection: a step of the client's threads; the socket takes `k` more bytes of write
`j`; the completion handler of write `j` runs; the heartbeat timer starts a PING. -/
inductive Act where
  | client (a : Ipc.Act)
  | transfer (j k : ℕ)
  | complete (j : ℕ) (o : Outcome)
  | ping (buffer : List UInt8)
  | pingDone (j : ℕ) (sent : Bool)
  deriving DecidableEq, Repr

/-- The place of write `j` among the outstanding writes of the queue sender. -/
def rank (s : Wire) (j : ℕ) : ℕ := (s.writes.take j).countP fun w => w.live && w.writer = .queue

/-- The completion handler of a write runs. -/
def finish (s : Wire) (j : ℕ) (w : Write) : Wire :=
  { s with writes := moveAt s.writes j (some { w with live := false }) }

/-- One step, with the bytes that it puts on the wire. -/
def step (s : Wire) : Act → Option (Wire × List UInt8)
  -- completions have an action of their own, and a new socket is another connection
  | .client (.complete _ _) => none
  | .client (.link _) => none
  | .client a => (s.client.step a).map fun r =>
      (⟨r.1, s.writes ++ (written r.2).map fun m => ⟨m.data, 0, .queue, true⟩⟩, [])
  | .transfer j k => s.writes[j]?.bind fun w =>
      if w.live ∧ 0 < k ∧ w.transferred + k ≤ w.buffer.length then
        some ({ s with writes := moveAt s.writes j (some { w with transferred := w.transferred + k }) },
          (w.buffer.drop w.transferred).take k)
      else none
  | .complete j o => s.writes[j]?.bind fun w =>
      if w.live ∧ w.writer = .queue ∧ (o = .sent → w.transferred = w.buffer.length) then
        (s.client.step (.complete (s.rank j) o)).map fun r => ({ s.finish j w with client := r.1 }, [])
      else none
  -- the handlers of the timer and of its writes run on the io thread; FlatBuffers builds less than 2 GiB
  | .ping buffer =>
      if s.client.io = .idle ∧ s.client.shared.isOpen ∧ buffer.length < 2 ^ 31 then
        some ({ s with writes := s.writes ++ [⟨buffer, 0, .heartbeat, true⟩] }, [])
      else none
  | .pingDone j sent => s.writes[j]?.bind fun w =>
      if s.client.io = .idle ∧ w.live ∧ w.writer = .heartbeat ∧
          (sent = true → w.transferred = w.buffer.length) then
        some (s.finish j w, [])
      else none

/-- A connection under a schedule. -/
def connection : Machine Wire Act UInt8 := ⟨step⟩

/-- The bytes are a prefix of whole frames, each that of a write of the connection. -/
def WellFramed (s : Wire) (bytes : List UInt8) : Prop :=
  ∃ payloads : List (List UInt8), (∀ p ∈ payloads, p.length < 2 ^ 32 ∧ p ∈ s.writes.map Write.payload) ∧
    bytes <+: payloads.flatMap frame

/-- A piece is handed over while no other write is part-way, and its payload has a length that fits the
prefix. -/
def Alone (s : Wire) : Act → Prop
  | .transfer j _ => (∀ w ∈ s.writes[j]?, w.payload.length < 2 ^ 32) ∧
      ∀ w ∈ moveAt s.writes j none, ¬ w.PartWay
  | _ => True

instance (s : Wire) : ∀ a : Act, Decidable (s.Alone a)
  | .transfer j _ => inferInstanceAs (Decidable ((∀ w ∈ s.writes[j]?, w.payload.length < 2 ^ 32) ∧
      ∀ w ∈ moveAt s.writes j none, ¬ w.PartWay))
  | .client _ => .isTrue trivial
  | .complete _ _ => .isTrue trivial
  | .ping _ => .isTrue trivial
  | .pingDone _ _ => .isTrue trivial

end Wire

/-! ### The invariant -/

/-- The payload of a write in the middle of its frame, and how far it is. -/
def Write.part (w : Write) : Option (List UInt8 × ℕ) :=
  if w.PartWay then some (w.payload, w.transferred) else none

/-- The writes in the middle of their frames. -/
def underWay (ws : List Write) : List (List UInt8 × ℕ) := ws.filterMap Write.part

section UnderWay

variable {ws : List Write} {w : Write}

@[simp] theorem underWay_append (ws ws' : List Write) :
    underWay (ws ++ ws') = underWay ws ++ underWay ws' := by
  simp only [underWay, List.filterMap_append]

theorem underWay_cons (w : Write) (ws : List Write) :
    underWay (w :: ws) = w.part.toList ++ underWay ws := by
  cases hw : w.part <;> simp [underWay, hw]

theorem underWay_eq_nil (h : ∀ w ∈ ws, ¬ w.PartWay) : underWay ws = [] :=
  List.filterMap_eq_nil_iff.mpr fun w hw => if_neg (h w hw)

theorem part_new (w : Write) (h : w.transferred = 0) : w.part = none := by
  refine if_neg ?_
  rintro ⟨hpos, -⟩
  omega

theorem part_full (h : w.transferred = w.buffer.length) : w.part = none := by
  refine if_neg ?_
  rintro ⟨-, hlt⟩
  omega

theorem part_partWay (h : w.PartWay) : w.part = some (w.payload, w.transferred) := if_pos h

/-- A write that is not complete has nothing but its part on the wire. -/
theorem flatMap_part (h : w.transferred < w.buffer.length) :
    (w.part.toList.flatMap fun p => (frame p.1).take p.2) = w.sent := by
  by_cases hzero : w.transferred = 0
  · rw [part_new w hzero]
    simp [Write.sent, hzero]
  · rw [part_partWay ⟨by omega, h⟩]
    simp [Write.sent, Write.buffer]

theorem mem_underWay {p : List UInt8 × ℕ} (h : p ∈ underWay ws) : p.1 ∈ ws.map Write.payload := by
  obtain ⟨w, hw, hpart⟩ := List.mem_filterMap.mp h
  unfold Write.part at hpart
  split_ifs at hpart
  obtain rfl := Option.some.inj hpart
  exact List.mem_map_of_mem hw

end UnderWay

namespace Wire

/-- What every run keeps: whole frames, then the part of the one write that is part-way. -/
structure Framed (s : Wire) (bytes : List UInt8) : Prop where
  whole : ∃ payloads : List (List UInt8),
    (∀ p ∈ payloads, p.length < 2 ^ 32 ∧ p ∈ s.writes.map Write.payload) ∧
      bytes = payloads.flatMap frame ++ (underWay s.writes).flatMap fun p => (frame p.1).take p.2
  single : (underWay s.writes).length ≤ 1
  short : ∀ p ∈ underWay s.writes, p.1.length < 2 ^ 32

variable {s s' : Wire} {bytes piece : List UInt8} {j : ℕ} {w : Write}

theorem framed_opened (queue : List Message) (nextId : ℕ) : Framed (opened queue nextId) [] where
  whole := ⟨[], by simp, rfl⟩
  single := Nat.zero_le 1
  short := by simp [opened, underWay]

/-- The frame that is part-way, if any, is completed by the rest of its write. -/
theorem Framed.wellFramed (h : Framed s bytes) : s.WellFramed bytes := by
  obtain ⟨⟨payloads, hpay, rfl⟩, hsingle, hshort⟩ := h
  rcases hunder : underWay s.writes with _ | ⟨p, ps⟩
  · exact ⟨payloads, hpay, by simp⟩
  · have hnil : ps = [] := by
      rw [hunder, List.length_cons] at hsingle
      exact List.length_eq_zero_iff.mp (by omega)
    subst hnil
    have hp : p ∈ underWay s.writes := by simp [hunder]
    refine ⟨payloads ++ [p.1], ?_, ?_⟩
    · intro q hq
      rcases List.mem_append.mp hq with hq | hq
      · exact hpay q hq
      · rw [List.mem_singleton.mp hq]
        exact ⟨hshort p hp, mem_underWay hp⟩
    · rw [List.flatMap_append, List.prefix_append_right_inj]
      simp only [List.flatMap_cons, List.flatMap_nil, List.append_nil]
      exact List.take_prefix _ _

/-- More writes, and other flags on the old ones, with the same parts under way. -/
theorem Framed.congr (h : Framed s bytes)
    (hpay : ∀ p ∈ s.writes.map Write.payload, p ∈ s'.writes.map Write.payload)
    (hunder : underWay s'.writes = underWay s.writes) : Framed s' bytes := by
  obtain ⟨⟨payloads, hmem, hbytes⟩, hsingle, hshort⟩ := h
  refine ⟨⟨payloads, ?_, ?_⟩, ?_, ?_⟩
  · intro p hp
    exact ⟨(hmem p hp).1, hpay p (hmem p hp).2⟩
  · rw [hunder]
    exact hbytes
  · rw [hunder]
    exact hsingle
  · rw [hunder]
    exact hshort

/-- Writes that have just been started. -/
theorem Framed.start (h : Framed s bytes) (c : Client) {new : List Write}
    (hnew : ∀ w ∈ new, w.transferred = 0) : Framed ⟨c, s.writes ++ new⟩ bytes := by
  refine h.congr ?_ ?_
  · intro p hp
    rw [List.map_append]
    exact List.mem_append_left _ hp
  · have hnil : underWay new = [] :=
      List.filterMap_eq_nil_iff.mpr fun w hw => part_new w (hnew w hw)
    rw [underWay_append, hnil, List.append_nil]

/-- The handler of a write has run. -/
theorem Framed.finish (h : Framed s bytes) (c : Client) (hw : s.writes[j]? = some w) :
    Framed ⟨c, (s.finish j w).writes⟩ bytes := by
  obtain ⟨before, after, hsplit, hmove⟩ := moveAt_split hw
  refine h.congr ?_ ?_
  · intro p hp
    rw [hsplit] at hp
    show p ∈ (moveAt s.writes j (some { w with live := false })).map Write.payload
    rw [hmove]
    simpa using hp
  · show underWay (moveAt s.writes j (some { w with live := false })) = _
    have hpart : ({ w with live := false } : Write).part = w.part := rfl
    rw [hmove, hsplit, Option.toList_some, List.append_assoc, List.singleton_append, underWay_append,
      underWay_append, underWay_cons, underWay_cons, hpart]

theorem framed_mk {all : List (List UInt8)} {parts : List (List UInt8 × ℕ)}
    (hall : s'.writes.map Write.payload = all) (hparts : underWay s'.writes = parts)
    (payloads : List (List UInt8)) (hpay : ∀ p ∈ payloads, p.length < 2 ^ 32 ∧ p ∈ all)
    (hbytes : bytes = payloads.flatMap frame ++ parts.flatMap fun p => (frame p.1).take p.2)
    (hsingle : parts.length ≤ 1) (hshort : ∀ p ∈ parts, p.1.length < 2 ^ 32) : Framed s' bytes := by
  subst hall hparts
  exact ⟨⟨payloads, hpay, hbytes⟩, hsingle, hshort⟩

/-- A piece of a write, while no other one is part-way. -/
theorem Framed.transfer (h : Framed s bytes) {k : ℕ} (hw : s.writes[j]? = some w) (hk : 0 < k)
    (hfit : w.transferred + k ≤ w.buffer.length) (hshort : w.payload.length < 2 ^ 32)
    (halone : ∀ x ∈ moveAt s.writes j none, ¬ x.PartWay) :
    Framed { s with writes := moveAt s.writes j (some { w with transferred := w.transferred + k }) }
      (bytes ++ (w.buffer.drop w.transferred).take k) := by
  obtain ⟨before, after, hsplit, hmove⟩ := moveAt_split hw
  obtain ⟨⟨payloads, hpay, hbytes⟩, -, -⟩ := h
  rw [hmove, Option.toList_none, List.append_nil] at halone
  have hbefore : underWay before = [] :=
    underWay_eq_nil fun x hx => halone x (List.mem_append_left _ hx)
  have hafter : underWay after = [] :=
    underWay_eq_nil fun x hx => halone x (List.mem_append_right _ hx)
  have hold : underWay s.writes = w.part.toList := by
    rw [hsplit, underWay_append, underWay_cons, hbefore, hafter, List.nil_append, List.append_nil]
  set w' : Write := { w with transferred := w.transferred + k } with hw'
  have hnew : underWay (moveAt s.writes j (some w')) = w'.part.toList := by
    rw [hmove, underWay_append, underWay_append, hbefore, hafter, List.nil_append, List.append_nil]
    exact (underWay_cons w' []).trans (List.append_nil _)
  have hpayloads : (moveAt s.writes j (some w')).map Write.payload = s.writes.map Write.payload := by
    rw [hmove, hsplit]
    simp [hw']
  -- the part of `w` that is on the wire already, and the piece behind it
  have hpiece : w.sent ++ (w.buffer.drop w.transferred).take k = w'.sent := (List.take_add).symm
  have hmem : w.payload ∈ s.writes.map Write.payload :=
    List.mem_map_of_mem (List.mem_of_getElem? hw)
  rw [hold, flatMap_part (by omega)] at hbytes
  rw [hbytes, List.append_assoc, hpiece]
  by_cases hfull : w.transferred + k = w.buffer.length
  · -- the frame is whole now
    rw [part_full (w := w') hfull, Option.toList_none] at hnew
    refine framed_mk hpayloads hnew (payloads ++ [w.payload]) ?_ ?_ (Nat.zero_le 1) (by simp)
    · intro p hp
      rcases List.mem_append.mp hp with hp | hp
      · exact hpay p hp
      · rw [List.mem_singleton.mp hp]
        exact ⟨hshort, hmem⟩
    · have hsent : w'.sent = frame w.payload := (congrArg w.buffer.take hfull).trans List.take_length
      rw [hsent, List.flatMap_append]
      simp
  · have hpart : w'.PartWay := ⟨Nat.add_pos_right _ hk, lt_of_le_of_ne hfit hfull⟩
    rw [part_partWay hpart, Option.toList_some] at hnew
    refine framed_mk hpayloads hnew payloads hpay ?_ (Nat.le_refl 1) (by simpa using hshort)
    simp [Write.sent, Write.buffer, hw']

/-- One step. -/
theorem Framed.step {a : Act} (h : Framed s bytes) (halone : s.Alone a)
    (hstep : step s a = some (s', piece)) : Framed s' (bytes ++ piece) := by
  cases a with
  | client a =>
    have hstart : ∀ r : Client × List Event, Framed ⟨r.1, s.writes ++ (written r.2).map fun m =>
        ⟨m.data, 0, .queue, true⟩⟩ (bytes ++ []) := by
      intro r
      rw [List.append_nil]
      refine h.start r.1 ?_
      intro w hw
      obtain ⟨m, -, rfl⟩ := List.mem_map.mp hw
      rfl
    cases a with
    | complete i o => exact absurd hstep (by simp [Wire.step])
    | link isOpen => exact absurd hstep (by simp [Wire.step])
    | _ =>
      obtain ⟨r, -, heq⟩ := Option.map_eq_some_iff.mp hstep
      obtain ⟨rfl, rfl⟩ := Prod.mk.inj heq
      exact hstart r
  | transfer j k =>
    obtain ⟨w, hw, hif⟩ := Option.bind_eq_some_iff.mp hstep
    split_ifs at hif with hcond
    obtain ⟨rfl, rfl⟩ := Prod.mk.inj (Option.some.inj hif)
    exact h.transfer hw hcond.2.1 hcond.2.2 (halone.1 w hw) halone.2
  | complete j o =>
    obtain ⟨w, hw, hif⟩ := Option.bind_eq_some_iff.mp hstep
    split_ifs at hif
    obtain ⟨r, -, heq⟩ := Option.map_eq_some_iff.mp hif
    obtain ⟨rfl, rfl⟩ := Prod.mk.inj heq
    rw [List.append_nil]
    exact h.finish r.1 hw
  | ping buffer =>
    simp only [Wire.step] at hstep
    split_ifs at hstep
    obtain ⟨rfl, rfl⟩ := Prod.mk.inj (Option.some.inj hstep)
    rw [List.append_nil]
    exact h.start s.client (by simp)
  | pingDone j sent =>
    obtain ⟨w, hw, hif⟩ := Option.bind_eq_some_iff.mp hstep
    split_ifs at hif
    obtain ⟨rfl, rfl⟩ := Prod.mk.inj (Option.some.inj hif)
    rw [List.append_nil]
    exact h.finish s.client hw

/-! ### Runs -/

/-- **Framing of the outgoing stream**, as long as no piece is handed over while another write is
part-way. -/
theorem run_framed {queue : List Message} {nextId : ℕ} {as : List Act}
    (halone : connection.Along Alone (opened queue nextId) as) {s : Wire} {bytes : List UInt8}
    (hrun : connection.run (opened queue nextId) as = some (s, bytes)) : s.WellFramed bytes := by
  have hframed := Machine.Along.invariant (M := connection) (I := Framed)
    (fun _ _ _ _ _ h ha hs => h.step ha hs) halone (framed_opened queue nextId) hrun
  exact hframed.wellFramed

/-- A message goes out in two pieces, then a PING. -/
theorem run_framed_ping : WellFramed
    ⟨⟨⟨[], 1, false, true, []⟩, none, .idle⟩, [⟨[7], 5, .queue, false⟩, ⟨[8, 9], 6, .heartbeat, false⟩]⟩
    [1, 0, 0, 0, 7, 2, 0, 0, 0, 8, 9] := by
  refine @run_framed [] 0 [.client (.send [7] true), .client .notify, .client .notify, .client .notify,
    .client .notify, .transfer 0 2, .transfer 0 3, .complete 0 .sent, .client .io, .client .io,
    .client .io, .client .io, .client .io, .client .io, .ping [8, 9], .transfer 1 6, .pingDone 1 true]
    ?_ _ _ ?_
  · decide
  · rfl

/-- The PING goes out while two bytes of the message's frame are on the wire. -/
theorem ping_splits_frame : ∃ s bytes, connection.run (opened [] 0)
    [.client (.send [7] true), .client .notify, .client .notify, .client .notify, .client .notify,
      .ping [8, 9], .transfer 0 2, .transfer 1 6, .transfer 0 3] = some (s, bytes) ∧
    bytes = [1, 0, 2, 0, 0, 0, 8, 9, 0, 0, 7] ∧ ¬ s.WellFramed bytes := by
  refine ⟨⟨⟨⟨[⟨0, [7]⟩], 1, true, true, [0]⟩, none, .idle⟩,
    [⟨[7], 5, .queue, true⟩, ⟨[8, 9], 6, .heartbeat, true⟩]⟩, [1, 0, 2, 0, 0, 0, 8, 9, 0, 0, 7], rfl, rfl,
    ?_⟩
  rintro ⟨payloads, hpay, hprefix⟩
  rcases payloads with _ | ⟨p, payloads⟩
  · exact absurd hprefix (by decide)
  · -- neither frame has a 2 in its third place
    have hp := (hpay p List.mem_cons_self).2
    obtain ⟨rest, hrest⟩ := hprefix
    simp only [List.map_cons, List.map_nil, List.mem_cons, List.not_mem_nil, or_false] at hp
    rcases hp with rfl | rfl
    · exact absurd (congrArg (·[2]?) hrest) (by simp [frame, leBytes])
    · exact absurd (congrArg (·[2]?) hrest) (by simp [frame, leBytes])

end Wire

end LuspUpload.Ipc
