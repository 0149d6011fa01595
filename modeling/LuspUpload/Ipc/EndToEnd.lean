import LuspUpload.Ipc.Demux
import LuspUpload.Ipc.HandOver
import LuspUpload.Ipc.Wire

/-!
# Ipc.EndToEnd — from `send` to `on_message_` over one connection

The client's threads, the socket and the read handler of the server together.  On a connection without
failures and without the two races of `Ipc.HandOver` and `Ipc.Wire` (`Peaceful`), whatever the
interleaving of sends, completions, pieces and PINGs and however the server's reads cut the bytes,
`on_message_` gets the messages in the order in which `send` was called, each once (`delivered_in_order`).
-/

namespace LuspUpload.Ipc

open Lib

/-- The whole frame is on the wire. -/
def Write.Full (w : Write) : Prop := w.transferred = w.buffer.length

instance (w : Write) : Decidable w.Full := inferInstanceAs (Decidable (_ = _))

/-- The writes of the queue sender. -/
def queueWrites (ws : List Write) : List Write := ws.filter (·.writer = .queue)

/-- Those whose frames are on the wire. -/
def wholeWrites (ws : List Write) : List Write := (queueWrites ws).filter (·.Full)

/-- Those in the middle of their frames. -/
def partWrites (ws : List Write) : List Write := (queueWrites ws).filter (·.PartWay)

/-- Only the last write of the queue sender may be unfinished. -/
def InTurn (ws : List Write) : Prop :=
  ws.Pairwise fun w x => w.writer = .queue → x.writer = .queue → w.Full

/-- The payloads that `on_message_` gets. -/
def messages (ds : List Delivery) : List (List UInt8) :=
  ds.filterMap fun
    | .ping _ => none
    | .message payload => some payload

namespace Wire

/-- The data of the calls of `send` that the queue took. -/
def sentData (as : List Act) : List (List UInt8) :=
  as.filterMap fun
    | .client (.send data true) => some data
    | _ => none

/-- The step fails no write, hands a piece over only while no other write is part-way, does not peek at a
message that is about to be removed, and sends what the server takes for what it is. -/
def Peaceful (isPing : List UInt8 → Bool) (s : Wire) : Act → Prop
  | .client (.send data true) => Framable data ∧ isPing data = false
  | .client .notify => s.client.PeeksFresh .notify
  | .transfer j k => s.Alone (.transfer j k)
  | .complete _ o => o = .sent
  | .ping buffer => isPing buffer = true
  | _ => True

instance (isPing : List UInt8 → Bool) (s : Wire) : ∀ a : Act, Decidable (s.Peaceful isPing a)
  | .client (.send data true) => inferInstanceAs (Decidable (Framable data ∧ isPing data = false))
  | .client (.send _ false) => .isTrue trivial
  | .client .notify => inferInstanceAs (Decidable (s.client.PeeksFresh .notify))
  | .client (.complete _ _) => .isTrue trivial
  | .client .connected => .isTrue trivial
  | .client .io => .isTrue trivial
  | .client (.link _) => .isTrue trivial
  | .transfer j k => inferInstanceAs (Decidable (s.Alone (.transfer j k)))
  | .complete _ o => inferInstanceAs (Decidable (o = .sent))
  | .ping buffer => inferInstanceAs (Decidable (isPing buffer = true))
  | .pingDone _ _ => .isTrue trivial

end Wire

/-! ### Writes -/

section Writes

variable {ws before after : List Write} {w x : Write}

theorem queueWrites_append (ws ws' : List Write) :
    queueWrites (ws ++ ws') = queueWrites ws ++ queueWrites ws' :=
  List.filter_append ..

theorem wholeWrites_append (ws ws' : List Write) :
    wholeWrites (ws ++ ws') = wholeWrites ws ++ wholeWrites ws' := by
  rw [wholeWrites, queueWrites_append, List.filter_append]
  rfl

theorem queueWrites_cons_ping (h : w.writer = .heartbeat) (ws : List Write) :
    queueWrites (w :: ws) = queueWrites ws := List.filter_cons_of_neg (by simp [h])

theorem queueWrites_cons_queue (h : w.writer = .queue) (ws : List Write) :
    queueWrites (w :: ws) = w :: queueWrites ws := List.filter_cons_of_pos (by simp [h])

theorem queueWrites_eq_nil (h : ∀ x ∈ ws, x.writer ≠ .queue) : queueWrites ws = [] :=
  List.filter_eq_nil_iff.mpr fun x hx => by simp [h x hx]

/-- A frame has a length prefix. -/
theorem not_full_of_new (h : w.transferred = 0) : ¬ w.Full := by
  have hlen : w.buffer.length = 4 + w.payload.length := by
    rw [Write.buffer, frame, List.length_append, leBytes_length]
  unfold Write.Full
  omega

theorem not_full_of_partWay (h : w.PartWay) : ¬ w.Full := Nat.ne_of_lt h.2

/-- Writes that are not whole. -/
theorem wholeWrites_eq_nil (h : ∀ x ∈ ws, ¬ x.Full) : wholeWrites ws = [] :=
  List.filter_eq_nil_iff.mpr fun x hx => by simpa using h x (List.mem_of_mem_filter hx)

theorem wholeWrites_whole (hwriter : w.writer = .queue) (hfull : w.Full) : wholeWrites [w] = [w] := by
  rw [wholeWrites, queueWrites_cons_queue hwriter, List.filter_cons_of_pos (by simpa using hfull)]
  rfl

theorem wholeWrites_unfinished (hfull : ¬ w.Full) : wholeWrites [w] = [] :=
  wholeWrites_eq_nil fun x hx => by rwa [List.mem_singleton.mp hx]

theorem wholeWrites_ping (hwriter : w.writer = .heartbeat) : wholeWrites [w] = [] := by
  rw [wholeWrites, queueWrites_cons_ping hwriter]
  rfl

/-- Where the sender and the payload stay the same. -/
theorem queueWrites_payload (hwriter : x.writer = w.writer) (hpayload : x.payload = w.payload) :
    (queueWrites [x]).map Write.payload = (queueWrites [w]).map Write.payload := by
  rcases hw : w.writer with _ | _
  · rw [queueWrites_cons_queue hw, queueWrites_cons_queue (hwriter.trans hw)]
    exact congrArg (· :: _) hpayload
  · rw [queueWrites_cons_ping hw, queueWrites_cons_ping (hwriter.trans hw)]

theorem wholeWrites_eq_nil_of_queue (h : ∀ x ∈ ws, x.writer ≠ .queue) : wholeWrites ws = [] := by
  rw [wholeWrites, queueWrites_eq_nil h, List.filter_nil]

/-- A write changes that keeps its sender, and what was whole. -/
theorem InTurn.set (h : InTurn (before ++ w :: after)) (hwriter : x.writer = w.writer)
    (hfull : w.Full → x.Full) :
    InTurn (before ++ [x] ++ after) := by
  rw [List.append_assoc, List.singleton_append]
  obtain ⟨hbefore, hcons, hcross⟩ := List.pairwise_append.mp h
  obtain ⟨hw, hafter⟩ := List.pairwise_cons.mp hcons
  refine List.pairwise_append.mpr ⟨hbefore, List.pairwise_cons.mpr ⟨?_, hafter⟩, ?_⟩
  · intro y hy hx hqueue
    exact hfull (hw y hy (hwriter ▸ hx) hqueue)
  · intro y hy z hz hqueue hqueue'
    rcases List.mem_cons.mp hz with rfl | hz
    · exact hcross y hy w List.mem_cons_self hqueue (hwriter ▸ hqueue')
    · exact hcross y hy z (List.mem_cons_of_mem w hz) hqueue hqueue'

/-- Behind an unfinished write of the queue sender there is no other. -/
theorem InTurn.last (h : InTurn (before ++ w :: after)) (hwriter : w.writer = .queue) (hfull : ¬ w.Full) :
    ∀ x ∈ after, x.writer ≠ .queue := by
  obtain ⟨-, hcons, -⟩ := List.pairwise_append.mp h
  intro x hx hqueue
  exact hfull ((List.pairwise_cons.mp hcons).1 x hx hwriter hqueue)

/-- The unfinished write is the last one. -/
theorem InTurn.prefix (h : InTurn ws) : wholeWrites ws ++ partWrites ws <+: queueWrites ws := by
  induction ws with
  | nil => exact List.nil_prefix
  | cons w ws ih =>
    obtain ⟨hw, hrest⟩ := List.pairwise_cons.mp h
    rcases hwriter : w.writer with _ | _
    · by_cases hfull : w.Full
      · have hpart : ¬ w.PartWay := fun hp => not_full_of_partWay hp hfull
        rw [wholeWrites, partWrites, queueWrites_cons_queue hwriter,
          List.filter_cons_of_pos (by simpa using hfull),
          List.filter_cons_of_neg (by simpa using hpart)]
        exact List.prefix_cons_inj w |>.mpr (ih hrest)
      · -- there is no write of the queue sender behind it
        have hnil : queueWrites ws = [] :=
          queueWrites_eq_nil fun x hx hqueue => hfull (hw x hx hwriter hqueue)
        rw [wholeWrites, partWrites, queueWrites_cons_queue hwriter, hnil,
          List.filter_cons_of_neg (by simpa using hfull), List.filter_nil, List.nil_append]
        rw [List.filter_cons]
        split_ifs
        · exact List.prefix_rfl
        · exact List.nil_prefix
    · rw [wholeWrites, partWrites, queueWrites_cons_ping hwriter]
      exact ih hrest

end Writes

/-! ### Steps of the client -/

section Client

variable {s : Shared} {c c' : Client} {fs : List Event}

theorem sendStep_accepted (s : Shared) (pc : SendPc) : accepted (s.sendStep pc).2.2 = [] := by
  cases pc with
  | compareExchange =>
    simp only [Shared.sendStep]
    split_ifs <;> rfl
  | peek =>
    simp only [Shared.sendStep]
    split <;> rfl
  | _ => rfl

theorem sendStep_outstanding (s : Shared) (pc : SendPc) :
    (s.sendStep pc).1.outstanding = s.outstanding ++ (written (s.sendStep pc).2.2).map Message.id := by
  cases pc with
  | compareExchange =>
    simp only [Shared.sendStep]
    split_ifs <;> exact (List.append_nil _).symm
  | peek =>
    simp only [Shared.sendStep]
    split <;> exact (List.append_nil _).symm
  | asyncWrite m => rfl
  | _ => exact (List.append_nil _).symm

theorem ioStep_accepted (h : c.ioStep = some (c', fs)) : accepted fs = [] := by
  unfold Client.ioStep at h
  rcases hio : c.io with _ | ⟨msgId, _ | b⟩ | msgId | pc <;> simp only [hio] at h <;> cases h
  · rfl
  · rfl
  · rfl
  · exact sendStep_accepted _ _

theorem ioStep_outstanding (h : c.ioStep = some (c', fs)) :
    c'.shared.outstanding = c.shared.outstanding ++ (written fs).map Message.id := by
  unfold Client.ioStep at h
  rcases hio : c.io with _ | ⟨msgId, _ | b⟩ | msgId | pc <;> simp only [hio] at h <;> cases h
  · exact (List.append_nil _).symm
  · exact (List.append_nil _).symm
  · exact (List.append_nil _).symm
  · exact sendStep_outstanding _ _

/-- The queue takes what `send` was called with. -/
theorem step_accepted {a : Act} (h : c.step a = some (c', fs)) :
    (accepted fs).map Message.data = Wire.sentData [.client a] := by
  cases a with
  | send data fits =>
    simp only [Client.step] at h
    split_ifs at h with hbusy hfits
    · cases h
      rw [hfits]
      rfl
    · cases h
      rw [Bool.not_eq_true] at hfits
      rw [hfits]
      rfl
  | notify =>
    obtain ⟨pc, -, hp⟩ := Option.map_eq_some_iff.mp h
    cases hp
    rw [sendStep_accepted]
    rfl
  | complete i o =>
    simp only [Client.step] at h
    split_ifs at h
    obtain ⟨msgId, -, hp⟩ := Option.map_eq_some_iff.mp h
    cases hp
    rfl
  | connected =>
    simp only [Client.step] at h
    split_ifs at h
    cases h
    rfl
  | io =>
    rw [ioStep_accepted h]
    rfl
  | link isOpen =>
    cases h
    rfl

/-- Between two completions the outstanding writes are those that were started. -/
theorem step_outstanding {a : Act} (hnot : ∀ i o, a ≠ .complete i o) (h : c.step a = some (c', fs)) :
    c'.shared.outstanding = c.shared.outstanding ++ (written fs).map Message.id := by
  cases a with
  | send data fits =>
    simp only [Client.step] at h
    split_ifs at h <;> cases h <;> exact (List.append_nil _).symm
  | notify =>
    obtain ⟨pc, -, hp⟩ := Option.map_eq_some_iff.mp h
    cases hp
    exact sendStep_outstanding _ _
  | complete i o => exact absurd rfl (hnot i o)
  | connected =>
    simp only [Client.step] at h
    split_ifs at h
    cases h
    exact (List.append_nil _).symm
  | io => exact ioStep_outstanding h
  | link isOpen =>
    cases h
    exact (List.append_nil _).symm

end Client

/-! ### The invariant -/

namespace Wire

/-- What every run along `Peaceful` keeps.  The writes of the queue sender carry the messages in their
order; those that are not outstanding are whole; the wire has whole frames, of these writes and of PINGs,
and then the part of the one write that is part-way. -/
structure Delivering (isPing : List UInt8 → Bool) (s : Wire) (as : List Act) (bytes : List UInt8) :
    Prop where
  handed : ∃ es, Inv s.client es ∧ (accepted es).map Message.data = sentData as ∧
    (queueWrites s.writes).map Write.payload = (written es).map Message.data
  good : ∀ data ∈ sentData as, Framable data ∧ isPing data = false
  live : s.writes.countP (fun w => w.live && w.writer = .queue) = s.client.shared.outstanding.length
  settled : ∀ w ∈ s.writes, w.writer = .queue → w.live = false → w.Full
  inTurn : InTurn s.writes
  kinds : ∀ w ∈ s.writes, Framable w.payload ∧ (isPing w.payload = true ↔ w.writer = .heartbeat)
  wire : ∃ payloads : List (List UInt8), (∀ p ∈ payloads, Framable p) ∧
    bytes = payloads.flatMap frame ++ ((underWay s.writes).flatMap fun p => (frame p.1).take p.2) ∧
    (payloads.filter fun p => !isPing p) = (wholeWrites s.writes).map Write.payload
  single : (underWay s.writes).length ≤ 1

variable {isPing : List UInt8 → Bool} {s s' : Wire} {as : List Act} {bytes piece : List UInt8} {j : ℕ}
  {w : Write}

theorem delivering_opened (isPing : List UInt8 → Bool) : Delivering isPing (opened [] 0) [] [] where
  handed := ⟨[], inv_connected, rfl, rfl⟩
  good := List.forall_mem_nil _
  live := rfl
  settled := List.forall_mem_nil _
  inTurn := List.Pairwise.nil
  kinds := List.forall_mem_nil _
  wire := ⟨[], List.forall_mem_nil _, rfl, rfl⟩
  single := Nat.zero_le 1

@[simp] theorem sentData_append (as bs : List Act) : sentData (as ++ bs) = sentData as ++ sentData bs :=
  List.filterMap_append

theorem Peaceful.good {a : Act} (h : s.Peaceful isPing a) :
    ∀ data ∈ sentData [a], Framable data ∧ isPing data = false := by
  intro data hdata
  cases a with
  | client a =>
    cases a with
    | send d fits =>
      cases fits with
      | false => exact absurd hdata List.not_mem_nil
      | true =>
        obtain rfl := List.mem_singleton.mp hdata
        exact h
    | _ => exact absurd hdata List.not_mem_nil
  | _ => exact absurd hdata List.not_mem_nil

theorem Peaceful.peeksFresh {a : Ipc.Act} (h : s.Peaceful isPing (.client a)) : s.client.PeeksFresh a := by
  cases a with
  | notify => exact h
  | _ =>
    rintro ⟨hact, -⟩
    exact absurd hact (by simp)

/-- Writes that have just been started. -/
theorem Delivering.start (h : Delivering isPing s as bytes) {a : Act} {c : Client} {new : List Write}
    (hnew : ∀ w ∈ new, w.transferred = 0 ∧ w.live = true)
    (hhanded : ∃ es, Inv c es ∧ (accepted es).map Message.data = sentData (as ++ [a]) ∧
      (queueWrites (s.writes ++ new)).map Write.payload = (written es).map Message.data)
    (hgood : ∀ data ∈ sentData [a], Framable data ∧ isPing data = false)
    (hlive : (s.writes ++ new).countP (fun w => w.live && w.writer = .queue) = c.shared.outstanding.length)
    (hturn : InTurn (s.writes ++ new))
    (hkinds : ∀ w ∈ new, Framable w.payload ∧ (isPing w.payload = true ↔ w.writer = .heartbeat)) :
    Delivering isPing ⟨c, s.writes ++ new⟩ (as ++ [a]) bytes := by
  have hunder : underWay (s.writes ++ new) = underWay s.writes := by
    have hnil : underWay new = [] :=
      List.filterMap_eq_nil_iff.mpr fun w hw => part_new w (hnew w hw).1
    rw [underWay_append, hnil, List.append_nil]
  have hwhole : wholeWrites (s.writes ++ new) = wholeWrites s.writes := by
    rw [wholeWrites_append, wholeWrites_eq_nil fun w hw => not_full_of_new (hnew w hw).1, List.append_nil]
  obtain ⟨payloads, hpay, hbytes, hmessages⟩ := h.wire
  refine ⟨hhanded, ?_, hlive, ?_, hturn, ?_, ⟨payloads, hpay, ?_, ?_⟩, ?_⟩
  · intro data hdata
    rw [sentData_append] at hdata
    exact (List.mem_append.mp hdata).elim (h.good data) (hgood data)
  · intro w hw hqueue hdead
    rcases List.mem_append.mp hw with hw | hw
    · exact h.settled w hw hqueue hdead
    · exact absurd ((hnew w hw).2.symm.trans hdead) (by simp)
  · intro w hw
    exact (List.mem_append.mp hw).elim (h.kinds w) (hkinds w)
  · rw [hunder]
    exact hbytes
  · rw [hwhole]
    exact hmessages
  · rw [hunder]
    exact h.single

/-- A step of the client's threads. -/
theorem Delivering.client (h : Delivering isPing s as bytes) {a : Ipc.Act} {c : Client} {fs : List Event}
    (hnot : ∀ i o, a ≠ .complete i o) (ha : s.Peaceful isPing (.client a))
    (hstep : s.client.step a = some (c, fs)) :
    Delivering isPing ⟨c, s.writes ++ (written fs).map fun m => ⟨m.data, 0, .queue, true⟩⟩
      (as ++ [.client a])
      bytes := by
  obtain ⟨es, hinv, hsent, hwritten⟩ := h.handed
  have hinv' := hinv.step (fun i b => hnot i _) ha.peeksFresh hstep
  have hout := step_outstanding hnot hstep
  have hsingle := hinv'.tidy.single
  set new : List Write := (written fs).map fun m => ⟨m.data, 0, .queue, true⟩ with hnew
  have hfresh : ∀ w ∈ new, w.transferred = 0 ∧ w.live = true ∧ w.writer = .queue ∧
      ∃ m ∈ written fs, w.payload = m.data := by
    intro w hw
    obtain ⟨m, hm, rfl⟩ := List.mem_map.mp hw
    exact ⟨rfl, rfl, rfl, m, hm, rfl⟩
  have haccepted : (accepted (es ++ fs)).map Message.data = sentData (as ++ [.client a]) := by
    rw [accepted_append, List.map_append, hsent, step_accepted hstep, sentData_append]
  have hqueue : queueWrites new = new := List.filter_eq_self.mpr fun w hw => by simp [(hfresh w hw).2.2.1]
  have hcount : new.countP (fun w => w.live && w.writer = .queue) = new.length :=
    List.countP_eq_length.mpr fun w hw => by simp [(hfresh w hw).2.1, (hfresh w hw).2.2.1]
  have hlength : c.shared.outstanding.length = s.client.shared.outstanding.length + new.length := by
    rw [hout, List.length_append, List.length_map, hnew, List.length_map]
  refine h.start (fun w hw => ⟨(hfresh w hw).1, (hfresh w hw).2.1⟩) ⟨es ++ fs, hinv', haccepted, ?_⟩
    ha.good ?_ ?_ ?_
  · rw [queueWrites_append, hqueue, List.map_append, hwritten, written_append, List.map_append, hnew,
      List.map_map]
    rfl
  · rw [List.countP_append, h.live, hcount, hlength]
  · -- a write is started only when none is outstanding, so all before it are whole
    refine List.pairwise_append.mpr ⟨h.inTurn, ?_, ?_⟩
    · cases hlist : new with
      | nil => exact List.Pairwise.nil
      | cons w ws =>
        rw [hlist, List.length_cons] at hlength
        obtain rfl : ws = [] := List.length_eq_zero_iff.mp (by omega)
        exact List.pairwise_singleton _ _
    · intro w hw x hx hwriter _
      have hpos := List.length_pos_of_mem hx
      have hnone : s.writes.countP (fun w => w.live && w.writer = .queue) = 0 := by
        rw [h.live]
        omega
      refine h.settled w hw hwriter ?_
      simpa [hwriter] using List.countP_eq_zero.mp hnone w hw
  · intro w hw
    obtain ⟨-, -, hwriter, m, hm, hpayload⟩ := hfresh w hw
    obtain ⟨waiting, hsplit, -⟩ := hinv'.booked.writtenInTurn.inOrder
    have hmem : m.data ∈ sentData (as ++ [.client a]) := by
      rw [← haccepted, hsplit, written_append]
      exact List.mem_map_of_mem (by simp [hm])
    have hgood : Framable m.data ∧ isPing m.data = false := by
      rw [sentData_append] at hmem
      exact (List.mem_append.mp hmem).elim (h.good _) (ha.good _)
    rw [hpayload, hwriter, hgood.2]
    exact ⟨hgood.1, by simp⟩

/-- The handler of a write has run. -/
theorem Delivering.finish (h : Delivering isPing s as bytes) {a : Act} {c : Client}
    (hw : s.writes[j]? = some w) (hfull : w.writer = .queue → w.Full)
    (hhanded : ∃ es, Inv c es ∧ (accepted es).map Message.data = sentData as ∧
      (queueWrites s.writes).map Write.payload = (written es).map Message.data)
    (hsent : sentData [a] = [])
    (hlive : (s.finish j w).writes.countP (fun w => w.live && w.writer = .queue) =
      c.shared.outstanding.length) :
    Delivering isPing ⟨c, (s.finish j w).writes⟩ (as ++ [a]) bytes := by
  obtain ⟨before, after, hsplit, hmove⟩ := moveAt_split hw
  set w' : Write := { w with live := false } with hw'
  have hwrites : (s.finish j w).writes = before ++ [w'] ++ after := hmove (some w')
  have hold : s.writes = before ++ [w] ++ after := hsplit.trans (List.append_cons before w after)
  have hqueue := queueWrites_payload (w := w) (x := w') rfl rfl
  have hwhole : (wholeWrites [w']).map Write.payload = (wholeWrites [w]).map Write.payload := by
    by_cases hf : w.Full
    · rcases hwriter : w.writer with _ | _
      · rw [wholeWrites_whole hwriter hf, wholeWrites_whole (w := w') hwriter hf]
        rfl
      · rw [wholeWrites_ping hwriter, wholeWrites_ping (w := w') hwriter]
    · rw [wholeWrites_unfinished hf, wholeWrites_unfinished (w := w') hf]
  have hunder : underWay (before ++ [w'] ++ after) = underWay (before ++ [w] ++ after) := by
    have hpart : w'.part = w.part := rfl
    simp only [underWay_append, underWay_cons, hpart]
  obtain ⟨es, hinv, haccepted, hwritten⟩ := hhanded
  obtain ⟨payloads, hpay, hbytes, hmessages⟩ := h.wire
  have hmem : ∀ x ∈ before ++ [w'] ++ after, x = w' ∨ x ∈ s.writes := by
    intro x hx
    rw [hold]
    simp only [List.mem_append, List.mem_singleton] at hx ⊢
    tauto
  refine ⟨⟨es, hinv, ?_, ?_⟩, ?_, hlive, ?_, ?_, ?_, ⟨payloads, hpay, ?_, ?_⟩, ?_⟩
  · rw [sentData_append, hsent, List.append_nil]
    exact haccepted
  · rw [← hwritten, hwrites, hold]
    simp only [queueWrites_append, List.map_append, hqueue]
  · rw [sentData_append, hsent, List.append_nil]
    exact h.good
  · rw [hwrites]
    intro x hx hwriter hdead
    rcases hmem x hx with rfl | hx
    · exact hfull hwriter
    · exact h.settled x hx hwriter hdead
  · rw [hwrites]
    exact (hsplit ▸ h.inTurn).set rfl id
  · rw [hwrites]
    intro x hx
    rcases hmem x hx with rfl | hx
    · exact h.kinds w (List.mem_of_getElem? hw)
    · exact h.kinds x hx
  · rw [hwrites, hunder, ← hold]
    exact hbytes
  · rw [hmessages, hwrites, hold]
    simp only [wholeWrites_append, List.map_append, hwhole]
  · rw [hwrites, hunder, ← hold]
    exact h.single

/-- A piece of a write, while no other one is part-way. -/
theorem Delivering.transfer (h : Delivering isPing s as bytes) {k : ℕ} (hw : s.writes[j]? = some w)
    (hlive : w.live = true) (hk : 0 < k) (hfit : w.transferred + k ≤ w.buffer.length)
    (halone : ∀ x ∈ moveAt s.writes j none, ¬ x.PartWay) :
    Delivering isPing
      { s with writes := moveAt s.writes j (some { w with transferred := w.transferred + k }) }
      (as ++ [.transfer j k]) (bytes ++ (w.buffer.drop w.transferred).take k) := by
  obtain ⟨before, after, hsplit, hmove⟩ := moveAt_split hw
  rw [hmove, Option.toList_none, List.append_nil] at halone
  have hbefore : underWay before = [] :=
    underWay_eq_nil fun x hx => halone x (List.mem_append_left _ hx)
  have hafter : underWay after = [] :=
    underWay_eq_nil fun x hx => halone x (List.mem_append_right _ hx)
  have hold : underWay s.writes = w.part.toList := by
    rw [hsplit, underWay_append, underWay_cons, hbefore, hafter, List.nil_append, List.append_nil]
  set w' : Write := { w with transferred := w.transferred + k } with hw'
  have hwrites : moveAt s.writes j (some w') = before ++ [w'] ++ after := hmove (some w')
  have hnew : underWay (before ++ [w'] ++ after) = w'.part.toList := by
    rw [underWay_append, underWay_append, hbefore, hafter, List.nil_append, List.append_nil]
    exact (underWay_cons w' []).trans (List.append_nil _)
  have hunfinished : ¬ w.Full := by
    unfold Write.Full
    omega
  have hturn : InTurn (before ++ w :: after) := hsplit ▸ h.inTurn
  have hwholeOld : wholeWrites s.writes = wholeWrites before ++ wholeWrites after := by
    rw [hsplit, List.append_cons, wholeWrites_append, wholeWrites_append,
      wholeWrites_unfinished hunfinished,
      List.append_nil]
  obtain ⟨es, hinv, haccepted, hwritten⟩ := h.handed
  obtain ⟨payloads, hpay, hbytes, hmessages⟩ := h.wire
  obtain ⟨hframable, hkind⟩ := h.kinds w (List.mem_of_getElem? hw)
  -- the part of `w` that is on the wire already, and the piece behind it
  have hpiece : w.sent ++ (w.buffer.drop w.transferred).take k = w'.sent := List.take_add.symm
  rw [hold, flatMap_part (by omega)] at hbytes
  have hwire : bytes ++ (w.buffer.drop w.transferred).take k = payloads.flatMap frame ++ w'.sent := by
    rw [hbytes, List.append_assoc, hpiece]
  have hmem : ∀ x ∈ before ++ [w'] ++ after, x = w' ∨ x ∈ s.writes := by
    intro x hx
    rw [hsplit]
    simp only [List.mem_append, List.mem_cons] at hx ⊢
    tauto
  have hqueue := queueWrites_payload (w := w) (x := w') rfl rfl
  refine ⟨⟨es, hinv, ?_, ?_⟩, ?_, ?_, ?_, ?_, ?_, ?_, ?_⟩
  · rw [sentData_append, haccepted]
    exact (List.append_nil _).symm
  · rw [← hwritten, hwrites, hsplit, List.append_cons before w after]
    simp only [queueWrites_append, List.map_append, hqueue]
  · rw [sentData_append]
    simpa [sentData] using h.good
  · have hcount := h.live
    rw [hsplit, List.append_cons, List.countP_append, List.countP_append] at hcount
    rw [← hcount, hwrites, List.countP_append, List.countP_append]
    rfl
  · rw [hwrites]
    intro x hx hwriter hdead
    rcases hmem x hx with rfl | hx
    · exact absurd (hlive.symm.trans hdead) (by simp)
    · exact h.settled x hx hwriter hdead
  · rw [hwrites]
    exact hturn.set rfl fun hfull => absurd hfull hunfinished
  · rw [hwrites]
    intro x hx
    rcases hmem x hx with rfl | hx
    · exact ⟨hframable, hkind⟩
    · exact h.kinds x hx
  · rw [hwrites, hwire, hnew]
    by_cases hfull : w'.Full
    · -- the frame is whole now
      have hsent : w'.sent = frame w.payload := (congrArg w.buffer.take hfull).trans List.take_length
      refine ⟨payloads ++ [w.payload], ?_, ?_, ?_⟩
      · intro p hp
        rcases List.mem_append.mp hp with hp | hp
        · exact hpay p hp
        · rw [List.mem_singleton.mp hp]
          exact hframable
      · rw [part_full (show w'.transferred = w'.buffer.length from hfull), hsent, List.flatMap_append]
        simp
      · rw [List.filter_append, hmessages, hwholeOld, wholeWrites_append, wholeWrites_append]
        rcases hwriter : w.writer with _ | _
        · have hnot : isPing w.payload = false := by
            rw [← Bool.not_eq_true, hkind, hwriter]
            simp
          rw [wholeWrites_eq_nil_of_queue (hturn.last hwriter hunfinished),
            wholeWrites_whole (w := w') hwriter hfull,
            List.filter_cons_of_pos (by simp [hnot])]
          simp [hw']
        · have hping : isPing w.payload = true := hkind.mpr hwriter
          rw [wholeWrites_ping (w := w') hwriter, List.filter_cons_of_neg (by simp [hping])]
          simp
    · have hpart : w'.PartWay := ⟨Nat.add_pos_right _ hk, lt_of_le_of_ne hfit hfull⟩
      refine ⟨payloads, hpay, ?_, ?_⟩
      · rw [part_partWay hpart]
        simp [Write.sent, Write.buffer, hw']
      · rw [hmessages, hwholeOld, wholeWrites_append, wholeWrites_append, wholeWrites_unfinished hfull,
          List.append_nil]
  · rw [hwrites, hnew]
    cases w'.part with
    | none => exact Nat.zero_le 1
    | some p => exact Nat.le_refl 1

/-- The handler of a write of the queue sender that has succeeded. -/
theorem Delivering.complete (h : Delivering isPing s as bytes) {c : Client} {fs : List Event}
    (hw : s.writes[j]? = some w) (hlive : w.live = true) (hwriter : w.writer = .queue) (hfull : w.Full)
    (hstep : s.client.step (.complete (s.rank j) .sent) = some (c, fs)) :
    Delivering isPing ⟨c, (s.finish j w).writes⟩ (as ++ [.complete j .sent]) bytes := by
  obtain ⟨es, hinv, haccepted, hwritten⟩ := h.handed
  have hinv' := hinv.step (by rintro i b ⟨⟩) (by rintro ⟨hact, -⟩; exact absurd hact (by simp)) hstep
  simp only [Client.step] at hstep
  split_ifs at hstep
  obtain ⟨msgId, hi, heq⟩ := Option.map_eq_some_iff.mp hstep
  obtain ⟨rfl, rfl⟩ := Prod.mk.inj heq
  rw [List.append_nil] at hinv'
  refine h.finish hw (fun _ => hfull) ⟨es, hinv', haccepted, hwritten⟩ rfl ?_
  obtain ⟨before, after, hsplit, hmove⟩ := moveAt_split hw
  have hcount := h.live
  have hlt := (List.getElem?_eq_some_iff.mp hi).1
  rw [hsplit, List.countP_append, List.countP_cons] at hcount
  show (moveAt s.writes j (some { w with live := false })).countP _ =
    (s.client.shared.outstanding.eraseIdx _).length
  rw [hmove, Option.toList_some, List.append_assoc, List.singleton_append, List.countP_append,
    List.countP_cons,
    List.length_eraseIdx_of_lt hlt]
  simp only [hlive, hwriter, Bool.true_and, Bool.false_and, decide_true, if_true, Bool.false_eq_true,
    if_false]
    at hcount ⊢
  omega

/-- One step. -/
theorem Delivering.step {a : Act} (h : Delivering isPing s as bytes) (ha : s.Peaceful isPing a)
    (hstep : step s a = some (s', piece)) : Delivering isPing s' (as ++ [a]) (bytes ++ piece) := by
  cases a with
  | client a =>
    have hstart : (∀ i o, a ≠ .complete i o) → (s.client.step a).map (fun r =>
        ((⟨r.1, s.writes ++ (written r.2).map fun m => ⟨m.data, 0, .queue, true⟩⟩ : Wire),
          ([] : List UInt8))) =
        some (s', piece) → Delivering isPing s' (as ++ [.client a]) (bytes ++ piece) := by
      intro hnot hmap
      obtain ⟨⟨c, fs⟩, hc, heq⟩ := Option.map_eq_some_iff.mp hmap
      obtain ⟨rfl, rfl⟩ := Prod.mk.inj heq
      rw [List.append_nil]
      exact h.client hnot ha hc
    cases a with
    | complete i o => exact absurd hstep (by simp [Wire.step])
    | link isOpen => exact absurd hstep (by simp [Wire.step])
    | _ => exact hstart (by simp) hstep
  | transfer j k =>
    obtain ⟨w, hw, hif⟩ := Option.bind_eq_some_iff.mp hstep
    split_ifs at hif with hcond
    obtain ⟨rfl, rfl⟩ := Prod.mk.inj (Option.some.inj hif)
    exact h.transfer hw hcond.1 hcond.2.1 hcond.2.2 ha.2
  | complete j o =>
    obtain rfl : o = .sent := ha
    obtain ⟨w, hw, hif⟩ := Option.bind_eq_some_iff.mp hstep
    split_ifs at hif with hcond
    obtain ⟨⟨c, fs⟩, hc, heq⟩ := Option.map_eq_some_iff.mp hif
    obtain ⟨rfl, rfl⟩ := Prod.mk.inj heq
    rw [List.append_nil]
    exact h.complete hw hcond.1 hcond.2.1 (hcond.2.2 rfl) hc
  | ping buffer =>
    simp only [Wire.step] at hstep
    split_ifs at hstep with hcond
    obtain ⟨rfl, rfl⟩ := Prod.mk.inj (Option.some.inj hstep)
    rw [List.append_nil]
    obtain ⟨es, hinv, haccepted, hwritten⟩ := h.handed
    have hping : isPing buffer = true := ha
    refine h.start (by simp) ⟨es, hinv, ?_, ?_⟩ ha.good ?_ ?_ ?_
    · rw [sentData_append, haccepted]
      exact (List.append_nil _).symm
    · rw [queueWrites_append, queueWrites_cons_ping rfl, ← hwritten]
      exact congrArg _ (List.append_nil _)
    · rw [List.countP_append, h.live]
      rfl
    · refine List.pairwise_append.mpr ⟨h.inTurn, List.pairwise_singleton _ _, ?_⟩
      intro w hw x hx hwriter hqueue
      rw [List.mem_singleton.mp hx] at hqueue
      exact absurd hqueue (by simp)
    · intro w hw
      rw [List.mem_singleton.mp hw]
      refine ⟨?_, by simpa using hping⟩
      have hlen := hcond.2.2
      show buffer.length < 2 ^ 32 - 4
      omega
  | pingDone j sent =>
    obtain ⟨w, hw, hif⟩ := Option.bind_eq_some_iff.mp hstep
    split_ifs at hif with hcond
    obtain ⟨rfl, rfl⟩ := Prod.mk.inj (Option.some.inj hif)
    rw [List.append_nil]
    have hwriter := hcond.2.2.1
    refine h.finish hw (fun hqueue => absurd (hwriter.symm.trans hqueue) (by simp)) h.handed rfl ?_
    obtain ⟨before, after, hsplit, hmove⟩ := moveAt_split hw
    have hcount := h.live
    rw [hsplit, List.countP_append, List.countP_cons] at hcount
    show (moveAt s.writes j (some { w with live := false })).countP _ = _
    rw [← hcount, hmove, Option.toList_some, List.append_assoc, List.singleton_append, List.countP_append,
      List.countP_cons]
    simp [hwriter]

/-! ### What the server makes of it -/

/-- The messages among the payloads of the writes that are part-way. -/
theorem underWay_messages {ws : List Write}
    (hkinds : ∀ w ∈ ws, Framable w.payload ∧ (isPing w.payload = true ↔ w.writer = .heartbeat)) :
    (((underWay ws).map Prod.fst).filter fun p => !isPing p) = (partWrites ws).map Write.payload := by
  induction ws with
  | nil => rfl
  | cons w ws ih =>
    have hrest := ih fun x hx => hkinds x (List.mem_cons_of_mem w hx)
    have hkind := (hkinds w List.mem_cons_self).2
    rw [underWay_cons, List.map_append, List.filter_append, hrest]
    rcases hwriter : w.writer with _ | _
    · have hnot : isPing w.payload = false := by
        rw [← Bool.not_eq_true, hkind, hwriter]
        simp
      rw [partWrites, partWrites, queueWrites_cons_queue hwriter]
      by_cases hpart : w.PartWay
      · rw [part_partWay hpart, List.filter_cons_of_pos (by simpa using hpart)]
        simp [hnot]
      · rw [show w.part = none from if_neg hpart, List.filter_cons_of_neg (by simpa using hpart)]
        rfl
    · have hping : isPing w.payload = true := hkind.mpr hwriter
      rw [partWrites, partWrites, queueWrites_cons_ping hwriter]
      by_cases hpart : w.PartWay
      · rw [part_partWay hpart]
        simp [hping]
      · rw [show w.part = none from if_neg hpart]
        rfl

theorem messages_deliver (payloads : List (List UInt8)) :
    messages (payloads.map (deliver isPing)) = payloads.filter fun p => !isPing p := by
  induction payloads with
  | nil => rfl
  | cons p payloads ih =>
    rw [List.map_cons, messages, List.filterMap_cons, ← messages, ih, deliver]
    cases hping : isPing p with
    | true => rw [List.filter_cons_of_neg (by simp [hping])]; rfl
    | false => rw [List.filter_cons_of_pos (by simp [hping])]; rfl

/-- The bytes are a prefix of the whole frames and the frame that is part-way. -/
theorem Delivering.frames (h : Delivering isPing s as bytes) : ∃ payloads : List (List UInt8),
    (∀ p ∈ payloads ++ (underWay s.writes).map Prod.fst, Framable p) ∧
      bytes <+: (payloads ++ (underWay s.writes).map Prod.fst).flatMap frame ∧
      (payloads.flatMap frame).length ≤ bytes.length ∧
      (payloads.filter fun p => !isPing p) = (wholeWrites s.writes).map Write.payload := by
  obtain ⟨payloads, hpay, rfl, hmessages⟩ := h.wire
  refine ⟨payloads, ?_, ?_, ?_, hmessages⟩
  · intro p hp
    rcases List.mem_append.mp hp with hp | hp
    · exact hpay p hp
    · obtain ⟨q, hq, rfl⟩ := List.mem_map.mp hp
      obtain ⟨w, hw, heq⟩ := List.mem_map.mp (mem_underWay hq)
      exact heq ▸ (h.kinds w hw).1
  · rw [List.flatMap_append, List.prefix_append_right_inj]
    have hsingle := h.single
    rcases hunder : underWay s.writes with _ | ⟨p, ps⟩
    · exact List.nil_prefix
    · rw [hunder, List.length_cons] at hsingle
      obtain rfl : ps = [] := List.length_eq_zero_iff.mp (by omega)
      simp only [List.flatMap_cons, List.flatMap_nil, List.append_nil, List.map_cons, List.map_nil]
      exact List.take_prefix _ _
  · rw [List.length_append]
    exact Nat.le_add_right _ _

/-- When the queue is empty, every message has been written and its frame is on the wire. -/
theorem Delivering.all_whole (h : Delivering isPing s as bytes) (hempty : s.client.shared.queue = []) :
    (wholeWrites s.writes).map Write.payload = sentData as := by
  obtain ⟨es, hinv, haccepted, hwritten⟩ := h.handed
  have hle := hinv.tidy.inFlight_le
  rw [hempty, List.length_nil] at hle
  have hout : s.client.shared.outstanding.length = 0 := by
    unfold inFlight at hle
    omega
  have hdone : ∀ w ∈ queueWrites s.writes, decide w.Full = true := by
    intro w hw
    obtain ⟨hw, hwriter⟩ := List.mem_filter.mp hw
    rw [decide_eq_true_eq] at hwriter ⊢
    have hnone : s.writes.countP (fun w => w.live && w.writer = .queue) = 0 := h.live.trans hout
    refine h.settled w hw hwriter ?_
    simpa [hwriter] using List.countP_eq_zero.mp hnone w hw
  have hall : accepted es = written es := by
    rw [hinv.booked.taken, hinv.booked.started, hempty, List.take_nil]
  rw [wholeWrites, List.filter_eq_self.mpr hdone, hwritten, ← haccepted, hall]

/-- Along a peaceful run. -/
theorem run_delivering {as : List Act} (hpeaceful : connection.Along (Peaceful isPing) (opened [] 0) as)
    {s : Wire} {bytes : List UInt8} (hrun : connection.run (opened [] 0) as = some (s, bytes)) :
    Delivering isPing s as bytes :=
  Machine.Along.invariant_calls (I := Delivering isPing) (fun _ _ _ _ _ _ h ha hs => h.step ha hs) hpeaceful
    (delivering_opened isPing) hrun

/-- What `on_message_` gets of the bytes. -/
theorem Delivering.deliveries (h : Delivering isPing s as bytes) {chunks : List (List UInt8)}
    (hchunks : chunks.flatten <+: bytes) :
    ∃ ds buffer, receive isPing chunks [] [] = (ds, [], .waiting buffer) ∧ messages ds <+: sentData as ∧
      (s.client.shared.queue = [] → chunks.flatten = bytes → messages ds = sentData as) := by
  obtain ⟨payloads, hframable, hprefix, hlength, hwhole⟩ := h.frames
  set all := payloads ++ (underWay s.writes).map Prod.fst with hall
  have hreceive := @receive_stream isPing all chunks hframable (hchunks.trans hprefix)
  have hmessages : messages ((completePayloads all chunks.flatten.length).map (deliver isPing)) <+:
      sentData as := by
    obtain ⟨es, hinv, haccepted, hwritten⟩ := h.handed
    obtain ⟨waiting, hsplit, -⟩ := hinv.booked.writtenInTurn.inOrder
    have hturn := h.inTurn.prefix.map Write.payload
    rw [List.map_append, hwritten, ← hwhole, ← underWay_messages h.kinds, ← List.filter_append] at hturn
    have hsent : (written es).map Message.data <+: sentData as := by
      rw [← haccepted, hsplit, List.map_append]
      exact List.prefix_append _ _
    rw [messages_deliver]
    exact ((Framer.whole_prefix frame all _).filter _).trans (hturn.trans hsent)
  refine ⟨_, _, hreceive, hmessages, ?_⟩
  intro hempty hread
  -- all whole frames have been read
  have hcomplete : payloads <+: completePayloads all chunks.flatten.length := by
    obtain ⟨t, ht⟩ := Nat.exists_eq_add_of_le hlength
    rw [hread, ht, completePayloads, hall, Framer.whole_append]
    exact List.prefix_append _ _
  have hsome : sentData as <+: messages
      ((completePayloads all chunks.flatten.length).map (deliver isPing)) := by
    rw [messages_deliver, ← h.all_whole hempty, ← hwhole]
    exact hcomplete.filter _
  exact hmessages.eq_of_length (Nat.le_antisymm hmessages.length_le hsome.length_le)

/-- An image record is sent in two pieces and then a PING; three reads cut both frames. -/
def imageThenPing : List Act :=
  [.client (.send imageBuffer true), .client .notify, .client .notify, .client .notify, .client .notify,
    .transfer 0 2, .transfer 0 ((frame imageBuffer).length - 2), .complete 0 .sent, .client .io, .client .io,
    .client .io, .client .io, .client .io, .client .io, .ping pingBuffer,
    .transfer 1 (frame pingBuffer).length, .pingDone 1 true]

end Wire

end LuspUpload.Ipc
