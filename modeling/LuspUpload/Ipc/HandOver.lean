import LuspUpload.Ipc.Client
import Mathlib.Data.List.Nodup

/-!
# Ipc.HandOver — from the queue to the socket, once and in order

`is_sending_` is meant to keep one write in flight, but `handle_send_result` gives the flag back before
it removes the head.  Between the two a call of `send` on the other thread can take the flag and peek
the message that has just been written.  The invariant adds up what the two threads hold (`Hold`): the
flag, a written message that is still in the queue, a peeked one.  As long as no such peek happens, at
most one of them holds the flag and the unremoved message is the head, so the messages go out in turn.
That none stays behind is shown in `Ipc.Wakeup`.
-/

namespace LuspUpload.Ipc

open Lib

/-- What threads hold: how many of them own `is_sending_`, the completed writes whose messages they have
not removed yet, and the messages they are about to write, each by an owner of the flag. -/
structure Hold where
  flags : ℕ
  unpopped : List ℕ
  peeked : List Message
  owned : peeked.length ≤ flags := by decide

instance : Add Hold where
  add a b :=
    { flags := a.flags + b.flags
      unpopped := a.unpopped ++ b.unpopped
      peeked := a.peeked ++ b.peeked
      owned := by simpa only [List.length_append] using Nat.add_le_add a.owned b.owned }

section Hold

variable (a b : Hold)

@[simp] theorem Hold.add_flags : (a + b).flags = a.flags + b.flags := rfl

@[simp] theorem Hold.add_unpopped : (a + b).unpopped = a.unpopped ++ b.unpopped := rfl

@[simp] theorem Hold.add_peeked : (a + b).peeked = a.peeked ++ b.peeked := rfl

end Hold

/-- What a call of `do_send_from_queue` holds; `none` is no call. -/
def sendHold : Option SendPc → Hold
  | none => { flags := 0, unpopped := [], peeked := [] }
  | some .compareExchange => { flags := 0, unpopped := [], peeked := [] }
  | some (.asyncWrite m) => { flags := 1, unpopped := [], peeked := [m], owned := Nat.le_refl _ }
  | some _ => { flags := 1, unpopped := [], peeked := [] }

/-- What the io thread holds: `handle_send_result` owns the flag until it stores `false`. -/
def IoPc.hold : IoPc → Hold
  | .idle => { flags := 0, unpopped := [], peeked := [] }
  | .sendResult msgId _ => { flags := 1, unpopped := [msgId], peeked := [] }
  | .popFront msgId => { flags := 0, unpopped := [msgId], peeked := [] }
  | .sending pc => sendHold (some pc)

/-- The io thread has given `is_sending_` back and is about to remove the head. -/
def IoPc.atPopFront : IoPc → Bool
  | .popFront _ => true
  | _ => false

@[simp] theorem ioAfter_hold (pc : Option SendPc) : (Client.ioAfter pc).hold = sendHold pc := by
  cases pc <;> rfl

@[simp] theorem sendHold_unpopped (pc : Option SendPc) : (sendHold pc).unpopped = [] := by
  rcases pc with _ | _ | _ | _ | _ | _ <;> rfl

namespace Client

/-- What the two threads hold together. -/
def hold (s : Client) : Hold := sendHold s.notify + s.io.hold

/-- The step is no peek of the notification thread between the io thread's `is_sending_.store(false)`
and its `pop_front`. -/
def PeeksFresh (s : Client) (a : Act) : Prop :=
  ¬ (a = .notify ∧ s.notify = some .peek ∧ s.io.atPopFront)

instance (s : Client) (a : Act) : Decidable (s.PeeksFresh a) := inferInstanceAs (Decidable (¬ _))

end Client

/-- Every write succeeds. -/
def Act.Succeeds (a : Act) : Prop := ∀ i needReconnect, a ≠ .complete i (.failed needReconnect)

/-- What has been taken off the queue. -/
def popped (es : List Event) : List Message := (removals es).filterMap Prod.snd

@[simp] theorem popped_append (es fs : List Event) : popped (es ++ fs) = popped es ++ popped fs := by
  simp [popped]

/-- The written messages are the accepted ones up to those still waiting in the queue, none is written
twice, and each completion removes the message it is about. -/
structure WrittenInTurn (s : Client) (es : List Event) : Prop where
  inOrder : ∃ waiting, accepted es = written es ++ waiting ∧ waiting <:+ s.shared.queue
  once : (written es).Nodup
  matched : ∀ r ∈ removals es, r.2.map Message.id = some r.1

/-! ### The invariant -/

/-- One owner of the flag, one unremoved message at most, and that message is the head. -/
structure Tidy (s : Shared) (h : Hold) : Prop where
  flag : h.flags + s.outstanding.length = s.isSending.toNat
  single : s.outstanding.length + h.unpopped.length ≤ 1
  head : ∀ msgId, msgId ∈ s.outstanding ∨ msgId ∈ h.unpopped →
    s.queue.head?.map Message.id = some msgId
  fresh : ∀ m ∈ h.peeked, s.queue.head? = some m ∧ s.outstanding = [] ∧ h.unpopped = []

/-- What the history says about a queue whose first `inFlight` messages are written. -/
structure Booked (queue : List Message) (nextId inFlight : ℕ) (es : List Event) : Prop where
  taken : accepted es = popped es ++ queue
  started : written es = popped es ++ queue.take inFlight
  ids : (accepted es).map Message.id = List.range nextId
  matched : ∀ r ∈ removals es, r.2.map Message.id = some r.1

/-- How many written messages are still in the queue. -/
def inFlight (s : Shared) (h : Hold) : ℕ := s.outstanding.length + h.unpopped.length

section Invariant

variable {s : Shared} {h rest : Hold} {es : List Event}

theorem Booked.writtenInTurn {c : Client} {nextId n : ℕ} (hb : Booked c.shared.queue nextId n es) :
    WrittenInTurn c es := by
  have hsplit : accepted es = written es ++ c.shared.queue.drop n := by
    rw [hb.taken, hb.started, List.append_assoc, List.take_append_drop]
  refine ⟨⟨_, hsplit, List.drop_suffix _ _⟩, ?_, hb.matched⟩
  have hnd : ((accepted es).map Message.id).Nodup := hb.ids ▸ List.nodup_range
  rw [hsplit] at hnd
  exact (List.nodup_append.1 (hnd.of_map _)).1

theorem Tidy.comm {a b : Hold} (ht : Tidy s (a + b)) : Tidy s (b + a) := by
  obtain ⟨hflag, hsingle, hhead, hfresh⟩ := ht
  constructor <;> simp only [Hold.add_flags, Hold.add_unpopped, Hold.add_peeked, List.length_append,
    List.mem_append, List.append_eq_nil_iff] at *
  · omega
  · omega
  · intro msgId hmem
    exact hhead msgId (by tauto)
  · intro m hm
    obtain ⟨hq, ho, ha, hb⟩ := hfresh m hm.symm
    exact ⟨hq, ho, hb, ha⟩

theorem inFlight_comm (a b : Hold) : inFlight s (a + b) = inFlight s (b + a) := by
  simp only [inFlight, Hold.add_unpopped, List.length_append]
  omega

theorem Tidy.inFlight_le (ht : Tidy s h) : inFlight s h ≤ s.queue.length := by
  have hlen : (s.outstanding ++ h.unpopped).length = inFlight s h := List.length_append
  rcases hun : s.outstanding ++ h.unpopped with _ | ⟨msgId, ids⟩
  · rw [← hlen, hun]
    exact Nat.zero_le _
  · have hmem : msgId ∈ s.outstanding ++ h.unpopped := hun ▸ List.mem_cons_self
    have hhead := ht.head msgId (List.mem_append.1 hmem)
    have hsingle : inFlight s h ≤ 1 := ht.single
    rcases hq : s.queue with _ | ⟨m, queue⟩
    · simp [hq] at hhead
    · simp only [List.length_cons]
      omega

/-- The write that completes is the only one. -/
theorem Tidy.only_write (ht : Tidy s h) {i msgId : ℕ} (hi : s.outstanding[i]? = some msgId) :
    i = 0 ∧ s.outstanding = [msgId] := by
  have hsingle := ht.single
  rcases hout : s.outstanding with _ | ⟨x, ids⟩
  · simp [hout] at hi
  · have hids : ids = [] := by
      rw [hout, List.length_cons] at hsingle
      exact List.length_eq_zero_iff.1 (by omega)
    subst hids
    rw [hout, List.getElem?_singleton] at hi
    split_ifs at hi with hzero
    exact ⟨hzero, by rw [Option.some.inj hi]⟩

/-- A message put behind the others changes neither the head nor what is in flight. -/
theorem Tidy.push (ht : Tidy s h) (m : Message) :
    Tidy { s with queue := s.queue ++ [m], nextId := s.nextId + 1 } h := by
  have hkeep : ∀ x, s.queue.head? = some x → (s.queue ++ [m]).head? = some x := by
    intro x hx
    rw [List.head?_append, hx]
    rfl
  refine ⟨ht.flag, ht.single, ?_, ?_⟩
  · intro msgId hmem
    obtain ⟨x, hx, hid⟩ := Option.map_eq_some_iff.1 (ht.head msgId hmem)
    exact Option.map_eq_some_iff.2 ⟨x, hkeep x hx, hid⟩
  · intro x hx
    obtain ⟨hq, hrest⟩ := ht.fresh x hx
    exact ⟨hkeep x hq, hrest⟩

/-- A step of `do_send_from_queue` keeps count of the owners of the flag: the threads that hold it and the
outstanding writes. -/
theorem sendStep_flag {pc : SendPc}
    (hflag : (sendHold (some pc) + rest).flags + s.outstanding.length = s.isSending.toNat) :
    (sendHold (s.sendStep pc).2.1 + rest).flags + (s.sendStep pc).1.outstanding.length =
      (s.sendStep pc).1.isSending.toNat := by
  have hbool : s.isSending.toNat ≤ 1 := Bool.toNat_le _
  cases pc with
  | compareExchange =>
    simp only [Shared.sendStep]
    split_ifs with hset
    · exact hflag
    · simp only [Hold.add_flags, sendHold, Bool.toNat_true, hset] at hflag ⊢
      simp only [Bool.toNat_false] at hflag
      omega
  | isConnected =>
    simp only [Shared.sendStep]
    split_ifs <;> exact hflag
  | peek =>
    simp only [Shared.sendStep]
    split <;> exact hflag
  | asyncWrite m =>
    simp only [Shared.sendStep, Hold.add_flags, sendHold, List.length_append,
      List.length_singleton] at hflag ⊢
    omega
  | release =>
    simp only [Shared.sendStep, Hold.add_flags, sendHold, Bool.toNat_false] at hflag ⊢
    omega

/-- A step of `do_send_from_queue` beside whatever the other thread holds. -/
theorem Tidy.sendStep {pc : SendPc} (ht : Tidy s (sendHold (some pc) + rest))
    (hpeek : pc = .peek → rest.unpopped = []) :
    Tidy (s.sendStep pc).1 (sendHold (s.sendStep pc).2.1 + rest) := by
  obtain ⟨hflag, hsingle, hhead, hfresh⟩ := ht
  have hbool : s.isSending.toNat ≤ 1 := Bool.toNat_le _
  have hflag' := sendStep_flag hflag
  cases pc with
  | compareExchange =>
    simp only [Shared.sendStep] at hflag' ⊢
    split_ifs at hflag' ⊢ <;> exact ⟨hflag', hsingle, hhead, hfresh⟩
  | isConnected =>
    simp only [Shared.sendStep]
    split_ifs <;> exact ⟨hflag, hsingle, hhead, hfresh⟩
  | peek =>
    simp only [Shared.sendStep]
    split
    · exact ⟨hflag, hsingle, hhead, hfresh⟩
    · rename_i m hm
      refine ⟨hflag, hsingle, hhead, ?_⟩
      -- the peeking call owns the flag, so no write is outstanding
      have hout : s.outstanding = [] := by
        simp only [Hold.add_flags, sendHold] at hflag
        exact List.length_eq_zero_iff.1 (by omega)
      intro x hx
      simp only [Hold.add_peeked, sendHold, List.singleton_append, List.mem_cons] at hx
      rcases hx with rfl | hx
      · exact ⟨hm, hout, by simpa using hpeek rfl⟩
      · exact hfresh x (by simpa [sendHold] using hx)
  | asyncWrite m =>
    obtain ⟨hm, hout, hun⟩ := hfresh m (by simp [sendHold])
    have hrest : rest.peeked = [] := by
      have hown := rest.owned
      simp only [Hold.add_flags, sendHold] at hflag
      exact List.length_eq_zero_iff.1 (by omega)
    refine ⟨hflag', ?_, ?_, ?_⟩
    · simp only [Hold.add_unpopped, sendHold_unpopped, List.nil_append] at hun
      simp [Shared.sendStep, hout, hun]
    · intro msgId hmem
      simp only [Hold.add_unpopped, sendHold_unpopped, List.nil_append] at hun
      simp only [Shared.sendStep, hout, hun, Hold.add_unpopped, sendHold_unpopped, List.nil_append,
        List.mem_singleton, List.not_mem_nil, or_false] at hmem
      simp [Shared.sendStep, hm, hmem]
    · intro x hx
      simp [Shared.sendStep, sendHold, hrest] at hx
  | release => exact ⟨hflag', hsingle, hhead, hfresh⟩

/-- Only the start of a write shows in the history. -/
theorem Booked.sendStep {pc : SendPc} (ht : Tidy s (sendHold (some pc) + rest))
    (hb : Booked s.queue s.nextId (inFlight s (sendHold (some pc) + rest)) es) :
    Booked (s.sendStep pc).1.queue (s.sendStep pc).1.nextId
      (inFlight (s.sendStep pc).1 (sendHold (s.sendStep pc).2.1 + rest))
      (es ++ (s.sendStep pc).2.2) := by
  simp only [inFlight, Hold.add_unpopped, sendHold_unpopped, List.nil_append] at hb ⊢
  cases pc with
  | compareExchange =>
    simp only [Shared.sendStep]
    split_ifs <;> simpa using hb
  | isConnected => simpa [Shared.sendStep] using hb
  | peek =>
    simp only [Shared.sendStep]
    split <;> simpa using hb
  | asyncWrite m =>
    obtain ⟨hm, hout, hun⟩ := ht.fresh m (by simp [sendHold])
    simp only [Hold.add_unpopped, sendHold_unpopped, List.nil_append] at hun
    obtain ⟨queue, hqueue⟩ : ∃ queue, s.queue = m :: queue := List.head?_eq_some_iff.1 hm
    obtain ⟨htaken, hstarted, hids, hmatched⟩ := hb
    simp only [hout, hun, hqueue, List.length_nil, Nat.add_zero, List.take_zero] at htaken hstarted
    refine ⟨?_, ?_, ?_, ?_⟩
    · simpa [Shared.sendStep, popped, hqueue] using htaken
    · simpa [Shared.sendStep, popped, hout, hun, hqueue] using hstarted
    · simpa [Shared.sendStep] using hids
    · simpa [Shared.sendStep] using hmatched
  | release => simpa [Shared.sendStep] using hb

end Invariant

/-- The invariant of the two threads. -/
structure Inv (c : Client) (es : List Event) : Prop where
  tidy : Tidy c.shared c.hold
  booked : Booked c.shared.queue c.shared.nextId (inFlight c.shared c.hold) es
  success : ∀ msgId needReconnect, c.io ≠ .sendResult msgId (.failed needReconnect)

/-! ### Steps -/

section Steps

variable {c c' : Client} {es fs : List Event}

theorem inv_connected : Inv Client.connected [] := by
  refine ⟨⟨rfl, by decide, ?_, ?_⟩, ⟨rfl, rfl, rfl, ?_⟩, ?_⟩
  all_goals simp [Client.connected, Client.hold, sendHold, IoPc.hold, removals]

theorem Inv.enqueue (h : Inv c es) (hidle : c.notify = none) (data : List UInt8) :
    Inv { c with shared := (c.shared.enqueue data).1, notify := some .compareExchange }
      (es ++ (c.shared.enqueue data).2) := by
  obtain ⟨ht, ⟨htaken, hstarted, hids, hmatched⟩, hsucc⟩ := h
  have hle := ht.inFlight_le
  simp only [Client.hold, hidle] at ht hstarted hle
  refine ⟨ht.push _, ⟨?_, ?_, ?_, ?_⟩, hsucc⟩
  · simp [Shared.enqueue, popped, htaken]
  · show written (es ++ [_]) = popped (es ++ [_]) ++
      (c.shared.queue ++ [_]).take (inFlight c.shared (sendHold none + c.io.hold))
    rw [List.take_append_of_le_length hle]
    simp [popped, hstarted]
  · show (accepted (es ++ [_])).map Message.id = List.range (c.shared.nextId + 1)
    rw [List.range_succ, ← hids]
    simp
  · simpa [Shared.enqueue] using hmatched

theorem Inv.notify {pc : SendPc} (h : Inv c es) (hpc : c.notify = some pc)
    (hpeek : pc = .peek → ¬ c.io.atPopFront) :
    Inv { c with shared := (c.shared.sendStep pc).1, notify := (c.shared.sendStep pc).2.1 }
      (es ++ (c.shared.sendStep pc).2.2) := by
  obtain ⟨ht, hb, hsucc⟩ := h
  simp only [Client.hold, hpc] at ht hb
  refine ⟨ht.sendStep ?_, hb.sendStep ht, hsucc⟩
  rintro rfl
  rcases hio : c.io with _ | ⟨msgId, o⟩ | msgId | pc
  · rfl
  · -- a completion that has not given the flag back excludes a peek
    have hflag := ht.flag
    have hbool : c.shared.isSending.toNat ≤ 1 := Bool.toNat_le _
    simp only [Hold.add_flags, hio, sendHold, IoPc.hold] at hflag
    omega
  · exact absurd (congrArg IoPc.atPopFront hio) (hpeek rfl)
  · exact sendHold_unpopped _

theorem Inv.sending {pc : SendPc} (h : Inv c es) (hpc : c.io = .sending pc) :
    Inv { c with shared := (c.shared.sendStep pc).1
                 io := Client.ioAfter (c.shared.sendStep pc).2.1 }
      (es ++ (c.shared.sendStep pc).2.2) := by
  obtain ⟨ht, hb, -⟩ := h
  simp only [Client.hold, hpc, IoPc.hold] at ht hb
  have ht' := ht.comm
  rw [inFlight_comm] at hb
  refine ⟨?_, ?_, ?_⟩
  · simp only [Client.hold, ioAfter_hold]
    exact (ht'.sendStep fun _ => sendHold_unpopped _).comm
  · simp only [Client.hold, ioAfter_hold]
    rw [inFlight_comm]
    exact hb.sendStep ht'
  · intro msgId needReconnect
    rcases (c.shared.sendStep pc).2.1 with _ | _ <;> exact IoPc.noConfusion

theorem Inv.complete {i msgId : ℕ} (h : Inv c es) (hidle : c.io = .idle)
    (hi : c.shared.outstanding[i]? = some msgId) :
    Inv { c with shared := { c.shared with outstanding := c.shared.outstanding.eraseIdx i }
                 io := .sendResult msgId .sent } es := by
  obtain ⟨rfl, hout⟩ := h.tidy.only_write hi
  obtain ⟨⟨hflag, hsingle, hhead, hfresh⟩, hb, -⟩ := h
  simp only [Client.hold, hidle, hout, List.length_singleton, Hold.add_flags, Hold.add_unpopped,
    sendHold_unpopped, IoPc.hold, List.append_nil] at hflag hsingle hhead hfresh hb
  refine ⟨⟨?_, ?_, ?_, ?_⟩, ?_, ?_⟩
  · simp only [Client.hold, hout, List.eraseIdx_cons_zero, List.length_nil, Hold.add_flags, IoPc.hold]
    omega
  · simp [Client.hold, hout, IoPc.hold]
  · intro x hx
    refine hhead x ?_
    simpa [Client.hold, hout, IoPc.hold] using hx
  · intro m hm
    obtain ⟨-, hnil, -⟩ := hfresh m (by simpa [Client.hold, IoPc.hold] using hm)
    exact absurd hnil (List.cons_ne_nil _ _)
  · simpa [Client.hold, hout, IoPc.hold, inFlight] using hb
  · intro x b hx
    cases hx

theorem Inv.release {msgId : ℕ} (h : Inv c es) (hio : c.io = .sendResult msgId .sent) :
    Inv { c with shared := { c.shared with isSending := false }, io := .popFront msgId } es := by
  obtain ⟨⟨hflag, hsingle, hhead, hfresh⟩, hb, -⟩ := h
  have hbool : c.shared.isSending.toNat ≤ 1 := Bool.toNat_le _
  simp only [Client.hold, hio] at hflag hsingle hhead hfresh hb
  refine ⟨⟨?_, hsingle, hhead, hfresh⟩, hb, ?_⟩
  · simp only [Client.hold, Hold.add_flags, IoPc.hold, Bool.toNat_false] at hflag ⊢
    omega
  · intro x b hx
    cases hx

theorem Inv.popFront {msgId : ℕ} (h : Inv c es) (hio : c.io = .popFront msgId) :
    Inv { c with shared := { c.shared with queue := c.shared.queue.tail }
                 io := .sending .compareExchange }
      (es ++ [.removed msgId c.shared.queue.head?]) := by
  obtain ⟨⟨hflag, hsingle, hhead, hfresh⟩, ⟨htaken, hstarted, hids, hmatched⟩, -⟩ := h
  simp only [Client.hold, hio, IoPc.hold, Hold.add_unpopped, sendHold_unpopped, List.nil_append,
    List.length_singleton, inFlight] at hflag hsingle hhead hfresh hstarted
  have hout : c.shared.outstanding = [] := List.length_eq_zero_iff.1 (by omega)
  obtain ⟨m, hm, rfl⟩ := Option.map_eq_some_iff.1 (hhead msgId (by simp))
  obtain ⟨queue, hqueue⟩ : ∃ queue, c.shared.queue = m :: queue := List.head?_eq_some_iff.1 hm
  simp only [hout, hqueue, List.length_nil, Nat.zero_add, List.take_succ_cons, List.take_zero]
    at htaken hstarted
  refine ⟨⟨hflag, ?_, ?_, ?_⟩, ⟨?_, ?_, ?_, ?_⟩, ?_⟩
  · simp [Client.hold, IoPc.hold, hout]
  · intro x hx
    simp [Client.hold, IoPc.hold, hout] at hx
  · intro x hx
    obtain ⟨-, -, hnil⟩ := hfresh x (by simpa [Client.hold, IoPc.hold, sendHold] using hx)
    exact absurd hnil (List.cons_ne_nil _ _)
  · simp [hqueue, popped, htaken]
  · simp [hqueue, popped, hstarted, inFlight, Client.hold, IoPc.hold, hout]
  · simpa [hqueue] using hids
  · intro r hr
    simp only [removals_append, single_removed, List.mem_append, List.mem_singleton] at hr
    rcases hr with hr | rfl
    · exact hmatched r hr
    · simp [hqueue]
  · intro x b hx
    cases hx

theorem Inv.io (h : Inv c es) (hstep : c.ioStep = some (c', fs)) : Inv c' (es ++ fs) := by
  unfold Client.ioStep at hstep
  rcases hio : c.io with _ | ⟨msgId, _ | b⟩ | msgId | pc <;> simp only [hio] at hstep <;> cases hstep
  · simpa using h.release hio
  · exact absurd hio (h.success msgId b)
  · exact h.popFront hio
  · exact h.sending hio

/-- Every step but a failing completion or a stale peek keeps the invariant. -/
theorem Inv.step {a : Act} (h : Inv c es) (hsucc : a.Succeeds) (hfresh : c.PeeksFresh a)
    (hstep : c.step a = some (c', fs)) : Inv c' (es ++ fs) := by
  cases a with
  | send data fits =>
    simp only [Client.step] at hstep
    split_ifs at hstep with hbusy hfits
    · cases hstep
      exact h.enqueue (not_not.1 hbusy) data
    · cases hstep
      simpa using h
  | notify =>
    obtain ⟨pc, hpc, hp⟩ := Option.map_eq_some_iff.1 hstep
    cases hp
    refine h.notify hpc ?_
    rintro rfl hat
    exact hfresh ⟨rfl, hpc, hat⟩
  | complete i o =>
    simp only [Client.step] at hstep
    split_ifs at hstep with hbusy
    obtain ⟨msgId, hi, hp⟩ := Option.map_eq_some_iff.1 hstep
    cases hp
    rcases o with _ | b
    · simpa using h.complete (not_not.1 hbusy) hi
    · exact absurd rfl (hsucc i b)
  | connected =>
    simp only [Client.step] at hstep
    split_ifs at hstep with hbusy
    cases hstep
    obtain ⟨ht, hb, -⟩ := h
    simp only [Client.hold, not_not.1 hbusy] at ht hb
    rw [List.append_nil]
    exact ⟨ht, hb, fun _ _ => IoPc.noConfusion⟩
  | io => exact h.io hstep
  | link isOpen =>
    cases hstep
    rw [List.append_nil]
    exact ⟨⟨h.tidy.flag, h.tidy.single, h.tidy.head, h.tidy.fresh⟩, h.booked, h.success⟩

/-- The invariant along a run. -/
theorem inv_of_run {as : List Act} (hsucc : ∀ a ∈ as, a.Succeeds)
    (hfresh : Client.threads.Along Client.PeeksFresh Client.connected as)
    (hrun : Client.threads.run Client.connected as = some (c, es)) : Inv c es := by
  have halong := (Machine.along_of_forall (M := Client.threads) hsucc Client.connected).and hfresh
  refine Machine.Along.invariant ?_ halong inv_connected hrun
  intro s h a s' fs hI hP hstep
  exact hI.step hP.1 hP.2 hstep

end Steps

/-! ### Runs -/

/-- Two steps after a stale peek the message of the completed write has been written again. -/
theorem stale_peek_writes_twice {c : Client} {es : List Event} {as : List Act}
    (hsucc : ∀ a ∈ as, a.Succeeds)
    (hfresh : Client.threads.Along Client.PeeksFresh Client.connected as)
    (hrun : Client.threads.run Client.connected as = some (c, es)) (hstale : ¬ c.PeeksFresh .notify) :
    ∃ c' fs, Client.threads.run c [.notify, .notify] = some (c', fs) ∧
      ¬ (written (es ++ fs)).Nodup := by
  obtain ⟨ht, hb, -⟩ := inv_of_run hsucc hfresh hrun
  obtain ⟨-, hpc, hat⟩ := not_not.1 hstale
  obtain ⟨msgId, hio⟩ : ∃ msgId, c.io = .popFront msgId := by
    rcases hio : c.io with _ | ⟨msgId, o⟩ | msgId | pc
    case popFront => exact ⟨msgId, rfl⟩
    all_goals simp [hio, IoPc.atPopFront] at hat
  have hun : c.hold.unpopped = [msgId] := by simp [Client.hold, hpc, hio, IoPc.hold]
  -- the head is the message of the completed write
  obtain ⟨m, hm, -⟩ := Option.map_eq_some_iff.1 (ht.head msgId (by simp [hun]))
  obtain ⟨queue, hqueue⟩ : ∃ queue, c.shared.queue = m :: queue := List.head?_eq_some_iff.1 hm
  have hmem : m ∈ written es := by
    rw [hb.started, hqueue, inFlight, hun]
    simp
  have hpeek : Client.threads.step c .notify = some ({ c with notify := some (.asyncWrite m) }, []) := by
    simp [Client.threads, Client.step, hpc, Shared.sendStep, hm]
  have hwrite : Client.threads.run { c with notify := some (.asyncWrite m) } [.notify] =
      some ({ c with shared := { c.shared with outstanding := c.shared.outstanding ++ [m.id] }
                     notify := none }, [.written m]) := rfl
  refine ⟨_, _, Machine.run_cons hpeek hwrite, ?_⟩
  rw [List.nil_append, written_append, (single_written m).2.1]
  intro hnd
  exact (List.nodup_append.1 hnd).2.2 m hmem m (List.mem_singleton_self m) rfl

end LuspUpload.Ipc
