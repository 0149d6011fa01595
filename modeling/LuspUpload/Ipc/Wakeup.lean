import LuspUpload.Ipc.HandOver

/-!
# Ipc.Wakeup — nobody leaves a message behind

A `send` whose compare-exchange fails leaves its message to the call that owns `is_sending_`, and that
call may have looked at the queue before the message was in it.  What a run keeps: as long as the link is
up, a queue that is not empty has somebody who will look at it again.  The one step that breaks this is a
compare-exchange that fails because the owner is about to give the flag back (`Watched` excludes it).
With the order of `Ipc.HandOver`, every message goes out exactly once (`run_hands_over`).
-/

namespace LuspUpload.Ipc

open Lib

namespace Client

/-- A client that has not connected yet; its queue may hold recovered messages. -/
def disconnected (queue : List Message) (nextId : ℕ) : Client :=
  ⟨⟨queue, nextId, false, false, []⟩, none, .idle⟩

/-- The link after one more action: established by a successful connect, lost when the socket is replaced or
closed and when a write fails with an error that calls for a reconnect. -/
def linkAfter (up : Bool) : Act → Bool
  | .connected => true
  | .link _ => false
  | .complete _ (.failed true) => false
  | _ => up

/-- The link is connected after a schedule. -/
def linkUp (as : List Act) : Bool := as.foldl linkAfter false

/-- No call is in progress and no write is outstanding. -/
def Resting (c : Client) : Prop := c.notify = none ∧ c.io = .idle ∧ c.shared.outstanding = []

instance (c : Client) : Decidable c.Resting := inferInstanceAs (Decidable (_ ∧ _ ∧ _))

/-- No compare-exchange fails, with a message in the queue, because the other thread is about to store
`false`: it has found the link down or the queue empty. -/
def Watched (c : Client) (a : Act) : Prop :=
  (a = .notify → c.notify = some .compareExchange → c.io = .sending .release → c.shared.queue = []) ∧
    (a = .io → c.io = .sending .compareExchange → c.notify = some .release → c.shared.queue = [])

instance (c : Client) (a : Act) : Decidable (c.Watched a) := inferInstanceAs (Decidable (_ ∧ _))

end Client

/-! ### The invariant -/

/-- The io thread will look at the queue again. -/
def IoPc.looks : IoPc → Bool
  | .idle => false
  | .sendResult _ o => decide (o ≠ .failed true)
  | .popFront _ => true
  | .sending pc => decide (pc ≠ .release)

/-- Somebody will look at the queue again: a write whose completion is to come, or one of the threads. -/
def Client.Looks (c : Client) : Prop :=
  c.shared.outstanding ≠ [] ∨ (∃ pc, c.notify = some pc ∧ pc ≠ .release) ∨ c.io.looks = true

/-- What every run keeps. -/
structure Attended (c : Client) (up : Bool) : Prop where
  flag : c.hold.flags + c.shared.outstanding.length = c.shared.isSending.toNat
  failing : ∀ msgId, c.io = .sendResult msgId (.failed true) → up = false
  looked : up = true → c.shared.isOpen = true → c.shared.queue = [] ∨ c.Looks

theorem attended_connected : Attended Client.connected true where
  flag := rfl
  failing _ h := absurd h IoPc.noConfusion
  looked _ _ := .inl rfl

theorem attended_disconnected (queue : List Message) (nextId : ℕ) :
    Attended (Client.disconnected queue nextId) false where
  flag := rfl
  failing _ _ := rfl
  looked h := absurd h (by simp)

section SendStep

variable {s : Shared} {pc : SendPc}

theorem sendStep_frame (s : Shared) (pc : SendPc) :
    (s.sendStep pc).1.queue = s.queue ∧ (s.sendStep pc).1.isOpen = s.isOpen ∧
      (s.outstanding ≠ [] → (s.sendStep pc).1.outstanding ≠ []) := by
  cases pc with
  | compareExchange => simp only [Shared.sendStep]; split_ifs <;> exact ⟨rfl, rfl, id⟩
  | isConnected => exact ⟨rfl, rfl, id⟩
  | peek => simp only [Shared.sendStep]; split <;> exact ⟨rfl, rfl, id⟩
  | asyncWrite m => exact ⟨rfl, rfl, fun _ => by simp [Shared.sendStep]⟩
  | release => exact ⟨rfl, rfl, id⟩

/-- A call of `do_send_from_queue` on an open link goes on looking at a queue that is not empty, unless it
fails to take the flag. -/
theorem sendStep_looks (hopen : s.isOpen = true) (hqueue : s.queue ≠ [])
    (hflag : pc = .compareExchange → s.isSending = false) (hpc : pc ≠ .release) :
    (s.sendStep pc).1.outstanding ≠ [] ∨
      ∃ next, (s.sendStep pc).2.1 = some next ∧ next ≠ .release := by
  cases pc with
  | compareExchange => simp [Shared.sendStep, hflag rfl]
  | isConnected => simp [Shared.sendStep, hopen]
  | peek =>
    obtain ⟨m, queue, hm⟩ := List.exists_cons_of_ne_nil hqueue
    simp [Shared.sendStep, hm]
  | asyncWrite m => simp [Shared.sendStep]
  | release => exact absurd rfl hpc

end SendStep

section Steps

variable {c c' : Client} {up : Bool} {fs : List Event}

/-- If the io thread owns the flag, it looks again or is about to give the flag back. -/
theorem Attended.io_owner (h : Attended c up) (hup : up = true) (hflags : c.io.hold.flags = 1) :
    c.io.looks = true ∨ c.io = .sending .release := by
  rcases hio : c.io with _ | ⟨msgId, o⟩ | msgId | pc
  · rw [hio] at hflags
    exact absurd hflags (by decide)
  · left
    refine decide_eq_true ?_
    rintro rfl
    rw [h.failing msgId hio] at hup
    exact absurd hup (by decide)
  · exact Or.inl rfl
  · by_cases hpc : pc = .release
    · exact Or.inr (by rw [hpc])
    · exact Or.inl (decide_eq_true hpc)

/-- A step of the notification thread. -/
theorem Attended.notify {pc : SendPc} (h : Attended c up) (hpc : c.notify = some pc)
    (hwatch : pc = .compareExchange → c.io = .sending .release → c.shared.queue = []) :
    Attended { c with shared := (c.shared.sendStep pc).1, notify := (c.shared.sendStep pc).2.1 } up := by
  have hflag := h.flag
  rw [Client.hold, hpc] at hflag
  refine ⟨sendStep_flag hflag, h.failing, ?_⟩
  intro hup hopen
  obtain ⟨hqueue, hsame, hkeep⟩ := sendStep_frame c.shared pc
  have hopen' : c.shared.isOpen = true := hsame ▸ hopen
  show (c.shared.sendStep pc).1.queue = [] ∨ _
  rw [hqueue]
  rcases h.looked hup hopen' with hnil | hout | ⟨pc', hpc', hne⟩ | hio
  · exact Or.inl hnil
  · exact Or.inr (Or.inl (hkeep hout))
  · obtain rfl : pc = pc' := Option.some.inj (hpc.symm.trans hpc')
    by_cases hnil : c.shared.queue = []
    · exact Or.inl hnil
    · right
      by_cases hfails : pc = .compareExchange ∧ c.shared.isSending = true
      · obtain ⟨rfl, hset⟩ := hfails
        simp only [Hold.add_flags, sendHold, hset, Bool.toNat_true] at hflag
        by_cases hout : c.shared.outstanding = []
        · -- the flag is owned by the io thread, which does not give it back now
          rw [hout, List.length_nil] at hflag
          rcases h.io_owner hup (by omega) with hio | hio
          · exact Or.inr (Or.inr hio)
          · exact absurd (hwatch rfl hio) hnil
        · exact Or.inl (hkeep hout)
      · refine (sendStep_looks hopen' hnil ?_ hne).imp_right Or.inl
        rintro rfl
        simpa using hfails
  · exact Or.inr (Or.inr (Or.inr hio))

theorem ioAfter_looks {next : Option SendPc} (h : ∃ pc, next = some pc ∧ pc ≠ .release) :
    (Client.ioAfter next).looks = true := by
  obtain ⟨pc, rfl, hpc⟩ := h
  exact decide_eq_true hpc

/-- A step of the io thread within `do_send_from_queue`. -/
theorem Attended.sending {pc : SendPc} (h : Attended c up) (hpc : c.io = .sending pc)
    (hwatch : pc = .compareExchange → c.notify = some .release → c.shared.queue = []) :
    Attended { c with shared := (c.shared.sendStep pc).1
                      io := Client.ioAfter (c.shared.sendStep pc).2.1 } up := by
  have hflag := h.flag
  rw [Client.hold, hpc, Hold.add_flags, Nat.add_comm (sendHold _).flags] at hflag
  refine ⟨?_, ?_, ?_⟩
  · have := @sendStep_flag c.shared (sendHold c.notify) pc hflag
    rw [Hold.add_flags, Nat.add_comm (sendHold _).flags] at this
    rw [Client.hold, ioAfter_hold]
    exact this
  · intro msgId hio
    rcases hnext : (c.shared.sendStep pc).2.1 with _ | next <;>
      exact absurd (hnext ▸ hio) IoPc.noConfusion
  · intro hup hopen
    obtain ⟨hqueue, hsame, hkeep⟩ := sendStep_frame c.shared pc
    have hopen' : c.shared.isOpen = true := hsame ▸ hopen
    show (c.shared.sendStep pc).1.queue = [] ∨ _
    rw [hqueue]
    rcases h.looked hup hopen' with hnil | hout | hnotify | hio
    · exact Or.inl hnil
    · exact Or.inr (Or.inl (hkeep hout))
    · exact Or.inr (Or.inr (Or.inl hnotify))
    · have hne : pc ≠ .release := by
        rw [hpc] at hio
        exact of_decide_eq_true hio
      by_cases hnil : c.shared.queue = []
      · exact Or.inl hnil
      · right
        by_cases hfails : pc = .compareExchange ∧ c.shared.isSending = true
        · obtain ⟨rfl, hset⟩ := hfails
          simp only [IoPc.hold, sendHold, hset, Bool.toNat_true] at hflag
          by_cases hout : c.shared.outstanding = []
          · -- the flag is owned by the notification thread, which does not give it back now
            rcases hnotify : c.notify with _ | pc
            · simp [hnotify, hout] at hflag
            · refine Or.inr (Or.inl ⟨pc, rfl, ?_⟩)
              rintro rfl
              exact hnil (hwatch rfl hnotify)
          · exact Or.inl (hkeep hout)
        · refine (sendStep_looks hopen' hnil ?_ hne).imp_right fun hnext => Or.inr (ioAfter_looks hnext)
          rintro rfl
          simpa using hfails

/-- One step of the io thread. -/
theorem Attended.io (h : Attended c up)
    (hwatch : c.io = .sending .compareExchange → c.notify = some .release → c.shared.queue = [])
    (hstep : c.ioStep = some (c', fs)) : Attended c' up := by
  have hflag := h.flag
  have hbool : c.shared.isSending.toNat ≤ 1 := Bool.toNat_le _
  unfold Client.ioStep at hstep
  rcases hio : c.io with _ | ⟨msgId, _ | need⟩ | msgId | pc <;> simp only [hio] at hstep <;> cases hstep
  · -- the completion of a successful write gives the flag back and will look again
    refine ⟨?_, by simp, fun _ _ => Or.inr (Or.inr (Or.inr rfl))⟩
    simp only [Client.hold, hio, Hold.add_flags, IoPc.hold, Bool.toNat_false] at hflag ⊢
    omega
  · simp only [Client.hold, hio, Hold.add_flags, IoPc.hold] at hflag
    rcases need with _ | _
    · refine ⟨?_, by simp, fun _ _ => Or.inr (Or.inr (Or.inr rfl))⟩
      show (sendHold c.notify).flags + 0 + c.shared.outstanding.length = 0
      omega
    · have hdown := h.failing msgId hio
      refine ⟨?_, by simp, fun hup => absurd (hdown.symm.trans hup) (by decide)⟩
      simp only [Client.hold, Hold.add_flags, IoPc.hold, Bool.toNat_false, if_true]
      omega
  · refine ⟨?_, by simp, fun _ _ => Or.inr (Or.inr (Or.inr rfl))⟩
    simp only [Client.hold, hio, Hold.add_flags, IoPc.hold, sendHold] at hflag ⊢
    exact hflag
  · refine h.sending hio ?_
    rintro rfl
    exact hwatch hio

/-- One step of a schedule. -/
theorem Attended.step {a : Act} (h : Attended c up) (hwatch : c.Watched a)
    (hstep : c.step a = some (c', fs)) : Attended c' (Client.linkAfter up a) := by
  cases a with
  | send data fits =>
    simp only [Client.step] at hstep
    split_ifs at hstep with hbusy hfits
    · cases hstep
      have hflag := h.flag
      rw [Client.hold, not_not.1 hbusy] at hflag
      exact ⟨hflag, h.failing, fun _ _ => Or.inr (Or.inr (Or.inl ⟨_, rfl, by simp⟩))⟩
    · cases hstep
      exact h
  | notify =>
    obtain ⟨pc, hpc, hp⟩ := Option.map_eq_some_iff.1 hstep
    cases hp
    refine h.notify hpc ?_
    rintro rfl
    exact hwatch.1 rfl hpc
  | complete i o =>
    simp only [Client.step] at hstep
    split_ifs at hstep with hbusy
    obtain ⟨msgId, hi, hp⟩ := Option.map_eq_some_iff.1 hstep
    cases hp
    have hflag := h.flag
    have hlen : (c.shared.outstanding.eraseIdx i).length + 1 = c.shared.outstanding.length :=
      List.length_eraseIdx_add_one (List.getElem?_eq_some_iff.mp hi).1
    refine ⟨?_, ?_, ?_⟩
    · simp only [Client.hold, not_not.1 hbusy, Hold.add_flags, IoPc.hold] at hflag ⊢
      omega
    · rintro x hx
      cases hx
      rfl
    · intro hup _
      refine Or.inr (Or.inr (Or.inr (decide_eq_true ?_)))
      rintro rfl
      exact absurd hup (by simp [Client.linkAfter])
  | connected =>
    simp only [Client.step] at hstep
    split_ifs at hstep with hbusy
    cases hstep
    have hflag := h.flag
    simp only [Client.hold, not_not.1 hbusy] at hflag
    exact ⟨hflag, fun _ hx => absurd hx IoPc.noConfusion, fun _ _ => Or.inr (Or.inr (Or.inr rfl))⟩
  | io => exact h.io (hwatch.2 rfl) hstep
  | link isOpen =>
    cases hstep
    exact ⟨h.flag, fun _ _ => rfl, fun hup => absurd hup (by simp [Client.linkAfter])⟩

/-- The invariant along a run. -/
theorem attended_of_run {as : List Act} {es : List Event} (h : Attended c up)
    (hwatch : Client.threads.Along Client.Watched c as)
    (hrun : Client.threads.run c as = some (c', es)) : Attended c' (as.foldl Client.linkAfter up) := by
  induction as generalizing c up es with
  | nil =>
    obtain ⟨rfl, -⟩ := hrun
    exact h
  | cons a as ih =>
    obtain ⟨c₁, es₁, es₂, hstep, hrest, -⟩ := Machine.run_cons_inv hrun
    exact ih (h.step hwatch.1 hstep) (hwatch.2 c₁ es₁ hstep) hrest

end Steps

/-! ### Runs -/

/-- A message in the queue has somebody who looks, so at rest there is none. -/
theorem Attended.rests_empty {c : Client} {up : Bool} (h : Attended c up) (hup : up = true)
    (hopen : c.shared.isOpen = true) (hrest : c.Resting) : c.shared.queue = [] := by
  obtain ⟨hnotify, hio, hout⟩ := hrest
  rcases h.looked hup hopen with hnil | hout' | ⟨pc, hpc, -⟩ | hlooks
  · exact hnil
  · exact absurd hout hout'
  · rw [hnotify] at hpc
    exact absurd hpc (by simp)
  · rw [hio] at hlooks
    exact absurd hlooks (by decide)

/-- Where one thread is about to give the flag back and the other fails to take it, two steps later nothing is
in progress and the queue is as it was: the condition is exact. -/
theorem unwatched_leaves_message {c : Client} {up : Bool} {a : Act} (h : Attended c up)
    (hunwatched : ¬ c.Watched a) : ∃ b c', Client.threads.run c [a, b] = some (c', []) ∧
      c'.Resting ∧ c'.shared.queue = c.shared.queue ∧ c'.shared.queue ≠ [] := by
  have hflag := h.flag
  have hbool : c.shared.isSending.toNat ≤ 1 := Bool.toNat_le _
  have hset : 1 ≤ c.shared.isSending.toNat → c.shared.isSending = true := by
    cases c.shared.isSending with
    | true => exact fun _ => rfl
    | false => exact fun hone => absurd hone (by decide)
  rw [Client.Watched, not_and_or] at hunwatched
  rcases hunwatched with hnotify | hio
  · obtain ⟨rfl, hpc, hio, hqueue⟩ : a = .notify ∧ c.notify = some .compareExchange ∧
        c.io = .sending .release ∧ c.shared.queue ≠ [] := by
      simpa only [Classical.not_imp] using hnotify
    simp only [Client.hold, hpc, hio, Hold.add_flags, sendHold, IoPc.hold] at hflag
    have hfails : Client.threads.step c .notify = some ({ c with notify := none }, []) := by
      simp [Client.threads, Client.step, hpc, Shared.sendStep, hset (by omega)]
    have hgives : Client.threads.run { c with notify := none } [.io] =
        some ({ c with shared := { c.shared with isSending := false }, notify := none, io := .idle },
          []) := by
      simp [Client.threads, Machine.run, Client.step, Client.ioStep, hio, Shared.sendStep,
        Client.ioAfter]
    refine ⟨.io, _, Machine.run_cons hfails hgives, ⟨rfl, rfl, ?_⟩, rfl, hqueue⟩
    exact List.length_eq_zero_iff.mp (by show c.shared.outstanding.length = 0; omega)
  · obtain ⟨rfl, hpc, hnotify, hqueue⟩ : a = .io ∧ c.io = .sending .compareExchange ∧
        c.notify = some .release ∧ c.shared.queue ≠ [] := by
      simpa only [Classical.not_imp] using hio
    simp only [Client.hold, hpc, hnotify, Hold.add_flags, sendHold, IoPc.hold] at hflag
    have hfails : Client.threads.step c .io = some ({ c with io := .idle }, []) := by
      simp [Client.threads, Client.step, Client.ioStep, hpc, Shared.sendStep, hset (by omega),
        Client.ioAfter]
    have hgives : Client.threads.run { c with io := .idle } [.notify] =
        some ({ c with shared := { c.shared with isSending := false }, io := .idle, notify := none },
          []) := by
      simp [Client.threads, Machine.run, Client.step, hnotify, Shared.sendStep]
    refine ⟨.notify, _, Machine.run_cons hfails hgives, ⟨rfl, rfl, ?_⟩, rfl, hqueue⟩
    exact List.length_eq_zero_iff.mp (by show c.shared.outstanding.length = 0; omega)

/-- **No accepted message is left without a sender**, as long as no compare-exchange fails against a call
that is about to give the flag back: when the link is connected and nothing is in progress, the queue is
empty. -/
theorem run_sends_all {queue : List Message} {nextId : ℕ} {as : List Act}
    (hwatch : Client.threads.Along Client.Watched (Client.disconnected queue nextId) as)
    {c : Client} {es : List Event}
    (hrun : Client.threads.run (Client.disconnected queue nextId) as = some (c, es))
    (hup : Client.linkUp as = true) (hopen : c.shared.isOpen = true) (hrest : c.Resting) :
    c.shared.queue = [] := by
  exact (attended_of_run (attended_disconnected queue nextId) hwatch hrun).rests_empty hup hopen hrest

/-- A message waits for the connection and is sent, together with one that comes while it is written. -/
theorem run_sends_all_waiting : (∃ es, Client.threads.run (Client.disconnected [] 0)
    [.send [1] true, .notify, .notify, .notify, .link true, .connected, .io, .io, .io, .io, .send [2] true,
      .notify, .complete 0 .sent, .io, .io, .io, .io, .io, .io, .complete 0 .sent, .io, .io, .io, .io,
      .io, .io] = some (⟨⟨[], 2, false, true, []⟩, none, .idle⟩, es)) ∧
    (⟨⟨[], 2, false, true, []⟩, none, .idle⟩ : Client).shared.queue = [] := by
  refine ⟨⟨_, rfl⟩, ?_⟩
  refine @run_sends_all [] 0 [.send [1] true, .notify, .notify, .notify, .link true, .connected, .io, .io,
    .io, .io, .send [2] true, .notify, .complete 0 .sent, .io, .io, .io, .io, .io, .io, .complete 0 .sent,
    .io, .io, .io, .io, .io, .io] ?_ _ _ rfl rfl rfl ⟨rfl, rfl, rfl⟩
  decide

/-- The io thread has looked at an empty queue and is about to give the flag back when `send` fails to take
it: the message stays, and nobody is left to send it. -/
theorem run_leaves_message :
    ∃ c es, Client.threads.run (Client.disconnected [] 0)
      [.link true, .connected, .io, .io, .io, .send [1] true, .notify, .io] = some (c, es) ∧
      Client.linkUp [.link true, .connected, .io, .io, .io, .send [1] true, .notify, .io] = true ∧
      c.shared.isOpen = true ∧ c.Resting ∧ c.shared.queue = [⟨0, [1]⟩] ∧ ¬ c.shared.queue = [] :=
  ⟨⟨⟨[⟨0, [1]⟩], 1, false, true, []⟩, none, .idle⟩, [.accepted ⟨0, [1]⟩], rfl, rfl, rfl, ⟨rfl, rfl, rfl⟩,
    rfl, by decide⟩

/-! ### Exactly once -/

/-- **The hand-over**: the messages are written in turn, and when the link is connected and nothing is in
progress, all of them have been. -/
structure HandedOver (c : Client) (up : Bool) (es : List Event) : Prop extends WrittenInTurn c es where
  complete : up = true → c.shared.isOpen = true → c.Resting → written es = accepted es

/-- Where the queue is empty, everything has been written. -/
theorem Booked.complete {queue : List Message} {nextId n : ℕ} {es : List Event}
    (h : Booked queue nextId n es) (hempty : queue = []) : written es = accepted es := by
  rw [h.started, h.taken, hempty, List.take_nil]

/-- **Hand-over**: whatever the interleaving of sends and successful writes, if no `send` peeks between
the store to `is_sending_` and the `pop_front` of `handle_send_result`, and no compare-exchange fails against
a call that is about to give the flag back, then in every state reached the messages have gone to the socket
once and in order, each completion has removed its own, and none is left behind. -/
theorem run_hands_over {c : Client} {es : List Event} {as : List Act}
    (hsucc : ∀ a ∈ as, a.Succeeds)
    (hcareful : Client.threads.Along (fun s a => s.PeeksFresh a ∧ s.Watched a) Client.connected as)
    (hrun : Client.threads.run Client.connected as = some (c, es)) :
    HandedOver c (as.foldl Client.linkAfter true) es := by
  have hbooked := (inv_of_run hsucc (hcareful.mono fun _ _ h => h.1) hrun).booked
  have hattended := attended_of_run attended_connected (hcareful.mono fun _ _ h => h.2) hrun
  refine ⟨hbooked.writtenInTurn, ?_⟩
  intro hup hopen hrest
  exact hbooked.complete (hattended.rests_empty hup hopen hrest)

/-- Two messages; the second `send` comes while the first is on its way. -/
theorem run_hands_over_two :
    HandedOver ⟨⟨[], 2, false, true, []⟩, none, .idle⟩ true
      [.accepted ⟨0, [1]⟩, .written ⟨0, [1]⟩, .accepted ⟨1, [2]⟩, .removed 0 (some ⟨0, [1]⟩),
        .written ⟨1, [2]⟩, .removed 1 (some ⟨1, [2]⟩)] := by
  refine @run_hands_over _ _ ([.send [1] true, .notify, .notify, .notify, .notify, .send [2] true,
    .notify, .complete 0 .sent, .io, .io, .io, .io, .io, .io, .complete 0 .sent, .io, .io, .io, .io, .io,
    .io]) ?_ ?_ ?_
  · simp [Act.Succeeds]
  · decide
  · rfl

/-- The second `send` peeks the first message again: it is written twice, and the second message leaves
the queue with the completion of the first and is never written. -/
theorem run_writes_twice :
    ∃ as c es, (∀ a ∈ as, a.Succeeds ∧ ∀ isOpen, a ≠ .link isOpen) ∧
      Client.threads.run Client.connected as = some (c, es) ∧
      accepted es = [⟨0, [1]⟩, ⟨1, [2]⟩] ∧ written es = [⟨0, [1]⟩, ⟨0, [1]⟩] ∧
      removals es = [(0, some ⟨0, [1]⟩), (0, some ⟨1, [2]⟩)] ∧
      ¬ HandedOver c (as.foldl Client.linkAfter true) es := by
  refine ⟨[.send [1] true, .notify, .notify, .notify, .notify, .complete 0 .sent, .io,
      .send [2] true, .notify, .notify, .notify, .notify, .io, .io, .complete 0 .sent, .io, .io],
    ⟨⟨[], 2, false, true, []⟩, none, .sending .compareExchange⟩,
    [.accepted ⟨0, [1]⟩, .written ⟨0, [1]⟩, .accepted ⟨1, [2]⟩, .written ⟨0, [1]⟩,
      .removed 0 (some ⟨0, [1]⟩), .removed 0 (some ⟨1, [2]⟩)], ?_, rfl, rfl, rfl, rfl, ?_⟩
  · simp [Act.Succeeds]
  · intro h
    exact absurd h.once (by decide)

end LuspUpload.Ipc
