import LuspUpload.MQ.Lifetimes

/-!
# MQ.Reported — what a reported success is worth

`write_to_disk` reports success whenever the limit lets it try.  It never looks at its stream: not after
`open`, not after `write` and `flush`; a stream that has failed once stays open and takes nothing in any
more.  The spilling `enqueue` reports the verdict to the caller, `flush_to_disk` drops the memory copy on
it.  An attempt of either is honest exactly when the record lands whole, at the offset entered.
-/

namespace LuspUpload.MQ

open Lib

namespace PersistentMessageQueue

variable {N : ℕ}

/-! ### Attempts -/

/-- A call of `write_to_disk`: the queue it is made on, the message, and what its caller, a spilling
`enqueue` or a round of `flush_to_disk`, makes of it and reports. -/
structure Attempt (N : ℕ) where
  before : PersistentMessageQueue N
  message : IpcMessage
  after : PersistentMessageQueue N
  success : Bool

/-- One round of `flush_to_disk`. -/
def flushRound (s : PersistentMessageQueue N) (message : IpcMessage) : PersistentMessageQueue N × Bool :=
  let w := s.writeToDisk message
  if w.2 then ({ w.1 with ring := (w.1.ring.setHead ⟨message, false⟩).advance }, true)
  else (w.1, false)

/-- The rounds of `flush_to_disk`. -/
def flushAttempts : ℕ → PersistentMessageQueue N → List (Attempt N)
  | 0, _ => []
  | fuel + 1, s =>
    if s.ring.Empty then []
    else
      match s.ring.head.await with
      | none => []
      | some message =>
        let w := s.flushRound message
        ⟨s, message, w.1, w.2⟩ :: if w.2 then flushAttempts fuel w.1 else []

/-- The attempts of a step; the destructor flushes. -/
def attempts (s : PersistentMessageQueue N) : Act → List (Attempt N)
  | .call (.enqueue m) =>
    if s.ring.Full then [⟨s.bumpId m, s.stamp m, (s.enqueue m).1, (s.enqueue m).2⟩] else []
  | .call .flushToDisk => flushAttempts (s.ring.len + 1) s
  | .restart => flushAttempts (s.ring.len + 1) s
  | _ => []

/-- The rounds are the flush: it ends where the last one ends, and counts those that report success. -/
theorem flushLoop_attempts {fuel : ℕ} {s : PersistentMessageQueue N} {r : PersistentMessageQueue N × ℕ}
    (h : flushLoop fuel s = some r) :
    r.1 = (((flushAttempts fuel s).getLast?).map Attempt.after).getD s ∧
      r.2 = (flushAttempts fuel s).countP Attempt.success := by
  induction fuel generalizing s r with
  | zero => cases h
  | succ fuel ih =>
    unfold flushLoop at h
    unfold flushAttempts
    by_cases hempty : s.ring.Empty
    · rw [if_pos hempty] at h ⊢
      cases h
      exact ⟨rfl, rfl⟩
    · rw [if_neg hempty] at h ⊢
      obtain ⟨message, hawait, h⟩ := Option.bind_eq_some_iff.mp h
      simp only [hawait, flushRound]
      by_cases hok : (s.writeToDisk message).2 = true
      · simp only [hok, if_true] at h ⊢
        obtain ⟨r', hr', rfl⟩ := Option.map_eq_some_iff.mp h
        obtain ⟨hend, hcount⟩ := ih hr'
        refine ⟨?_, ?_⟩
        · rw [hend, List.getLast?_cons, Option.map_some, Option.getD_some]
          cases (flushAttempts fuel _).getLast? with
          | none => rfl
          | some last => rfl
        · rw [hcount, List.countP_cons_of_pos rfl]
      · simp only [if_neg hok] at h ⊢
        cases h
        exact ⟨rfl, rfl⟩

/-! ### Honest attempts -/

/-- The record is entered in the index, and stands complete in the data file at the offset entered. -/
def Attempt.Stored (w : Attempt N) : Prop :=
  ∃ e : Entry, w.after.diskIndex = w.before.diskIndex ++ [e] ∧
    serializeMessage w.message <+: w.after.dir.bytes.drop e.1

/-- A success that is reported means stored, and what is not stored is refused without a trace. -/
structure Attempt.Honest (w : Attempt N) : Prop where
  stored : w.success = true → w.Stored
  kept : ¬ w.Stored → w.success = false ∧ w.after.diskIndex = w.before.diskIndex ∧
    w.after.currentDiskSize = w.before.currentDiskSize ∧ w.after.ring = w.before.ring

/-- The record lands whole where the stream says it stands.  A stream that has written before stands at
the end of the file; a fresh one says 0, and what counts there is the front of the file. -/
def lands (s : PersistentMessageQueue N) (message : IpcMessage) : Bool :=
  let record := serializeMessage message
  let landed := s.dir.outcome.landed.getD record.length
  match s.dataWriter.reopen s.dir.outcome.opens with
  | .opened false true => record.length ≤ landed
  | .opened false false => record.isPrefixOf (s.dir.bytes ++ record.take landed)
  | _ => false

/-- The write is refused by the limit, or its record lands. -/
def Sound (s : PersistentMessageQueue N) (message : IpcMessage) : Prop :=
  s.maxDiskSize ≤ s.currentDiskSize ∨ s.lands message = true

instance (s : PersistentMessageQueue N) (message : IpcMessage) : Decidable (s.Sound message) :=
  inferInstanceAs (Decidable (_ ∨ _))

/-- The file is shorter than any file can be. -/
def Attempt.Sized (w : Attempt N) : Prop := w.before.dir.bytes.length < 2 ^ 63

instance (w : Attempt N) : Decidable w.Sized := inferInstanceAs (Decidable (_ < _))

section Verdict

variable {s : PersistentMessageQueue N} {m : IpcMessage}

theorem serializeMessage_ne_nil (m : IpcMessage) : serializeMessage m ≠ [] := by
  intro h
  have hlen := congrArg List.length h
  simp only [serializeMessage, List.length_append, leBytes_length, List.length_nil] at hlen
  omega

/-- A record that is entered stands in the file when it lands. -/
theorem prefix_drop_iff (hsized : s.dir.bytes.length < 2 ^ 63) (hgo : ¬ s.maxDiskSize ≤ s.currentDiskSize) :
    serializeMessage m <+: (s.writeToDisk m).1.dir.bytes.drop
      ((s.dataWriter.reopen s.dir.outcome.opens).tellp s.dir.bytes.length) ↔ s.lands m = true := by
  rw [writeToDisk, if_neg hgo]
  simp only [lands]
  -- past the end of the file there is no record
  have hbeyond : ∀ bytes : List UInt8, bytes.length < 2 ^ 63 →
      ¬ serializeMessage m <+: bytes.drop (2 ^ 64 - 1) := by
    intro bytes hlen hpre
    rw [List.drop_eq_nil_of_le (by omega), List.prefix_nil] at hpre
    exact serializeMessage_ne_nil m hpre
  obtain hw | ⟨bad, wrote, hw⟩ : s.dataWriter.reopen s.dir.outcome.opens = .closed ∨
      ∃ bad wrote, s.dataWriter.reopen s.dir.outcome.opens = .opened bad wrote := by
    cases s.dataWriter.reopen s.dir.outcome.opens with
    | closed => exact .inl rfl
    | opened bad wrote => exact .inr ⟨bad, wrote, rfl⟩
  · rw [hw]
    refine iff_of_false ?_ Bool.false_ne_true
    refine hbeyond _ ?_
    show ((s.dir.data.map (· ++ [])).getD []).length < _
    simpa [Dir.bytes] using hsized
  · rw [hw]
    cases bad with
    | true =>
      refine iff_of_false ?_ Bool.false_ne_true
      refine hbeyond _ ?_
      show (s.dir.bytes ++ []).length < _
      rwa [List.append_nil]
    | false =>
      set record := serializeMessage m with hrecord
      set landed := s.dir.outcome.landed.getD record.length with hlanded
      cases wrote with
      | true =>
        show record <+: (s.dir.bytes ++ record.take landed).drop s.dir.bytes.length ↔ _
        rw [List.drop_left, decide_eq_true_iff]
        constructor
        · intro hpre
          have hle := hpre.length_le
          rw [List.length_take] at hle
          omega
        · intro hle
          rw [List.take_of_length_le hle]
      | false =>
        show record <+: (s.dir.bytes ++ record.take landed).drop 0 ↔ _
        rw [List.drop_zero, List.isPrefixOf_iff_prefix]

/-- What `write_to_disk` enters. -/
theorem writeToDisk_diskIndex (hgo : ¬ s.maxDiskSize ≤ s.currentDiskSize) :
    (s.writeToDisk m).2 = true ∧ (s.writeToDisk m).1.diskIndex = s.diskIndex ++
      [((s.dataWriter.reopen s.dir.outcome.opens).tellp s.dir.bytes.length,
        (serializeMessage m).length % 2 ^ 32)] := by
  rw [writeToDisk, if_neg hgo]
  exact ⟨rfl, rfl⟩

/-- An attempt whose caller passes the verdict on, and leaves the disk as the write does. -/
theorem honest_iff {w : Attempt N} (hsized : w.Sized)
    (hsuccess : w.success = (w.before.writeToDisk w.message).2)
    (hindex : w.after.diskIndex = (w.before.writeToDisk w.message).1.diskIndex)
    (hdir : w.after.dir = (w.before.writeToDisk w.message).1.dir)
    (hrefused : w.success = false → w.after.currentDiskSize = w.before.currentDiskSize ∧
      w.after.ring = w.before.ring) :
    w.Honest ↔ w.before.Sound w.message := by
  by_cases hfull : w.before.maxDiskSize ≤ w.before.currentDiskSize
  · refine iff_of_true ?_ (.inl hfull)
    have hfalse : w.success = false := by
      rw [hsuccess, writeToDisk, if_pos hfull]
    have hsame : w.after.diskIndex = w.before.diskIndex := by
      rw [hindex, writeToDisk, if_pos hfull]
    refine ⟨?_, ?_⟩
    · intro htrue
      rw [hfalse] at htrue
      cases htrue
    · intro _
      obtain ⟨hsize, hring⟩ := hrefused hfalse
      exact ⟨hfalse, hsame, hsize, hring⟩
  · obtain ⟨htrue, hentry⟩ := @writeToDisk_diskIndex N w.before w.message hfull
    have hstored : w.Stored ↔ w.before.lands w.message = true := by
      rw [← prefix_drop_iff hsized hfull]
      constructor
      · rintro ⟨e, he, hpre⟩
        rw [hindex, hentry] at he
        obtain rfl := List.singleton_inj.mp (List.append_cancel_left he)
        rwa [hdir] at hpre
      · intro hpre
        refine ⟨_, hindex.trans hentry, ?_⟩
        rw [hdir]
        exact hpre
    constructor
    · intro h
      exact .inr (hstored.mp (h.stored (hsuccess.trans htrue)))
    · rintro (hlimit | hlands)
      · exact absurd hlimit hfull
      · exact ⟨fun _ => hstored.mpr hlands, fun hnot => absurd (hstored.mpr hlands) hnot⟩

end Verdict

/-! ### Every attempt -/

section Attempts

variable {s : PersistentMessageQueue N}

theorem enqueue_honest_iff {m : IpcMessage} (hfull : s.ring.Full) {w : Attempt N}
    (hw : w = ⟨s.bumpId m, s.stamp m, (s.enqueue m).1, (s.enqueue m).2⟩) (hsized : w.Sized) :
    w.Honest ↔ w.before.Sound w.message := by
  have hring : (s.bumpId m).ring.Full := by
    unfold bumpId
    split_ifs
    · exact hfull
    · exact hfull
  have henqueue : s.enqueue m = (if ((s.bumpId m).writeToDisk (s.stamp m)).2 then
      ({ ((s.bumpId m).writeToDisk (s.stamp m)).1 with
        totalEnqueued := ((s.bumpId m).writeToDisk (s.stamp m)).1.totalEnqueued + 1 }, true)
      else (((s.bumpId m).writeToDisk (s.stamp m)).1, false)) := by
    rw [enqueue, if_pos hring]
  subst hw
  by_cases hok : ((s.bumpId m).writeToDisk (s.stamp m)).2 = true
  · rw [if_pos hok] at henqueue
    rw [henqueue] at hsized ⊢
    refine honest_iff hsized hok.symm rfl rfl ?_
    intro hfalse
    cases hfalse
  · rw [if_neg hok] at henqueue
    have hok := eq_false_of_ne_true hok
    have hsame := writeToDisk_refused _ _ hok
    rw [henqueue] at hsized ⊢
    refine honest_iff hsized hok.symm rfl rfl ?_
    intro _
    rw [hsame]
    exact ⟨rfl, rfl⟩

theorem flushRound_honest_iff {m : IpcMessage} {w : Attempt N}
    (hw : w = ⟨s, m, (s.flushRound m).1, (s.flushRound m).2⟩) (hsized : w.Sized) :
    w.Honest ↔ w.before.Sound w.message := by
  subst hw
  by_cases hok : (s.writeToDisk m).2 = true
  · have hround : s.flushRound m =
        ({ (s.writeToDisk m).1 with
          ring := ((s.writeToDisk m).1.ring.setHead ⟨m, false⟩).advance }, true) := if_pos hok
    rw [hround] at hsized ⊢
    refine honest_iff hsized hok.symm rfl rfl ?_
    intro hfalse
    cases hfalse
  · have hround : s.flushRound m = ((s.writeToDisk m).1, false) := if_neg hok
    have hok := eq_false_of_ne_true hok
    have hsame := writeToDisk_refused _ _ hok
    rw [hround] at hsized ⊢
    refine honest_iff hsized hok.symm rfl rfl ?_
    intro _
    rw [hsame]
    exact ⟨rfl, rfl⟩

theorem flushAttempts_honest_iff {fuel : ℕ} {w : Attempt N} (hw : w ∈ flushAttempts fuel s)
    (hsized : w.Sized) : w.Honest ↔ w.before.Sound w.message := by
  induction fuel generalizing s with
  | zero => cases hw
  | succ fuel ih =>
    unfold flushAttempts at hw
    by_cases hempty : s.ring.Empty
    · rw [if_pos hempty] at hw
      cases hw
    · rw [if_neg hempty] at hw
      cases hawait : s.ring.head.await with
      | none =>
        rw [hawait] at hw
        cases hw
      | some message =>
        rw [hawait] at hw
        rcases List.mem_cons.mp hw with heq | hw
        · exact flushRound_honest_iff heq hsized
        · split_ifs at hw
          · exact ih hw
          · cases hw

/-- Every attempt of a step is honest when its record is refused or lands. -/
theorem attempts_honest_iff {a : Act} {w : Attempt N} (hw : w ∈ s.attempts a) (hsized : w.Sized) :
    w.Honest ↔ w.before.Sound w.message := by
  cases a with
  | restart => exact flushAttempts_honest_iff hw hsized
  | call op =>
    cases op with
    | enqueue m =>
      have hw : w ∈ if s.ring.Full then
          [⟨s.bumpId m, s.stamp m, (s.enqueue m).1, (s.enqueue m).2⟩] else [] := hw
      by_cases hfull : s.ring.Full
      · rw [if_pos hfull] at hw
        exact enqueue_honest_iff hfull (List.mem_singleton.mp hw) hsized
      · rw [if_neg hfull] at hw
        cases hw
    | flushToDisk => exact flushAttempts_honest_iff hw hsized
    | _ => cases hw

end Attempts

/-- **Reported success**: whatever the outcomes of the writes, the attempts of a run are all honest
exactly when each record is refused by the limit or lands. -/
theorem run_honest_iff {crc : List UInt8 → UInt32} [NeZero N] {s : PersistentMessageQueue N} {as : List Act}
    (hsized : (lifetimes crc N).Along (fun s a => ∀ w ∈ s.attempts a, w.Sized) s as) :
    (lifetimes crc N).Along (fun s a => ∀ w ∈ s.attempts a, w.Honest) s as ↔
      (lifetimes crc N).Along (fun s a => ∀ w ∈ s.attempts a, w.before.Sound w.message) s as := by
  refine Machine.Along.congr ?_ hsized
  intro s a hsized
  refine forall_congr' fun w => forall_congr' fun hw => ?_
  exact attempts_honest_iff hw (hsized w hw)

/-- Two records land, the limit refuses the third, and the new queue flushes nothing. -/
theorem run_honest_refused : (lifetimes (fun _ => 0) 2).Along (fun s a => ∀ w ∈ s.attempts a, w.Honest)
    (fresh 2 30) [.call (.enqueue ⟨1, 0, 0, [65]⟩), .call (.enqueue ⟨2, 0, 0, [66]⟩),
      .call (.enqueue ⟨3, 0, 0, [67]⟩), .call (.enqueue ⟨4, 0, 0, [68]⟩), .call .dequeue, .restart] :=
  (run_honest_iff (by decide +kernel)).mpr (by decide +kernel)

/-- The record of a flushed message is torn; the stream stays bad, and a message that spills later is
reported as stored although nothing of it is: the file has ten bytes. -/
theorem torn_reported : ∃ s h, (lifetimes (fun _ => 0) 2).run
      (initial 2 100 { outcomes := [{ landed := some 10 }] }) [.call (.enqueue ⟨1, 0, 0, [65]⟩),
        .call .flushToDisk, .call (.enqueue ⟨2, 0, 0, [66]⟩)] = some (s, h) ∧
    (s.enqueue ⟨3, 0, 0, [67]⟩).2 = true ∧ (s.enqueue ⟨3, 0, 0, [67]⟩).1.dir.bytes.length = 10 ∧
    ¬ (lifetimes (fun _ => 0) 2).Along (fun s a => ∀ w ∈ s.attempts a, w.Honest) s
      [.call (.enqueue ⟨3, 0, 0, [67]⟩)] := by
  have hend : ((lifetimes (fun _ => 0) 2).run (initial 2 100 { outcomes := [{ landed := some 10 }] })
      [.call (.enqueue ⟨1, 0, 0, [65]⟩), .call .flushToDisk, .call (.enqueue ⟨2, 0, 0, [66]⟩)]).map
        (fun r => ((r.1.enqueue ⟨3, 0, 0, [67]⟩).2, (r.1.enqueue ⟨3, 0, 0, [67]⟩).1.dir.bytes,
          r.1.attempts (.call (.enqueue ⟨3, 0, 0, [67]⟩)) |>.length)) =
      some (true, [1, 0, 0, 0, 0, 0, 0, 0, 0, 0], 1) := by decide +kernel
  obtain ⟨⟨s, h⟩, hrun, hq⟩ := Option.map_eq_some_iff.mp hend
  simp only [Prod.mk.injEq] at hq
  obtain ⟨hok, hbytes, hone⟩ := hq
  refine ⟨s, h, hrun, hok, by rw [hbytes]; rfl, ?_⟩
  rintro ⟨hall, -⟩
  have hfull : s.ring.Full := by
    by_contra hroom
    have hnone : s.attempts (.call (.enqueue ⟨3, 0, 0, [67]⟩)) = [] := if_neg hroom
    simp [hnone] at hone
  have hattempts : s.attempts (.call (.enqueue ⟨3, 0, 0, [67]⟩)) =
      [⟨s.bumpId ⟨3, 0, 0, [67]⟩, s.stamp ⟨3, 0, 0, [67]⟩, (s.enqueue ⟨3, 0, 0, [67]⟩).1,
        (s.enqueue ⟨3, 0, 0, [67]⟩).2⟩] := if_pos hfull
  have hhonest := hall _ (by rw [hattempts]; exact List.mem_cons_self)
  -- a record is longer than ten bytes
  obtain ⟨e, -, hpre⟩ := hhonest.stored hok
  have hle := hpre.length_le
  have hrecord : (serializeMessage (s.stamp ⟨3, 0, 0, [67]⟩)).length = 25 := rfl
  have hfile : (s.enqueue ⟨3, 0, 0, [67]⟩).1.dir.bytes.length = 10 := by
    rw [hbytes]
    rfl
  rw [List.length_drop, hrecord, hfile] at hle
  omega

end PersistentMessageQueue

end LuspUpload.MQ
