import LuspUpload.Ipc.HeartbeatFailure

/-!
# Ipc.FailureCount — whose heartbeat failures are counted

`heartbeat_failure_count_` is set to zero by the constructor, and by `handle_heartbeat_pong`, which nobody
calls.  A connect that succeeds leaves it as it is, so that the failures of earlier connections count
against the next one; so does a PING of an earlier connection that fails late.

`Tally` counts per connection.  A connection lasts from the connect that succeeds to the next one.
-/

namespace LuspUpload.Ipc

open Lib Config

namespace LoopbackIpcClient

variable {p : Platform} {cfg : NetworkConfig} {s : LoopbackIpcClient}

/-- What the client does not keep: the number of its connection, the heartbeat failures on it, and the
connections on which the pending PINGs were written. -/
structure Tally where
  connection : ℕ
  failures : ℕ
  pings : List ℕ

/-- The tally after a step; of the pending PINGs it is number `i` that completes. -/
def Tally.next (s : LoopbackIpcClient) (a : Act) (i : ℕ) (s' : LoopbackIpcClient) (t : Tally) : Tally :=
  match a with
  | .connectDone _ none _ => { t with connection := t.connection + 1, failures := 0 }
  | .pingDone ec _ =>
    { t with
      pings := t.pings.eraseIdx i
      failures := if ec.isSome ∧ t.pings[i]? = some t.connection then t.failures + 1 else t.failures }
  | .heartbeatTimer _ _ =>
    { t with
      pings := if s.pings < s'.pings then t.pings ++ [t.connection] else t.pings
      failures :=
        if s'.heartbeatFailureCount = s.heartbeatFailureCount then t.failures else t.failures + 1 }
  | _ => t

/-- The client with its tally. -/
def tallied (p : Platform) (cfg : NetworkConfig) : Machine (LoopbackIpcClient × Tally) (Act × ℕ) Event :=
  ⟨fun q a => (step p cfg q.1 a.1).map fun r => ((r.1, q.2.next q.1 a.1 a.2 r.1), r.2)⟩

/-- The counter of the client is the number of failures on its connection. -/
def Tally.Counts (t : Tally) (s : LoopbackIpcClient) : Prop :=
  s.heartbeatFailureCount = UInt32.ofNat t.failures

/-- Behind the step the counter has the failures of the connection alone, and where the step gives the
connection up, there are enough of them. -/
def CountsOwn (p : Platform) (cfg : NetworkConfig) (q : LoopbackIpcClient × Tally) (a : Act × ℕ) : Prop :=
  ∀ r, (tallied p cfg).step q a = some r → r.1.2.Counts r.1.1 ∧
    (FailsLast cfg q.1 r.1.1 → cfg.heartbeatMaxFailures.toNat ≤ r.1.2.failures)

/-- A connect that succeeds finds no failure counted, and a PING that fails was written on the connection. -/
def StartsAfresh (p : Platform) (cfg : NetworkConfig) (q : LoopbackIpcClient × Tally) (a : Act × ℕ) : Prop :=
  (step p cfg q.1 a.1).isSome = true →
    match a.1 with
    | .connectDone _ none _ => q.1.heartbeatFailureCount = 0
    | .pingDone (some _) _ => q.2.pings[a.2]? = some q.2.connection
    | _ => True

/-! ### The counter -/

/-- Failing PINGs and ticks apart, nothing touches the counter. -/
theorem step_count_same {a : Act} {r : LoopbackIpcClient × List Event} (h : step p cfg s a = some r)
    (hping : ∀ e now, a ≠ .pingDone (some e) now) (htick : ∀ i now, a ≠ .heartbeatTimer i now) :
    r.1.heartbeatFailureCount = s.heartbeatFailureCount := by
  obtain hstill | ⟨i, now, rfl, rfl⟩ | ⟨e, now, rfl, -⟩ | ⟨i, now, rfl, -, -⟩ := step_still h
  · exact hstill.failures
  · exact (handleConnectResult_connected cfg now _).1
  · exact absurd rfl (hping e now)
  · exact absurd rfl (htick i now)

theorem step_count_ping {e : ErrorCode} {now : UInt64} {r : LoopbackIpcClient × List Event}
    (h : step p cfg s (.pingDone (some e) now) = some r) :
    r.1.heartbeatFailureCount = s.heartbeatFailureCount + 1 := by
  obtain rfl := pingDone_cases h
  simp only [handlePingResult]
  split
  · exact Still.tryTriggerReconnect.failures
  · rfl

theorem checkHeartbeatTimeout_count (now : UInt64) :
    (checkHeartbeatTimeout cfg now s).1.heartbeatFailureCount = s.heartbeatFailureCount ∨
      (checkHeartbeatTimeout cfg now s).1.heartbeatFailureCount = s.heartbeatFailureCount + 1 := by
  simp only [checkHeartbeatTimeout]
  split_ifs
  · exact .inl rfl
  · exact .inl rfl
  · exact .inr Still.tryTriggerReconnect.failures
  · exact .inr rfl

theorem step_count_tick {i : ℕ} {now : UInt64} {r : LoopbackIpcClient × List Event}
    (h : step p cfg s (.heartbeatTimer i now) = some r) :
    r.1.heartbeatFailureCount = s.heartbeatFailureCount ∨
      r.1.heartbeatFailureCount = s.heartbeatFailureCount + 1 := by
  obtain ⟨-, rfl⟩ | ⟨-, rfl⟩ := wait_cases h
  · unfold handleHeartbeatTimer
    split
    · exact checkHeartbeatTimeout_count now
    · exact .inl rfl
  · exact .inl rfl

/-! ### Steps and runs -/

namespace Tally.Counts

variable {t : Tally} {s' : LoopbackIpcClient}

/-- The counter is never ahead of the failures; it may have wrapped. -/
theorem enough (h : t.Counts s') (hlast : FailsLast cfg s s') :
    cfg.heartbeatMaxFailures.toNat ≤ t.failures := by
  have hcount : s'.heartbeatFailureCount.toNat ≤ t.failures := by
    rw [h, UInt32.toNat_ofNat']
    exact Nat.mod_le _ _
  exact Nat.le_trans (UInt32.le_iff_toNat_le.mp hlast.2) hcount

theorem same (h : t.Counts s) {t' : Tally} (ht : t'.failures = t.failures)
    (hs : s'.heartbeatFailureCount = s.heartbeatFailureCount) : t'.Counts s' := by
  rw [Tally.Counts, hs, ht]
  exact h

theorem succ (h : t.Counts s) {t' : Tally} (ht : t'.failures = t.failures + 1)
    (hs : s'.heartbeatFailureCount = s.heartbeatFailureCount + 1) : t'.Counts s' := by
  rw [Tally.Counts, hs, ht, UInt32.ofNat_add, h]
  rfl

/-- A PING that fails is counted once more, whatever connection it is of. -/
theorem next_pingDone (h : t.Counts s) {e : ErrorCode} {now : UInt64} {i : ℕ}
    (hs : s'.heartbeatFailureCount = s.heartbeatFailureCount + 1) :
    (t.next s (.pingDone (some e) now) i s').Counts s' ↔ t.pings[i]? = some t.connection := by
  by_cases hown : t.pings[i]? = some t.connection
  · have hnext : (t.next s (.pingDone (some e) now) i s').failures = t.failures + 1 := if_pos ⟨rfl, hown⟩
    exact iff_of_true (h.succ hnext hs) hown
  · have hnext : (t.next s (.pingDone (some e) now) i s').failures = t.failures :=
      if_neg fun hc => hown hc.2
    refine iff_of_false ?_ hown
    intro hcounts
    rw [Tally.Counts, hs, hnext, h] at hcounts
    simp at hcounts

end Tally.Counts

/-- The tally goes along with the counter, unless a connect or a PING of an earlier connection parts them. -/
theorem counts_next_iff {t : Tally} {a : Act} {i : ℕ} {r : LoopbackIpcClient × List Event}
    (h : t.Counts s) (hstep : step p cfg s a = some r) :
    (t.next s a i r.1).Counts r.1 ↔ StartsAfresh p cfg (s, t) (a, i) := by
  have hpossible : (step p cfg s a).isSome = true := by rw [hstep]; rfl
  cases a with
  | connectDone j ec now =>
    have hcount := step_count_same hstep (by simp) (by simp)
    cases ec with
    | none =>
      rw [Tally.Counts, hcount]
      exact ⟨fun hzero _ => hzero, fun hafresh => hafresh hpossible⟩
    | some e => exact iff_of_true (h.same rfl hcount) fun _ => trivial
  | pingDone ec now =>
    cases ec with
    | none =>
      have hcount := step_count_same hstep (by simp) (by simp)
      exact iff_of_true (h.same rfl hcount) fun _ => trivial
    | some e =>
      refine (h.next_pingDone (step_count_ping hstep)).trans ?_
      exact ⟨fun hown _ => hown, fun hafresh => hafresh hpossible⟩
  | heartbeatTimer j now =>
    refine iff_of_true ?_ fun _ => trivial
    by_cases hsame : r.1.heartbeatFailureCount = s.heartbeatFailureCount
    · exact h.same (if_pos hsame) hsame
    · exact h.succ (if_neg hsame) ((step_count_tick hstep).resolve_left hsame)
  | _ => exact iff_of_true (h.same rfl (step_count_same hstep (by simp) (by simp))) fun _ => trivial

theorem countsOwn_iff {q : LoopbackIpcClient × Tally} {a : Act × ℕ} (h : q.2.Counts q.1) :
    CountsOwn p cfg q a ↔ StartsAfresh p cfg q a := by
  obtain ⟨s, t⟩ := q
  obtain ⟨a, i⟩ := a
  cases hstep : step p cfg s a with
  | none =>
    refine iff_of_true ?_ ?_
    · intro r hr
      obtain ⟨r', hr', -⟩ := Option.map_eq_some_iff.mp hr
      rw [hstep] at hr'
      cases hr'
    · intro hpossible
      rw [hstep] at hpossible
      cases hpossible
  | some r =>
    rw [← counts_next_iff h hstep]
    constructor
    · intro hown
      refine (hown ((r.1, t.next s a i r.1), r.2) ?_).1
      show (step p cfg s a).map _ = _
      rw [hstep]
      rfl
    · intro hcounts r' hr'
      obtain ⟨r'', hr'', rfl⟩ := Option.map_eq_some_iff.mp hr'
      obtain rfl := Option.some.inj (hstep.symm.trans hr'')
      exact ⟨hcounts, hcounts.enough⟩

/-- **Failures per connection**: in every run the counter has the failures of the current connection
alone, and gives it up only after enough of them, exactly when every connect starts afresh. -/
theorem run_countsOwn_iff (start : UInt64) (as : List (Act × ℕ)) :
    (tallied p cfg).Along (CountsOwn p cfg) (create start, ⟨0, 0, []⟩) as ↔
      (tallied p cfg).Along (StartsAfresh p cfg) (create start, ⟨0, 0, []⟩) as := by
  have hstart : Tally.Counts ⟨0, 0, []⟩ (create start) := rfl
  refine Machine.Along.iff_of_invariant (J := fun q : LoopbackIpcClient × Tally => q.2.Counts q.1)
    (fun q a => countsOwn_iff) ?_ hstart as
  intro q a q' es _ hown hstep
  exact (hown _ hstep).1

/-- Two PINGs fail on the first connection and one on the second, which is given up for it. -/
theorem earlier_failures_contribute :
    ∃ q es r, (tallied .posix {}).run (create 1, ⟨0, 0, []⟩)
        ([.connect true 2, .connectDone 0 none 1000, .heartbeatExpires, .heartbeatTimer 0 11000,
          .pingDone (some ⟨.system, 32⟩) 11001, .heartbeatExpires, .heartbeatTimer 0 21000,
          .pingDone (some ⟨.system, 32⟩) 21001, .disconnect 22000, .heartbeatTimer 0 22000,
          .connect true 23000, .connectDone 0 none 23001, .heartbeatExpires,
          .heartbeatTimer 0 33000].map fun a => (a, 0)) = some (q, es) ∧
      (tallied .posix {}).step q (.pingDone (some ⟨.system, 32⟩) 33001, 0) = some r ∧
      FailsLast {} q.1 r.1.1 ∧
      (r.1.2.connection, r.1.2.failures, ({} : NetworkConfig).heartbeatMaxFailures) = (2, 1, 3) := by
  have hend : ((tallied .posix {}).run (create 1, ⟨0, 0, []⟩)
      ([.connect true 2, .connectDone 0 none 1000, .heartbeatExpires, .heartbeatTimer 0 11000,
        .pingDone (some ⟨.system, 32⟩) 11001, .heartbeatExpires, .heartbeatTimer 0 21000,
        .pingDone (some ⟨.system, 32⟩) 21001, .disconnect 22000, .heartbeatTimer 0 22000,
        .connect true 23000, .connectDone 0 none 23001, .heartbeatExpires,
        .heartbeatTimer 0 33000].map fun a => (a, 0))).map (fun q => (q.1.1.heartbeatFailureCount,
          ((tallied .posix {}).step q.1 (.pingDone (some ⟨.system, 32⟩) 33001, 0)).map fun r =>
            (r.1.1.heartbeatFailureCount, r.1.2.connection, r.1.2.failures))) =
      some (2, some (3, 2, 1)) := by rfl
  obtain ⟨⟨q, es⟩, hrun, hq⟩ := Option.map_eq_some_iff.mp hend
  obtain ⟨hcount, hstep⟩ := Prod.mk.inj hq
  obtain ⟨r, hstep, hr⟩ := Option.map_eq_some_iff.mp hstep
  obtain ⟨hcount', hown⟩ := Prod.mk.inj hr
  obtain ⟨hconnection, hfailures⟩ := Prod.mk.inj hown
  refine ⟨q, es, r, hrun, hstep, ?_, by rw [hconnection, hfailures]⟩
  rw [FailsLast, hcount', show q.1.heartbeatFailureCount = 2 from hcount]
  decide

end LoopbackIpcClient

end LuspUpload.Ipc
