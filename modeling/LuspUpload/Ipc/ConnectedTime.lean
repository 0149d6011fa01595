import LuspUpload.Ipc.Monitor
import Mathlib.Algebra.Order.Ring.Nat
import Mathlib.Data.List.Infix

/-!
# Ipc.ConnectedTime — the connected time that the monitor adds up

`set_state` adds to `total_connected_duration_ms` when the state becomes `Disconnected`, from whatever
state, and then the whole time since the last connect.  So a session that ends in another state is not
counted at that moment, and an attempt that fails later counts the session again, with the pause behind it.
`Watch` is what the total is meant to be: the time in `Connected`, in intervals that have ended.
-/

namespace LuspUpload.Ipc

/-- A watch on the link: the state, when it was entered, and the time spent in `Connected` before it. -/
structure Watch where
  state : ConnectionState
  since : ℕ
  spent : ℕ
  deriving DecidableEq, Repr

/-- The state is set at a time. -/
def Watch.set (w : Watch) (c : ConnectionState × UInt64) : Watch :=
  if w.state = c.1 then w
  else ⟨c.1, c.2.toNat, if w.state = .connected then w.spent + (c.2.toNat - w.since) else w.spent⟩

/-- The total length of the intervals in `Connected` that have ended. -/
def connectedTime (calls : List (ConnectionState × UInt64)) : ℕ :=
  (calls.foldl Watch.set ⟨.disconnected, 0, 0⟩).spent

/-- The clock is positive and does not run back. -/
structure Clock (calls : List (ConnectionState × UInt64)) : Prop where
  positive : ∀ c ∈ calls, c.2 ≠ 0
  sorted : calls.Pairwise fun c c' => c.2 ≤ c'.2

section Clock

variable {calls pre : List (ConnectionState × UInt64)} {c : ConnectionState × UInt64}

theorem Clock.tail (h : Clock (c :: calls)) : Clock calls :=
  ⟨fun c' hc' => h.positive c' (List.mem_cons_of_mem c hc'), (List.pairwise_cons.mp h.sorted).2⟩

theorem Clock.le (h : Clock (c :: calls)) :
    ∀ c' ∈ calls, c.2.toNat ≤ c'.2.toNat :=
  fun c' hc' => UInt64.le_iff_toNat_le.mp ((List.pairwise_cons.mp h.sorted).1 c' hc')

theorem Clock.initial (h : Clock calls) (hpre : pre <+: calls) : Clock pre :=
  ⟨fun c hc => h.positive c (hpre.subset hc), h.sorted.sublist hpre.sublist⟩

end Clock

namespace ConnectionMonitor

/-- Successive calls of `set_state`. -/
def setStates (m : ConnectionMonitor) (calls : List (ConnectionState × UInt64)) : ConnectionMonitor :=
  calls.foldl (fun m c => (m.setState c.1 c.2).1) m

/-- They are calls of the monitor. -/
theorem setStates_eq_after (p : Platform) (m : ConnectionMonitor)
    (calls : List (ConnectionState × UInt64)) :
    m.setStates calls = after p m (calls.map fun c => .setState c.1 c.2) := by
  rw [after, List.foldl_map]
  rfl

/-- The total is the connected time, and not more than has passed since the first connect. -/
structure Accounts (calls : List (ConnectionState × UInt64)) (m : ConnectionMonitor) : Prop where
  total : m.connectionStats.totalConnectedDurationMs.toNat = connectedTime calls
  bound : m.connectionStats.firstConnectTimeMs ≠ 0 → ∀ c ∈ calls.getLast?,
    m.connectionStats.totalConnectedDurationMs.toNat + m.connectionStats.firstConnectTimeMs.toNat ≤
      c.2.toNat

/-- A session ends in `Disconnected`, and `Disconnected` is entered from elsewhere only if there was no
connect before; or no time has passed since the last connect. -/
def Books (m : ConnectionMonitor) (c : ConnectionState × UInt64) : Prop :=
  m.state ≠ c.1 →
    (m.state = .connected → c.1 ≠ .disconnected → c.2 = m.connectionStats.lastConnectTimeMs) ∧
    (m.state ≠ .connected → c.1 = .disconnected →
      m.connectionStats.lastConnectTimeMs = 0 ∨ c.2 = m.connectionStats.lastConnectTimeMs)

instance (m : ConnectionMonitor) (c : ConnectionState × UInt64) : Decidable (m.Books c) :=
  inferInstanceAs (Decidable (_ → _ ∧ _))

/-- Every call of the sequence does. -/
def BooksAll : ConnectionMonitor → List (ConnectionState × UInt64) → Prop
  | _, [] => True
  | m, c :: calls => m.Books c ∧ BooksAll (m.setState c.1 c.2).1 calls

instance decidableBooksAll : ∀ (m : ConnectionMonitor) (calls : List (ConnectionState × UInt64)),
    Decidable (m.BooksAll calls)
  | _, [] => .isTrue trivial
  | m, c :: calls =>
    have := decidableBooksAll (m.setState c.1 c.2).1 calls
    inferInstanceAs (Decidable (m.Books c ∧ (m.setState c.1 c.2).1.BooksAll calls))

/-! ### One call -/

/-- The monitor and the watch have seen the same calls, the last of them not after `last`. -/
structure Follows (m : ConnectionMonitor) (w : Watch) (last : ℕ) : Prop where
  state : w.state = m.state
  since : m.state = .connected → w.since = m.connectionStats.lastConnectTimeMs.toNat
  connect : m.connectionStats.lastConnectTimeMs.toNat ≤ last
  first : m.connectionStats.firstConnectTimeMs = 0 ↔ m.connectionStats.lastConnectTimeMs = 0
  connected : m.state = .connected → m.connectionStats.lastConnectTimeMs ≠ 0
  bound : w.spent + m.connectionStats.firstConnectTimeMs.toNat ≤
    if m.state = .connected then w.since else last
  none : m.connectionStats.lastConnectTimeMs = 0 → w.spent = 0

theorem follows_create (now : UInt64) (stateChangeCallback reconnectCallback : Bool) :
    Follows (create now stateChangeCallback reconnectCallback) ⟨.disconnected, 0, 0⟩ 0 where
  state := rfl
  since := nofun
  connect := le_rfl
  first := Iff.rfl
  connected := nofun
  bound := le_rfl
  none _ := rfl

section Call

variable {m : ConnectionMonitor} {w : Watch} {last : ℕ} {c : ConnectionState × UInt64}

/-- The watch does not run ahead of the clock. -/
theorem Follows.spent_le (h : Follows m w last) :
    w.spent + m.connectionStats.firstConnectTimeMs.toNat ≤ last := by
  have hbound := h.bound
  by_cases hstate : m.state = .connected
  · rw [if_pos hstate, h.since hstate] at hbound
    exact hbound.trans h.connect
  · rwa [if_neg hstate] at hbound

theorem setState_same (hsame : m.state = c.1) : (m.setState c.1 c.2).1 = m := by
  rw [setState, if_pos hsame]

/-- The watch goes on following. -/
theorem Follows.step (h : Follows m w last) (hpos : c.2 ≠ 0) (hlast : last ≤ c.2.toNat) :
    Follows (m.setState c.1 c.2).1 (w.set c) c.2.toNat := by
  obtain ⟨state, now⟩ := c
  have hlast : last ≤ now.toNat := hlast
  have hspent := h.spent_le
  by_cases hsame : m.state = state
  · have hw : w.set (state, now) = w := by rw [Watch.set, if_pos (h.state.trans hsame)]
    rw [setState_same hsame, hw]
    refine ⟨h.state, h.since, h.connect.trans hlast, h.first, h.connected, ?_, h.none⟩
    have hbound := h.bound
    split_ifs at hbound ⊢
    · exact hbound
    · exact hbound.trans hlast
  · have hw : w.set (state, now) = ⟨state, now.toNat,
        if m.state = .connected then w.spent + (now.toNat - w.since) else w.spent⟩ := by
      rw [Watch.set, if_neg (by rw [h.state]; exact hsame), h.state]
    -- what has ended by now is not more than has passed
    have hended : (if m.state = .connected then w.spent + (now.toNat - w.since) else w.spent) +
        m.connectionStats.firstConnectTimeMs.toNat ≤ now.toNat := by
      have hbound := h.bound
      split_ifs at hbound ⊢ with hstate
      · have hsince := h.since hstate
        have hconnect := h.connect.trans hlast
        omega
      · exact hspent.trans hlast
    have hnone : m.connectionStats.lastConnectTimeMs = 0 →
        (if m.state = .connected then w.spent + (now.toNat - w.since) else w.spent) = 0 := by
      intro hzero
      rw [if_neg fun hstate => h.connected hstate hzero]
      exact h.none hzero
    rw [setState, if_neg hsame, hw]
    cases state with
    | connected =>
      have hne : m.state ≠ .connected := hsame
      refine ⟨rfl, fun _ => rfl, le_rfl, ?_, fun _ => hpos, ?_, fun hzero => absurd hzero hpos⟩
      · show (if m.connectionStats.firstConnectTimeMs = 0 then now
          else m.connectionStats.firstConnectTimeMs) = 0 ↔ now = 0
        split_ifs with hfirst
        · exact Iff.rfl
        · exact ⟨fun h => absurd h hfirst, fun h => absurd h hpos⟩
      · show (if m.state = .connected then _ else w.spent) +
          (if m.connectionStats.firstConnectTimeMs = 0 then now
            else m.connectionStats.firstConnectTimeMs).toNat ≤ now.toNat
        rw [if_neg hne]
        split_ifs with hfirst
        · rw [h.none (h.first.mp hfirst), Nat.zero_add]
        · exact hspent.trans hlast
    | disconnected => exact ⟨rfl, nofun, h.connect.trans hlast, h.first, nofun, hended, hnone⟩
    | reconnecting => exact ⟨rfl, nofun, h.connect.trans hlast, h.first, nofun, hended, hnone⟩
    | connecting => exact ⟨rfl, nofun, h.connect.trans hlast, h.first, nofun, hended, hnone⟩
    | failed => exact ⟨rfl, nofun, h.connect.trans hlast, h.first, nofun, hended, hnone⟩

/-- Adding what has passed since an earlier time, as `uint64_t`. -/
theorem toNat_add_elapsed {total now since : UInt64} (hsince : since.toNat ≤ now.toNat) :
    (total + (now - since)).toNat = (total.toNat + (now.toNat - since.toNat)) % 2 ^ 64 := by
  rw [UInt64.toNat_add, UInt64.toNat_sub_of_le _ _ (UInt64.le_iff_toNat_le.mpr hsince)]

/-- What the total becomes. -/
theorem total_setState (hne : m.state ≠ c.1) :
    (m.setState c.1 c.2).1.connectionStats.totalConnectedDurationMs =
      if c.1 = .disconnected ∧ m.connectionStats.lastConnectTimeMs ≠ 0 then
        m.connectionStats.totalConnectedDurationMs + (c.2 - m.connectionStats.lastConnectTimeMs)
      else m.connectionStats.totalConnectedDurationMs := by
  obtain ⟨state, now⟩ := c
  rw [setState, if_neg hne]
  cases state with
  | disconnected =>
    show (if 0 < m.connectionStats.lastConnectTimeMs then _ else _) = _
    by_cases hzero : m.connectionStats.lastConnectTimeMs = 0
    · rw [if_neg fun h => UInt64.pos_iff_ne_zero.mp h hzero, if_neg fun h => h.2 hzero]
    · rw [if_pos (UInt64.pos_iff_ne_zero.mpr hzero), if_pos ⟨rfl, hzero⟩]
  | connected => rfl
  | reconnecting => rfl
  | connecting => rfl
  | failed => rfl

/-- The totals stay together exactly if the call books. -/
theorem Follows.total_iff (h : Follows m w last) (hlast : last ≤ c.2.toNat)
    (htotal : m.connectionStats.totalConnectedDurationMs.toNat = w.spent) :
    (m.setState c.1 c.2).1.connectionStats.totalConnectedDurationMs.toNat = (w.set c).spent ↔
      m.Books c := by
  obtain ⟨state, now⟩ := c
  by_cases hsame : m.state = state
  · have hw : w.set (state, now) = w := by rw [Watch.set, if_pos (h.state.trans hsame)]
    rw [setState_same hsame, hw]
    exact ⟨fun _ hne => absurd hsame hne, fun _ => htotal⟩
  · have hbooks : m.Books (state, now) ↔
        (m.state = .connected → state ≠ .disconnected → now = m.connectionStats.lastConnectTimeMs) ∧
        (m.state ≠ .connected → state = .disconnected →
          m.connectionStats.lastConnectTimeMs = 0 ∨ now = m.connectionStats.lastConnectTimeMs) :=
      ⟨fun hb => hb hsame, fun hb _ => hb⟩
    have hw : (w.set (state, now)).spent =
        if m.state = .connected then w.spent + (now.toNat - w.since) else w.spent := by
      rw [Watch.set, if_neg (by rw [h.state]; exact hsame), h.state]
    have hlast : last ≤ now.toNat := hlast
    have hconnect : m.connectionStats.lastConnectTimeMs.toNat ≤ now.toNat := h.connect.trans hlast
    have hnow := now.toNat_lt
    have hequal : now = m.connectionStats.lastConnectTimeMs ↔
        now.toNat = m.connectionStats.lastConnectTimeMs.toNat := UInt64.toNat_inj.symm
    have hadd := @toNat_add_elapsed m.connectionStats.totalConnectedDurationMs _ _ hconnect
    rw [hbooks, hw, total_setState hsame, hequal]
    by_cases hstate : m.state = .connected
    · have hnonzero := h.connected hstate
      have hbound := h.bound
      rw [if_pos hstate, h.since hstate] at hbound
      rw [if_pos hstate, h.since hstate]
      by_cases hdisc : state = .disconnected
      · -- the session is counted now
        rw [if_pos ⟨hdisc, hnonzero⟩, hadd, htotal, Nat.mod_eq_of_lt (by omega)]
        simp [hstate, hdisc]
      · rw [if_neg fun hb => hdisc hb.1, htotal]
        simp only [hstate, hdisc, ne_eq, not_true_eq_false, not_false_eq_true, forall_const, false_imp_iff,
          and_true]
        omega
    · rw [if_neg hstate]
      by_cases hdisc : state = .disconnected
      · by_cases hnonzero : m.connectionStats.lastConnectTimeMs = 0
        · rw [if_neg fun hb => hb.2 hnonzero]
          simp [hstate, hnonzero, htotal]
        · -- the last session is counted with the time behind it
          have hspent := h.spent_le
          rw [if_pos ⟨hdisc, hnonzero⟩, hadd, htotal]
          simp only [hstate, hdisc, hnonzero, ne_eq, not_false_eq_true, forall_const, false_imp_iff,
            true_and, false_or]
          omega
      · rw [if_neg fun hb => hdisc hb.1, htotal]
        simp [hstate, hdisc]

end Call

/-! ### Sequences of calls -/

section Calls

variable {m : ConnectionMonitor} {w : Watch} {last : ℕ} {calls pre : List (ConnectionState × UInt64)}

theorem BooksAll.initial (h : m.BooksAll calls) (hpre : pre <+: calls) : m.BooksAll pre := by
  induction pre generalizing m calls with
  | nil => trivial
  | cons c pre ih =>
    obtain ⟨rest, rfl⟩ := hpre
    exact ⟨h.1, ih h.2 (List.prefix_append pre rest)⟩

/-- Calls that book keep the monitor and the watch together. -/
theorem Follows.run (h : Follows m w last) (hclock : Clock calls) (hlast : ∀ c ∈ calls, last ≤ c.2.toNat)
    (htotal : m.connectionStats.totalConnectedDurationMs.toNat = w.spent) (hbooks : m.BooksAll calls) :
    Follows (m.setStates calls) (calls.foldl Watch.set w)
        ((calls.getLast?.map (·.2.toNat)).getD last) ∧
      (m.setStates calls).connectionStats.totalConnectedDurationMs.toNat =
        (calls.foldl Watch.set w).spent := by
  induction calls generalizing m w last with
  | nil => exact ⟨h, htotal⟩
  | cons c calls ih =>
    have hc := hlast c List.mem_cons_self
    obtain ⟨hfollows, hsame⟩ := ih (h.step (hclock.positive c List.mem_cons_self) hc) hclock.tail hclock.le
      ((h.total_iff hc htotal).mpr hbooks.1) hbooks.2
    refine ⟨?_, hsame⟩
    have hend : ((c :: calls).getLast?.map (·.2.toNat)).getD last =
        (calls.getLast?.map (·.2.toNat)).getD c.2.toNat := by
      cases calls with
      | nil => rfl
      | cons c' calls => rw [List.getLast?_cons_cons]; rfl
    rw [hend]
    exact hfollows

/-- If they stay together after each call, all calls book. -/
theorem Follows.booksAll (h : Follows m w last) (hclock : Clock calls)
    (hlast : ∀ c ∈ calls, last ≤ c.2.toNat)
    (htotal : ∀ pre, pre <+: calls →
      (m.setStates pre).connectionStats.totalConnectedDurationMs.toNat = (pre.foldl Watch.set w).spent) :
    m.BooksAll calls := by
  induction calls generalizing m w last with
  | nil => trivial
  | cons c calls ih =>
    have hc := hlast c List.mem_cons_self
    have hnow := htotal [] List.nil_prefix
    have hfirst := htotal [c] ((List.prefix_append [c] calls))
    refine ⟨(h.total_iff hc hnow).mp hfirst, ?_⟩
    refine ih (h.step (hclock.positive c List.mem_cons_self) hc) hclock.tail hclock.le ?_
    intro pre hpre
    exact htotal (c :: pre) (List.cons_prefix_cons.mpr ⟨rfl, hpre⟩)

/-- **Connected time**: after every call the total is the time spent in `Connected`, in intervals that
have ended, and at most what has passed since the first connect, if and only if every session ends in
`Disconnected` and no failed attempt follows a session, instantaneous ones apart. -/
theorem accounts_iff (now : UInt64) (stateChangeCallback reconnectCallback : Bool)
    {calls : List (ConnectionState × UInt64)} (hclock : Clock calls) :
    (∀ pre, pre <+: calls →
        Accounts pre ((create now stateChangeCallback reconnectCallback).setStates pre)) ↔
      (create now stateChangeCallback reconnectCallback).BooksAll calls := by
  have hstart := follows_create now stateChangeCallback reconnectCallback
  constructor
  · intro h
    exact hstart.booksAll hclock (fun _ _ => Nat.zero_le _) fun pre hpre => (h pre hpre).total
  · intro hbooks pre hpre
    obtain ⟨hfollows, htotal⟩ := hstart.run (hclock.initial hpre) (fun _ _ => Nat.zero_le _) rfl
      (hbooks.initial hpre)
    refine ⟨htotal, ?_⟩
    intro _ c hc
    have hspent := hfollows.spent_le
    rw [hc, ← htotal] at hspent
    exact hspent

/-- Two sessions, each ended by a disconnect, with a reconnect between them. -/
theorem accounts_two_sessions : Accounts
    [(.connecting, 5), (.connected, 10), (.disconnected, 25), (.connecting, 30), (.connected, 30),
      (.disconnected, 37)]
    ((create 1 true true).setStates [(.connecting, 5), (.connected, 10), (.disconnected, 25),
      (.connecting, 30), (.connected, 30), (.disconnected, 37)]) :=
  (accounts_iff 1 true true ⟨by decide, by decide⟩).mpr (by decide) _ (List.prefix_refl _)

/-- A session of 10 ms, then an attempt that fails: the total is more than the time since the connect. -/
theorem failed_attempt_counts :
    Clock [(.connected, 10), (.disconnected, 20), (.connecting, 30), (.disconnected, 40)] ∧
    ((create 1 true true).setStates [(.connected, 10), (.disconnected, 20), (.connecting, 30),
      (.disconnected, 40)]).connectionStats.totalConnectedDurationMs = 40 ∧
    connectedTime [(.connected, 10), (.disconnected, 20), (.connecting, 30), (.disconnected, 40)] = 10 ∧
    ¬ Accounts [(.connected, 10), (.disconnected, 20), (.connecting, 30), (.disconnected, 40)]
      ((create 1 true true).setStates [(.connected, 10), (.disconnected, 20), (.connecting, 30),
        (.disconnected, 40)]) := by
  refine ⟨⟨by decide, by decide⟩, by decide, by decide, ?_⟩
  intro h
  exact absurd h.total (by decide)

end Calls

end ConnectionMonitor

end LuspUpload.Ipc
