import LuspUpload.Ipc.Registry

/-!
# Ipc.StaleClients — which clients the heartbeat checker drops

`check_clients_heartbeat` collects the clients to drop in one pass and removes them in a second one.  The
time since the last heartbeat is a difference of two `uint64_t` readings of the system clock; when the
clock has stepped back behind a heartbeat, the difference wraps and the client counts as silent for
nearly `2 ^ 64` ms.
-/

namespace LuspUpload.Ipc

open Lib

namespace LoopbackIpcServer

/-- The client is registered, and its last heartbeat was more than the timeout ago. -/
def Stale (heartbeatTimeoutMs : UInt32) (currentTime : UInt64) (s : LoopbackIpcServer) (x : ℕ) : Prop :=
  ∃ state, s.socketStates.lookup x = some state ∧
    (s.states state).heartbeatInfo.lastHeartbeatTimeMs.toNat + heartbeatTimeoutMs.toNat < currentTime.toNat

/-- The clock is not behind the last heartbeat of a registered client; or it is behind by so much that the
difference wraps to no more than the timeout. -/
def ClockHolds (heartbeatTimeoutMs : UInt32) (currentTime : UInt64) (s : LoopbackIpcServer) : Prop :=
  ∀ e ∈ s.socketStates.entries,
    (s.states e.2).heartbeatInfo.lastHeartbeatTimeMs.toNat ≤ currentTime.toNat ∨
      2 ^ 64 + currentTime.toNat ≤
        (s.states e.2).heartbeatInfo.lastHeartbeatTimeMs.toNat + heartbeatTimeoutMs.toNat

instance (heartbeatTimeoutMs : UInt32) (currentTime : UInt64) (s : LoopbackIpcServer) :
    Decidable (ClockHolds heartbeatTimeoutMs currentTime s) :=
  inferInstanceAs (Decidable (∀ e ∈ s.socketStates.entries, _ ∨ _))

/-- The handler closes and removes the stale clients, and the others stay registered with their states. -/
structure DropsStale (heartbeatTimeoutMs : UInt32) (currentTime : UInt64) (s : LoopbackIpcServer)
    (r : LoopbackIpcServer × List Event) : Prop where
  closes : ∀ x, .heartbeatTimeout x ∈ r.2 ↔ Stale heartbeatTimeoutMs currentTime s x
  clients : ∀ x, x ∈ r.1.clients ↔ x ∈ s.clients ∧ ¬ Stale heartbeatTimeoutMs currentTime s x
  drops : ∀ x, Stale heartbeatTimeoutMs currentTime s x → r.1.socketStates.lookup x = none
  keeps : ∀ x, ¬ Stale heartbeatTimeoutMs currentTime s x →
    r.1.socketStates.lookup x = s.socketStates.lookup x

section Check

variable {timeout : UInt32} {now : UInt64} {s : LoopbackIpcServer}

/-- The second pass, on the map. -/
theorem erased_states (late : List ℕ) (s : LoopbackIpcServer) (x : ℕ) :
    (late.foldl eraseClient s).socketStates.lookup x =
      if x ∈ late then none else s.socketStates.lookup x := by
  induction late generalizing s with
  | nil => simp
  | cons socket late ih =>
    rw [List.foldl_cons, ih]
    show (if x ∈ late then none else (s.socketStates.erase socket).lookup x) = _
    by_cases heq : x = socket
    · subst heq
      rw [AList.lookup_erase, ite_self, if_pos List.mem_cons_self]
    · rw [AList.lookup_erase_ne heq]
      simp only [List.mem_cons, heq, false_or]

/-- The comparison of the first pass, over the integers. -/
theorem elapsed_iff (timeout : UInt32) (now last : UInt64) :
    timeout.toUInt64 < now - last ↔
      last.toNat + timeout.toNat < now.toNat ∨
        (now.toNat < last.toNat ∧ last.toNat + timeout.toNat < 2 ^ 64 + now.toNat) := by
  have hnow := now.toNat_lt
  have hlast := last.toNat_lt
  have htimeout := timeout.toNat_lt
  rw [UInt64.lt_iff_toNat_lt, UInt32.toNat_toUInt64, UInt64.toNat_sub]
  omega

/-- The first pass. -/
theorem mem_timeoutClients {x : ℕ} : x ∈ timeoutClients timeout now s ↔
    ∃ state, s.socketStates.lookup x = some state ∧
      timeout.toUInt64 < now - (s.states state).heartbeatInfo.lastHeartbeatTimeMs := by
  simp only [timeoutClients, List.mem_map, List.mem_filter, decide_eq_true_eq]
  constructor
  · rintro ⟨e, ⟨hmem, hlate⟩, rfl⟩
    exact ⟨e.2, AList.mem_lookup_iff.mpr hmem, hlate⟩
  · rintro ⟨state, hlookup, hlate⟩
    exact ⟨⟨x, state⟩, ⟨AList.mem_lookup_iff.mp hlookup, hlate⟩, rfl⟩

/-- A stale client is always found. -/
theorem Stale.late {x : ℕ} (h : Stale timeout now s x) : x ∈ timeoutClients timeout now s := by
  obtain ⟨state, hlookup, hstale⟩ := h
  exact mem_timeoutClients.mpr ⟨state, hlookup, (elapsed_iff _ _ _).mpr (Or.inl hstale)⟩

/-- What the first pass finds is stale, as long as the clock holds. -/
theorem ClockHolds.stale_iff (h : ClockHolds timeout now s) (x : ℕ) :
    x ∈ timeoutClients timeout now s ↔ Stale timeout now s x := by
  refine ⟨?_, Stale.late⟩
  intro hlate
  obtain ⟨state, hlookup, helapsed⟩ := mem_timeoutClients.mp hlate
  refine ⟨state, hlookup, ?_⟩
  have hclock := h ⟨x, state⟩ (AList.mem_lookup_iff.mp hlookup)
  rcases (elapsed_iff _ _ _).mp helapsed with hstale | ⟨hbehind, hwrap⟩
  · exact hstale
  · exfalso
    rcases hclock with hle | hle
    · exact absurd hbehind (Nat.not_lt.mpr hle)
    · exact absurd hwrap (Nat.not_lt.mpr hle)

/-- **The checker drops the stale clients** and no others, whatever the client table and the reading of
the clock, if and only if the clock is not behind the last heartbeat of a registered client (or so far
behind that the difference wraps to no more than the timeout). -/
theorem checkClientsHeartbeat_iff (timeout : UInt32) (now : UInt64) (s : LoopbackIpcServer) :
    DropsStale timeout now s (checkClientsHeartbeat timeout now s) ↔ ClockHolds timeout now s := by
  have hevents : ∀ x, Event.heartbeatTimeout x ∈ (checkClientsHeartbeat timeout now s).2 ↔
      x ∈ timeoutClients timeout now s := by
    intro x
    simp [checkClientsHeartbeat]
  constructor
  · intro h e hmem
    by_contra hclock
    rw [not_or, Nat.not_le, Nat.not_le] at hclock
    -- the client counts as late although it is not stale
    have hlookup : s.socketStates.lookup e.1 = some e.2 := AList.mem_lookup_iff.mpr hmem
    have hlate : e.1 ∈ timeoutClients timeout now s :=
      mem_timeoutClients.mpr ⟨e.2, hlookup, (elapsed_iff _ _ _).mpr (Or.inr hclock)⟩
    obtain ⟨state, hlookup', hstale⟩ := (h.closes e.1).mp ((hevents e.1).mpr hlate)
    obtain rfl := Option.some.inj (hlookup.symm.trans hlookup')
    omega
  · intro hclock
    refine ⟨?_, ?_, ?_, ?_⟩
    · intro x
      rw [hevents, hclock.stale_iff]
    · intro x
      rw [← hclock.stale_iff]
      exact erased_clients _ s x
    · intro x hstale
      refine (erased_states _ s x).trans (if_pos ?_)
      exact hstale.late
    · intro x hfresh
      refine (erased_states _ s x).trans (if_neg ?_)
      rwa [hclock.stale_iff]

/-- The clock steps back by one second, still behind no heartbeat: only the silent client goes. -/
theorem checkClientsHeartbeat_silent : DropsStale 5000 9000
    ((handleAccept none 9000 (handleAccept none 1000 (start true)).1).1)
    (checkClientsHeartbeat 5000 9000 ((handleAccept none 9000 (handleAccept none 1000 (start true)).1).1)) :=
  (checkClientsHeartbeat_iff _ _ _).mpr (by decide)

/-- The clock steps back by a millisecond: the client that has just connected is dropped. -/
theorem fresh_client_dropped :
    (∃ s es, (registry .wire 5000).run (start true) [.accept none 1000, .check 999] = some (s, es) ∧
      s.clients = ∅) ∧
    ¬ Stale 5000 999 (handleAccept none 1000 (start true)).1 0 ∧
    ¬ DropsStale 5000 999 (handleAccept none 1000 (start true)).1
      (checkClientsHeartbeat 5000 999 (handleAccept none 1000 (start true)).1) := by
  have hfresh : ¬ Stale 5000 999 (handleAccept none 1000 (start true)).1 0 := by
    rintro ⟨state, hlookup, hstale⟩
    have hstate : state = 0 := (Option.some.inj hlookup).symm
    subst hstate
    exact absurd hstale (by decide)
  refine ⟨⟨_, _, rfl, by decide⟩, hfresh, ?_⟩
  intro h
  have hclosed : Event.heartbeatTimeout 0 ∈
      (checkClientsHeartbeat 5000 999 (handleAccept none 1000 (start true)).1).2 := by
    exact List.mem_map.mpr ⟨0, by decide, rfl⟩
  exact hfresh ((h.closes 0).mp hclosed)

end Check

end LoopbackIpcServer

end LuspUpload.Ipc
