import LuspUpload.Ipc.Demux
import LuspUpload.Ipc.Monitor
import LuspUpload.Lib.Runs
import Mathlib.Data.Finset.Insert
import Mathlib.Data.Finset.Card
import Mathlib.Data.List.AList

/-!
# Ipc.Registry — the clients of the server

`Lusp_AsioLoopbackIpcServer` keeps its clients twice: the set `clients_` and the map `socket_states_`.
The accept handler, the read handler and the heartbeat checker change both.  A socket and its state are
named by the number of the accept they were created for.  Handlers run one at a time, on the one thread
of `io_context.run`.

* A pending read completes with any result, also after the checker has closed its socket.
* The read handler keeps the socket and the state alive that it was started with, erased or not.
* The writes of PONGs and broadcasts only log their results.
-/

namespace LuspUpload.Ipc

open Lib

/-- `ClientHeartbeatInfo`. -/
structure ClientHeartbeatInfo where
  clientName : List UInt8 := []
  clientVersion : List UInt8 := []
  lastHeartbeatTimeMs : UInt64 := 0
  lastSequence : UInt32 := 0
  heartbeatCount : UInt32 := 0

/-- `ConnState`. -/
structure ConnState where
  buffer : List UInt8 := []
  heartbeatInfo : ClientHeartbeatInfo := {}

/-- The server; `states` are the `ConnState` objects, `accepting` is the socket of the pending accept, and
`reads` are the pending reads with the socket and the state they hold. -/
structure LoopbackIpcServer where
  onMessage : Bool
  clients : Finset ℕ
  socketStates : AList fun _ : ℕ => ℕ
  states : ℕ → ConnState
  accepting : ℕ
  reads : List (ℕ × ℕ)

namespace LoopbackIpcServer

/-- What the handlers do beside changing the state. -/
inductive Event where
  | accepted (socket : ℕ)
  | delivered (socket : ℕ) (delivery : Delivery)
  | readError (socket : ℕ)
  | heartbeatTimeout (socket : ℕ)

/-- `start`, with or without a callback: the first accept is pending. -/
def start (onMessage : Bool) : LoopbackIpcServer where
  onMessage := onMessage
  clients := ∅
  socketStates := ∅
  states := fun _ => {}
  accepting := 0
  reads := []

/-- Change a `ConnState` object. -/
def setConnState (state : ℕ) (f : ConnState → ConnState) (s : LoopbackIpcServer) : LoopbackIpcServer :=
  { s with states := Function.update s.states state (f (s.states state)) }

/-- `do_read`. -/
def doRead (socket state : ℕ) (s : LoopbackIpcServer) : LoopbackIpcServer :=
  { s with reads := s.reads ++ [(socket, state)] }

/-- `clients_.erase` and `socket_states_.erase`. -/
def eraseClient (s : LoopbackIpcServer) (socket : ℕ) : LoopbackIpcServer :=
  { s with clients := s.clients.erase socket, socketStates := s.socketStates.erase socket }

/-- The accept handler and the next `do_accept`. -/
def handleAccept (ec : Option ErrorCode) (now : UInt64) (s : LoopbackIpcServer) :
    LoopbackIpcServer × List Event :=
  let socket := s.accepting
  if ec = none then
    let s := { s with
      clients := insert socket s.clients
      socketStates := s.socketStates.insert socket socket }
    let s := setConnState socket (fun c =>
      { c with heartbeatInfo := { c.heartbeatInfo with lastHeartbeatTimeMs := now } }) s
    ({ doRead socket socket s with accepting := socket + 1 }, [.accepted socket])
  else ({ s with accepting := socket + 1 }, [])

/-- `handle_heartbeat_ping`, as far as it changes the heartbeat information. -/
def handleHeartbeatPing (R : Reader) (now : UInt64) (info : ClientHeartbeatInfo) (pingData : List UInt8) :
    ClientHeartbeatInfo where
  clientName := (R.text pingData 10).getD info.clientName
  clientVersion := (R.text pingData 12).getD info.clientVersion
  lastHeartbeatTimeMs := now
  lastSequence := UInt32.ofNat (R.getField pingData 6 4 0)
  heartbeatCount := info.heartbeatCount + 1

/-- The effect of one delivery on the heartbeat information. -/
def noteDelivery (R : Reader) (now : UInt64) (info : ClientHeartbeatInfo) : Delivery → ClientHeartbeatInfo
  | .ping pingData => handleHeartbeatPing R now info pingData
  | .message _ => info

/-- The read handler.  Without a callback every read ends the connection.  An exception of the callback
leaves the handler before the next `do_read`; an overrun of the buffer has no defined continuation. -/
def handleRead (R : Reader) (socket state : ℕ) (ec : Option ErrorCode) (bytes : List UInt8)
    (throws : List Bool) (now : UInt64) (s : LoopbackIpcServer) : Option (LoopbackIpcServer × List Event) :=
  if ec = none ∧ s.onMessage then
    let r := onRead (isHeartbeatPing R) (s.states state).buffer throws bytes
    let deliver := fun buffer => setConnState state (fun c =>
      { buffer := buffer, heartbeatInfo := r.1.foldl (noteDelivery R now) c.heartbeatInfo }) s
    match r.2.2 with
    | .waiting buffer => some (doRead socket state (deliver buffer), r.1.map (.delivered socket))
    | .thrown buffer => some (deliver buffer, r.1.map (.delivered socket))
    | .overrun => none
  else some (eraseClient s socket, [.readError socket])

/-- The clients whose last heartbeat is too long ago. -/
def timeoutClients (heartbeatTimeoutMs : UInt32) (currentTime : UInt64) (s : LoopbackIpcServer) : List ℕ :=
  (s.socketStates.entries.filter fun e => heartbeatTimeoutMs.toUInt64 <
    currentTime - (s.states e.2).heartbeatInfo.lastHeartbeatTimeMs).map Sigma.fst

/-- `check_clients_heartbeat`. -/
def checkClientsHeartbeat (heartbeatTimeoutMs : UInt32) (currentTime : UInt64) (s : LoopbackIpcServer) :
    LoopbackIpcServer × List Event :=
  let late := timeoutClients heartbeatTimeoutMs currentTime s
  (late.foldl eraseClient s, late.map .heartbeatTimeout)

/-- `get_active_clients_count`. -/
def getActiveClientsCount (s : LoopbackIpcServer) : ℕ := s.clients.card

/-- `get_clients_heartbeat_info`. -/
def getClientsHeartbeatInfo (s : LoopbackIpcServer) : List ClientHeartbeatInfo :=
  s.socketStates.entries.map fun e => (s.states e.2).heartbeatInfo

/-- The completion of the accept or of a pending read, or a tick of the heartbeat checker. -/
inductive Act where
  | accept (ec : Option ErrorCode) (now : UInt64)
  | read (i : ℕ) (ec : Option ErrorCode) (bytes : List UInt8) (throws : List Bool) (now : UInt64)
  | check (now : UInt64)

/-- One handler. -/
def step (R : Reader) (heartbeatTimeoutMs : UInt32) (s : LoopbackIpcServer) :
    Act → Option (LoopbackIpcServer × List Event)
  | .accept ec now => some (handleAccept ec now s)
  | .read i ec bytes throws now => s.reads[i]?.bind fun c =>
      handleRead R c.1 c.2 ec bytes throws now { s with reads := s.reads.eraseIdx i }
  | .check now => some (checkClientsHeartbeat heartbeatTimeoutMs now s)

/-- The server under a schedule. -/
def registry (R : Reader) (heartbeatTimeoutMs : UInt32) : Machine LoopbackIpcServer Act Event :=
  ⟨step R heartbeatTimeoutMs⟩

/-! ### What a schedule asks for -/

/-- The heartbeat of the socket is overdue: the time since the last one is over the timeout. -/
def Overdue (timeout : UInt32) (now : UInt64) (s : LoopbackIpcServer) (x : ℕ) : Prop :=
  timeout.toUInt64 < now - (s.states x).heartbeatInfo.lastHeartbeatTimeMs

/-- The handler that runs accepts the socket. -/
def Comes (s : LoopbackIpcServer) (x : ℕ) : Act → Prop
  | .accept none _ => x = s.accepting
  | _ => False

/-- The handler that runs ends the connection of the socket: its read has failed, or the checker finds it
overdue. -/
def Leaves (timeout : UInt32) (s : LoopbackIpcServer) (x : ℕ) : Act → Prop
  | .read i ec _ _ _ => ec ≠ none ∧ ∃ state, s.reads[i]? = some (x, state)
  | .check now => Overdue timeout now s x
  | .accept _ _ => False

/-- The schedule accepts the socket. -/
def Accepted (R : Reader) (timeout : UInt32) (as : List Act) (x : ℕ) : Prop :=
  ∃ before a since s es, as = before ++ a :: since ∧
    (registry R timeout).run (start true) before = some (s, es) ∧ Comes s x a

/-- The schedule accepts the socket, and since then it had neither a read error nor a heartbeat timeout. -/
def Registered (R : Reader) (timeout : UInt32) (as : List Act) (x : ℕ) : Prop :=
  ∃ before a since s es, as = before ++ a :: since ∧
    (registry R timeout).run (start true) before = some (s, es) ∧ Comes s x a ∧
      (registry R timeout).Along (fun s a => ¬ Leaves timeout s x a) s (a :: since)

/-! ### What one handler does to the two containers -/

/-- The two containers name the same sockets, each with the state made for it, and only sockets of past
accepts; the server has a callback. -/
structure Mirrored (s : LoopbackIpcServer) : Prop where
  same : ∀ x, x ∈ s.clients ↔ x ∈ s.socketStates
  own : ∀ e ∈ s.socketStates.entries, e.2 = e.1
  past : ∀ x, x ∈ s.clients → x < s.accepting
  callback : s.onMessage = true

variable {R : Reader} {timeout : UInt32} {s : LoopbackIpcServer}

theorem Mirrored.eraseClient (h : Mirrored s) (socket : ℕ) : Mirrored (eraseClient s socket) where
  same x := by
    show x ∈ s.clients.erase socket ↔ x ∈ s.socketStates.erase socket
    rw [Finset.mem_erase, AList.mem_erase, h.same x]
  own e he := h.own e ((List.kerase_sublist socket s.socketStates.entries).subset he)
  past x hx := h.past x (Finset.mem_of_mem_erase hx)
  callback := h.callback

theorem erased_clients (late : List ℕ) (s : LoopbackIpcServer) (x : ℕ) :
    x ∈ (late.foldl eraseClient s).clients ↔ x ∈ s.clients ∧ x ∉ late := by
  induction late generalizing s with
  | nil => simp
  | cons socket late ih =>
    rw [List.foldl_cons, ih]
    show x ∈ s.clients.erase socket ∧ _ ↔ _
    rw [Finset.mem_erase, List.mem_cons, not_or]
    constructor
    · rintro ⟨⟨hne, hmem⟩, hlate⟩
      exact ⟨hmem, hne, hlate⟩
    · rintro ⟨hmem, hne, hlate⟩
      exact ⟨⟨hne, hmem⟩, hlate⟩

theorem foldl_eraseClient (late : List ℕ) (h : Mirrored s) :
    Mirrored (late.foldl eraseClient s) ∧ (late.foldl eraseClient s).accepting = s.accepting := by
  induction late generalizing s with
  | nil => exact ⟨h, rfl⟩
  | cons socket late ih => exact ih (h.eraseClient socket)

/-- A handler keeps the containers together, brings in a socket that comes and takes out those that leave. -/
structure Follows (timeout : UInt32) (s : LoopbackIpcServer) (a : Act) (s' : LoopbackIpcServer) : Prop where
  mirrored : Mirrored s'
  accepting : s.accepting ≤ s'.accepting
  came : ∀ x, Comes s x a → x < s'.accepting
  clients : ∀ x, x ∈ s'.clients ↔ Comes s x a ∨ x ∈ s.clients ∧ ¬ Leaves timeout s x a

/-- The read handler. -/
theorem handleRead_follows (h : Mirrored s) {i socket state : ℕ} {ec : Option ErrorCode}
    {bytes : List UInt8} {throws : List Bool} {now : UInt64} {r : LoopbackIpcServer × List Event}
    (hpending : s.reads[i]? = some (socket, state))
    (hread : handleRead R socket state ec bytes throws now { s with reads := s.reads.eraseIdx i } =
      some r) : Follows timeout s (.read i ec bytes throws now) r.1 := by
  have hleaves : ∀ x, Leaves timeout s x (.read i ec bytes throws now) ↔ ec ≠ none ∧ x = socket := by
    intro x
    simp [Leaves, hpending, eq_comm]
  unfold handleRead at hread
  by_cases hok : ec = none
  · -- the socket stays, whatever was delivered
    have hstays : ∀ {s' : LoopbackIpcServer}, s'.clients = s.clients → s'.socketStates = s.socketStates →
        s'.accepting = s.accepting → s'.onMessage = s.onMessage →
        Follows timeout s (.read i ec bytes throws now) s' := by
      intro s' hclients hstates haccept hcallback
      refine ⟨⟨?_, ?_, ?_, hcallback.trans h.callback⟩, haccept.ge, fun x hx => hx.elim, ?_⟩
      · rw [hclients, hstates]
        exact h.same
      · rw [hstates]
        exact h.own
      · rw [hclients, haccept]
        exact h.past
      · intro x
        rw [hclients, hleaves]
        simp [Comes, hok]
    simp only [if_pos (show ec = none ∧ s.onMessage = true from ⟨hok, h.callback⟩)] at hread
    split at hread
    · cases hread
      refine hstays ?_ ?_ ?_ ?_ <;> rfl
    · cases hread
      refine hstays ?_ ?_ ?_ ?_ <;> rfl
    · cases hread
  · rw [if_neg fun hboth => hok hboth.1] at hread
    cases hread
    have hkept : Mirrored { s with reads := s.reads.eraseIdx i } := ⟨h.same, h.own, h.past, h.callback⟩
    refine ⟨hkept.eraseClient socket, le_rfl, fun x hx => hx.elim, ?_⟩
    intro x
    show x ∈ s.clients.erase socket ↔ _
    rw [Finset.mem_erase, hleaves]
    simp [Comes, hok, and_comm]

/-- The heartbeat checker. -/
theorem checkClientsHeartbeat_follows (h : Mirrored s) (now : UInt64) :
    Follows timeout s (.check now) (checkClientsHeartbeat timeout now s).1 := by
  obtain ⟨hmirror, haccept⟩ := foldl_eraseClient (timeoutClients timeout now s) h
  refine ⟨hmirror, haccept.ge, fun x hx => hx.elim, ?_⟩
  intro x
  have hlate : x ∈ s.clients → (x ∈ timeoutClients timeout now s ↔ Overdue timeout now s x) := by
    intro hin
    simp only [timeoutClients, List.mem_map, List.mem_filter, decide_eq_true_eq]
    constructor
    · rintro ⟨e, ⟨hmem, hlate⟩, rfl⟩
      rw [h.own e hmem] at hlate
      exact hlate
    · intro hlate
      obtain ⟨e, hmem, rfl⟩ := List.mem_map.mp (AList.mem_keys.mp ((h.same x).mp hin))
      exact ⟨e, ⟨hmem, by rw [h.own e hmem]; exact hlate⟩, rfl⟩
  rw [checkClientsHeartbeat, erased_clients]
  simp only [Comes, Leaves, false_or]
  exact and_congr_right fun hin => not_congr (hlate hin)

/-- The accept handler. -/
theorem handleAccept_follows (h : Mirrored s) (ec : Option ErrorCode) (now : UInt64) :
    Follows timeout s (.accept ec now) (handleAccept ec now s).1 := by
  cases ec with
  | some e =>
    refine ⟨⟨h.same, h.own, fun x hx => Nat.lt_succ_of_lt (h.past x hx), h.callback⟩,
      Nat.le_succ s.accepting, fun x hx => hx.elim, ?_⟩
    intro x
    simp [handleAccept, Comes, Leaves]
  | none =>
    refine ⟨⟨?_, ?_, ?_, h.callback⟩, Nat.le_succ s.accepting, ?_, ?_⟩
    · intro x
      show x ∈ insert s.accepting s.clients ↔ x ∈ s.socketStates.insert s.accepting s.accepting
      rw [Finset.mem_insert, AList.mem_insert, h.same x]
    · intro e he
      have hentries : e ∈ (s.socketStates.insert s.accepting s.accepting).entries := he
      rw [AList.entries_insert] at hentries
      rcases List.mem_cons.mp hentries with rfl | hold
      · rfl
      · exact h.own e ((List.kerase_sublist s.accepting s.socketStates.entries).subset hold)
    · intro x hx
      show x < s.accepting + 1
      rcases Finset.mem_insert.mp hx with rfl | hold
      · exact Nat.lt_succ_self _
      · exact Nat.lt_succ_of_lt (h.past x hold)
    · rintro x rfl
      exact Nat.lt_succ_self _
    · intro x
      show x ∈ insert s.accepting s.clients ↔ _
      simp [Finset.mem_insert, Comes, Leaves]

/-- Every handler follows the schedule. -/
theorem step_follows {a : Act} {r : LoopbackIpcServer × List Event} (h : Mirrored s)
    (hstep : step R timeout s a = some r) : Follows timeout s a r.1 := by
  cases a with
  | accept ec now =>
    cases hstep
    exact handleAccept_follows h ec now
  | check now =>
    cases hstep
    exact checkClientsHeartbeat_follows h now
  | read i ec bytes throws now =>
    obtain ⟨c, hpending, hread⟩ := Option.bind_eq_some_iff.mp hstep
    exact handleRead_follows h hpending hread

/-! ### Runs -/

theorem mirrored_start : Mirrored (start true) where
  same x := iff_of_false (Finset.notMem_empty x) (AList.notMem_empty x)
  own _ he := absurd he List.not_mem_nil
  past x hx := absurd hx (Finset.notMem_empty x)
  callback := rfl

section Schedule

variable {as : List Act} {es : List Event} {x : ℕ} {a : Act}
  (hrun : (registry R timeout).run (start true) as = some (s, es))
include hrun

/-- One more handler: it accepts the socket, or the socket was accepted before. -/
theorem accepted_snoc : Accepted R timeout (as ++ [a]) x ↔ Comes s x a ∨ Accepted R timeout as x := by
  constructor
  · rintro ⟨before, b, since, s₁, es₁, heq, hbefore, hcomes⟩
    rcases List.eq_nil_or_concat since with rfl | ⟨rest, c, rfl⟩
    · obtain ⟨rfl, hb⟩ := List.append_inj' heq rfl
      obtain rfl := List.singleton_injective hb
      obtain ⟨rfl, -⟩ := Prod.mk.inj (Option.some.inj (hbefore.symm.trans hrun))
      exact .inl hcomes
    · rw [List.concat_eq_append, ← List.cons_append, ← List.append_assoc] at heq
      obtain ⟨rfl, -⟩ := List.append_inj' heq rfl
      exact .inr ⟨before, b, rest, s₁, es₁, rfl, hbefore, hcomes⟩
  · rintro (hcomes | ⟨before, b, since, s₁, es₁, rfl, hbefore, hcomes⟩)
    · exact ⟨as, a, [], s, es, rfl, hrun, hcomes⟩
    · exact ⟨before, b, since ++ [a], s₁, es₁, by simp, hbefore, hcomes⟩

/-- One more handler: it accepts the socket, or the socket was registered and stays. -/
theorem registered_snoc : Registered R timeout (as ++ [a]) x ↔
    Comes s x a ∨ Registered R timeout as x ∧ ¬ Leaves timeout s x a := by
  have hlast : ∀ {before : List Act} {b : Act} {rest : List Act} {s₁ : LoopbackIpcServer}
      {es₁ : List Event}, as = before ++ b :: rest →
      (registry R timeout).run (start true) before = some (s₁, es₁) →
      ((registry R timeout).Along (fun s a => ¬ Leaves timeout s x a) s₁ (b :: (rest ++ [a])) ↔
        (registry R timeout).Along (fun s a => ¬ Leaves timeout s x a) s₁ (b :: rest) ∧
          ¬ Leaves timeout s x a) := by
    rintro before b rest s₁ es₁ rfl hbefore
    obtain ⟨s₂, es₂, es₃, h₁, h₂, -⟩ := Machine.run_append_inv hrun
    obtain ⟨rfl, -⟩ := Prod.mk.inj (Option.some.inj (h₁.symm.trans hbefore))
    rw [← List.cons_append, Machine.along_append h₂]
    exact and_congr_right fun _ => ⟨fun h => h.1, fun h => ⟨h, fun _ _ _ => trivial⟩⟩
  constructor
  · rintro ⟨before, b, since, s₁, es₁, heq, hbefore, hcomes, hstays⟩
    rcases List.eq_nil_or_concat since with rfl | ⟨rest, c, rfl⟩
    · obtain ⟨rfl, hb⟩ := List.append_inj' heq rfl
      obtain rfl := List.singleton_injective hb
      obtain ⟨rfl, -⟩ := Prod.mk.inj (Option.some.inj (hbefore.symm.trans hrun))
      exact .inl hcomes
    · rw [List.concat_eq_append] at hstays
      rw [List.concat_eq_append, ← List.cons_append, ← List.append_assoc] at heq
      obtain ⟨has, hc⟩ := List.append_inj' heq rfl
      obtain rfl := List.singleton_injective hc
      obtain ⟨hall, hkeeps⟩ := (hlast has hbefore).mp hstays
      exact .inr ⟨⟨before, b, rest, s₁, es₁, has, hbefore, hcomes, hall⟩, hkeeps⟩
  · rintro (hcomes | ⟨⟨before, b, since, s₁, es₁, has, hbefore, hcomes, hall⟩, hkeeps⟩)
    · refine ⟨as, a, [], s, es, rfl, hrun, hcomes, ?_, fun _ _ _ => trivial⟩
      cases a with
      | accept => exact id
      | read => exact hcomes.elim
      | check => exact hcomes.elim
    · exact ⟨before, b, since ++ [a], s₁, es₁, by simp [has], hbefore, hcomes,
        (hlast has hbefore).mpr ⟨hall, hkeeps⟩⟩

end Schedule

/-- The containers are the registered sockets, and all sockets that were accepted are past. -/
structure Consistent (R : Reader) (timeout : UInt32) (s : LoopbackIpcServer) (as : List Act)
    (es : List Event) : Prop where
  run : (registry R timeout).run (start true) as = some (s, es)
  mirrored : Mirrored s
  registered : ∀ x, x ∈ s.clients ↔ Registered R timeout as x
  past : ∀ x, Accepted R timeout as x → x < s.accepting

theorem consistent_start : Consistent R timeout (start true) [] [] where
  run := rfl
  mirrored := mirrored_start
  registered x := by
    refine iff_of_false (Finset.notMem_empty x) ?_
    rintro ⟨before, a, since, -, -, heq, -⟩
    simp at heq
  past x := by
    rintro ⟨before, a, since, -, -, heq, -⟩
    simp at heq

theorem Consistent.step {as : List Act} {es new : List Event} {s' : LoopbackIpcServer} {a : Act}
    (h : Consistent R timeout s as es) (hstep : step R timeout s a = some (s', new)) :
    Consistent R timeout s' (as ++ [a]) (es ++ new) := by
  have hfollows := step_follows h.mirrored hstep
  have hlast : (registry R timeout).run s [a] = some (s', new) := by
    rw [Machine.run_cons (M := registry R timeout) hstep (Machine.run_nil s'), List.append_nil]
  refine ⟨Machine.run_append h.run hlast, hfollows.mirrored, ?_, ?_⟩
  · intro x
    rw [hfollows.clients x, h.registered x, registered_snoc h.run]
  · intro x hx
    rcases (accepted_snoc h.run).mp hx with hcomes | hpast
    · exact hfollows.came x hcomes
    · exact (h.past x hpast).trans_le hfollows.accepting

theorem run_consistent {as : List Act} {es : List Event}
    (hrun : (registry R timeout).run (start true) as = some (s, es)) : Consistent R timeout s as es := by
  have halong : (registry R timeout).Along (fun _ _ => True) (start true) as :=
    Machine.along_of_forall (fun _ _ => trivial) _
  have hall := halong.invariant_calls (fun _ _ _ _ _ _ h _ hstep => h.step hstep) consistent_start hrun
  simpa using hall

/-- The socket was accepted once and is out. -/
def Out (x : ℕ) (s : LoopbackIpcServer) : Prop := Mirrored s ∧ x < s.accepting ∧ x ∉ s.clients

theorem Out.step {x : ℕ} (h : Out x s) {a : Act} {r : LoopbackIpcServer × List Event}
    (hstep : step R timeout s a = some r) : Out x r.1 := by
  obtain ⟨hmirror, hpast, hout⟩ := h
  have hfollows := step_follows hmirror hstep
  refine ⟨hfollows.mirrored, hpast.trans_le hfollows.accepting, ?_⟩
  rw [hfollows.clients x]
  rintro (hcomes | ⟨hin, -⟩)
  · cases a with
    | accept ec now =>
      cases ec with
      | none => exact absurd hpast (by rw [show x = s.accepting from hcomes]; exact Nat.lt_irrefl _)
      | some e => exact hcomes
    | read => exact hcomes
    | check => exact hcomes
  · exact hout hin

/-- It stays out. -/
theorem Out.run {x : ℕ} (h : Out x s) {es : List Event} {s' : LoopbackIpcServer} {as : List Act}
    (hrun : (registry R timeout).run s as = some (s', es)) : Out x s' := by
  refine Machine.Reaches.invariant ?_ ⟨as, es, hrun⟩ h
  intro s a s' es h hstep
  exact h.step hstep

end LoopbackIpcServer

end LuspUpload.Ipc
