import MuonDetector.Library.Counter
import MuonDetector.Network.Server
import Mathlib.Data.List.Nodup
import Mathlib.Data.List.Perm.Basic

/-!
# The sessions and the sink agree

Accepts, disconnect handlers, the heartbeat loop and the prune each update the
sessions and the sink. The invariant ties a session to its connection by the id
that the disconnect handler of the connection captured, so a handler that fires
after its session is gone finds nothing to remove. It rests on ids being fresh,
which holds for the 2 ^ 64 values of the counter.
-/

namespace MuonDetector.Network.Sessions

open MuonDetector.Library MuonDetector.Network.Server
open MuonDetector.Network.Connection (Call)

def IsAccepted : Server.Event → Bool
  | .accepted _ _ => true
  | .acceptFailed => false
  | .heartbeat _ _ _ => false
  | .client _ _ => false
  | .posted => false

/-- The session ids handed out so far, in order. -/
def issued (s : TcpServer) : List SessionId := s.clients.map Client.sessionId

/-- The connections of the sessions. -/
def sessionConnections (s : TcpServer) : List ConnectionId :=
  s.sessions.map fun p => p.2.connection

/-- The two containers hold the same connections, each once, and no id is reused. -/
structure Consistent (s : TcpServer) : Prop where
  same : s.sink.Perm (sessionConnections s)
  nodup : s.sink.Nodup
  keys : (s.sessions.map Prod.fst).Nodup
  ids : (issued s).Nodup

/-- The heartbeat keeps this connection: it is open and has not been idle too long. -/
def survives (clients : List Client) (now : Nat) (maxIdle : Int) (conn : ConnectionId) : Bool :=
  isOpen clients conn && !decide ((now : Int) - lastReceivedAt clients conn > maxIdle)

def pinged? : ConnectionId × Connection.Event → Option ConnectionId
  | (conn, .send key payload) => if key = msgPing ∧ payload = [] then some conn else none
  | (_, .readDone _ _) => none
  | (_, .writeDone _ _) => none
  | (_, .stop) => none

/-- A heartbeat removes the closed and the idle sessions only, and posts one ping to
each that is left. -/
structure HeartbeatExact (s : TcpServer) (now : Nat) (maxIdle : Int) (s' : TcpServer) : Prop where
  removed : ∀ p ∈ s.sessions, p.1 ∉ s'.sessions.map Prod.fst ↔
    (isOpen s.clients p.2.connection = false ∨
      (now : Int) - lastReceivedAt s.clients p.2.connection > maxIdle)
  kept : ∀ id ∈ s'.sessions.map Prod.fst, id ∈ s.sessions.map Prod.fst
  pings : ∃ tasks, s'.posted = s.posted ++ tasks ∧
    (tasks.filterMap pinged?).Perm (sessionConnections s')

/-- Nothing of the other connections is lost. -/
structure Isolated (conn : ConnectionId) (s s' : TcpServer) : Prop where
  sessions : ∀ p ∈ s.sessions, p.2.connection ≠ conn → p ∈ s'.sessions
  sink : ∀ other ∈ s.sink, other ≠ conn → other ∈ s'.sink

/-- The invariant. `owner` says which id the disconnect handler of a session captured. -/
structure Invariant (s : TcpServer) : Prop where
  keys : (s.sessions.map Prod.fst).Nodup
  owner : ∀ p ∈ s.sessions, (issued s)[p.2.connection]? = some p.1
  same : s.sink.Perm (sessionConnections s)
  ids : issued s = (List.range (issued s).length).map fun k => UInt64.ofNat (k + 1)
  next : s.nextSessionId = UInt64.ofNat ((issued s).length + 1)

/-! ## Session ids -/

/-- Two sessions of one connection are the same session. -/
theorem Invariant.connections_nodup {s : TcpServer} (hi : Invariant s) :
    (sessionConnections s).Nodup := by
  have hkeys : (sessionConnections s).map (fun conn => (issued s)[conn]?.getD 0) =
      s.sessions.map Prod.fst := by
    rw [sessionConnections, List.map_map]
    refine List.map_congr_left fun p hp => ?_
    rw [Function.comp_apply, hi.owner p hp, Option.getD_some]
  exact List.Nodup.of_map _ (by rw [hkeys]; exact hi.keys)

theorem Invariant.consistent {s : TcpServer} (hi : Invariant s)
    (hn : (issued s).length ≤ 2 ^ 64) : Consistent s where
  same := hi.same
  nodup := hi.same.nodup_iff.mpr hi.connections_nodup
  keys := hi.keys
  ids := by
    rw [hi.ids]
    refine List.Nodup.of_map UInt64.toBitVec ?_
    rw [List.map_map]
    exact Counter.idents_nodup hn

/-- The id of a session tells its connection. -/
theorem Invariant.owner_unique {s : TcpServer} (hi : Invariant s)
    (hn : (issued s).length ≤ 2 ^ 64) {p : SessionId × SessionState} (hp : p ∈ s.sessions)
    {conn : ConnectionId} (hc : (issued s)[conn]? = some p.1) : p.2.connection = conn := by
  have hids : (issued s).Nodup := (hi.consistent hn).ids
  have hbound := (List.getElem?_eq_some_iff.mp hc).1
  exact ((List.getElem?_inj hbound hids).mp (by rw [hc, hi.owner p hp])).symm

/-! ## Removing a session -/

theorem removeSession_absent {s : TcpServer} {id : SessionId}
    (h : ∀ p ∈ s.sessions, p.1 ≠ id) : removeSession s id = s := by
  have hnone : (s.sessions.find? fun p => p.1 = id) = none := by simpa using h
  simp [removeSession, hnone]

theorem removeSession_present {s : TcpServer} (hkeys : (s.sessions.map Prod.fst).Nodup)
    {p : SessionId × SessionState} (hp : p ∈ s.sessions) :
    removeSession s p.1 = { s with
      sink := removeConnection s.sink p.2.connection
      sessions := s.sessions.filter fun q => q.1 ≠ p.1 } := by
  have hsome : (s.sessions.find? fun q => q.1 = p.1) = some p := by
    cases hf : s.sessions.find? fun q => q.1 = p.1 with
    | none =>
      have hno := List.find?_eq_none.mp hf p hp
      simp at hno
    | some q =>
      have hq : q.1 = p.1 := by simpa using List.find?_some hf
      rw [List.inj_on_of_nodup_map hkeys (List.mem_of_find?_eq_some hf) hp hq]
  simp [removeSession, hsome]

/-- Removing a session twice is removing it once. -/
theorem removeSession_idem (s : TcpServer) (id : SessionId) :
    removeSession (removeSession s id) id = removeSession s id := by
  refine removeSession_absent fun p hp => ?_
  unfold removeSession at hp
  split at hp
  · next hnone => simpa using List.find?_eq_none.mp hnone p hp
  · simpa using (List.mem_filter.mp hp).2

theorem Invariant.removeSession {s : TcpServer} (hi : Invariant s) (id : SessionId) :
    Invariant (Server.removeSession s id) := by
  by_cases hid : ∃ p ∈ s.sessions, p.1 = id
  · obtain ⟨p, hp, rfl⟩ := hid
    rw [removeSession_present hi.keys hp]
    refine ⟨?_, ?_, ?_, hi.ids, hi.next⟩
    · exact (List.filter_sublist.map Prod.fst).nodup hi.keys
    · exact fun q hq => hi.owner q (List.mem_of_mem_filter hq)
    · -- a session shares the connection of `p` exactly when it shares its id
      have hsame : ∀ q ∈ s.sessions, (q.2.connection = p.2.connection ↔ q.1 = p.1) := by
        intro q hq
        refine ⟨fun hc => ?_, fun hk => ?_⟩
        · have howner := hi.owner q hq
          rw [hc, hi.owner p hp] at howner
          exact (Option.some.inj howner).symm
        · rw [List.inj_on_of_nodup_map hi.keys hq hp hk]
      have hfilter := hi.same.filter fun conn => conn ≠ p.2.connection
      rw [sessionConnections, List.filter_map] at hfilter
      have hkept : s.sessions.filter (fun q => q.2.connection ≠ p.2.connection) =
          s.sessions.filter fun q => q.1 ≠ p.1 :=
        List.filter_congr fun q hq => by simpa using hsame q hq
      exact hfilter.trans (List.Perm.of_eq (congrArg (List.map fun q => q.2.connection) hkept))
  · rw [removeSession_absent fun p hp he => hid ⟨p, hp, he⟩]
    exact hi

theorem Invariant.isolated_removeSession {s : TcpServer} (hi : Invariant s)
    (hn : (issued s).length ≤ 2 ^ 64) {id : SessionId} {conn : ConnectionId}
    (hc : (issued s)[conn]? = some id) : Isolated conn s (Server.removeSession s id) := by
  by_cases hid : ∃ p ∈ s.sessions, p.1 = id
  · obtain ⟨p, hp, rfl⟩ := hid
    have hconn : p.2.connection = conn := hi.owner_unique hn hp hc
    rw [removeSession_present hi.keys hp]
    refine ⟨fun q hq hne => ?_, fun other ho hne => ?_⟩
    · refine List.mem_filter.mpr ⟨hq, ?_⟩
      have hids : q.1 ≠ p.1 := fun he =>
        hne (by rw [List.inj_on_of_nodup_map hi.keys hq hp he, hconn])
      simpa using hids
    · refine List.mem_filter.mpr ⟨ho, ?_⟩
      simpa [hconn] using hne
  · rw [removeSession_absent fun p hp he => hid ⟨p, hp, he⟩]
    exact ⟨fun q hq _ => hq, fun other ho _ => ho⟩

/-! ## A handler of one connection -/

theorem foldl_onCall (s : TcpServer) (id : SessionId) (calls : List Call) :
    calls.foldl (onCall id) s = s ∨ calls.foldl (onCall id) s = removeSession s id := by
  induction calls generalizing s with
  | nil => exact Or.inl rfl
  | cons call calls ih =>
    cases call with
    | packet packet => exact ih s
    | disconnected ec =>
      right
      rcases ih (removeSession s id) with h | h
      · exact h
      · rw [List.foldl_cons, onCall, h, removeSession_idem]

/-- A handler of a connection changes its object and may remove the session whose id
the object holds. -/
theorem clientStep_cases {s s' : TcpServer} {conn : ConnectionId} {e : Connection.Event}
    (h : clientStep s conn e = some s') :
    ∃ clients : List Client, clients.map Client.sessionId = issued s ∧
      ∃ id, (issued s)[conn]? = some id ∧
        (s' = { s with clients := clients } ∨
          s' = removeSession { s with clients := clients } id) := by
  unfold clientStep at h
  obtain ⟨client, hclient, h⟩ := Option.bind_eq_some_iff.mp h
  obtain ⟨c, -, rfl⟩ := Option.map_eq_some_iff.mp h
  obtain ⟨hbound, hget⟩ := List.getElem?_eq_some_iff.mp hclient
  refine ⟨s.clients.set conn ⟨c, client.sessionId⟩, ?_, client.sessionId, ?_, foldl_onCall _ _ _⟩
  · rw [List.map_set, issued]
    refine List.ext_getElem (by simp) fun k hk₁ hk₂ => ?_
    rw [List.getElem_set]
    split
    · next heq => subst heq; simp [hget]
    · rfl
  · rw [issued, List.getElem?_map, hclient]
    rfl

/-- The invariant reads the clients through the ids they hold. -/
theorem Invariant.withClients {s : TcpServer} (hi : Invariant s) {clients : List Client}
    (h : clients.map Client.sessionId = issued s) : Invariant { s with clients := clients } := by
  have hissued : issued { s with clients := clients } = issued s := h
  refine ⟨hi.keys, ?_, hi.same, ?_, ?_⟩
  · rw [hissued]
    exact hi.owner
  · rw [hissued]
    exact hi.ids
  · rw [hissued]
    exact hi.next

theorem Invariant.clientStep {s s' : TcpServer} {conn : ConnectionId} {e : Connection.Event}
    (hi : Invariant s) (h : Server.clientStep s conn e = some s') : Invariant s' := by
  obtain ⟨clients, hclients, id, -, rfl | rfl⟩ := clientStep_cases h
  · exact hi.withClients hclients
  · exact (hi.withClients hclients).removeSession id

theorem removeSession_issued (s : TcpServer) (id : SessionId) :
    issued (removeSession s id) = issued s := by
  unfold removeSession
  split <;> rfl

theorem clientStep_issued {s s' : TcpServer} {conn : ConnectionId} {e : Connection.Event}
    (h : clientStep s conn e = some s') : issued s' = issued s := by
  obtain ⟨clients, hclients, id, -, rfl | rfl⟩ := clientStep_cases h
  · exact hclients
  · rw [removeSession_issued]
    exact hclients

/-- **A handler of one connection keeps the entries of every other.** -/
theorem Invariant.isolated {s s' : TcpServer} {conn : ConnectionId} {e : Connection.Event}
    (hi : Invariant s) (hn : (issued s).length ≤ 2 ^ 64)
    (h : Server.clientStep s conn e = some s') : Isolated conn s s' := by
  obtain ⟨clients, hclients, id, hid, rfl | rfl⟩ := clientStep_cases h
  · exact ⟨fun q hq _ => hq, fun other ho _ => ho⟩
  · have hissued : issued { s with clients := clients } = issued s := hclients
    obtain ⟨hsessions, hsink⟩ := (hi.withClients hclients).isolated_removeSession
      (by rw [hissued]; exact hn) (by rw [hissued]; exact hid)
    exact ⟨hsessions, hsink⟩

/-! ## An accept -/

@[simp] theorem publish_sessions (s : TcpServer) (newlyConnected : Bool) :
    (publish s newlyConnected).sessions = s.sessions := by
  unfold publish; split <;> rfl

@[simp] theorem publish_sink (s : TcpServer) (newlyConnected : Bool) :
    (publish s newlyConnected).sink = s.sink := by
  unfold publish; split <;> rfl

@[simp] theorem publish_clients (s : TcpServer) (newlyConnected : Bool) :
    (publish s newlyConnected).clients = s.clients := by
  unfold publish; split <;> rfl

@[simp] theorem publish_posted (s : TcpServer) (newlyConnected : Bool) :
    (publish s newlyConnected).posted = s.posted := by
  unfold publish; split <;> rfl

@[simp] theorem publish_nextSessionId (s : TcpServer) (newlyConnected : Bool) :
    (publish s newlyConnected).nextSessionId = s.nextSessionId := by
  unfold publish; split <;> rfl

theorem emplace_fresh {sessions : List (SessionId × SessionState)} {id : SessionId}
    (h : id ∉ sessions.map Prod.fst) (state : SessionState) :
    emplace sessions id state = sessions ++ [(id, state)] := by
  have hno : (sessions.any fun p => p.1 = id) = false := by
    rw [List.any_eq_false]
    intro p hp he
    exact h (List.mem_map.mpr ⟨p, hp, by simpa using he⟩)
  simp [emplace, hno]

theorem onAccept_issued (s : TcpServer) (constructedAt now : Nat) :
    issued (onAccept s constructedAt now) = issued s ++ [s.nextSessionId] := by
  simp [issued, onAccept]

/-- The next id is none of those handed out, while the counter has not come round. -/
theorem Invariant.next_fresh {s : TcpServer} (hi : Invariant s)
    (hn : (issued s).length < 2 ^ 64) : s.nextSessionId ∉ s.sessions.map Prod.fst := by
  intro h
  obtain ⟨p, hp, hkey⟩ := List.mem_map.mp h
  have howner := hi.owner p hp
  obtain ⟨hbound, -⟩ := List.getElem?_eq_some_iff.mp howner
  rw [hi.ids, List.getElem?_map, List.getElem?_range hbound, Option.map_some, Option.some.injEq,
    hkey, hi.next] at howner
  have heq := Counter.ident_inj (by omega) hn (congrArg UInt64.toBitVec howner)
  omega

theorem Invariant.accept {s : TcpServer} (hi : Invariant s) (hn : (issued s).length < 2 ^ 64)
    (constructedAt now : Nat) : Invariant (onAccept s constructedAt now) := by
  have hissued := onAccept_issued s constructedAt now
  have hlen : (issued s).length = s.clients.length := by simp [issued]
  have hsessions : (onAccept s constructedAt now).sessions =
      s.sessions ++ [(s.nextSessionId, ⟨s.clients.length, now, now, 0⟩)] := by
    simp only [onAccept, publish_sessions]
    exact emplace_fresh (hi.next_fresh hn) _
  refine ⟨?_, ?_, ?_, ?_, ?_⟩
  · rw [hsessions, List.map_append]
    refine List.nodup_append.mpr ⟨hi.keys, List.nodup_singleton _, ?_⟩
    intro a ha b hb hab
    rw [List.map_singleton, List.mem_singleton] at hb
    subst hb
    subst hab
    exact hi.next_fresh hn ha
  · intro p hp
    rw [hsessions, List.mem_append, List.mem_singleton] at hp
    rw [hissued]
    rcases hp with hp | rfl
    · have hbound := (List.getElem?_eq_some_iff.mp (hi.owner p hp)).1
      rw [List.getElem?_append_left hbound]
      exact hi.owner p hp
    · rw [← hlen, List.getElem?_concat_length]
  · have hsink : (onAccept s constructedAt now).sink = s.sink ++ [s.clients.length] := by
      simp [onAccept, addConnection]
    rw [hsink, sessionConnections, hsessions, List.map_append]
    exact hi.same.append_right _
  · rw [hissued, List.length_append, List.length_singleton, List.range_succ, List.map_append,
      ← hi.ids, hi.next]
    rfl
  · rw [hissued, List.length_append, List.length_singleton]
    have hnext : (onAccept s constructedAt now).nextSessionId = s.nextSessionId + 1 := by
      simp [onAccept]
    rw [hnext, hi.next]
    simp

/-! ## A heartbeat -/

/-- What the loop does to an entry that stays. -/
def beat (now : Nat) (p : SessionId × SessionState) : SessionId × SessionState :=
  (p.1, { p.2 with lastHeartbeatSentAt := now, heartbeatCount := p.2.heartbeatCount + 1 })

/-- What the loop posts for an entry. -/
def task (clients : List Client) (now : Nat) (maxIdle : Int) (p : SessionId × SessionState) :
    ConnectionId × Connection.Event :=
  if survives clients now maxIdle p.2.connection then (p.2.connection, .send msgPing [])
  else (p.2.connection, .stop)

theorem visit_survives {now : Nat} {maxIdle : Int} {w : Sweep} {p : SessionId × SessionState}
    (h : survives w.server.clients now maxIdle p.2.connection = true) :
    visit now maxIdle w p = { w with
      server := { w.server with
        posted := w.server.posted ++ [(p.2.connection, .send msgPing [])] }
      kept := w.kept ++ [beat now p] } := by
  simp only [survives, Bool.and_eq_true, Bool.not_eq_true'] at h
  simp [visit, beat, h.1, h.2]

theorem visit_removed {now : Nat} {maxIdle : Int} {w : Sweep} {p : SessionId × SessionState}
    (h : survives w.server.clients now maxIdle p.2.connection = false) :
    visit now maxIdle w p = { w with
      server := { w.server with
        posted := w.server.posted ++ [(p.2.connection, .stop)]
        sink := removeConnection w.server.sink p.2.connection }
      removedConnections := true } := by
  cases ho : isOpen w.server.clients p.2.connection with
  | false => simp [visit, ho]
  | true =>
    have hstale : decide
        ((now : Int) - lastReceivedAt w.server.clients p.2.connection > maxIdle) = true := by
      simpa [survives, ho] using h
    simp [visit, ho, hstale]

/-- The whole loop: each entry is kept or removed by itself. -/
theorem sweep_eq (now : Nat) (maxIdle : Int) (order : List (SessionId × SessionState))
    (w : Sweep) : order.foldl (visit now maxIdle) w =
      { server := { w.server with
          posted := w.server.posted ++ order.map (task w.server.clients now maxIdle)
          sink := w.server.sink.filter fun conn => order.all fun p =>
            survives w.server.clients now maxIdle p.2.connection || p.2.connection ≠ conn }
        kept := w.kept ++ (order.filter fun p =>
          survives w.server.clients now maxIdle p.2.connection).map (beat now)
        removedConnections := w.removedConnections || order.any fun p =>
          !survives w.server.clients now maxIdle p.2.connection } := by
  induction order generalizing w with
  | nil => simp
  | cons p order ih =>
    rw [List.foldl_cons, ih]
    cases h : survives w.server.clients now maxIdle p.2.connection with
    | true =>
      rw [visit_survives h]
      simp [task, h]
    | false =>
      rw [visit_removed h]
      simp [task, h, removeConnection, List.filter_filter, Bool.and_comm, eq_comm]

/-- The server after the heartbeat closure, but for the events published. -/
theorem heartbeat_fields (s : TcpServer) (order : List (SessionId × SessionState)) (now : Nat)
    (maxIdle : Int) :
    (heartbeatAndCleanup s order now maxIdle).sessions = (order.filter fun p =>
        survives s.clients now maxIdle p.2.connection).map (beat now) ∧
      (heartbeatAndCleanup s order now maxIdle).sink = pruneDisconnected s.clients
        (s.sink.filter fun conn => order.all fun p =>
          survives s.clients now maxIdle p.2.connection || p.2.connection ≠ conn) ∧
      (heartbeatAndCleanup s order now maxIdle).posted =
        s.posted ++ order.map (task s.clients now maxIdle) ∧
      (heartbeatAndCleanup s order now maxIdle).clients = s.clients ∧
      (heartbeatAndCleanup s order now maxIdle).nextSessionId = s.nextSessionId := by
  unfold heartbeatAndCleanup
  rw [sweep_eq]
  dsimp only
  split <;> simp

theorem heartbeat_issued (s : TcpServer) (order : List (SessionId × SessionState)) (now : Nat)
    (maxIdle : Int) : issued (heartbeatAndCleanup s order now maxIdle) = issued s := by
  obtain ⟨-, -, -, hclients, -⟩ := heartbeat_fields s order now maxIdle
  rw [issued, hclients, issued]

/-- The loop leaves the survivors in the sink, and the prune finds all of them open. -/
theorem Invariant.heartbeat_sink {s : TcpServer} (hi : Invariant s)
    {order : List (SessionId × SessionState)} (hord : order.Perm s.sessions) (now : Nat)
    (maxIdle : Int) : (heartbeatAndCleanup s order now maxIdle).sink.Perm
      (sessionConnections (heartbeatAndCleanup s order now maxIdle)) := by
  obtain ⟨hsessions, hsink, -, -, -⟩ := heartbeat_fields s order now maxIdle
  have hleft : sessionConnections (heartbeatAndCleanup s order now maxIdle) =
      (order.filter fun p => survives s.clients now maxIdle p.2.connection).map
        fun p => p.2.connection := by
    rw [sessionConnections, hsessions, List.map_map]
    rfl
  have hloop : (s.sink.filter fun conn => order.all fun p =>
      survives s.clients now maxIdle p.2.connection || p.2.connection ≠ conn).Perm
      (sessionConnections (heartbeatAndCleanup s order now maxIdle)) := by
    have hall : s.sink.Perm (order.map fun p => p.2.connection) := hi.same.trans (hord.map _).symm
    have hkeep : ∀ q ∈ order, (order.all fun p => survives s.clients now maxIdle p.2.connection ||
        p.2.connection ≠ q.2.connection) = survives s.clients now maxIdle q.2.connection := by
      intro q hq
      rw [Bool.eq_iff_iff, List.all_eq_true]
      constructor
      · intro h
        simpa using h q hq
      · intro h p _
        by_cases hpq : p.2.connection = q.2.connection
        · simp [hpq, h]
        · simp [hpq]
    have hfilter := hall.filter fun conn => order.all fun p =>
      survives s.clients now maxIdle p.2.connection || p.2.connection ≠ conn
    rw [List.filter_map] at hfilter
    refine hfilter.trans (List.Perm.of_eq ?_)
    rw [hleft]
    exact congrArg (List.map fun p => p.2.connection) (List.filter_congr hkeep)
  have hopen : (sessionConnections (heartbeatAndCleanup s order now maxIdle)).filter
      (fun conn => isOpen s.clients conn) =
      sessionConnections (heartbeatAndCleanup s order now maxIdle) := by
    rw [List.filter_eq_self, hleft]
    intro conn hconn
    obtain ⟨p, hp, rfl⟩ := List.mem_map.mp hconn
    have hsurvives := (List.mem_filter.mp hp).2
    rw [survives, Bool.and_eq_true] at hsurvives
    exact hsurvives.1
  rw [hsink, pruneDisconnected]
  exact (hloop.filter _).trans (List.Perm.of_eq hopen)

theorem Invariant.heartbeat {s : TcpServer} (hi : Invariant s)
    {order : List (SessionId × SessionState)} (hord : order.Perm s.sessions) (now : Nat)
    (maxIdle : Int) : Invariant (heartbeatAndCleanup s order now maxIdle) := by
  obtain ⟨hsessions, -, -, -, hnext⟩ := heartbeat_fields s order now maxIdle
  have hissued := heartbeat_issued s order now maxIdle
  refine ⟨?_, ?_, hi.heartbeat_sink hord now maxIdle, ?_, ?_⟩
  · rw [hsessions, List.map_map]
    exact (List.filter_sublist.map Prod.fst).nodup ((hord.map Prod.fst).nodup_iff.mpr hi.keys)
  · rw [hsessions, hissued]
    intro p' hp'
    obtain ⟨p, hp, rfl⟩ := List.mem_map.mp hp'
    exact hi.owner p (hord.mem_iff.mp (List.mem_of_mem_filter hp))
  · rw [hissued]
    exact hi.ids
  · rw [hissued, hnext]
    exact hi.next

/-- The pings among the tasks of the loop go to the survivors. -/
theorem filterMap_pinged (clients : List Client) (now : Nat) (maxIdle : Int)
    (order : List (SessionId × SessionState)) :
    (order.map (task clients now maxIdle)).filterMap pinged? =
      (order.filter fun p => survives clients now maxIdle p.2.connection).map
        fun p => p.2.connection := by
  induction order with
  | nil => rfl
  | cons p order ih =>
    cases h : survives clients now maxIdle p.2.connection with
    | true => simp [task, pinged?, h, ih]
    | false => simp only [List.map_cons, task, h, List.filterMap_cons, pinged?, ih,
        Bool.false_eq_true, not_false_eq_true, List.filter_cons_of_neg, ↓reduceIte]

theorem Invariant.heartbeat_exact {s : TcpServer} (hi : Invariant s)
    {order : List (SessionId × SessionState)} (hord : order.Perm s.sessions) (now : Nat)
    (maxIdle : Int) :
    HeartbeatExact s now maxIdle (heartbeatAndCleanup s order now maxIdle) := by
  obtain ⟨hsessions, -, hposted, -, -⟩ := heartbeat_fields s order now maxIdle
  have hkeys : (heartbeatAndCleanup s order now maxIdle).sessions.map Prod.fst =
      (order.filter fun p => survives s.clients now maxIdle p.2.connection).map Prod.fst := by
    rw [hsessions, List.map_map]
    rfl
  refine ⟨fun p hp => ?_, fun id hid => ?_, _, hposted, ?_⟩
  · have hiff : p.1 ∈ (heartbeatAndCleanup s order now maxIdle).sessions.map Prod.fst ↔
        survives s.clients now maxIdle p.2.connection = true := by
      rw [hkeys]
      constructor
      · intro h
        obtain ⟨q, hq, hqp⟩ := List.mem_map.mp h
        obtain ⟨hmem, hsurvives⟩ := List.mem_filter.mp hq
        rwa [List.inj_on_of_nodup_map hi.keys (hord.mem_iff.mp hmem) hp hqp] at hsurvives
      · intro h
        exact List.mem_map.mpr ⟨p, List.mem_filter.mpr ⟨hord.mem_iff.mpr hp, h⟩, rfl⟩
    rw [hiff, survives]
    generalize (now : Int) - lastReceivedAt s.clients p.2.connection = idle
    cases isOpen s.clients p.2.connection <;> simp
  · rw [hkeys] at hid
    obtain ⟨q, hq, rfl⟩ := List.mem_map.mp hid
    exact List.mem_map.mpr ⟨q, hord.mem_iff.mp (List.mem_of_mem_filter hq), rfl⟩
  · rw [filterMap_pinged, sessionConnections, hsessions, List.map_map]
    exact List.Perm.refl _

/-! ## Runs -/

theorem step_issued {s s' : TcpServer} {e : Server.Event} (h : step s e = some s') :
    (issued s').length = (issued s).length + (if IsAccepted e then 1 else 0) := by
  cases e with
  | accepted constructedAt now =>
    obtain rfl := Option.some.inj h
    simp [onAccept_issued, IsAccepted]
  | acceptFailed =>
    obtain rfl := Option.some.inj h
    rfl
  | heartbeat order now maxIdle =>
    simp only [step, Option.ite_none_right_eq_some, Option.some.injEq] at h
    obtain ⟨-, rfl⟩ := h
    simp [heartbeat_issued, IsAccepted]
  | client conn e => simp [clientStep_issued h, IsAccepted]
  | posted =>
    rw [step] at h
    split at h
    · cases h
    · rw [clientStep_issued h]
      rfl

/-- Every handler keeps the invariant while ids last. -/
theorem Invariant.step {s s' : TcpServer} {e : Server.Event} (hi : Invariant s)
    (h : Server.step s e = some s') (hn : (issued s').length ≤ 2 ^ 64) : Invariant s' := by
  have hlen := step_issued h
  cases e with
  | accepted constructedAt now =>
    obtain rfl := Option.some.inj h
    exact hi.accept (by simp [IsAccepted] at hlen; omega) constructedAt now
  | acceptFailed =>
    obtain rfl := Option.some.inj h
    exact hi
  | heartbeat order now maxIdle =>
    simp only [Server.step, Option.ite_none_right_eq_some, Option.some.injEq] at h
    obtain ⟨hord, rfl⟩ := h
    exact hi.heartbeat hord now maxIdle
  | client conn e => exact hi.clientStep h
  | posted =>
    rw [Server.step] at h
    split at h
    · cases h
    · next conn e rest _ =>
      have hrest : Invariant { s with posted := rest } :=
        ⟨hi.keys, hi.owner, hi.same, hi.ids, hi.next⟩
      exact hrest.clientStep h

theorem invariant_fresh (hasBus : Bool) : Invariant (fresh hasBus) :=
  ⟨List.nodup_nil, fun _ hp => absurd hp List.not_mem_nil, List.Perm.refl _, rfl, rfl⟩

theorem invariant_run {hasBus : Bool} {es : List Server.Event} {s : TcpServer}
    (h : run (fresh hasBus) es = some s) :
    (issued s).length = es.countP IsAccepted ∧
      (es.countP IsAccepted ≤ 2 ^ 64 → Invariant s) := by
  refine Machine.run_history
    (I := fun es s => (issued s).length = es.countP IsAccepted ∧
      (es.countP IsAccepted ≤ 2 ^ 64 → Invariant s)) ?_ ⟨rfl, fun _ => invariant_fresh hasBus⟩ h
  rintro es s e s' ⟨hlen, hinv⟩ hstep
  have hcount : (issued s').length = (es ++ [e]).countP IsAccepted := by
    rw [step_issued hstep, hlen, List.countP_append, List.countP_singleton]
  refine ⟨hcount, fun hn => ?_⟩
  rw [List.countP_append] at hn
  exact (hinv (by omega)).step hstep (by rw [hcount, List.countP_append]; exact hn)

/-- The connection whose handler runs. -/
def actsOn (s : TcpServer) : Server.Event → Option ConnectionId
  | .client conn _ => some conn
  | .posted => s.posted.head?.map Prod.fst
  | .accepted _ _ => none
  | .acceptFailed => none
  | .heartbeat _ _ _ => none

theorem Invariant.step_isolated {s s' : TcpServer} {e : Server.Event} (hi : Invariant s)
    (hn : (issued s).length ≤ 2 ^ 64) (h : Server.step s e = some s') {conn : ConnectionId}
    (hc : actsOn s e = some conn) : Isolated conn s s' := by
  cases e with
  | accepted constructedAt now => cases hc
  | acceptFailed => cases hc
  | heartbeat order now maxIdle => cases hc
  | client conn' e =>
    obtain rfl := Option.some.inj hc
    exact hi.isolated hn h
  | posted =>
    cases hp : s.posted with
    | nil =>
      rw [actsOn, hp] at hc
      cases hc
    | cons t rest =>
      obtain ⟨conn', e⟩ := t
      rw [actsOn, hp] at hc
      obtain rfl := Option.some.inj hc
      simp only [Server.step, hp] at h
      have hrest : Invariant { s with posted := rest } :=
        ⟨hi.keys, hi.owner, hi.same, hi.ids, hi.next⟩
      obtain ⟨hsessions, hsink⟩ := hrest.isolated hn h
      exact ⟨hsessions, hsink⟩

/-- **While the id counter has not come round, the sink and the sessions agree after
every handler, a heartbeat is exact, and no client touches the entries of another.** -/
theorem sessions_match_sink (hasBus : Bool) (es : List Server.Event) (s : TcpServer)
    (h : run (fresh hasBus) es = some s) (hids : es.countP IsAccepted ≤ 2 ^ 64) :
    Consistent s ∧
      (∀ order now maxIdle s', step s (.heartbeat order now maxIdle) = some s' →
        HeartbeatExact s now maxIdle s') ∧
      (∀ e s' conn, step s e = some s' → actsOn s e = some conn → Isolated conn s s') := by
  obtain ⟨hlen, hinv⟩ := invariant_run h
  have hi := hinv hids
  have hn : (issued s).length ≤ 2 ^ 64 := by rw [hlen]; exact hids
  refine ⟨hi.consistent hn, fun order now maxIdle s' hs => ?_, fun e s' conn hs hc => ?_⟩
  · simp only [step, Option.ite_none_right_eq_some, Option.some.injEq] at hs
    obtain ⟨hord, rfl⟩ := hs
    exact hi.heartbeat_exact hord now maxIdle
  · exact hi.step_isolated hn hs hc

/-- Two clients, the first of which hangs up. -/
theorem sessions_match_sink_hangup :
    ∃ s, run (fresh true)
        [.accepted 0 0, .accepted 1 1, .client 0 (.readDone 2 (.error (.io 2)))] = some s ∧
      Consistent s :=
  ⟨_, rfl, (sessions_match_sink true
    [.accepted 0 0, .accepted 1 1, .client 0 (.readDone 2 (.error (.io 2)))] _ rfl (by decide)).1⟩

/-- A run of accepts hands out the ids from the next one on. -/
theorem run_accepts (n : Nat) (s : TcpServer) :
    ∃ s', run s (List.replicate n (.accepted 0 0)) = some s' ∧
      issued s' = issued s ++ (List.range n).map fun k => s.nextSessionId + UInt64.ofNat k := by
  induction n generalizing s with
  | zero => exact ⟨s, rfl, by simp⟩
  | succ n ih =>
    obtain ⟨s', hr, hissued⟩ := ih (onAccept s 0 0)
    refine ⟨s', Machine.run_cons_some.mpr ⟨_, rfl, hr⟩, ?_⟩
    have hnext : (onAccept s 0 0).nextSessionId = s.nextSessionId + 1 := by simp [onAccept]
    rw [hissued, onAccept_issued, hnext, List.range_succ_eq_map, List.map_cons, List.map_map,
      List.append_assoc]
    simp [Function.comp_def, UInt64.add_assoc, UInt64.add_comm 1]

/-- After 2 ^ 64 ids the counter comes round, and the id of the first session is
handed out again. -/
theorem session_id_comes_round :
    ∃ s, run (fresh true) (List.replicate (2 ^ 64 + 1) (.accepted 0 0)) = some s ∧
      ¬ Consistent s := by
  obtain ⟨s, hr, hissued⟩ := run_accepts (2 ^ 64 + 1) (fresh true)
  refine ⟨s, hr, fun hc => ?_⟩
  have hids := hc.ids
  rw [hissued, show issued (fresh true) = [] from rfl, List.nil_append] at hids
  have hzero : (0 : Nat) ∈ List.range (2 ^ 64 + 1) := List.mem_range.mpr (by omega)
  have hlast : 2 ^ 64 ∈ List.range (2 ^ 64 + 1) := List.mem_range.mpr (by omega)
  have heq := List.inj_on_of_nodup_map hids hzero hlast rfl
  omega

end MuonDetector.Network.Sessions
