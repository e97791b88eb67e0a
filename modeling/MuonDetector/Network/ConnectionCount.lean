import MuonDetector.Network.Disconnect
import MuonDetector.Network.Sessions

/-!
# The connection count that was published last

An accept publishes the number of sessions, and so does a heartbeat that removes one.
A disconnect handler removes its session and publishes nothing, and the heartbeat
after it finds no closed session left to report. The last published count is
therefore right exactly in the runs where no handler fails on a connection whose
session is still there.
-/

namespace MuonDetector.Network.ConnectionCount

open MuonDetector.Library MuonDetector.Network.Server
open MuonDetector.Network.Connection (Call)
open MuonDetector.Network.Disconnect (Fails)
open MuonDetector.Network.Frame (TcpPacket)

/-- The `n_sessions` of the last event, and 0 before the first one. -/
def lastCount (s : TcpServer) : Nat := (s.published.getLast?.map (·.nSessions)).getD 0

def Counted (s : TcpServer) : Prop := lastCount s = s.sessions.length

/-- The handler `e` fails on a connection whose session is still in the map. -/
def LosesSession (s : TcpServer) (conn : ConnectionId) (e : Connection.Event) : Prop :=
  ∃ client, s.clients[conn]? = some client ∧ Fails client.connection e ∧
    client.sessionId ∈ s.sessions.map Prod.fst

/-- No disconnect handler of the step removes a session. -/
def KeepsCount (s : TcpServer) : Server.Event → Prop
  | .client conn e => ¬ LosesSession s conn e
  | .posted => ∀ conn e rest, s.posted = (conn, e) :: rest → ¬ LosesSession s conn e
  | .accepted _ _ => True
  | .acceptFailed => True
  | .heartbeat _ _ _ => True

/-! ## What each handler publishes -/

theorem removeSession_published (s : TcpServer) (id : SessionId) :
    (removeSession s id).published = s.published ∧ (removeSession s id).hasBus = s.hasBus := by
  unfold removeSession
  split <;> exact ⟨rfl, rfl⟩

/-- Removing a session changes the number of sessions exactly when its id is there. -/
theorem removeSession_length (s : TcpServer) (id : SessionId) :
    (removeSession s id).sessions.length = s.sessions.length ↔ id ∉ s.sessions.map Prod.fst := by
  by_cases hid : ∃ p ∈ s.sessions, p.1 = id
  · obtain ⟨p, hp, rfl⟩ := hid
    have hmem : p.1 ∈ s.sessions.map Prod.fst := List.mem_map_of_mem hp
    have hfound : ∃ q, (s.sessions.find? fun q => q.1 = p.1) = some q := by
      rw [← Option.isSome_iff_exists, List.find?_isSome]
      exact ⟨p, hp, by simp⟩
    obtain ⟨q, hq⟩ := hfound
    have hshort : (s.sessions.filter fun q => q.1 ≠ p.1).length < s.sessions.length := by
      rw [List.length_filter_lt_length_iff_exists]
      exact ⟨p, hp, by simp⟩
    have hlen : (removeSession s p.1).sessions.length < s.sessions.length := by
      rw [removeSession, hq]
      exact hshort
    exact iff_of_false (by omega) (not_not_intro hmem)
  · have habsent : id ∉ s.sessions.map Prod.fst := by
      intro h
      obtain ⟨p, hp, hk⟩ := List.mem_map.mp h
      exact hid ⟨p, hp, hk⟩
    rw [Sessions.removeSession_absent fun p hp hk => hid ⟨p, hp, hk⟩]
    exact iff_of_true rfl habsent

theorem foldl_packets (s : TcpServer) (id : SessionId) (ps : List TcpPacket) :
    (ps.map Call.packet).foldl (onCall id) s = s := by
  induction ps with
  | nil => rfl
  | cons p ps ih => exact ih

/-- A handler of a connection removes its session when it fails, and else none. -/
theorem clientStep_eq {s s' : TcpServer} {conn : ConnectionId} {e : Connection.Event}
    (h : clientStep s conn e = some s') :
    ∃ client clients, s.clients[conn]? = some client ∧
      (Fails client.connection e ∧
          s' = removeSession { s with clients := clients } client.sessionId ∨
        ¬ Fails client.connection e ∧ s' = { s with clients := clients }) := by
  unfold clientStep at h
  obtain ⟨client, hclient, h⟩ := Option.bind_eq_some_iff.mp h
  obtain ⟨c, hstep, rfl⟩ := Option.map_eq_some_iff.mp h
  refine ⟨client, s.clients.set conn ⟨c, client.sessionId⟩, hclient, ?_⟩
  by_cases hf : Fails client.connection e
  · left
    obtain ⟨-, -, ps, ec, hcalls, -⟩ := Disconnect.step_fails hstep hf
    rw [hcalls, List.drop_left, List.foldl_append, foldl_packets]
    exact ⟨hf, rfl⟩
  · right
    obtain ⟨ps, hcalls⟩ := Disconnect.step_not_fails hstep hf
    rw [hcalls, List.drop_left, foldl_packets]
    exact ⟨hf, rfl⟩

theorem clientStep_hasBus {s s' : TcpServer} {conn : ConnectionId} {e : Connection.Event}
    (h : clientStep s conn e = some s') : s'.hasBus = s.hasBus := by
  obtain ⟨client, clients, -, ⟨-, rfl⟩ | ⟨-, rfl⟩⟩ := clientStep_eq h
  · exact (removeSession_published _ _).2
  · rfl

/-- The handlers of a connection publish nothing, so the count stays right exactly
when they remove nothing. -/
theorem clientStep_counted {s s' : TcpServer} {conn : ConnectionId} {e : Connection.Event}
    (hc : Counted s) (h : clientStep s conn e = some s') :
    Counted s' ↔ ¬ LosesSession s conn e := by
  obtain ⟨client, clients, hclient, ⟨hf, rfl⟩ | ⟨hf, rfl⟩⟩ := clientStep_eq h
  · obtain ⟨hpublished, -⟩ :=
      removeSession_published { s with clients := clients } client.sessionId
    have hlength := removeSession_length { s with clients := clients } client.sessionId
    have hloses : LosesSession s conn e ↔ client.sessionId ∈ s.sessions.map Prod.fst := by
      simp [LosesSession, hclient, hf]
    rw [hloses, ← hlength, Counted, lastCount, hpublished]
    show lastCount s = _ ↔ _
    rw [show lastCount s = s.sessions.length from hc]
    exact eq_comm
  · have hkeeps : ¬ LosesSession s conn e := by
      rintro ⟨client', hclient', hf', -⟩
      obtain rfl : client = client' := Option.some.inj (hclient.symm.trans hclient')
      exact hf hf'
    exact iff_of_true hc hkeeps

theorem publish_counted {s : TcpServer} (hbus : s.hasBus = true) (newlyConnected : Bool) :
    Counted (publish s newlyConnected) := by
  simp [publish, hbus, Counted, lastCount]

@[simp] theorem publish_hasBus (s : TcpServer) (newlyConnected : Bool) :
    (publish s newlyConnected).hasBus = s.hasBus := by
  unfold publish
  split <;> rfl

theorem heartbeat_hasBus (s : TcpServer) (order : List (SessionId × SessionState)) (now : Nat)
    (maxIdle : Int) : (heartbeatAndCleanup s order now maxIdle).hasBus = s.hasBus := by
  unfold heartbeatAndCleanup
  rw [Sessions.sweep_eq]
  dsimp only
  split <;> simp

/-- The loop sets the flag exactly when it removes a session. -/
theorem heartbeat_counted {s : TcpServer} (hbus : s.hasBus = true) (hc : Counted s)
    {order : List (SessionId × SessionState)} (hord : order.Perm s.sessions) (now : Nat)
    (maxIdle : Int) : Counted (heartbeatAndCleanup s order now maxIdle) := by
  unfold heartbeatAndCleanup
  rw [Sessions.sweep_eq]
  dsimp only
  split
  · show Counted (publish _ false)
    apply publish_counted
    exact hbus
  · next hflag =>
    have hall : (order.filter fun p =>
        Sessions.survives s.clients now maxIdle p.2.connection) = order := by
      rw [List.filter_eq_self]
      intro p hp
      by_contra hdead
      refine hflag (List.any_eq_true.mpr ⟨p, hp, ?_⟩)
      simpa using hdead
    rw [Counted, hall, List.nil_append, List.length_map, hord.length_eq]
    exact hc

/-! ## Runs -/

theorem step_hasBus {s s' : TcpServer} {e : Server.Event} (h : step s e = some s') :
    s'.hasBus = s.hasBus := by
  cases e with
  | accepted constructedAt now =>
    obtain rfl := Option.some.inj h
    exact publish_hasBus _ true
  | acceptFailed =>
    obtain rfl := Option.some.inj h
    rfl
  | heartbeat order now maxIdle =>
    simp only [step, Option.ite_none_right_eq_some, Option.some.injEq] at h
    obtain ⟨-, rfl⟩ := h
    exact heartbeat_hasBus s order now maxIdle
  | client conn e => exact clientStep_hasBus h
  | posted =>
    rw [step] at h
    split at h
    · cases h
    · next conn e rest _ =>
      have hbus := clientStep_hasBus h
      exact hbus

/-- A handler leaves a right count wrong exactly when it removes a session unpublished. -/
theorem step_counted {s s' : TcpServer} {e : Server.Event} (hbus : s.hasBus = true)
    (hc : Counted s) (h : step s e = some s') : Counted s' ↔ KeepsCount s e := by
  cases e with
  | accepted constructedAt now =>
    obtain rfl := Option.some.inj h
    have hnew : Counted (onAccept s constructedAt now) := by
      apply publish_counted
      exact hbus
    exact iff_of_true hnew trivial
  | acceptFailed =>
    obtain rfl := Option.some.inj h
    exact iff_of_true hc trivial
  | heartbeat order now maxIdle =>
    simp only [step, Option.ite_none_right_eq_some, Option.some.injEq] at h
    obtain ⟨hord, rfl⟩ := h
    exact iff_of_true (heartbeat_counted hbus hc hord now maxIdle) trivial
  | client conn e => exact clientStep_counted hc h
  | posted =>
    cases hp : s.posted with
    | nil => simp [step, hp] at h
    | cons t rest =>
      obtain ⟨conn, e⟩ := t
      simp only [step, hp] at h
      have hrest : Counted { s with posted := rest } := hc
      have hloses : LosesSession { s with posted := rest } conn e ↔ LosesSession s conn e :=
        Iff.rfl
      rw [clientStep_counted hrest h, hloses]
      simp [KeepsCount, hp]

theorem counted_fresh (hasBus : Bool) : Counted (fresh hasBus) := rfl

theorem run_hasBus {hasBus : Bool} {es : List Server.Event} {s : TcpServer}
    (h : run (fresh hasBus) es = some s) : s.hasBus = hasBus :=
  Machine.run_history (I := fun _ s => s.hasBus = hasBus)
    (fun _ _ _ _ hs hstep => (step_hasBus hstep).trans hs) rfl h

/-- **The last published count is the number of sessions after every handler exactly
in the runs where no connection fails while its session is still in the map.** -/
theorem published_count_iff (es : List Server.Event) (s : TcpServer)
    (h : run (fresh true) es = some s) :
    (∀ pre u, pre <+: es → run (fresh true) pre = some u →
      (u.published.getLast?.map (·.nSessions)).getD 0 = u.sessions.length) ↔
      Machine.Meets step KeepsCount (fresh true) es := by
  have hgood := Machine.always_iff_meets (I := fun s => s.hasBus = true ∧ Counted s)
    (P := KeepsCount) (fun s e s' hi hstep => by
      rw [step_hasBus hstep, ← step_counted hi.1 hi.2 hstep]
      exact and_iff_right hi.1) ⟨rfl, counted_fresh true⟩ h
  rw [← hgood]
  refine forall₄_congr fun pre u _ hu => ?_
  exact (and_iff_right (run_hasBus hu)).symm

/-- Two clients, the first of which has been idle for too long at the heartbeat. -/
theorem published_count_heartbeat :
    ∃ s, run (fresh true) [.accepted 0 0, .accepted 5 5,
        .heartbeat [(1, ⟨0, 0, 0, 0⟩), (2, ⟨1, 5, 5, 0⟩)] 10 7] = some s ∧
      s.sessions.length = 1 ∧ (s.published.getLast?.map (·.nSessions)).getD 0 = 1 := by
  have hmeets : Machine.Meets step KeepsCount (fresh true) [.accepted 0 0, .accepted 5 5,
      .heartbeat [(1, ⟨0, 0, 0, 0⟩), (2, ⟨1, 5, 5, 0⟩)] 10 7] :=
    ⟨trivial, fun _ _ => ⟨trivial, fun _ _ => ⟨trivial, fun _ _ => trivial⟩⟩⟩
  exact ⟨_, rfl, rfl, (published_count_iff _ _ rfl).mpr hmeets _ _ (List.prefix_refl _) rfl⟩

/-- A client hangs up: its session is gone, and the count stays 1. -/
theorem hangup_not_published :
    ∃ s, run (fresh true) [.accepted 0 0, .client 0 (.readDone 1 (.error (.io 2)))] = some s ∧
      ¬ (s.published.getLast?.map (·.nSessions)).getD 0 = s.sessions.length :=
  ⟨_, rfl, by decide⟩

end MuonDetector.Network.ConnectionCount
