import MuonDetector.Network.Connection

/-!
# The server and its sink on the io thread

`TcpServer` keeps the sessions, `TcpSink` keeps the connections that events are
sent to. Every handler runs on the io thread: the accept handler, the heartbeat
closure, the handlers of each connection and the closures that the server has
posted to one. A connection that fails calls its disconnect handler, which
removes the session whose id it was given.
-/

namespace MuonDetector.Network.Server

open MuonDetector.Library MuonDetector.Network.Connection

abbrev SessionId := UInt64

/-- A shared pointer to a connection: the place of its object in `TcpServer.clients`.
The pointers that sessions and the sink hold are never null. -/
abbrev ConnectionId := Nat

def msgPing : UInt16 := 2

structure SessionState where
  connection : ConnectionId
  connectedAt : Nat
  lastHeartbeatSentAt : Nat
  heartbeatCount : UInt32
  deriving DecidableEq, Repr

structure ServerConnCountEvent where
  nSessions : Nat
  newlyConnected : Bool
  deriving DecidableEq, Repr

/-- A connection object with the id that its disconnect handler captured. -/
structure Client where
  connection : TcpConnection
  sessionId : SessionId

structure TcpServer where
  hasBus : Bool
  sessions : List (SessionId × SessionState)
  nextSessionId : SessionId
  sink : List ConnectionId
  clients : List Client
  posted : List (ConnectionId × Connection.Event)
  published : List ServerConnCountEvent

def fresh (hasBus : Bool) : TcpServer where
  hasBus := hasBus
  sessions := []
  nextSessionId := 1
  sink := []
  clients := []
  posted := []
  published := []

/-! ## The sink -/

def isOpen (clients : List Client) (conn : ConnectionId) : Bool :=
  (clients[conn]?.map fun client => client.connection.isOpen).getD false

def lastReceivedAt (clients : List Client) (conn : ConnectionId) : Nat :=
  (clients[conn]?.map fun client => client.connection.lastReceivedNanos).getD 0

def addConnection (connections : List ConnectionId) (conn : ConnectionId) : List ConnectionId :=
  connections ++ [conn]

def removeConnection (connections : List ConnectionId) (conn : ConnectionId) :
    List ConnectionId :=
  connections.filter fun other => other ≠ conn

def pruneDisconnected (clients : List Client) (connections : List ConnectionId) :
    List ConnectionId :=
  connections.filter fun conn => isOpen clients conn

/-! ## The server -/

def publish (s : TcpServer) (newlyConnected : Bool) : TcpServer :=
  if s.hasBus then
    { s with published := s.published ++ [⟨s.sessions.length, newlyConnected⟩] }
  else s

def removeSession (s : TcpServer) (id : SessionId) : TcpServer :=
  match s.sessions.find? fun p => p.1 = id with
  | none => s
  | some (_, state) => { s with
      sink := removeConnection s.sink state.connection
      sessions := s.sessions.filter fun p => p.1 ≠ id }

/-- As `std::unordered_map::emplace`, which keeps the entry of a key that is there. -/
def emplace (sessions : List (SessionId × SessionState)) (id : SessionId) (state : SessionState) :
    List (SessionId × SessionState) :=
  if sessions.any fun p => p.1 = id then sessions else sessions ++ [(id, state)]

/-- The accept handler without an error, at its two clock readings. -/
def onAccept (s : TcpServer) (constructedAt now : Nat) : TcpServer :=
  let sessionId := s.nextSessionId
  let conn := s.clients.length
  publish { s with
    nextSessionId := s.nextSessionId + 1
    clients := s.clients ++ [⟨start (Connection.fresh constructedAt), sessionId⟩]
    sessions := emplace s.sessions sessionId ⟨conn, now, now, 0⟩
    sink := addConnection s.sink conn } true

/-- The heartbeat loop so far: the server, the entries not erased, the flag. -/
structure Sweep where
  server : TcpServer
  kept : List (SessionId × SessionState)
  removedConnections : Bool

/-- The body of the heartbeat loop. -/
def visit (now : Nat) (maxIdle : Int) (w : Sweep) (entry : SessionId × SessionState) : Sweep :=
  let state := entry.2
  let conn := state.connection
  let invalid := !isOpen w.server.clients conn
  let stale := !invalid && decide ((now : Int) - lastReceivedAt w.server.clients conn > maxIdle)
  if invalid || stale then
    { w with
      server := { w.server with
        posted := w.server.posted ++ [(conn, .stop)]
        sink := removeConnection w.server.sink conn }
      removedConnections := true }
  else
    { w with
      server := { w.server with posted := w.server.posted ++ [(conn, .send msgPing [])] }
      kept := w.kept ++ [(entry.1, { state with
        lastHeartbeatSentAt := now
        heartbeatCount := state.heartbeatCount + 1 })] }

/-- The closure that `heartbeatAndCleanup` posts. The map is traversed in `order`. -/
def heartbeatAndCleanup (s : TcpServer) (order : List (SessionId × SessionState)) (now : Nat)
    (maxIdle : Int) : TcpServer :=
  let w := order.foldl (visit now maxIdle) ⟨s, [], false⟩
  let s := { w.server with sessions := w.kept }
  let s := if w.removedConnections then publish s false else s
  { s with sink := pruneDisconnected s.clients s.sink }

/-- The server's part in a call of a connection's handlers. -/
def onCall (id : SessionId) (s : TcpServer) : Call → TcpServer
  | .packet _ => s
  | .disconnected _ => removeSession s id

/-- A handler of one connection, with the disconnect handler it may call. -/
def clientStep (s : TcpServer) (conn : ConnectionId) (e : Connection.Event) : Option TcpServer :=
  s.clients[conn]?.bind fun client =>
    (Connection.step client.connection e).map fun c =>
      (c.calls.drop client.connection.calls.length).foldl (onCall client.sessionId)
        { s with clients := s.clients.set conn ⟨c, client.sessionId⟩ }

/-- What the io thread runs next. The sends and stops that other parts of the program
post to a connection are handlers of it as well. -/
inductive Event where
  | accepted (constructedAt now : Nat)
  | acceptFailed
  | heartbeat (order : List (SessionId × SessionState)) (now : Nat) (maxIdle : Int)
  | client (conn : ConnectionId) (e : Connection.Event)
  | posted

def step (s : TcpServer) : Event → Option TcpServer
  | .accepted constructedAt now => some (onAccept s constructedAt now)
  | .acceptFailed => some s
  | .heartbeat order now maxIdle =>
    if order.Perm s.sessions then some (heartbeatAndCleanup s order now maxIdle) else none
  | .client conn e => clientStep s conn e
  | .posted =>
    match s.posted with
    | [] => none
    | (conn, e) :: rest => clientStep { s with posted := rest } conn e

abbrev run (s : TcpServer) (es : List Event) : Option TcpServer := Machine.run step s es

end MuonDetector.Network.Server
