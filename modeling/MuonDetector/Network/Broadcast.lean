import Mathlib.Data.List.Perm.Subperm
import MuonDetector.Network.Channel
import MuonDetector.Network.Sessions

/-!
# Events for every client

A call of `TcpSink::handle` copies the connections of the sink and posts the packet to one
after the other; calls on different workers overlap. The server posts its pings and stops to
the same connections. Each client is a link of its own, whose daemon side is the object of
the server, and the io thread runs what was posted in the order of the posts.
-/

namespace MuonDetector.Network.Broadcast

open MuonDetector.Library
open MuonDetector.Network.Frame MuonDetector.Network.Connection MuonDetector.Network.Channel
open MuonDetector.Network.Delivery MuonDetector.Network.Disconnect
open MuonDetector.Network.Server MuonDetector.Network.Sessions

/-! ## The daemon and its clients -/

/-- The far side of a client and its transport, with the clocks that the two sides were made
at and the actions of the link so far. -/
structure Remote where
  gui : Endpoint
  taken : Nat
  inbound : List UInt8
  clocks : Side → Nat
  history : List Channel.Action

/-- A call of `TcpSink::handle` with the connections of its copy that are left. -/
structure Sending where
  packet : TcpPacket
  connections : List ConnectionId

/-- The server with its clients and the calls that are not done, and what has been sent so
far: the packets posted to connections, and the calls as they were made. -/
structure Hub where
  server : TcpServer
  remotes : List Remote
  sending : List Sending
  posts : List (ConnectionId × TcpPacket)
  called : List Sending

def fresh (hasBus : Bool) : Hub := ⟨Server.fresh hasBus, [], [], [], []⟩

/-- The two sides of a client. -/
def link (h : Hub) (k : ConnectionId) : Option Link :=
  h.server.clients[k]?.bind fun client => h.remotes[k]?.map fun remote => fun
    | .gui => remote.gui
    | .daemon => ⟨client.connection, remote.taken, remote.inbound⟩

/-- The part of the server in an action of a link. -/
def serverStep (s : TcpServer) (k : ConnectionId) : Channel.Action → Option TcpServer
  | .handler .daemon e => clientStep s k e
  | _ => some s

/-- An action of the link of a client. -/
def act (h : Hub) (k : ConnectionId) (a : Channel.Action) : Option Hub :=
  h.remotes[k]?.bind fun remote => (link h k).bind fun l => (Channel.step l a).bind fun l' =>
    (serverStep h.server k a).map fun s => { h with
      server := s
      remotes := h.remotes.set k { remote with
        gui := l' .gui
        taken := (l' .daemon).taken
        inbound := (l' .daemon).inbound
        history := remote.history ++ [a] } }

/-- The packet that an element of the io queue sends. -/
def packetFor (k : ConnectionId) (p : ConnectionId × Connection.Event) : Option TcpPacket :=
  if p.1 = k then packetOf p.2 else none

def sendOf (p : ConnectionId × Connection.Event) : Option (ConnectionId × TcpPacket) :=
  (packetOf p.2).map fun packet => (p.1, packet)

inductive Action where
  | accepted (constructedAt now guiNow : Nat)
  | heartbeat (order : List (SessionId × SessionState)) (now : Nat) (maxIdle : Int)
  | handle (packet : TcpPacket)
  | sendNext (call : Nat)
  | posted
  | client (k : ConnectionId) (a : Channel.Action)

/-- The daemon's sends and stops go through the io queue. -/
def OwnAction : Channel.Action → Prop
  | .handler .daemon e => IsCompletion e
  | _ => True

instance : DecidablePred OwnAction
  | .transmit _ _ => .isTrue trivial
  | .handler .gui _ => .isTrue trivial
  | .handler .daemon e => inferInstanceAs (Decidable (IsCompletion e))

def step (h : Hub) : Action → Option Hub
  | .accepted constructedAt now guiNow =>
    let clocks : Side → Nat := fun
      | .gui => guiNow
      | .daemon => constructedAt
    some { h with
      server := onAccept h.server constructedAt now
      remotes := h.remotes ++ [⟨opened clocks .gui, 0, [], clocks, []⟩] }
  | .heartbeat order now maxIdle =>
    if order.Perm h.server.sessions then
      let s := heartbeatAndCleanup h.server order now maxIdle
      some { h with
        server := s
        posts := h.posts ++ (s.posted.drop h.server.posted.length).filterMap sendOf }
    else none
  | .handle packet =>
    some { h with
      sending := h.sending ++ [⟨packet, h.server.sink⟩]
      called := h.called ++ [⟨packet, h.server.sink⟩] }
  | .sendNext call =>
    match h.sending[call]? with
    | none => none
    | some ⟨_, []⟩ => some { h with sending := h.sending.eraseIdx call }
    | some ⟨packet, k :: rest⟩ => some { h with
        server := { h.server with
          posted := h.server.posted ++ [(k, .send packet.key packet.payload)] }
        sending := h.sending.set call ⟨packet, rest⟩
        posts := h.posts ++ [(k, packet)] }
  | .posted =>
    match h.server.posted with
    | [] => none
    | (k, e) :: rest => act { h with server := { h.server with posted := rest } } k
        (.handler .daemon e)
  | .client k a => if OwnAction a then act h k a else none

abbrev run (h : Hub) (as : List Action) : Option Hub := Machine.run step h as

/-! ## What concerns one client -/

/-- The packets posted to the client, in order. -/
def postsTo (k : ConnectionId) (h : Hub) : List TcpPacket :=
  (h.posts.filter fun p => p.1 = k).map Prod.snd

/-- Those that the io thread has not run yet. -/
def queuedFor (k : ConnectionId) (h : Hub) : List TcpPacket :=
  h.server.posted.filterMap (packetFor k)

/-- Those that the daemon side has sent. -/
def sentTo (k : ConnectionId) (h : Hub) : List TcpPacket :=
  (h.remotes[k]?.map fun remote => sentPackets .daemon remote.history).getD []

/-- The packet of a call, once for each time the client is in the list. -/
def Sending.packetsFor (k : ConnectionId) (s : Sending) : List TcpPacket :=
  (s.connections.filter fun conn => conn = k).map fun _ => s.packet

/-- The packets that the calls are still to post to the client. -/
def remainingFor (k : ConnectionId) (h : Hub) : List TcpPacket :=
  h.sending.flatMap (Sending.packetsFor k)

/-- The packets of the calls that found the client in the sink. -/
def calledFor (k : ConnectionId) (h : Hub) : List TcpPacket :=
  h.called.flatMap (Sending.packetsFor k)

/-- The packets without the pings. -/
def events (packets : List TcpPacket) : List TcpPacket := packets.filter fun p => p.key ≠ msgPing

theorem events_append (ps qs : List TcpPacket) : events (ps ++ qs) = events ps ++ events qs :=
  List.filter_append ..

/-! ## An action of one link -/

@[simp] theorem removeSession_clients (s : TcpServer) (id : SessionId) :
    (removeSession s id).clients = s.clients := by
  unfold removeSession; split <;> rfl

@[simp] theorem removeSession_posted (s : TcpServer) (id : SessionId) :
    (removeSession s id).posted = s.posted := by
  unfold removeSession; split <;> rfl

theorem clientStep_clients {s s' : TcpServer} {k : ConnectionId} {e : Connection.Event}
    (h : clientStep s k e = some s') :
    s'.posted = s.posted ∧ ∃ client c, s.clients[k]? = some client ∧
      Connection.step client.connection e = some c ∧
      s'.clients = s.clients.set k ⟨c, client.sessionId⟩ := by
  unfold clientStep at h
  obtain ⟨client, hclient, h⟩ := Option.bind_eq_some_iff.mp h
  obtain ⟨c, hstep, rfl⟩ := Option.map_eq_some_iff.mp h
  rcases foldl_onCall { s with clients := s.clients.set k ⟨c, client.sessionId⟩ } client.sessionId
    (c.calls.drop client.connection.calls.length) with heq | heq
  · rw [heq]
    exact ⟨rfl, client, c, hclient, hstep, rfl⟩
  · rw [heq, removeSession_posted, removeSession_clients]
    exact ⟨rfl, client, c, hclient, hstep, rfl⟩

theorem link_some {h : Hub} {k : ConnectionId} {l : Link} (hl : link h k = some l) :
    ∃ client remote, h.server.clients[k]? = some client ∧ h.remotes[k]? = some remote ∧
      l .gui = remote.gui ∧ l .daemon = ⟨client.connection, remote.taken, remote.inbound⟩ := by
  obtain ⟨client, hclient, hl⟩ := Option.bind_eq_some_iff.mp hl
  obtain ⟨remote, hremote, rfl⟩ := Option.map_eq_some_iff.mp hl
  exact ⟨client, remote, hclient, hremote, rfl, rfl⟩

theorem set_getElem?_self {α : Type} {xs : List α} {k : Nat} {x : α} (h : xs[k]? = some x) :
    xs.set k x = xs := by
  obtain ⟨hk, rfl⟩ := List.getElem?_eq_some_iff.mp h
  exact List.set_getElem_self hk

/-- The object of the server is the daemon side of the link, before and after. -/
theorem serverStep_clients {h : Hub} {k : ConnectionId} {a : Channel.Action} {l l' : Link}
    {s : TcpServer} (hl : link h k = some l) (ha : Channel.step l a = some l')
    (hs : serverStep h.server k a = some s) :
    s.posted = h.server.posted ∧ ∃ client, h.server.clients[k]? = some client ∧
      s.clients = h.server.clients.set k ⟨(l' .daemon).connection, client.sessionId⟩ := by
  obtain ⟨client, remote, hclient, -, -, hdaemon⟩ := link_some hl
  have hsame : (l' .daemon).connection = (l .daemon).connection →
      h.server.clients = h.server.clients.set k ⟨(l' .daemon).connection, client.sessionId⟩ := by
    intro heq
    rw [heq, hdaemon]
    exact (set_getElem?_self hclient).symm
  obtain ⟨side, n, rfl, -, -, rfl⟩ | ⟨side, e, c, rfl, -, hc, rfl⟩ := Channel.step_cases ha
  · obtain rfl := Option.some.inj hs
    exact ⟨rfl, client, hclient, hsame (by cases side <;> rfl)⟩
  · cases side with
    | gui =>
      obtain rfl := Option.some.inj hs
      exact ⟨rfl, client, hclient, hsame rfl⟩
    | daemon =>
      obtain ⟨hposted, client', c', hclient', hc', hclients⟩ := clientStep_clients hs
      obtain rfl := Option.some.inj (hclient.symm.trans hclient')
      rw [hdaemon] at hc
      obtain rfl := Option.some.inj (hc.symm.trans hc')
      exact ⟨hposted, client, hclient, hclients⟩

/-- What an action of the link of `k` does to the hub. -/
structure Acted (h : Hub) (k : ConnectionId) (a : Channel.Action) (h' : Hub) : Prop where
  posts : h'.posts = h.posts
  sending : h'.sending = h.sending
  called : h'.called = h.called
  posted : h'.server.posted = h.server.posted
  remotes : h'.remotes.length = h.remotes.length
  clients : h'.server.clients.length = h.server.clients.length
  other : ∀ k', k' ≠ k → h'.remotes[k']? = h.remotes[k']? ∧ link h' k' = link h k'
  acted : ∃ remote remote' l l', h.remotes[k]? = some remote ∧ h'.remotes[k]? = some remote' ∧
    remote'.clocks = remote.clocks ∧ remote'.history = remote.history ++ [a] ∧
    link h k = some l ∧ Channel.step l a = some l' ∧ link h' k = some l'

theorem acted_of_act {h h' : Hub} {k : ConnectionId} {a : Channel.Action}
    (ha : act h k a = some h') : Acted h k a h' := by
  obtain ⟨remote, hremote, ha⟩ := Option.bind_eq_some_iff.mp ha
  obtain ⟨l, hl, ha⟩ := Option.bind_eq_some_iff.mp ha
  obtain ⟨l', hstep, ha⟩ := Option.bind_eq_some_iff.mp ha
  obtain ⟨s, hs, rfl⟩ := Option.map_eq_some_iff.mp ha
  obtain ⟨hposted, client, hclient, hclients⟩ := serverStep_clients hl hstep hs
  obtain ⟨hk, -⟩ := List.getElem?_eq_some_iff.mp hremote
  obtain ⟨hkc, -⟩ := List.getElem?_eq_some_iff.mp hclient
  refine ⟨rfl, rfl, rfl, hposted, List.length_set, ?_, fun k' hne => ⟨?_, ?_⟩, ?_⟩
  · rw [hclients, List.length_set]
  · exact List.getElem?_set_ne (Ne.symm hne)
  · rw [link, link, hclients, List.getElem?_set_ne (Ne.symm hne),
      List.getElem?_set_ne (Ne.symm hne)]
  · refine ⟨remote, _, l, l', hremote, List.getElem?_set_self hk, rfl, rfl, hl, hstep, ?_⟩
    rw [link, hclients, List.getElem?_set_self hkc, List.getElem?_set_self hk]
    simp only [Option.bind_some, Option.map_some, Option.some.injEq]
    funext side
    cases side <;> rfl

/-! ## The invariant -/

/-- Each client is a link that its history leads to. -/
def Linked (h : Hub) : Prop := ∀ k remote, h.remotes[k]? = some remote →
  ∃ l, link h k = some l ∧ Channel.run (opened remote.clocks) remote.history = some l

/-- Beside that, what was posted to a client is sent in order. -/
structure Invariant (h : Hub) : Prop where
  length : h.remotes.length = h.server.clients.length
  linked : Linked h
  queue : ∀ k, sentTo k h ++ queuedFor k h = postsTo k h

theorem invariant_fresh (hasBus : Bool) : Invariant (fresh hasBus) :=
  ⟨rfl, fun _ _ h => by simp [fresh] at h, fun _ => rfl⟩

theorem Acted.linked {h h' : Hub} {k : ConnectionId} {a : Channel.Action} (hlinked : Linked h)
    (ha : Acted h k a h') : Linked h' := by
  intro k' remote hr
  by_cases hk : k' = k
  · subst hk
    obtain ⟨before, after, l, l', hbefore, hafter, hclocks, hhistory, hl, hstep, hl'⟩ := ha.acted
    obtain rfl := Option.some.inj (hafter.symm.trans hr)
    obtain ⟨l₀, hl₀, hrun⟩ := hlinked k' before hbefore
    obtain rfl := Option.some.inj (hl.symm.trans hl₀)
    refine ⟨l', hl', ?_⟩
    rw [hclocks, hhistory]
    exact Machine.run_snoc hrun hstep
  · obtain ⟨hremotes, hlinks⟩ := ha.other k' hk
    rw [hlinks]
    exact hlinked k' remote (hremotes.symm.trans hr)

/-- The packets that an action makes the daemon side send. -/
def sentBy (a : Channel.Action) : List TcpPacket := sentPackets .daemon [a]

theorem Acted.sentTo {h h' : Hub} {k : ConnectionId} {a : Channel.Action} (ha : Acted h k a h')
    (k' : ConnectionId) :
    sentTo k' h' = Broadcast.sentTo k' h ++ (if k' = k then sentBy a else []) := by
  by_cases hk : k' = k
  · subst hk
    obtain ⟨before, after, l, l', hbefore, hafter, -, hhistory, -⟩ := ha.acted
    rw [Broadcast.sentTo, Broadcast.sentTo, hbefore, hafter, if_pos rfl]
    simp only [Option.map_some, Option.getD_some, hhistory]
    exact sentPackets_append ..
  · rw [Broadcast.sentTo, Broadcast.sentTo, (ha.other k' hk).1, if_neg hk, List.append_nil]

/-- An action that leaves the queue as it is sends nothing. -/
theorem Invariant.client {h h' : Hub} (hi : Invariant h) {k : ConnectionId} {a : Channel.Action}
    (ha : act h k a = some h') (hown : OwnAction a) : Invariant h' := by
  have hacted := acted_of_act ha
  have hnone : sentBy a = [] := by
    cases a with
    | transmit side n => rfl
    | handler side e =>
      cases side with
      | gui => rfl
      | daemon =>
        cases e with
        | readDone => rfl
        | writeDone => rfl
        | send => cases hown
        | stop => cases hown
  refine ⟨?_, Acted.linked hi.linked hacted, fun k' => ?_⟩
  · rw [hacted.remotes, hacted.clients]
    exact hi.length
  · rw [hacted.sentTo, hnone, ite_self, List.append_nil, queuedFor, hacted.posted, postsTo,
      hacted.posts]
    exact hi.queue k'

/-- The io thread runs the front of its queue. -/
theorem Invariant.posted {h h' : Hub} (hi : Invariant h) {k : ConnectionId}
    {e : Connection.Event} {rest : List (ConnectionId × Connection.Event)}
    (hq : h.server.posted = (k, e) :: rest)
    (ha : act { h with server := { h.server with posted := rest } } k (.handler .daemon e) =
      some h') : Invariant h' := by
  have hacted := acted_of_act ha
  have hlinked : Linked { h with server := { h.server with posted := rest } } := hi.linked
  refine ⟨?_, Acted.linked hlinked hacted, fun k' => ?_⟩
  · rw [hacted.remotes, hacted.clients]
    exact hi.length
  · have hbefore := hi.queue k'
    rw [queuedFor, hq] at hbefore
    rw [hacted.sentTo, queuedFor, hacted.posted, postsTo, hacted.posts]
    refine Eq.trans ?_ hbefore
    by_cases hk : k' = k
    · subst hk
      rw [if_pos rfl, List.append_assoc]
      cases e <;> simp [sentBy, sentPackets, eventsOf, eventOf, packetFor, packetOf, sentTo]
    · rw [if_neg hk, List.append_nil]
      simp [packetFor, Ne.symm hk, sentTo]

/-! ## The other steps -/

@[simp] theorem onAccept_clients (s : TcpServer) (constructedAt now : Nat) :
    (onAccept s constructedAt now).clients =
      s.clients ++ [⟨start (Connection.fresh constructedAt), s.nextSessionId⟩] := by
  simp [onAccept]

@[simp] theorem onAccept_posted (s : TcpServer) (constructedAt now : Nat) :
    (onAccept s constructedAt now).posted = s.posted := by
  simp [onAccept]

/-- A new client has been sent nothing. -/
theorem Invariant.accepted {h h' : Hub} (hi : Invariant h) {constructedAt now guiNow : Nat}
    (ha : step h (.accepted constructedAt now guiNow) = some h') : Invariant h' := by
  obtain rfl := Option.some.inj ha
  have hlen := hi.length
  refine ⟨?_, ?_, fun k => ?_⟩
  · simp [hlen]
  · intro k remote hr
    rcases Nat.lt_trichotomy k h.remotes.length with hk | hk | hk
    · rw [List.getElem?_append_left hk] at hr
      obtain ⟨l, hl, hrun⟩ := hi.linked k remote hr
      refine ⟨l, ?_, hrun⟩
      rw [link, onAccept_clients, List.getElem?_append_left (by omega),
        List.getElem?_append_left hk]
      exact hl
    · subst hk
      rw [List.getElem?_concat_length, Option.some.injEq] at hr
      subst hr
      refine ⟨_, ?_, rfl⟩
      rw [link, onAccept_clients, hlen, List.getElem?_concat_length, ← hlen,
        List.getElem?_concat_length]
      simp only [Option.bind_some, Option.map_some, Option.some.injEq]
      funext side
      cases side <;> rfl
    · rw [List.getElem?_eq_none (by rw [List.length_append, List.length_singleton]; omega)] at hr
      cases hr
  · refine Eq.trans ?_ (hi.queue k)
    congr 1
    · rw [sentTo, sentTo]
      rcases Nat.lt_trichotomy k h.remotes.length with hk | hk | hk
      · rw [List.getElem?_append_left hk]
      · subst hk
        rw [List.getElem?_concat_length, List.getElem?_eq_none (Nat.le_refl _)]
        rfl
      · rw [List.getElem?_eq_none (Nat.le_of_lt hk), List.getElem?_eq_none
          (by rw [List.length_append, List.length_singleton]; omega)]
    · rw [queuedFor, onAccept_posted]
      rfl

theorem filterMap_sendOf (k : ConnectionId) (tasks : List (ConnectionId × Connection.Event)) :
    ((tasks.filterMap sendOf).filter fun p => p.1 = k).map Prod.snd =
      tasks.filterMap (packetFor k) := by
  induction tasks with
  | nil => rfl
  | cons t tasks ih =>
    obtain ⟨k', e⟩ := t
    by_cases hk : k' = k <;> cases hp : packetOf e <;>
      simp_all [sendOf, packetFor]

/-- The heartbeat posts pings and stops. -/
theorem events_tasks (clients : List Client) (now : Nat) (maxIdle : Int)
    (order : List (SessionId × SessionState)) (k : ConnectionId) :
    events ((order.map (task clients now maxIdle)).filterMap (packetFor k)) = [] := by
  rw [events, List.filter_eq_nil_iff]
  intro p hp
  obtain ⟨t, ht, hpacket⟩ := List.mem_filterMap.mp hp
  obtain ⟨entry, -, rfl⟩ := List.mem_map.mp ht
  unfold task at hpacket
  split at hpacket
  · simp only [packetFor, packetOf, Option.ite_none_right_eq_some, Option.some.injEq] at hpacket
    simp [← hpacket.2]
  · simp [packetFor, packetOf] at hpacket

theorem heartbeat_posts (h : Hub) (order : List (SessionId × SessionState)) (now : Nat)
    (maxIdle : Int) (k : ConnectionId) :
    postsTo k { h with
      server := heartbeatAndCleanup h.server order now maxIdle
      posts := h.posts ++ ((heartbeatAndCleanup h.server order now maxIdle).posted.drop
        h.server.posted.length).filterMap sendOf } =
      postsTo k h ++ (order.map (task h.server.clients now maxIdle)).filterMap (packetFor k) := by
  obtain ⟨-, -, hposted, -⟩ := heartbeat_fields h.server order now maxIdle
  rw [postsTo, hposted, List.drop_left, List.filter_append, List.map_append, filterMap_sendOf,
    postsTo]

theorem Invariant.heartbeat {h h' : Hub} (hi : Invariant h)
    {order : List (SessionId × SessionState)} {now : Nat} {maxIdle : Int}
    (ha : step h (.heartbeat order now maxIdle) = some h') : Invariant h' := by
  simp only [step, Option.ite_none_right_eq_some, Option.some.injEq] at ha
  obtain ⟨-, rfl⟩ := ha
  obtain ⟨-, -, hposted, hclients, -⟩ := heartbeat_fields h.server order now maxIdle
  refine ⟨?_, ?_, fun k => ?_⟩
  · rw [hclients]
    exact hi.length
  · intro k remote hr
    obtain ⟨l, hl, hrun⟩ := hi.linked k remote hr
    refine ⟨l, ?_, hrun⟩
    rw [link, hclients]
    exact hl
  · rw [heartbeat_posts, queuedFor, hposted, List.filterMap_append, ← List.append_assoc,
      ← hi.queue k]
    rfl

theorem sendNext_posts (h : Hub) (call : Nat) (packet : TcpPacket) (k' : ConnectionId)
    (rest : List ConnectionId) (k : ConnectionId) :
    postsTo k { h with
      server := { h.server with
        posted := h.server.posted ++ [(k', .send packet.key packet.payload)] }
      sending := h.sending.set call ⟨packet, rest⟩
      posts := h.posts ++ [(k', packet)] } =
      postsTo k h ++ if k' = k then [packet] else [] := by
  by_cases hk : k' = k <;> simp [postsTo, hk]

theorem Invariant.sendNext {h h' : Hub} (hi : Invariant h) {call : Nat}
    (ha : step h (.sendNext call) = some h') : Invariant h' := by
  rw [step] at ha
  split at ha
  · cases ha
  · obtain rfl := Option.some.inj ha
    exact ⟨hi.length, hi.linked, hi.queue⟩
  · next packet k' rest hcall =>
    obtain rfl := Option.some.inj ha
    refine ⟨hi.length, hi.linked, fun k => ?_⟩
    rw [sendNext_posts, ← hi.queue k, List.append_assoc]
    congr 1
    by_cases hk : k' = k <;> simp [queuedFor, packetFor, packetOf, hk]

theorem Invariant.step {h h' : Hub} {a : Action} (hi : Invariant h)
    (ha : Broadcast.step h a = some h') : Invariant h' := by
  cases a with
  | accepted => exact hi.accepted ha
  | heartbeat => exact hi.heartbeat ha
  | handle =>
    obtain rfl := Option.some.inj ha
    exact ⟨hi.length, hi.linked, hi.queue⟩
  | sendNext => exact hi.sendNext ha
  | posted =>
    rw [Broadcast.step] at ha
    split at ha
    · cases ha
    · next k e rest hq => exact hi.posted hq ha
  | client k a =>
    simp only [Broadcast.step, Option.ite_none_right_eq_some] at ha
    exact hi.client ha.2 ha.1

theorem invariant_run {hasBus : Bool} {as : List Action} {h : Hub}
    (hr : run (fresh hasBus) as = some h) : Invariant h :=
  Machine.run_history (I := fun _ h => Invariant h) (fun _ _ _ _ hi ha => hi.step ha)
    (invariant_fresh hasBus) hr

/-! ## What the calls have posted -/

/-- What a step does to the calls and to the events they have posted. -/
inductive Progress (h h' : Hub) (a : Action) : Prop where
  | quiet (posts : ∀ k, events (postsTo k h') = events (postsTo k h))
    (sending : h'.sending = h.sending) (called : h'.called = h.called)
  | called (packet : TcpPacket) (action : a = .handle packet) (posts : h'.posts = h.posts)
    (sending : h'.sending = h.sending ++ [⟨packet, h.server.sink⟩])
    (called : h'.called = h.called ++ [⟨packet, h.server.sink⟩])
  | done (packet : TcpPacket) (before after : List Sending) (posts : h'.posts = h.posts)
    (old : h.sending = before ++ ⟨packet, []⟩ :: after) (new : h'.sending = before ++ after)
    (called : h'.called = h.called)
  | sent (packet : TcpPacket) (k : ConnectionId) (rest : List ConnectionId)
    (before after : List Sending)
    (posts : ∀ k', postsTo k' h' = postsTo k' h ++ if k = k' then [packet] else [])
    (old : h.sending = before ++ ⟨packet, k :: rest⟩ :: after)
    (new : h'.sending = before ++ ⟨packet, rest⟩ :: after) (called : h'.called = h.called)

/-- The elements of a list around the one at an index. -/
theorem split_at {α : Type} {xs : List α} {i : Nat} {x : α} (h : xs[i]? = some x) :
    ∃ before after, xs = before ++ x :: after ∧ xs.eraseIdx i = before ++ after ∧
      ∀ y, xs.set i y = before ++ y :: after := by
  obtain ⟨hi, rfl⟩ := List.getElem?_eq_some_iff.mp h
  refine ⟨xs.take i, xs.drop (i + 1), ?_, List.eraseIdx_eq_take_drop_succ .., fun y => ?_⟩
  · rw [← List.drop_eq_getElem_cons hi, List.take_append_drop]
  · rw [List.set_eq_take_append_cons_drop, if_pos hi]

theorem Acted.quiet {h h' : Hub} {k : ConnectionId} {e : Channel.Action} (ha : Acted h k e h')
    (a : Action) : Progress h h' a :=
  .quiet (fun _ => by rw [postsTo, ha.posts, postsTo]) ha.sending ha.called

theorem progress_of_step {h h' : Hub} {a : Action} (ha : step h a = some h') :
    Progress h h' a := by
  cases a with
  | accepted =>
    obtain rfl := Option.some.inj ha
    exact .quiet (fun _ => rfl) rfl rfl
  | heartbeat order now maxIdle =>
    simp only [step, Option.ite_none_right_eq_some, Option.some.injEq] at ha
    obtain ⟨-, rfl⟩ := ha
    refine .quiet (fun k => ?_) rfl rfl
    rw [heartbeat_posts, events_append, events_tasks, List.append_nil]
  | handle packet =>
    obtain rfl := Option.some.inj ha
    exact .called packet rfl rfl rfl rfl
  | sendNext call =>
    rw [step] at ha
    split at ha
    · cases ha
    · next packet hcall =>
      obtain rfl := Option.some.inj ha
      obtain ⟨before, after, hold, hnew, -⟩ := split_at hcall
      exact .done packet before after rfl hold hnew rfl
    · next packet k rest hcall =>
      obtain rfl := Option.some.inj ha
      obtain ⟨before, after, hold, -, hnew⟩ := split_at hcall
      exact .sent packet k rest before after (fun k' => sendNext_posts h call packet k rest k')
        hold (hnew _) rfl
  | posted =>
    rw [step] at ha
    split at ha
    · cases ha
    · next k e rest hq =>
      have hacted := acted_of_act ha
      exact .quiet (fun _ => by rw [postsTo, hacted.posts, postsTo]) hacted.sending hacted.called
  | client k e =>
    simp only [step, Option.ite_none_right_eq_some] at ha
    exact (acted_of_act ha.2).quiet _

theorem packetsFor_cons (k k' : ConnectionId) (packet : TcpPacket) (rest : List ConnectionId) :
    Sending.packetsFor k ⟨packet, k' :: rest⟩ =
      (if k' = k then [packet] else []) ++ Sending.packetsFor k ⟨packet, rest⟩ := by
  by_cases hk : k' = k <;> simp [Sending.packetsFor, hk]

/-- What the calls have posted to a client and what they are still to post is what they were
called with. -/
def Shared (h : Hub) : Prop :=
  ∀ k, (events (postsTo k h) ++ events (remainingFor k h)).Perm (events (calledFor k h))

theorem Progress.shared {h h' : Hub} {a : Action} (hp : Progress h h' a) (hi : Shared h) :
    Shared h' := by
  intro k
  have hbefore := hi k
  cases hp with
  | quiet posts sending called =>
    rw [posts, remainingFor, sending, calledFor, called]
    exact hbefore
  | called packet _ posts sending called =>
    have hmore := hbefore.append_right (events (Sending.packetsFor k ⟨packet, h.server.sink⟩))
    rw [postsTo, posts, remainingFor, sending, calledFor, called, List.flatMap_append,
      List.flatMap_append, List.flatMap_singleton, events_append, events_append,
      ← List.append_assoc]
    exact hmore
  | done packet before after posts old new called =>
    rw [remainingFor, old, List.flatMap_append, List.flatMap_cons] at hbefore
    rw [postsTo, posts, remainingFor, new, calledFor, called, List.flatMap_append]
    exact hbefore
  | sent packet k' rest before after posts old new called =>
    rw [remainingFor, old, List.flatMap_append, List.flatMap_cons, packetsFor_cons,
      ← events_append] at hbefore
    rw [posts, remainingFor, new, calledFor, called, List.flatMap_append, List.flatMap_cons,
      ← events_append, List.append_assoc]
    refine List.Perm.trans (List.Perm.filter _ (List.Perm.append_left _ ?_)) hbefore
    rw [List.append_assoc, ← List.append_assoc]
    exact (List.perm_append_comm.append_right _).trans (by rw [List.append_assoc])

/-- Where a call begins only when no other is being made, the order of the calls is that of
the posts. -/
def InTurn (h : Hub) : Action → Prop
  | .handle _ => h.sending = []
  | _ => True

instance (h : Hub) (a : Action) : Decidable (InTurn h a) := by
  cases a <;> unfold InTurn <;> infer_instance

/-- At most one call is being made, and the posts are in the order of the calls. -/
structure Ordered (h : Hub) : Prop where
  one : h.sending.length ≤ 1
  posts : ∀ k, events (postsTo k h) ++ events (remainingFor k h) = events (calledFor k h)

theorem Progress.ordered {h h' : Hub} {a : Action} (hp : Progress h h' a) (hi : Ordered h)
    (hturn : InTurn h a) : Ordered h' := by
  have hone := hi.one
  cases hp with
  | quiet posts sending called =>
    refine ⟨by rw [sending]; exact hone, fun k => ?_⟩
    rw [posts, remainingFor, sending, calledFor, called]
    exact hi.posts k
  | called packet action posts sending called =>
    have hempty : h.sending = [] := by
      rw [action] at hturn
      exact hturn
    refine ⟨by rw [sending, hempty]; exact Nat.le_refl 1, fun k => ?_⟩
    rw [postsTo, posts, remainingFor, sending, calledFor, called, List.flatMap_append,
      List.flatMap_append, List.flatMap_singleton, events_append, events_append,
      ← List.append_assoc]
    exact congrArg (· ++ _) (hi.posts k)
  | done packet before after posts old new called =>
    refine ⟨by rw [old] at hone; rw [new]; simp at hone ⊢; omega, fun k => ?_⟩
    have hbefore := hi.posts k
    rw [remainingFor, old, List.flatMap_append, List.flatMap_cons] at hbefore
    rw [postsTo, posts, remainingFor, new, calledFor, called, List.flatMap_append]
    exact hbefore
  | sent packet k' rest before after posts old new called =>
    refine ⟨by rw [old] at hone; rw [new]; simpa using hone, fun k => ?_⟩
    -- no call is in front of the one that posts
    have hfirst : before = [] := by
      rw [old, List.length_append, List.length_cons] at hone
      exact List.eq_nil_of_length_eq_zero (by omega)
    have hbefore := hi.posts k
    rw [remainingFor, old, hfirst, List.nil_append, List.flatMap_cons, packetsFor_cons,
      ← events_append] at hbefore
    rw [posts, remainingFor, new, calledFor, called, hfirst, List.nil_append, List.flatMap_cons,
      ← events_append, List.append_assoc, ← List.append_assoc (ite _ _ _)]
    exact hbefore

theorem shared_run {hasBus : Bool} {as : List Action} {h : Hub}
    (hr : run (fresh hasBus) as = some h) : Shared h :=
  Machine.run_history (I := fun _ h => Shared h)
    (fun _ _ _ _ hi ha => (progress_of_step ha).shared hi) (fun _ => List.Perm.refl _) hr

/-- Nothing fails on the link, the packets fit and the transport has come to an end, and
nothing more is posted to the client or on the io thread for it. -/
structure Settled (h : Hub) (k : ConnectionId) (remote : Remote) (l : Link) : Prop where
  healthy : ∀ a ∈ remote.history, ¬ IsFault a
  fits : ∀ side, Fits side remote.history
  quiescent : Quiescent l
  queued : queuedFor k h = []
  remaining : remainingFor k h = []

/-- What the GUI of a client has received of what was posted to it, and of the calls of the
sink that found the client. -/
structure ClientView (h : Hub) (k : ConnectionId) (remote : Remote) (l : Link) : Prop where
  /-- The front of what the sink and the heartbeat have posted to the client, in order. -/
  inOrder : Fits .daemon remote.history → received l .gui <+: postsTo k h
  /-- All of it, in the end. -/
  all : Settled h k remote l → received l .gui = postsTo k h
  /-- No packet twice, and none that the client was not sent. -/
  once : Fits .daemon remote.history →
    (events (received l .gui)).Subperm (events (calledFor k h))
  /-- Each of them, in the end. -/
  complete : Settled h k remote l →
    (events (received l .gui)).Perm (events (calledFor k h))

theorem events_front {ps qs : List TcpPacket} (h : ps <+: qs) : events ps <+: events qs := by
  obtain ⟨t, rfl⟩ := h
  rw [events_append]
  exact List.prefix_append _ _

/-- The daemon side sends the front of what is posted. -/
theorem sentPackets_front {h : Hub} (hi : Invariant h) {k : ConnectionId} {remote : Remote}
    (hr : h.remotes[k]? = some remote) :
    sentPackets .daemon remote.history <+: postsTo k h ∧
      (queuedFor k h = [] → sentPackets .daemon remote.history = postsTo k h) := by
  have hsent : sentTo k h = sentPackets .daemon remote.history := by
    rw [sentTo, hr]
    rfl
  rw [← hi.queue k, hsent]
  exact ⟨List.prefix_append _ _, fun hq => by rw [hq, List.append_nil]⟩

/-- The link of a client, with what was received over it. -/
theorem link_received {hasBus : Bool} {as : List Action} {h : Hub}
    (hr : run (fresh hasBus) as = some h) {k : ConnectionId} {remote : Remote}
    (hremote : h.remotes[k]? = some remote) :
    ∃ l, link h k = some l ∧
      (Fits .daemon remote.history → received l .gui <+: postsTo k h) ∧
      (Settled h k remote l → received l .gui = postsTo k h) := by
  have hi := invariant_run hr
  obtain ⟨l, hl, hrun⟩ := hi.linked k remote hremote
  obtain ⟨hfront, hall⟩ := sentPackets_front hi hremote
  have hi' := Channel.invariant_run hrun
  refine ⟨l, hl, fun hfits => (received_front hi' hfits).trans hfront, fun hs => ?_⟩
  have hend : Channel.run l [] = some l := rfl
  have hdrained := received_drained hrun hs.healthy hs.fits (by simp) hend hs.quiescent .daemon
  exact hdrained.trans (hall hs.queued)

/-- **Over every interleaving of the calls, the server and the links, each client receives what
was posted to it in order, the packet of a call that found it in the sink at most once, and in
the end exactly once.** -/
theorem client_view (hasBus : Bool) (as : List Action) (h : Hub)
    (hr : run (fresh hasBus) as = some h) (k : ConnectionId) (remote : Remote)
    (hremote : h.remotes[k]? = some remote) :
    ∃ l, link h k = some l ∧ ClientView h k remote l := by
  obtain ⟨l, hl, hfront, hall⟩ := link_received hr hremote
  have hshared := shared_run hr k
  refine ⟨l, hl, hfront, hall, fun hfits => ?_, fun hs => ?_⟩
  · have hsub := (events_front (hfront hfits)).sublist.trans
      (List.sublist_append_left _ (events (remainingFor k h)))
    exact hsub.subperm.trans hshared.subperm
  · rw [hs.remaining] at hshared
    rw [hall hs]
    simpa [events] using hshared

/-- A client connects, and the transport takes some bytes of what was posted to it. -/
theorem client_view_first : ∃ h remote l,
    run (fresh true) [.accepted 0 0 0, .handle ⟨19, [1]⟩, .sendNext 0, .posted,
      .client 0 (.transmit .daemon 4)] = some h ∧ h.remotes[0]? = some remote ∧
      calledFor 0 h = [⟨19, [1]⟩] ∧ ClientView h 0 remote l := by
  obtain ⟨l, -, hview⟩ := client_view true [.accepted 0 0 0, .handle ⟨19, [1]⟩, .sendNext 0,
    .posted, .client 0 (.transmit .daemon 4)] _ rfl 0 _ rfl
  exact ⟨_, _, l, rfl, rfl, rfl, hview⟩

end MuonDetector.Network.Broadcast
