import Mathlib.Logic.Function.Basic
import MuonDetector.Network.Disconnect
import MuonDetector.Network.WriteQueue

/-!
# Two connections and the bytes between them

The GUI and the daemon hold one `TcpConnection` each. Between them the transport takes the
bytes of the outstanding write of one side, any number at a time, and hands them to the
reads of the other side, cut anywhere. A write completes when the transport has taken all
of it; a read or a write may fail and a side may stop at any time.
-/

namespace MuonDetector.Network.Channel

open MuonDetector.Library MuonDetector.Library.StreamParser
open MuonDetector.Network.Frame MuonDetector.Network.Connection MuonDetector.Network.Framing
open MuonDetector.Network.Delivery MuonDetector.Network.Disconnect
open MuonDetector.Network.WriteQueue

/-! ## Both sides and the transport -/

inductive Side where
  | gui
  | daemon
  deriving DecidableEq, Repr

def Side.peer : Side → Side
  | .gui => .daemon
  | .daemon => .gui

@[simp] theorem Side.peer_peer (side : Side) : side.peer.peer = side := by cases side <;> rfl

theorem Side.peer_ne (side : Side) : side.peer ≠ side := by cases side <;> decide

theorem Side.eq_peer_of_ne {side other : Side} (h : side ≠ other) : side = other.peer := by
  cases side <;> cases other <;> first | rfl | exact absurd rfl h

/-- A side, with how much of its outstanding write the transport has taken and the bytes
that the transport holds for its reads. -/
structure Endpoint where
  connection : TcpConnection
  taken : Nat
  inbound : List UInt8

abbrev Link := Side → Endpoint

/-- Both sides have started their first read. -/
def opened (now : Side → Nat) : Link := fun side => ⟨start (fresh (now side)), 0, []⟩

inductive Action where
  | transmit (side : Side) (n : Nat)
  | handler (side : Side) (event : Event)

/-- The transport completes a read with bytes that it holds and a write that it has taken. -/
def permits (s : Endpoint) : Event → Bool
  | .readDone _ (.ok bytes) => bytes.isPrefixOf s.inbound
  | .writeDone b (.ok _) => s.taken = b.bytes.length
  | _ => true

/-- What a completion takes away from the transport. -/
def settle (s : Endpoint) : Event → Endpoint
  | .readDone _ (.ok bytes) => { s with inbound := s.inbound.drop bytes.length }
  | .writeDone _ (.ok _) => { s with taken := 0 }
  | _ => s

/-- The bytes of the outstanding write. -/
def outstanding (c : TcpConnection) : List UInt8 :=
  match c.pendingWrites with
  | [] => []
  | b :: _ => b.bytes

def step (ch : Link) : Action → Option Link
  | .transmit side n =>
    let s := ch side
    let r := ch side.peer
    let bytes := outstanding s.connection
    if s.connection.isOpen ∧ s.taken + n ≤ bytes.length then
      let ch := Function.update ch side { s with taken := s.taken + n }
      some (Function.update ch side.peer
        { r with inbound := r.inbound ++ (bytes.drop s.taken).take n })
    else none
  | .handler side event =>
    if permits (ch side) event then
      (Connection.step (ch side).connection event).map fun c =>
        Function.update ch side { settle (ch side) event with connection := c }
    else none

abbrev run (ch : Link) (as : List Action) : Option Link := Machine.run step ch as

/-! ## What was sent -/

def eventOf (side : Side) : Action → Option Event
  | .transmit _ _ => none
  | .handler side' event => if side' = side then some event else none

/-- The handlers that a side has run, in order. -/
def eventsOf (side : Side) (as : List Action) : List Event := as.filterMap (eventOf side)

def packetOf : Event → Option TcpPacket
  | .send key payload => some ⟨key, payload⟩
  | .readDone _ _ => none
  | .writeDone _ _ => none
  | .stop => none

/-- The packets that a side has sent, in order. -/
def sentPackets (side : Side) (as : List Action) : List TcpPacket :=
  (eventsOf side as).filterMap packetOf

/-- The packets that a side has handed to its packet handler, in order. -/
def received (ch : Link) (side : Side) : List TcpPacket :=
  deliveries (ch side).connection.calls

theorem eventsOf_snoc (side : Side) (as : List Action) (a : Action) :
    eventsOf side (as ++ [a]) = eventsOf side as ++ (eventOf side a).toList := by
  cases h : eventOf side a <;> simp [eventsOf, h]

theorem sentFrames_bytes (es : List Event) :
    (sentFrames es).map Buffer.bytes = frames (es.filterMap packetOf) := by
  have hone : (fun e => (packetOf e).map fun p => buildFrame p.key p.payload) = sent? := by
    funext e
    cases e <;> rfl
  have hbytes : ∀ fs : List (List UInt8), (fs.mapIdx Buffer.mk).map Buffer.bytes = fs := by
    intro fs
    apply List.ext_getElem <;> simp
  rw [sentFrames, hbytes, frames, List.map_filterMap, hone]

/-! ## The write side, also after a failed write -/

/-- A write has failed: its element stays in front and nothing is written any more. -/
structure Stuck (es : List Event) (c : TcpConnection) : Prop where
  idle : c.pendingWrites = []
  waiting : c.writeQueue ≠ []
  sent : c.written ++ c.writeQueue = sentFrames es
  pushed : c.pushed = (sentFrames es).length

def Backlog (es : List Event) (c : TcpConnection) : Prop := QueueInvariant es c ∨ Stuck es c

theorem Backlog.sent {es : List Event} {c : TcpConnection} (h : Backlog es c) :
    c.written ++ c.writeQueue = sentFrames es := by
  rcases h with h | h
  · exact h.sent
  · exact h.sent

/-- The bytes at the front of the queue, which are those of the outstanding write if there
is one. -/
def front (c : TcpConnection) : List UInt8 := (c.writeQueue.head?.map Buffer.bytes).getD []

theorem outstanding_eq_front {es : List Event} {c : TcpConnection} (h : QueueInvariant es c) :
    outstanding c = front c := by
  rw [outstanding, front, h.outstanding]
  cases c.writeQueue <;> rfl

/-- What the transport may take is at the front of the queue. -/
theorem Backlog.take_outstanding {es : List Event} {c : TcpConnection} (h : Backlog es c)
    {taken n : Nat} (hle : taken + n ≤ (outstanding c).length) :
    taken + n ≤ (front c).length ∧
      ((outstanding c).drop taken).take n = ((front c).drop taken).take n := by
  rcases h with h | h
  · rw [outstanding_eq_front h] at hle ⊢
    exact ⟨hle, rfl⟩
  · rw [outstanding, h.idle, List.length_nil] at hle
    have hn : n = 0 := by omega
    subst hn
    exact ⟨by omega, rfl⟩

theorem queue_of_pending {es : List Event} {c : TcpConnection} {b : Buffer} (h : Backlog es c)
    (hb : b ∈ c.pendingWrites) : ∃ bs, c.writeQueue = b :: bs ∧ c.pendingWrites = [b] := by
  rcases h with h | h
  · have hout := h.outstanding
    cases hq : c.writeQueue with
    | nil =>
      rw [hout, hq] at hb
      cases hb
    | cons b' bs =>
      rw [hq] at hout
      obtain rfl : b = b' := by simpa [hout] using hb
      exact ⟨bs, rfl, hout⟩
  · rw [h.idle] at hb
    cases hb

theorem sendPacket_written (c : TcpConnection) (key : UInt16) (payload : List UInt8) :
    (sendPacket c key payload).written = c.written := by
  unfold sendPacket doWrite
  dsimp only
  split
  · rfl
  · split <;> rfl

theorem onWrite_ok_written (c : TcpConnection) (b : Buffer) (u : Unit) :
    (onWrite c b (.ok u)).written = c.written ++ [b] := by
  unfold onWrite doWrite
  dsimp only
  repeat' split
  all_goals rfl

theorem onWrite_ok_writeQueue (c : TcpConnection) (b : Buffer) (u : Unit) :
    (onWrite c b (.ok u)).writeQueue = c.writeQueue.tail := by
  unfold onWrite doWrite
  dsimp only
  repeat' split
  all_goals simp_all

theorem Stuck.send {es : List Event} {c : TcpConnection} (h : Stuck es c) (key : UInt16)
    (payload : List UInt8) : Stuck (es ++ [.send key payload]) (sendPacket c key payload) := by
  have hwait : sendPacket c key payload = { c with
      writeQueue := c.writeQueue ++ [⟨c.pushed, buildFrame key payload⟩]
      pushed := c.pushed + 1 } := by
    simp [sendPacket, h.waiting]
  have hframes : sentFrames (es ++ [.send key payload]) =
      sentFrames es ++ [⟨c.pushed, buildFrame key payload⟩] := by
    rw [sentFrames_append_some rfl, h.pushed]
  rw [hwait]
  refine ⟨h.idle, by simp, ?_, ?_⟩
  · rw [hframes, ← h.sent, List.append_assoc]
  · rw [hframes, List.length_append, ← h.pushed, List.length_singleton]

theorem Stuck.of_writeSide {es : List Event} {c c' : TcpConnection} (h : Stuck es c)
    (hw : writeSide c' = writeSide c) : Stuck es c' := by
  simp only [writeSide, Prod.mk.injEq] at hw
  obtain ⟨hqueue, hpending, hwritten, hpushed⟩ := hw
  exact ⟨by rw [hpending, h.idle], by rw [hqueue]; exact h.waiting,
    by rw [hwritten, hqueue, h.sent], by rw [hpushed, h.pushed]⟩

theorem Stuck.step {es : List Event} {c c' : TcpConnection} {e : Event} (hi : Stuck es c)
    (h : Connection.step c e = some c') : Stuck (es ++ [e]) c' := by
  cases e with
  | readDone now result =>
    simp only [Connection.step, Option.ite_none_right_eq_some, Option.some.injEq] at h
    obtain ⟨-, rfl⟩ := h
    have hkeep := hi.of_writeSide
      (onRead_writeSide { c with pendingReads := c.pendingReads - 1 } now result)
    exact ⟨hkeep.idle, hkeep.waiting, by rw [hkeep.sent, sentFrames_append_none rfl],
      by rw [hkeep.pushed, sentFrames_append_none rfl]⟩
  | writeDone b result =>
    simp only [Connection.step, Option.ite_none_right_eq_some] at h
    obtain ⟨⟨hb, -⟩, -⟩ := h
    rw [hi.idle] at hb
    cases hb
  | send key payload =>
    obtain rfl := Option.some.inj h
    exact hi.send key payload
  | stop =>
    obtain rfl := Option.some.inj h
    exact ⟨hi.idle, hi.waiting, by rw [sentFrames_append_none rfl]; exact hi.sent,
      by rw [sentFrames_append_none rfl]; exact hi.pushed⟩

/-- A failed write leaves its element in front of the queue. -/
theorem stuck_of_error {es : List Event} {c c' : TcpConnection} {b : Buffer} {ec : ErrorCode}
    (hi : QueueInvariant es c) (h : Connection.step c (.writeDone b (.error ec)) = some c') :
    Stuck (es ++ [.writeDone b (.error ec)]) c' := by
  simp only [Connection.step, Option.ite_none_right_eq_some, Option.some.injEq] at h
  obtain ⟨⟨hb, -⟩, rfl⟩ := h
  obtain ⟨bs, hqueue, hpending⟩ := queue_of_pending (.inl hi) hb
  refine ⟨?_, ?_, ?_, ?_⟩
  · simp [onWrite, closeWithError, hpending]
  · simp [onWrite, closeWithError, hqueue]
  · rw [sentFrames_append_none rfl]
    exact hi.sent
  · rw [sentFrames_append_none rfl]
    exact hi.pushed

theorem Backlog.step {es : List Event} {c c' : TcpConnection} {e : Event} (hi : Backlog es c)
    (h : Connection.step c e = some c') : Backlog (es ++ [e]) c' := by
  rcases hi with hi | hi
  · cases e with
    | writeDone b result =>
      cases result with
      | ok => exact .inl (hi.step h id)
      | error ec => exact .inr (stuck_of_error hi h)
    | readDone => exact .inl (hi.step h id)
    | send => exact .inl (hi.step h id)
    | stop => exact .inl (hi.step h id)
  · exact .inr (hi.step h)

/-! ## One direction -/

/-- What the transport has taken from a side since the start. -/
def onTheWire (s : Endpoint) : List UInt8 :=
  (s.connection.written.map Buffer.bytes).flatten ++ (front s.connection).take s.taken

/-- A side whose reads have completed with the bytes `read` so far. -/
structure HasRead (read : List UInt8) (c : TcpConnection) : Prop where
  delivered : deliveries c.calls = (drain frameParser read).delivered
  tracks : c.isOpen = true → Tracks c (drain frameParser read)

/-- From `s`, which has run the handlers `es`, to `r`: what was read and what is still to be
read is what the transport has taken. -/
structure Flow (es : List Event) (s r : Endpoint) : Prop where
  backlog : Backlog es s.connection
  taken : s.taken ≤ (front s.connection).length
  carried : ∃ read, read ++ r.inbound = onTheWire s ∧ HasRead read r.connection

theorem onTheWire_front {es : List Event} {s : Endpoint} (h : Backlog es s.connection) :
    onTheWire s <+: (frames (es.filterMap packetOf)).flatten := by
  rw [← sentFrames_bytes, ← h.sent, List.map_append, List.flatten_append, onTheWire]
  refine (List.prefix_append_right_inj _).mpr ?_
  cases hq : s.connection.writeQueue with
  | nil => simp [front, hq]
  | cons b bs =>
    rw [front, hq, List.map_cons, List.flatten_cons]
    exact (List.take_prefix _ _).trans (List.prefix_append _ _)

theorem Flow.transmit {es : List Event} {s r : Endpoint} (h : Flow es s r) {n : Nat}
    (hle : s.taken + n ≤ (outstanding s.connection).length) :
    Flow es { s with taken := s.taken + n }
      { r with inbound := r.inbound ++ ((outstanding s.connection).drop s.taken).take n } := by
  obtain ⟨hfront, hbytes⟩ := h.backlog.take_outstanding hle
  obtain ⟨read, hwire, hread⟩ := h.carried
  refine ⟨h.backlog, hfront, read, ?_, hread⟩
  rw [← List.append_assoc, hwire, hbytes, onTheWire, onTheWire, List.append_assoc, List.take_add]

/-- A handler of the sending side leaves what the transport has taken as it is. -/
theorem onTheWire_handler {es : List Event} {s : Endpoint} {e : Event} {c : TcpConnection}
    (hi : Backlog es s.connection) (ht : s.taken ≤ (front s.connection).length)
    (hp : permits s e = true) (h : Connection.step s.connection e = some c) :
    (settle s e).taken ≤ (front c).length ∧
      onTheWire { settle s e with connection := c } = onTheWire s := by
  cases e with
  | readDone now result =>
    simp only [Connection.step, Option.ite_none_right_eq_some, Option.some.injEq] at h
    obtain ⟨-, rfl⟩ := h
    have hw := onRead_writeSide
      { s.connection with pendingReads := s.connection.pendingReads - 1 } now result
    simp only [writeSide, Prod.mk.injEq] at hw
    obtain ⟨hqueue, -, hwritten, -⟩ := hw
    cases result <;> simpa [settle, onTheWire, front, hqueue, hwritten] using ht
  | writeDone b result =>
    simp only [Connection.step, Option.ite_none_right_eq_some, Option.some.injEq] at h
    obtain ⟨⟨hb, -⟩, rfl⟩ := h
    cases result with
    | error ec => exact ⟨ht, rfl⟩
    | ok =>
      obtain ⟨bs, hqueue, -⟩ := queue_of_pending hi hb
      have htaken : s.taken = b.bytes.length := by simpa [permits] using hp
      refine ⟨Nat.zero_le _, ?_⟩
      rw [onTheWire, onTheWire, onWrite_ok_written]
      simp [settle, front, hqueue, htaken]
  | send key payload =>
    obtain rfl := Option.some.inj h
    simp only [settle, onTheWire, sendPacket_written, front, sendPacket_writeQueue]
    unfold front at ht
    cases hq : s.connection.writeQueue with
    | nil =>
      rw [hq] at ht
      have hzero : s.taken = 0 := by simpa using ht
      simp [hzero]
    | cons b bs =>
      rw [hq] at ht
      exact ⟨ht, rfl⟩
  | stop =>
    obtain rfl := Option.some.inj h
    exact ⟨ht, rfl⟩

theorem Flow.sender {es : List Event} {s r : Endpoint} {e : Event} {c : TcpConnection}
    (hf : Flow es s r) (hp : permits s e = true)
    (h : Connection.step s.connection e = some c) :
    Flow (es ++ [e]) { settle s e with connection := c } r := by
  obtain ⟨htaken, hwire⟩ := onTheWire_handler hf.backlog hf.taken hp h
  obtain ⟨read, hread⟩ := hf.carried
  exact ⟨hf.backlog.step h, htaken, read, by rw [hwire]; exact hread⟩

/-- A read of a side that is open goes on with the bytes read before. -/
theorem tracks_append {read : List UInt8} {c : TcpConnection}
    (ht : Tracks c (drain frameParser read)) (hopen : c.isOpen = true) (now : Nat)
    (bytes : List UInt8) :
    Tracks (onRead c now (.ok bytes)) (drain frameParser (read ++ bytes)) := by
  have hfeed := receive_tracks ht ⟨now, bytes⟩
  have heq : receive c ⟨now, bytes⟩ = drainPackets now (consumeIncomingBytes c bytes) := by
    rw [receive, hopen, if_pos rfl]
  rw [heq] at hfeed
  obtain ⟨hd, hc, hrest⟩ := feed_agree frameParser (o := drain frameParser read) (b := read)
    ⟨rfl, rfl, fun _ => rfl⟩ bytes
  obtain ⟨ec, hcalls⟩ := hfeed.calls
  exact ⟨hfeed.isOpen.trans (by rw [hc]), ⟨ec, hcalls.trans (by rw [hd, hc])⟩,
    fun hcl => (hfeed.buffer (hc.trans hcl)).trans (hrest (hc.trans hcl))⟩

theorem HasRead.append {read bytes : List UInt8} {c : TcpConnection} (hr : HasRead read c)
    (hopen : c.isOpen = true) (now : Nat) :
    HasRead (read ++ bytes) (onRead c now (.ok bytes)) := by
  have ht := tracks_append (hr.tracks hopen) hopen now bytes
  exact ⟨deliveries_tracks ht, fun _ => ht⟩

/-- What a handler that reads nothing leaves of the receiving side. -/
structure KeepsReads (c c' : TcpConnection) : Prop where
  delivered : deliveries c'.calls = deliveries c.calls
  isOpen : c'.isOpen = true → c.isOpen = true
  calls : c'.isOpen = true → c'.calls = c.calls
  buffer : c'.receiveBuffer = c.receiveBuffer

theorem keepsReads_closeWithError (c : TcpConnection) (ec : ErrorCode) :
    KeepsReads c (closeWithError c ec) where
  delivered := by
    rw [closeWithError, deliveries_append]
    exact List.append_nil _
  isOpen h := by cases h
  calls h := by cases h
  buffer := rfl

theorem keepsReads_doWrite (c : TcpConnection) : KeepsReads c (doWrite c) where
  delivered := by rw [doWrite_calls]
  isOpen h := by rwa [doWrite_isOpen] at h
  calls _ := doWrite_calls c
  buffer := by unfold doWrite; split <;> rfl

theorem keepsReads_onWrite (c : TcpConnection) (b : Buffer) (result : Except ErrorCode Unit) :
    KeepsReads c (onWrite c b result) := by
  cases result with
  | error ec => exact keepsReads_closeWithError c ec
  | ok =>
    unfold onWrite
    dsimp only
    split
    · exact ⟨rfl, id, fun _ => rfl, rfl⟩
    · have h := keepsReads_doWrite
        { c with writeQueue := c.writeQueue.tail, written := c.written ++ [b] }
      exact ⟨h.delivered, h.isOpen, h.calls, h.buffer⟩

theorem keepsReads_sendPacket (c : TcpConnection) (key : UInt16) (payload : List UInt8) :
    KeepsReads c (sendPacket c key payload) := by
  unfold sendPacket
  dsimp only
  split
  · exact ⟨rfl, id, fun _ => rfl, rfl⟩
  · have h := keepsReads_doWrite { c with
      writeQueue := c.writeQueue ++ [⟨c.pushed, buildFrame key payload⟩]
      pushed := c.pushed + 1 }
    exact ⟨h.delivered, h.isOpen, h.calls, h.buffer⟩

theorem HasRead.keep {read : List UInt8} {c c' : TcpConnection} (hr : HasRead read c)
    (h : KeepsReads c c') : HasRead (read ++ []) c' := by
  rw [List.append_nil]
  refine ⟨h.delivered.trans hr.delivered, fun ho => ?_⟩
  have ht := hr.tracks (h.isOpen ho)
  exact ⟨by rw [ho, ← h.isOpen ho]; exact ht.isOpen, by rw [h.calls ho]; exact ht.calls,
    fun hcl => h.buffer.trans (ht.buffer hcl)⟩

/-- The receiving side, after one of its handlers. -/
theorem HasRead.handler {read : List UInt8} {r : Endpoint} {e : Event} {c : TcpConnection}
    (hr : HasRead read r.connection) (hp : permits r e = true)
    (h : Connection.step r.connection e = some c) :
    ∃ bytes, r.inbound = bytes ++ (settle r e).inbound ∧ HasRead (read ++ bytes) c := by
  cases e with
  | readDone now result =>
    simp only [Connection.step, Option.ite_none_right_eq_some, Option.some.injEq] at h
    obtain ⟨⟨-, hmay, -⟩, rfl⟩ := h
    have hbefore : HasRead read
        { r.connection with pendingReads := r.connection.pendingReads - 1 } :=
      ⟨hr.delivered, fun ho => ⟨(hr.tracks ho).isOpen, (hr.tracks ho).calls,
        (hr.tracks ho).buffer⟩⟩
    cases result with
    | error ec => exact ⟨[], rfl, hbefore.keep (keepsReads_closeWithError _ ec)⟩
    | ok bytes =>
      obtain ⟨rest, hrest⟩ : bytes <+: r.inbound := List.isPrefixOf_iff_prefix.mp hp
      refine ⟨bytes, ?_, hbefore.append hmay now⟩
      rw [settle, ← hrest, List.drop_left]
  | writeDone b result =>
    simp only [Connection.step, Option.ite_none_right_eq_some, Option.some.injEq] at h
    obtain ⟨-, rfl⟩ := h
    have hkeep := keepsReads_onWrite { r.connection with
      pendingWrites := r.connection.pendingWrites.erase b } b result
    have hbefore : KeepsReads r.connection _ :=
      ⟨hkeep.delivered, hkeep.isOpen, hkeep.calls, hkeep.buffer⟩
    cases result <;> exact ⟨[], rfl, hr.keep hbefore⟩
  | send key payload =>
    obtain rfl := Option.some.inj h
    exact ⟨[], rfl, hr.keep (keepsReads_sendPacket _ key payload)⟩
  | stop =>
    obtain rfl := Option.some.inj h
    exact ⟨[], rfl, hr.keep ⟨rfl, fun h => by simp [Connection.stop] at h,
      fun _ => rfl, rfl⟩⟩

theorem Flow.receiver {es : List Event} {s r : Endpoint} {e : Event} {c : TcpConnection}
    (hf : Flow es s r) (hp : permits r e = true)
    (h : Connection.step r.connection e = some c) :
    Flow es s { settle r e with connection := c } := by
  obtain ⟨read, hwire, hread⟩ := hf.carried
  obtain ⟨bytes, hinbound, hnext⟩ := hread.handler hp h
  refine ⟨hf.backlog, hf.taken, read ++ bytes, ?_, hnext⟩
  rw [List.append_assoc, ← hinbound, hwire]

/-! ## Both directions -/

/-- Each side, as the sender of what its peer reads. -/
def Invariant (as : List Action) (ch : Link) : Prop :=
  ∀ side, Flow (eventsOf side as) (ch side) (ch side.peer)

theorem invariant_opened (now : Side → Nat) : Invariant [] (opened now) := by
  intro side
  have ht := fresh_tracks (now side.peer)
  have hdelivered := deliveries_tracks ht
  refine ⟨.inl (queueInvariant_fresh (now side)), Nat.zero_le _, [], rfl, ?_⟩
  exact ⟨hdelivered, fun _ => ⟨ht.isOpen, ht.calls, ht.buffer⟩⟩

theorem Invariant.transmit {as : List Action} {ch : Link} (hi : Invariant as ch) {side : Side}
    {n : Nat} (hle : (ch side).taken + n ≤ (outstanding (ch side).connection).length) :
    Invariant (as ++ [.transmit side n])
      (Function.update (Function.update ch side { ch side with taken := (ch side).taken + n })
        side.peer { ch side.peer with
          inbound := (ch side.peer).inbound ++
            ((outstanding (ch side).connection).drop (ch side).taken).take n }) := by
  intro other
  have hsame : eventsOf other (as ++ [.transmit side n]) = eventsOf other as := by
    rw [eventsOf_snoc]
    exact List.append_nil _
  rw [hsame]
  by_cases h : other = side
  · subst h
    rw [Function.update_of_ne other.peer_ne.symm, Function.update_self, Function.update_self]
    exact (hi other).transmit hle
  · obtain rfl := Side.eq_peer_of_ne h
    have hback := hi side.peer
    rw [Side.peer_peer] at hback
    rw [Function.update_self, Side.peer_peer, Function.update_of_ne side.peer_ne.symm,
      Function.update_self]
    exact ⟨hback.backlog, hback.taken, hback.carried⟩

theorem Invariant.handler {as : List Action} {ch : Link} (hi : Invariant as ch) {side : Side}
    {e : Event} {c : TcpConnection} (hp : permits (ch side) e = true)
    (h : Connection.step (ch side).connection e = some c) :
    Invariant (as ++ [.handler side e])
      (Function.update ch side { settle (ch side) e with connection := c }) := by
  intro other
  rw [eventsOf_snoc]
  by_cases ho : other = side
  · subst ho
    rw [Function.update_self, Function.update_of_ne other.peer_ne, eventOf, if_pos rfl]
    exact (hi other).sender hp h
  · obtain rfl := Side.eq_peer_of_ne ho
    have hback := hi side.peer
    rw [Side.peer_peer] at hback
    rw [Function.update_of_ne side.peer_ne, Side.peer_peer, Function.update_self, eventOf,
      if_neg side.peer_ne.symm, Option.toList_none, List.append_nil]
    exact hback.receiver hp h

/-- What one action is. -/
theorem step_cases {ch ch' : Link} {a : Action} (h : step ch a = some ch') :
    (∃ side n, a = .transmit side n ∧ (ch side).connection.isOpen = true ∧
      (ch side).taken + n ≤ (outstanding (ch side).connection).length ∧
      ch' = Function.update
        (Function.update ch side { ch side with taken := (ch side).taken + n }) side.peer
        { ch side.peer with
          inbound := (ch side.peer).inbound ++
            ((outstanding (ch side).connection).drop (ch side).taken).take n }) ∨
    (∃ side e c, a = .handler side e ∧ permits (ch side) e = true ∧
      Connection.step (ch side).connection e = some c ∧
      ch' = Function.update ch side { settle (ch side) e with connection := c }) := by
  cases a with
  | transmit side n =>
    simp only [step, Option.ite_none_right_eq_some, Option.some.injEq] at h
    obtain ⟨⟨hopen, hle⟩, rfl⟩ := h
    exact .inl ⟨side, n, rfl, hopen, hle, rfl⟩
  | handler side e =>
    simp only [step, Option.ite_none_right_eq_some, Option.map_eq_some_iff] at h
    obtain ⟨hp, c, hc, rfl⟩ := h
    exact .inr ⟨side, e, c, rfl, hp, hc, rfl⟩

theorem Invariant.step {as : List Action} {ch ch' : Link} {a : Action} (hi : Invariant as ch)
    (h : step ch a = some ch') : Invariant (as ++ [a]) ch' := by
  obtain ⟨side, n, rfl, -, hle, rfl⟩ | ⟨side, e, c, rfl, hp, hc, rfl⟩ := step_cases h
  · exact hi.transmit hle
  · exact hi.handler hp hc

theorem invariant_run {now : Side → Nat} {as : List Action} {ch : Link}
    (h : run (opened now) as = some ch) : Invariant as ch :=
  Machine.run_history (fun _ _ _ _ hi hs => hi.step hs) (invariant_opened now) h

/-! ## Safety -/

/-- The packets of a side that sends are within the limit of a frame. -/
def Fits (side : Side) (as : List Action) : Prop :=
  ∀ p ∈ sentPackets side as, p.payload.length ≤ kMaxPayloadSize

/-- What is read of frames that fit is never given up, and what it delivers was sent. -/
theorem Flow.read {side : Side} {as : List Action} {ch : Link} (hi : Invariant as ch)
    (hfits : Fits side as) :
    ∃ read, read ++ (ch side.peer).inbound = onTheWire (ch side) ∧
      HasRead read (ch side.peer).connection ∧ (drain frameParser read).closed = false ∧
      (drain frameParser read).delivered <+: sentPackets side as := by
  obtain ⟨read, hwire, hread⟩ := (hi side).carried
  have hpre : read <+: (frames (sentPackets side as)).flatten := by
    have hsent := onTheWire_front (hi side).backlog
    rw [← hwire] at hsent
    exact (List.prefix_append _ _).trans hsent
  obtain ⟨hdelivered, hclosed⟩ := drain_mono frameParser hpre
  rw [drain_sent hfits] at hdelivered hclosed
  exact ⟨read, hwire, hread, hclosed rfl, hdelivered⟩

theorem received_front {side : Side} {as : List Action} {ch : Link} (hi : Invariant as ch)
    (hfits : Fits side as) : received ch side.peer <+: sentPackets side as := by
  obtain ⟨read, -, hread, -, hpre⟩ := Flow.read hi hfits
  rw [received, hread.delivered]
  exact hpre

/-! ## Progress -/

/-- A failed completion or a stop. -/
def IsFault : Action → Prop
  | .handler _ (.readDone _ (.error _)) => True
  | .handler _ (.writeDone _ (.error _)) => True
  | .handler _ .stop => True
  | _ => False

/-- The transport moves bytes or completes an operation. -/
def IsTransport : Action → Prop
  | .transmit _ n => 0 < n
  | .handler _ (.readDone _ (.ok bytes)) => bytes ≠ []
  | .handler _ (.writeDone _ (.ok _)) => True
  | _ => False

/-- The transport can do nothing. -/
def Quiescent (ch : Link) : Prop := ∀ a, IsTransport a → step ch a = none

/-- A side that nothing has failed on. -/
structure Alive (es : List Event) (c : TcpConnection) : Prop where
  isOpen : c.isOpen = true
  reading : c.pendingReads = 1
  queue : QueueInvariant es c

theorem sentPackets_append (side : Side) (as bs : List Action) :
    sentPackets side (as ++ bs) = sentPackets side as ++ sentPackets side bs := by
  simp [sentPackets, eventsOf]

theorem Fits.of_append {side : Side} {as bs : List Action} (h : Fits side (as ++ bs)) :
    Fits side as := fun p hp => h p (by simp [sentPackets_append, hp])

theorem drainPackets_pendingReads (now : Nat) (c : TcpConnection) :
    (drainPackets now c).pendingReads = c.pendingReads := by
  obtain ⟨t, ec, hd⟩ := drainPackets_eq now c
  rw [hd]

theorem Alive.handler {es : List Event} {s : Endpoint} {e : Event} {c : TcpConnection}
    {read : List UInt8} (ha : Alive es s.connection) (hread : HasRead read s.connection)
    (hopen : ∀ bytes rest, s.inbound = bytes ++ rest →
      (drain frameParser (read ++ bytes)).closed = false)
    (hp : permits s e = true) (h : Connection.step s.connection e = some c) (side : Side)
    (hf : ¬ IsFault (.handler side e)) : Alive (es ++ [e]) c := by
  have hqueue : QueueInvariant (es ++ [e]) c := by
    refine ha.queue.step h fun hw => hf ?_
    cases e with
    | writeDone b result => cases result <;> exact hw
    | readDone => cases hw
    | send => cases hw
    | stop => trivial
  cases e with
  | readDone now result =>
    simp only [Connection.step, Option.ite_none_right_eq_some, Option.some.injEq] at h
    obtain ⟨-, rfl⟩ := h
    cases result with
    | error ec => exact absurd trivial hf
    | ok bytes =>
      obtain ⟨rest, hrest⟩ : bytes <+: s.inbound := List.isPrefixOf_iff_prefix.mp hp
      have ht := hread.tracks ha.isOpen
      have hnext := tracks_append (c := { s.connection with
        pendingReads := s.connection.pendingReads - 1 }) ⟨ht.isOpen, ht.calls, ht.buffer⟩
        ha.isOpen now bytes
      refine ⟨?_, ?_, hqueue⟩
      · rw [hnext.isOpen, hopen bytes rest hrest.symm]
        rfl
      · rw [onRead, doRead, drainPackets_pendingReads]
        simp [consumeIncomingBytes, ha.reading]
  | writeDone b result =>
    simp only [Connection.step, Option.ite_none_right_eq_some, Option.some.injEq] at h
    obtain ⟨-, rfl⟩ := h
    cases result with
    | error ec => exact absurd trivial hf
    | ok =>
      refine ⟨?_, ?_, hqueue⟩ <;>
      · unfold onWrite doWrite
        dsimp only
        repeat' split
        all_goals first | exact ha.isOpen | exact ha.reading
  | send key payload =>
    obtain rfl := Option.some.inj h
    refine ⟨by rw [sendPacket_isOpen]; exact ha.isOpen, ?_, hqueue⟩
    unfold sendPacket doWrite
    dsimp only
    repeat' split
    all_goals exact ha.reading
  | stop => exact absurd trivial hf

/-- The bytes that a side may still read are never given up. -/
theorem Flow.readable {side : Side} {as : List Action} {ch : Link} (hi : Invariant as ch)
    (hfits : Fits side as) :
    ∃ read, HasRead read (ch side.peer).connection ∧
      ∀ bytes rest, (ch side.peer).inbound = bytes ++ rest →
        (drain frameParser (read ++ bytes)).closed = false := by
  obtain ⟨read, hwire, hread⟩ := (hi side).carried
  refine ⟨read, hread, fun bytes rest hsplit => ?_⟩
  have hsent : onTheWire (ch side) <+: (frames (sentPackets side as)).flatten :=
    onTheWire_front (hi side).backlog
  rw [← hwire, hsplit, ← List.append_assoc] at hsent
  have hclosed := (drain_mono frameParser ((List.prefix_append _ _).trans hsent)).2
  rw [drain_sent hfits] at hclosed
  exact hclosed rfl

theorem alive_step {as : List Action} {ch ch' : Link} {a : Action} (hi : Invariant as ch)
    (hfits : ∀ side, Fits side as)
    (ha : ∀ side, Alive (eventsOf side as) (ch side).connection) (hf : ¬ IsFault a)
    (h : step ch a = some ch') (side : Side) :
    Alive (eventsOf side (as ++ [a])) (ch' side).connection := by
  rw [eventsOf_snoc]
  obtain ⟨sender, n, rfl, -, -, rfl⟩ | ⟨runner, e, c, rfl, hp, hc, rfl⟩ := step_cases h
  · rw [eventOf, Option.toList_none, List.append_nil]
    by_cases hs : side = sender
    · subst hs
      rw [Function.update_of_ne side.peer_ne.symm, Function.update_self]
      exact ha side
    · obtain rfl := Side.eq_peer_of_ne hs
      rw [Function.update_self]
      exact ha sender.peer
  · by_cases hs : side = runner
    · subst hs
      obtain ⟨read, hread, hopen⟩ := Flow.readable hi (hfits side.peer)
      rw [Side.peer_peer] at hread hopen
      rw [Function.update_self, eventOf, if_pos rfl]
      exact (ha side).handler hread hopen hp hc side hf
    · rw [Function.update_of_ne hs, eventOf, if_neg (Ne.symm hs), Option.toList_none,
        List.append_nil]
      exact ha side

theorem alive_run {now : Side → Nat} {as : List Action} {ch : Link}
    (h : run (opened now) as = some ch) (hok : ∀ a ∈ as, ¬ IsFault a)
    (hfits : ∀ side, Fits side as) (side : Side) :
    Alive (eventsOf side as) (ch side).connection := by
  have hrule : Invariant as ch ∧ ((∀ a ∈ as, ¬ IsFault a) → (∀ side, Fits side as) →
      ∀ side, Alive (eventsOf side as) (ch side).connection) := by
    refine Machine.run_history (I := fun as ch => Invariant as ch ∧
      ((∀ a ∈ as, ¬ IsFault a) → (∀ side, Fits side as) →
        ∀ side, Alive (eventsOf side as) (ch side).connection)) ?_ ?_ h
    · rintro as ch a ch' ⟨hi, ha⟩ hs
      refine ⟨hi.step hs, fun hok hfits => ?_⟩
      have hbefore := ha (fun b hb => hok b (by simp [hb])) fun side => (hfits side).of_append
      exact alive_step hi (fun side => (hfits side).of_append) hbefore (hok a (by simp)) hs
    · exact ⟨invariant_opened now, fun _ _ side => ⟨rfl, rfl, queueInvariant_fresh _⟩⟩
  exact hrule.2 hok hfits side

/-- Where the transport can do nothing, no write is outstanding. -/
theorem quiescent_queue {es : List Event} {ch : Link} {side : Side}
    (ha : Alive es (ch side).connection)
    (ht : (ch side).taken ≤ (front (ch side).connection).length) (hq : Quiescent ch) :
    (ch side).connection.writeQueue = [] := by
  cases hqueue : (ch side).connection.writeQueue with
  | nil => rfl
  | cons b bs =>
    have hpending : (ch side).connection.pendingWrites = [b] := by
      rw [ha.queue.outstanding, hqueue]
      rfl
    rw [front, hqueue] at ht
    by_cases hall : (ch side).taken = b.bytes.length
    · have hnone := hq (.handler side (.writeDone b (.ok ()))) trivial
      simp [step, permits, hall, Connection.step, hpending, mayComplete, ha.isOpen] at hnone
    · have hlt : (ch side).taken + 1 ≤ b.bytes.length := by
        have hle : (ch side).taken ≤ b.bytes.length := ht
        omega
      have hnone := hq (.transmit side 1) (Nat.lt_succ_self 0)
      simp [step, outstanding, hpending, ha.isOpen, hlt] at hnone

/-- Where the transport can do nothing, it holds nothing. -/
theorem quiescent_inbound {es : List Event} {ch : Link} {side : Side}
    (ha : Alive es (ch side).connection) (hq : Quiescent ch) : (ch side).inbound = [] := by
  cases hin : (ch side).inbound with
  | nil => rfl
  | cons x rest =>
    have hnone := hq (.handler side (.readDone 0 (.ok [x]))) (List.cons_ne_nil _ _)
    simp [step, permits, hin, Connection.step, ha.reading, mayComplete, ha.isOpen,
      fitsReadBuffer, readBufferSize] at hnone

theorem quiescent_received {as : List Action} {ch : Link} (hi : Invariant as ch)
    (hfits : ∀ side, Fits side as)
    (ha : ∀ side, Alive (eventsOf side as) (ch side).connection) (hq : Quiescent ch)
    (side : Side) : received ch side.peer = sentPackets side as := by
  have hqueue := quiescent_queue (ha side) (hi side).taken hq
  obtain ⟨read, hwire, hread⟩ := (hi side).carried
  rw [quiescent_inbound (ha side.peer) hq, List.append_nil] at hwire
  have hsent := (hi side).backlog.sent
  rw [hqueue, List.append_nil] at hsent
  have hall : read = (frames (sentPackets side as)).flatten := by
    rw [hwire, onTheWire, hsent, sentFrames_bytes, front, hqueue]
    simp [sentPackets]
  rw [received, hread.delivered, hall, drain_sent (hfits side)]

/-! ## The transport comes to an end -/

/-- Twice the bytes that the transport has still to take, the queued elements and the bytes
that are still to be read. -/
def pendingWork (s : Endpoint) : Nat :=
  2 * ((s.connection.writeQueue.map Buffer.bytes).flatten.length - s.taken) +
    s.connection.writeQueue.length + s.inbound.length

def work (ch : Link) : Nat := pendingWork (ch .gui) + pendingWork (ch .daemon)

theorem work_eq (ch : Link) (side : Side) :
    work ch = pendingWork (ch side) + pendingWork (ch side.peer) := by
  cases side with
  | gui => rfl
  | daemon => exact Nat.add_comm _ _

theorem front_le (c : TcpConnection) :
    (front c).length ≤ (c.writeQueue.map Buffer.bytes).flatten.length := by
  unfold front
  cases c.writeQueue with
  | nil => exact Nat.le_refl _
  | cons b bs => simp

/-- A completion that the transport makes leaves the side with less work. -/
theorem pendingWork_handler {es : List Event} {s : Endpoint} {e : Event} {c : TcpConnection}
    (hi : Backlog es s.connection) (hp : permits s e = true)
    (h : Connection.step s.connection e = some c) {side : Side}
    (ht : IsTransport (.handler side e)) :
    pendingWork { settle s e with connection := c } < pendingWork s := by
  cases e with
  | readDone now result =>
    simp only [Connection.step, Option.ite_none_right_eq_some, Option.some.injEq] at h
    obtain ⟨-, rfl⟩ := h
    cases result with
    | error ec => cases ht
    | ok bytes =>
      obtain ⟨rest, hrest⟩ : bytes <+: s.inbound := List.isPrefixOf_iff_prefix.mp hp
      have hpos : 0 < bytes.length := List.length_pos_of_ne_nil ht
      have hw := onRead_writeSide
        { s.connection with pendingReads := s.connection.pendingReads - 1 } now (.ok bytes)
      simp only [writeSide, Prod.mk.injEq] at hw
      have hlen : s.inbound.length = bytes.length + rest.length := by
        rw [← hrest, List.length_append]
      simp only [pendingWork, settle, hw.1, List.length_drop]
      omega
  | writeDone b result =>
    simp only [Connection.step, Option.ite_none_right_eq_some, Option.some.injEq] at h
    obtain ⟨⟨hb, -⟩, rfl⟩ := h
    cases result with
    | error ec => cases ht
    | ok =>
      obtain ⟨bs, hqueue, -⟩ := queue_of_pending hi hb
      have htaken : s.taken = b.bytes.length := by simpa [permits] using hp
      simp only [pendingWork, settle, onWrite_ok_writeQueue, hqueue, List.tail_cons,
        List.map_cons, List.flatten_cons, List.length_append, List.length_cons]
      omega
  | send key payload => cases ht
  | stop => cases ht

theorem work_step {as : List Action} {ch ch' : Link} {a : Action} (hi : Invariant as ch)
    (ht : IsTransport a) (h : step ch a = some ch') : work ch' < work ch := by
  obtain ⟨side, n, rfl, -, hle, rfl⟩ | ⟨side, e, c, rfl, hp, hc, rfl⟩ := step_cases h
  · have hpos : 0 < n := ht
    have hbytes := front_le (ch side).connection
    obtain ⟨hfront, htake⟩ := (hi side).backlog.take_outstanding hle
    rw [work_eq _ side, work_eq ch side, Function.update_self,
      Function.update_of_ne side.peer_ne.symm, Function.update_self]
    simp only [pendingWork, htake, List.length_append, List.length_take, List.length_drop]
    omega
  · have hless := pendingWork_handler (hi side).backlog hp hc ht
    rw [work_eq _ side, work_eq ch side, Function.update_self,
      Function.update_of_ne side.peer_ne]
    omega

/-- An action of the transport sends nothing and fails nothing. -/
theorem sentPackets_transport {side : Side} {bs : List Action} (ht : ∀ a ∈ bs, IsTransport a) :
    sentPackets side bs = [] := by
  induction bs with
  | nil => rfl
  | cons a bs ih =>
    have hnone : sentPackets side [a] = [] := by
      have hhead := ht a (by simp)
      unfold IsTransport at hhead
      split at hhead
      · rfl
      · by_cases hs : ‹Side› = side <;> simp [sentPackets, eventsOf, eventOf, hs, packetOf]
      · by_cases hs : ‹Side› = side <;> simp [sentPackets, eventsOf, eventOf, hs, packetOf]
      · cases hhead
    have happ := sentPackets_append side [a] bs
    rw [hnone, ih fun b hb => ht b (by simp [hb])] at happ
    exact happ

theorem not_fault_of_transport {a : Action} (h : IsTransport a) : ¬ IsFault a := by
  unfold IsTransport at h
  split at h <;> first | exact id | cases h

theorem work_run {as bs : List Action} {ch ch' : Link} (hi : Invariant as ch)
    (ht : ∀ a ∈ bs, IsTransport a) (h : run ch bs = some ch') :
    bs.length + work ch' ≤ work ch := by
  induction bs generalizing as ch with
  | nil =>
    cases h
    simp
  | cons a bs ih =>
    obtain ⟨next, ha, hrest⟩ := Machine.run_cons_some.mp h
    have hless := work_step hi (ht a (by simp)) ha
    have hmore := ih (hi.step ha) (fun b hb => ht b (by simp [hb])) hrest
    rw [List.length_cons]
    omega

/-- What is received where the transport ends after a run without a fault. -/
theorem received_drained {now : Side → Nat} {as : List Action} {ch : Link}
    (h : run (opened now) as = some ch) (hok : ∀ a ∈ as, ¬ IsFault a)
    (hfits : ∀ side, Fits side as) {bs : List Action} {ch' : Link}
    (ht : ∀ a ∈ bs, IsTransport a) (hr : run ch bs = some ch') (hq : Quiescent ch')
    (side : Side) : received ch' side.peer = sentPackets side as := by
  have hall : run (opened now) (as ++ bs) = some ch' := by
    have hfirst : Machine.run step (opened now) as = some ch := h
    rw [run, Machine.run_append, hfirst]
    exact hr
  have hsame : ∀ side, sentPackets side (as ++ bs) = sentPackets side as := fun side => by
    rw [sentPackets_append, sentPackets_transport ht, List.append_nil]
  have hfits' : ∀ side, Fits side (as ++ bs) := fun side => by
    rw [Fits, hsame side]
    exact hfits side
  have hok' : ∀ a ∈ as ++ bs, ¬ IsFault a := by
    intro a ha
    rcases List.mem_append.mp ha with ha | ha
    · exact hok a ha
    · exact not_fault_of_transport (ht a ha)
  rw [← hsame side]
  exact quiescent_received (invariant_run hall) hfits' (alive_run hall hok' hfits') hq side

/-! ## The link is a reliable queue in each direction -/

/-- What holds of the packets in both directions after the actions `as`. -/
structure Reliable (as : List Action) (ch : Link) : Prop where
  /-- What was received is the front of what was sent. -/
  inOrder : ∀ side, Fits side as → received ch side.peer <+: sentPackets side as
  /-- The transport comes to an end. -/
  bounded : ∀ bs ch', (∀ a ∈ bs, IsTransport a) → run ch bs = some ch' → bs.length ≤ work ch
  /-- Where it ends after a run without a fault, everything sent has been received. -/
  drained : (∀ a ∈ as, ¬ IsFault a) → (∀ side, Fits side as) →
    ∀ bs ch', (∀ a ∈ bs, IsTransport a) → run ch bs = some ch' → Quiescent ch' →
      ∀ side, received ch' side.peer = sentPackets side as

/-- **Over every interleaving of sends, writes, reads and failures on both sides, each side
receives the packets of the other once each and in order, and without a failure the
transport cannot stop before all of them are received.** -/
theorem reliable_run (now : Side → Nat) (as : List Action) (ch : Link)
    (h : run (opened now) as = some ch) : Reliable as ch where
  inOrder _ hfits := received_front (invariant_run h) hfits
  bounded bs ch' ht hr := by
    have hwork := work_run (invariant_run h) ht hr
    omega
  drained hok hfits _ _ ht hr hq := received_drained h hok hfits ht hr hq

/-- The daemon reads the first bytes of a command before the write of it has completed. -/
theorem reliable_split :
    ∃ ch, run (opened fun _ => 0) [.handler .gui (.send 5 [1]), .transmit .gui 3,
        .handler .daemon (.readDone 1 (.ok ((buildFrame 5 [1]).take 3)))] = some ch ∧
      Reliable [.handler .gui (.send 5 [1]), .transmit .gui 3,
        .handler .daemon (.readDone 1 (.ok ((buildFrame 5 [1]).take 3)))] ch :=
  ⟨_, rfl, reliable_run (fun _ => 0) _ _ rfl⟩

end MuonDetector.Network.Channel
