import MuonDetector.Network.Frame
import MuonDetector.Library.Machine

/-!
# One TCP connection on the io thread

The members of `TcpConnection`, with what the io context holds for it: the reads
and writes that are outstanding, the writes completed so far and the handler calls
made so far. Every function runs on the one io thread. A completion takes away
the operation it belongs to and then runs the lambda of `do_read` or `do_write`;
an operation on a closed socket completes with an error. Both handlers are set.
-/

namespace MuonDetector.Network.Connection

open MuonDetector.Library MuonDetector.Network.Frame

/-- The codes given to the disconnect handler: those of the four protocol checks
and the one a read or a write completed with. -/
inductive ErrorCode where
  | fault
  | operationNotSupported
  | messageSize
  | badDescriptor
  | io (value : Nat)
  deriving DecidableEq, Repr

inductive Call where
  | packet (packet : TcpPacket)
  | disconnected (ec : ErrorCode)
  deriving DecidableEq, Repr

/-- An element of `writeQueue_`. A write refers to the element and not to a copy of
its bytes, so elements with equal bytes are told apart by `id`. -/
structure Buffer where
  id : Nat
  bytes : List UInt8
  deriving DecidableEq, Repr

structure TcpConnection where
  isOpen : Bool
  receiveBuffer : List UInt8
  writeQueue : List Buffer
  lastReceivedNanos : Nat
  pushed : Nat
  pendingReads : Nat
  pendingWrites : List Buffer
  written : List Buffer
  calls : List Call
  deriving DecidableEq, Repr

/-- The constructor, at the clock reading `now`. -/
def fresh (now : Nat) : TcpConnection where
  isOpen := true
  receiveBuffer := []
  writeQueue := []
  lastReceivedNanos := now
  pushed := 0
  pendingReads := 0
  pendingWrites := []
  written := []
  calls := []

def readBufferSize : Nat := 4096

def consumeIncomingBytes (c : TcpConnection) (bytes : List UInt8) : TcpConnection :=
  { c with receiveBuffer := c.receiveBuffer ++ bytes }

/-- The socket is closed if it was open; the handler is called either way. -/
def closeWithError (c : TcpConnection) (ec : ErrorCode) : TcpConnection :=
  { c with isOpen := false, calls := c.calls ++ [.disconnected ec] }

def tryParsePacket (now : Nat) (c : TcpConnection) : Bool × TcpConnection :=
  if c.receiveBuffer.length < kHeaderSize then (false, c)
  else
    let header := c.receiveBuffer
    let magic := readU32 header
    let version := readU16 (header.drop 4)
    let key := readU16 (header.drop 6)
    let payloadSize := (readU32 (header.drop 8)).toNat
    if magic ≠ kMagic then (false, closeWithError c .fault)
    else if version ≠ kProtocolVersion then (false, closeWithError c .operationNotSupported)
    else if payloadSize > kMaxPayloadSize then (false, closeWithError c .messageSize)
    else
      let frameSize := kFrameOverhead + payloadSize
      if c.receiveBuffer.length < frameSize then (false, c)
      else
        let payload := (c.receiveBuffer.drop kHeaderSize).take payloadSize
        let checksumValue := readU32 (c.receiveBuffer.drop (kHeaderSize + payloadSize))
        if checksumValue ≠ checksum payload then (false, closeWithError c .badDescriptor)
        else
          (true, { c with
            receiveBuffer := c.receiveBuffer.drop frameSize
            calls := c.calls ++ [.packet ⟨key, payload⟩]
            lastReceivedNanos := now })

theorem tryParsePacket_shrinks {now : Nat} {c c' : TcpConnection}
    (h : tryParsePacket now c = (true, c')) :
    c'.receiveBuffer.length < c.receiveBuffer.length := by
  unfold tryParsePacket at h
  dsimp only at h
  repeat' split at h
  all_goals simp only [Prod.mk.injEq, Bool.false_eq_true, false_and, true_and] at h
  subst h
  have hpos : 0 < kFrameOverhead := by decide
  simp only [List.length_drop]
  omega

/-- The loop `while (tryParsePacket()) {}`. -/
def drainPackets (now : Nat) (c : TcpConnection) : TcpConnection :=
  match _h : tryParsePacket now c with
  | (true, c') => drainPackets now c'
  | (false, c') => c'
termination_by c.receiveBuffer.length
decreasing_by exact tryParsePacket_shrinks _h

theorem drainPackets_true {now : Nat} {c c' : TcpConnection}
    (h : tryParsePacket now c = (true, c')) : drainPackets now c = drainPackets now c' := by
  rw [drainPackets]
  split <;> simp_all

theorem drainPackets_false {now : Nat} {c c' : TcpConnection}
    (h : tryParsePacket now c = (false, c')) : drainPackets now c = c' := by
  rw [drainPackets]
  split <;> simp_all

/-- Start the next `async_read_some`. -/
def doRead (c : TcpConnection) : TcpConnection := { c with pendingReads := c.pendingReads + 1 }

/-- Hand the front element of the queue to `async_write`. -/
def doWrite (c : TcpConnection) : TcpConnection :=
  match c.writeQueue with
  | [] => c
  | b :: _ => { c with pendingWrites := c.pendingWrites ++ [b] }

def start (c : TcpConnection) : TcpConnection := doRead c

/-- The closure that `sendPacket` posts, when the io thread runs it. -/
def sendPacket (c : TcpConnection) (key : UInt16) (payload : List UInt8) : TcpConnection :=
  let writing := !c.writeQueue.isEmpty
  let c := { c with
    writeQueue := c.writeQueue ++ [⟨c.pushed, buildFrame key payload⟩]
    pushed := c.pushed + 1 }
  if writing then c else doWrite c

/-- The closure that `stop` posts. -/
def stop (c : TcpConnection) : TcpConnection := { c with isOpen := false }

/-- The lambda of `do_read`. -/
def onRead (c : TcpConnection) (now : Nat) (result : Except ErrorCode (List UInt8)) :
    TcpConnection :=
  match result with
  | .error ec => closeWithError c ec
  | .ok bytes => doRead (drainPackets now (consumeIncomingBytes c bytes))

/-- The lambda of `do_write`, for the write of `b`. -/
def onWrite (c : TcpConnection) (b : Buffer) (result : Except ErrorCode Unit) : TcpConnection :=
  match result with
  | .error ec => closeWithError c ec
  | .ok () =>
    let c := { c with writeQueue := c.writeQueue.tail, written := c.written ++ [b] }
    if c.writeQueue.isEmpty then c else doWrite c

/-- What the io thread runs next for this connection. -/
inductive Event where
  | readDone (now : Nat) (result : Except ErrorCode (List UInt8))
  | writeDone (b : Buffer) (result : Except ErrorCode Unit)
  | send (key : UInt16) (payload : List UInt8)
  | stop

/-- A completion can succeed only while the socket is open: operations on a closed socket complete
with an error. A read that had finished with its handler still in the queue when the socket is
closed is left out with this. -/
def mayComplete {α : Type} (c : TcpConnection) : Except ErrorCode α → Bool
  | .error _ => true
  | .ok _ => c.isOpen

def fitsReadBuffer : Except ErrorCode (List UInt8) → Bool
  | .error _ => true
  | .ok bytes => bytes.length ≤ readBufferSize

/-- One handler on the io thread; `none` when it cannot be the next one. -/
def step (c : TcpConnection) : Event → Option TcpConnection
  | .readDone now result =>
    if c.pendingReads ≠ 0 ∧ mayComplete c result ∧ fitsReadBuffer result then
      some (onRead { c with pendingReads := c.pendingReads - 1 } now result)
    else none
  | .writeDone b result =>
    if b ∈ c.pendingWrites ∧ mayComplete c result then
      some (onWrite { c with pendingWrites := c.pendingWrites.erase b } b result)
    else none
  | .send key payload => some (sendPacket c key payload)
  | .stop => some (stop c)

abbrev run (c : TcpConnection) (es : List Event) : Option TcpConnection := Machine.run step c es

/-! ## What each function leaves alone -/

@[simp] theorem doWrite_isOpen (c : TcpConnection) : (doWrite c).isOpen = c.isOpen := by
  unfold doWrite; split <;> rfl

@[simp] theorem doWrite_calls (c : TcpConnection) : (doWrite c).calls = c.calls := by
  unfold doWrite; split <;> rfl

end MuonDetector.Network.Connection
