import MuonDetector.Ublox.ProtVersion
import MuonDetector.Ublox.Parser

/-!
# The serial connection to the receiver

The configuration commands that `SerialUblox` turns into messages, and what it makes
of the bytes it reads. The state keeps the raw strings that were posted to the write
strand and the commands that were published on the bus; a handler that throws or
writes outside an array gives a fault. What is logged is left out, and so is the time
of sending, which nothing reads.
-/

namespace MuonDetector.Ublox.Serial

open MuonDetector.Library MuonDetector.Utility.HelperFunctions MuonDetector.Ublox.Message
open MuonDetector.Ublox.Parser MuonDetector.Ublox.Events MuonDetector.Ublox.MessageProcessor
open MuonDetector.Ublox.ProtVersion

/-! ## Commands -/

structure UbxMsgRateCmd where
  id : UInt16
  port : UInt8
  rate : UInt8
  deriving DecidableEq, Repr

structure UbxGnssConfigCmd where
  gnssConfigs : List GnssConfigStruct
  deriving DecidableEq, Repr

inductive VersionedCmd where
  | msgRate (cmd : UbxMsgRateCmd)
  | gnssConfig (cmd : UbxGnssConfigCmd)
  deriving DecidableEq, Repr

structure UbxVersionDependentCmd.Entry where
  min : UbxProtVersion
  max : UbxProtVersion
  cmd : VersionedCmd
  deriving DecidableEq, Repr

structure UbxVersionDependentCmd where
  config : List UbxVersionDependentCmd.Entry
  deriving DecidableEq, Repr

/-- The commands published on the bus. -/
inductive BusCmd where
  | msgPoll (id : UInt16)
  | msgPollRate (id : UInt16)
  deriving DecidableEq, Repr

/-! ## The state -/

inductive InitState where
  | connecting
  | receivedProtoAck
  | receivedRateAck
  | ready
  deriving DecidableEq, Repr

inductive Fault where
  | badOptionalAccess
  | outOfBounds
  deriving DecidableEq, Repr

structure SerialUblox where
  initState : InitState := .connecting
  pending : List (UInt16 × UbxMessage) := []
  protocolVersion : Option GpsVersion := none
  queuedCmds : List UbxVersionDependentCmd := []
  posted : List (List UInt8) := []
  published : List BusCmd := []
  retries : Nat := 0
  deriving DecidableEq, Repr

def publish (s : SerialUblox) (cmd : BusCmd) : SerialUblox :=
  { s with published := s.published ++ [cmd] }

def retryLater (s : SerialUblox) : SerialUblox := { s with retries := s.retries + 1 }

def isAllowed (s : SerialUblox) (msg : UbxMessage) : Bool :=
  s.initState = .ready ||
    (s.initState = .connecting && msg.fullId = MsgId.cfgPrt) ||
    (s.initState = .receivedProtoAck && msg.fullId = MsgId.cfgRate)

section Handlers

variable (signedChar : Bool)

def send (s : SerialUblox) (msg : UbxMessage) (trackAck : Bool) : SerialUblox :=
  { s with
    pending := if trackAck then s.pending ++ [(msg.fullId, msg)] else s.pending
    posted := s.posted ++ [rawMessageString signedChar msg] }

def enqueueMessage (s : SerialUblox) (msg : UbxMessage) (trackAck : Bool := true) : SerialUblox :=
  if isAllowed s msg then send signedChar s msg trackAck else retryLater s

/-! ## The time pulse -/

/-- The version of the command is not sent, and the two bytes behind it stay zero. -/
def tp5Payload (tp : UbxTimePulseStruct) : List UInt8 :=
  let buf := List.replicate 32 0
  let buf := putAt .little 0 tp.tpIndex buf
  let buf := putAt .little 1 (0 : UInt8) buf
  let buf := putAt .little 4 (convert UInt16 tp.antCableDelay) buf
  let buf := putAt .little 6 (convert UInt16 tp.rfGroupDelay) buf
  let buf := putAt .little 8 tp.freqPeriod buf
  let buf := putAt .little 12 tp.freqPeriodLock buf
  let buf := putAt .little 16 tp.pulseLenRatio buf
  let buf := putAt .little 20 tp.pulseLenRatioLock buf
  let buf := putAt .little 24 (convert UInt32 tp.userConfigDelay) buf
  putAt .little 28 tp.flags buf

def handleTp5 (s : SerialUblox) (tp : UbxTimePulseStruct) : SerialUblox :=
  publish (enqueueMessage signedChar s ⟨MsgId.cfgTP5, tp5Payload tp⟩) (.msgPoll MsgId.cfgTP5)

/-! ## Message rates -/

/-- Port 6 stands for four of the ports; above it the write is outside the array. -/
def msgRatePayload (cmd : UbxMsgRateCmd) : Except Fault (List UInt8) :=
  let data : List UInt8 := List.replicate 8 0
  let data := data.set 0 (cmd.id >>> 8 &&& 0xff).toUInt8
  let data := data.set 1 (cmd.id &&& 0xff).toUInt8
  if cmd.port ≠ 6 then
    if 2 + cmd.port.toNat < data.length then .ok (data.set (2 + cmd.port.toNat) cmd.rate)
    else .error .outOfBounds
  else .ok ((List.range' 2 4).foldl (fun data i => data.set i cmd.rate) data)

def handleMsgRate (s : SerialUblox) (cmd : UbxMsgRateCmd) : Except Fault SerialUblox := do
  let data ← msgRatePayload cmd
  let s := enqueueMessage signedChar s ⟨MsgId.cfgMsg, data⟩
  pure (publish s (.msgPollRate cmd.id))

/-! ## GNSS configuration -/

def configFlags (version : UbxProtVersion) (cfg : GnssConfigStruct) : UInt32 :=
  if version.major ≥ 15 then
    let flags := cfg.flags ||| (0x0001 : UInt32) <<< 16
    if cfg.gnssId = 5 then flags ||| (0x0004 : UInt32) <<< 16 else flags
  else cfg.flags

/-- The body of the loop over the blocks. The fourth byte of a block stays zero. -/
def putConfig (version : Option UbxProtVersion) (data : List UInt8) (i : Nat)
    (cfg : GnssConfigStruct) : Except Fault (List UInt8) :=
  match version with
  | none => .error .badOptionalAccess
  | some version =>
    let flags := configFlags version cfg
    let data := data.set (4 + 8 * i) cfg.gnssId
    let data := data.set (5 + 8 * i) cfg.resTrkCh
    let data := data.set (6 + 8 * i) cfg.maxTrkCh
    let data := data.set (8 + 8 * i) (flags &&& 0xff).toUInt8
    let data := data.set (9 + 8 * i) (flags >>> 8 &&& 0xff).toUInt8
    let data := data.set (10 + 8 * i) (flags >>> 16 &&& 0xff).toUInt8
    .ok (data.set (11 + 8 * i) (flags >>> 24 &&& 0xff).toUInt8)

/-- The loop over the blocks, from the block `i` on. -/
def putConfigs (version : Option UbxProtVersion) (data : List UInt8) (i : Nat) :
    List GnssConfigStruct → Except Fault (List UInt8)
  | [] => .ok data
  | cfg :: rest => do
    let data ← putConfig version data i cfg
    putConfigs version data (i + 1) rest

def gnssPayload (version : Option UbxProtVersion) (configs : List GnssConfigStruct) :
    Except Fault (List UInt8) :=
  let n := configs.length
  let data : List UInt8 := List.replicate (4 + 8 * n) 0
  let data := data.set 0 0
  let data := data.set 1 0
  let data := data.set 2 0xff
  let data := data.set 3 (UInt8.ofNat n)
  putConfigs version data 0 configs

/-- `processQueuedCmds` before a version is known. -/
def pollVersion (s : SerialUblox) : SerialUblox := publish s (.msgPoll MsgId.monVer)

def handleGnssConfig (s : SerialUblox) (cmd : UbxGnssConfigCmd) : Except Fault SerialUblox :=
  match s.protocolVersion with
  | none =>
    let entry := ⟨⟨0, 1⟩, ⟨99, 0⟩, .gnssConfig cmd⟩
    .ok (pollVersion { s with queuedCmds := s.queuedCmds ++ [⟨[entry]⟩] })
  | some gps => do
    let data ← gnssPayload (getProtVersion gps.prot) cmd.gnssConfigs
    let s := enqueueMessage signedChar s ⟨MsgId.cfgGNSS, data⟩
    pure (publish s (.msgPoll MsgId.cfgGNSS))

end Handlers

/-! ## The read completion -/

/-- The parser of the connection and the static variables of the decoders. -/
structure Receiver where
  parser : UbxParser := {}
  processor : ProcessorState := {}
  deriving DecidableEq, Repr

/-- The events of the messages one after the other, or nothing when a decoder has read
past its payload. -/
def processMessages (c : Bool) (s : ProcessorState) :
    List UbxMessage → Option (List UbxEvent × ProcessorState)
  | [] => some ([], s)
  | m :: ms => do
    let (event, s) ← (processMessage c s m).1
    let (events, s) ← processMessages c s ms
    pure (event.toList ++ events, s)

/-- The completion of a read: the events published and the state after them. -/
def onRead (c : Bool) (r : Receiver) (data : List UInt8) : Option (List UbxEvent × Receiver) := do
  let (parser, msgs) := feed r.parser data
  let (events, processor) ← processMessages c r.processor msgs
  pure (events, { parser, processor })

def onReads (c : Bool) (r : Receiver) : List (List UInt8) → Option (List UbxEvent × Receiver)
  | [] => some ([], r)
  | data :: rest => do
    let (events, r) ← onRead c r data
    let (more, r) ← onReads c r rest
    pure (events ++ more, r)

theorem processMessages_append (c : Bool) (s : ProcessorState) (ms ns : List UbxMessage) :
    processMessages c s (ms ++ ns) = (do
      let (events, s) ← processMessages c s ms
      let (more, s) ← processMessages c s ns
      pure (events ++ more, s)) := by
  induction ms generalizing s with
  | nil =>
    cases h : processMessages c s ns with
    | none => simp [processMessages, h]
    | some r => simp [processMessages, h]
  | cons m ms ih =>
    rw [List.cons_append, processMessages, processMessages]
    cases hm : (processMessage c s m).1 with
    | none => rfl
    | some r =>
      obtain ⟨event, s'⟩ := r
      simp [ih, List.append_assoc, Option.bind_assoc]

/-- The cuts between the reads do not matter. -/
theorem onReads_eq (c : Bool) (r : Receiver) (chunks : List (List UInt8)) :
    onReads c r chunks = onRead c r chunks.flatten := by
  induction chunks generalizing r with
  | nil => rfl
  | cons data rest ih =>
    obtain ⟨p, s⟩ := r
    have hcut : feed p (data ++ rest.flatten) =
        ((feed (feed p data).1 rest.flatten).1,
          (feed p data).2 ++ (feed (feed p data).1 rest.flatten).2) := Scanner.scan_append ..
    simp only [onReads, List.flatten_cons, onRead, hcut, processMessages_append, ih]
    cases hfirst : processMessages c s (feed p data).2 with
    | none => rfl
    | some first => simp [Option.bind_assoc]

end MuonDetector.Ublox.Serial
