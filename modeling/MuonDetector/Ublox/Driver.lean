import MuonDetector.Library.Machine
import MuonDetector.Ublox.Commands

/-!
# The receiver driver as a state machine

The handlers that depend on the state of `SerialUblox`, the connection they run on,
and the labels that drive them. There is one io thread, so that a handler is one
step. What `send` gets is posted, put into the queue of the writes when the posted task
runs, and written when the writes in front of it are done, whatever the state is then.
The state keeps what was sent and what was written, each with the state at that time, what
was refused, and what was queued and what was run out of the queue. A handler that throws
ends the run, and what it had done before is dropped.

The subscriptions for acknowledgements post a handler that holds a reference to the event.
The event is gone when the handler runs, so that it may read another id than arrived.
-/

namespace MuonDetector.Ublox.Driver

open MuonDetector.Library
open MuonDetector.Ublox.Message MuonDetector.Ublox.Events MuonDetector.Ublox.ProtVersion
open MuonDetector.Ublox.MessageProcessor MuonDetector.Ublox.Serial MuonDetector.Ublox.Commands

/-! ## The state -/

/-- The configuration that the constructor is given. -/
structure Settings where
  baud : UInt32
  dynModel : UInt8
  deriving DecidableEq, Repr

/-- What ends the io thread. -/
inductive Crash where
  | fault (fault : Fault)
  | invalidRate
  | alreadyOpen
  deriving DecidableEq, Repr

/-- What is published besides polls. -/
inductive Announcement where
  | configDefault
  | storeCfgMsg (data : CfgMsg)
  deriving DecidableEq, Repr

/-- An entry that was run out of the queue, and what its handler gave to `send`. -/
structure Ran where
  entry : UbxVersionDependentCmd.Entry
  sent : List (InitState × UbxMessage)
  deriving DecidableEq, Repr

/-- Every call of `retryLater` starts a wait of the timer and gets one completion,
whether the wait ended or was cancelled; `fired` of them have run. The messages in
`txTasks` are in tasks that `send` has posted and that have not run; the front of `txQueue`
is the one that `do_write` was called for. -/
structure SerialDriver extends SerialUblox where
  isOpen : Bool := false
  reads : Nat := 0
  fired : Nat := 0
  announced : List Announcement := []
  sent : List (InitState × UbxMessage) := []
  txTasks : List UbxMessage := []
  txQueue : List UbxMessage := []
  writing : Bool := false
  written : List (InitState × UbxMessage) := []
  refused : List UbxMessage := []
  accepted : List UbxVersionDependentCmd := []
  ran : List Ran := []
  crashed : Option Crash := none
  deriving DecidableEq, Repr

/-- The commands taken off the bus. -/
inductive Command where
  | dynamicModel (cmd : UbxDynamicModelCmd)
  | gnssConfig (cmd : UbxGnssConfigCmd)
  | minCno (cmd : UbxMinCnoCmd)
  | minMaxSv (cmd : UbxMinMaxSvCmd)
  | msgPoll (cmd : UbxMsgPollCmd)
  | msgPollRate (cmd : UbxMsgPollRateCmd)
  | reset (cmd : UbxResetCmd)
  | save (cmd : UbxSaveCmd)
  | setAop (cmd : UbxSetAopCmd)
  | versionDependent (cmd : UbxVersionDependentCmd)
  | tp5 (cmd : UbxTimePulseStruct)
  | configDefault
  | gpsVersion (version : GpsVersion)
  deriving DecidableEq, Repr

/-- Of an acknowledgement, what arrived and what the handler reads. -/
inductive Label where
  | command (cmd : Command)
  | ackAck (event read : UbxAckAck)
  | ackNak (event read : UbxAckNak)
  | txTask
  | writeDone
  | writeError
  | readDone
  | readError
  | retry
  deriving DecidableEq, Repr

def applies (e : UbxVersionDependentCmd.Entry) (v : UbxProtVersion) : Bool :=
  !v.less e.min && !e.max.less v

section Handlers

variable (signedChar : Bool) (settings : Settings)

/-! ## Effects -/

def perform (d : SerialDriver) : Effect → SerialDriver
  | .enqueue msg trackAck =>
    { d with
      toSerialUblox := enqueueMessage signedChar d.toSerialUblox msg trackAck
      sent := if isAllowed d.toSerialUblox msg then d.sent ++ [(d.initState, msg)] else d.sent
      txTasks := if isAllowed d.toSerialUblox msg then d.txTasks ++ [msg] else d.txTasks
      refused := if isAllowed d.toSerialUblox msg then d.refused else d.refused ++ [msg] }
  | .publish cmd => { d with toSerialUblox := publish d.toSerialUblox cmd }

def performAll (d : SerialDriver) (es : List Effect) : SerialDriver := es.foldl (perform signedChar) d

/-! ## The queue of the version-dependent commands -/

def emplace (d : SerialDriver) (cmd : UbxVersionDependentCmd) : SerialDriver :=
  { d with queuedCmds := d.queuedCmds ++ [cmd], accepted := d.accepted ++ [cmd] }

def handleMsgRate (d : SerialDriver) (cmd : UbxMsgRateCmd) : Except Fault SerialDriver := do
  let es ← msgRateEffects cmd
  pure (performAll signedChar d es)

/-- Without a version the command joins the queue, and `processQueuedCmds` polls for one. -/
def handleGnssConfig (d : SerialDriver) (cmd : UbxGnssConfigCmd) : Except Fault SerialDriver :=
  match d.protocolVersion with
  | none =>
    let d := emplace d ⟨[⟨⟨0, 1⟩, ⟨99, 0⟩, .gnssConfig cmd⟩]⟩
    .ok (perform signedChar d (.publish (.msgPoll MsgId.monVer)))
  | some gps => do
    let es ← gnssConfigEffects (getProtVersion gps.prot) cmd
    pure (performAll signedChar d es)

def handleVersioned (d : SerialDriver) : VersionedCmd → Except Fault SerialDriver
  | .msgRate cmd => handleMsgRate signedChar d cmd
  | .gnssConfig cmd => handleGnssConfig signedChar d cmd

/-- The loop over the entries of one command. -/
def runEntries (version : UbxProtVersion) (d : SerialDriver) :
    List UbxVersionDependentCmd.Entry → Except Fault SerialDriver
  | [] => .ok d
  | entry :: rest =>
    if applies entry version then do
      let d' ← handleVersioned signedChar d entry.cmd
      runEntries version
        { d' with ran := d'.ran ++ [⟨entry, d'.sent.drop d.sent.length⟩] } rest
    else runEntries version d rest

/-- The loop over the queue. -/
def runQueue (version : UbxProtVersion) (d : SerialDriver) :
    List UbxVersionDependentCmd → Except Fault SerialDriver
  | [] => .ok d
  | command :: rest => do
    let d ← runEntries signedChar version { d with queuedCmds := rest } command.config
    runQueue version d rest

/-- The pauses between the commands are left out. -/
def processQueuedCmds (d : SerialDriver) : Except Fault SerialDriver :=
  match d.protocolVersion with
  | none => .ok (perform signedChar d (.publish (.msgPoll MsgId.monVer)))
  | some gps =>
    match getProtVersion gps.prot with
    | none => .ok d
    | some version => runQueue signedChar version d d.queuedCmds

def handleVersionDependent (d : SerialDriver) (cmd : UbxVersionDependentCmd) : Except Fault SerialDriver :=
  processQueuedCmds signedChar (emplace d cmd)

/-- Only the first version is kept. -/
def handleGpsVersion (d : SerialDriver) (version : GpsVersion) : Except Fault SerialDriver :=
  if d.protocolVersion.isSome then .ok d
  else processQueuedCmds signedChar { d with protocolVersion := some version }

/-! ## The handshake -/

def maxUnsigned : UInt32 := 0xffffffff

/-- Up to version 15 one message lists the satellites. -/
def navSvInfoRates : UbxVersionDependentCmd :=
  ⟨[⟨⟨0, 1⟩, ⟨15, 0⟩, .msgRate ⟨MsgId.navSVinfo, 1, 69⟩⟩,
    ⟨⟨15, 0⟩, ⟨maxUnsigned, 0⟩, .msgRate ⟨MsgId.navSVinfo, 1, 0⟩⟩]⟩

/-- From version 15 on another one does. -/
def navSatRates : UbxVersionDependentCmd :=
  ⟨[⟨⟨15, 0⟩, ⟨maxUnsigned, 0⟩, .msgRate ⟨MsgId.navSat, 1, 69⟩⟩]⟩

def initAllUbxMsgRate (d : SerialDriver) : Except Fault SerialDriver :=
  defaultRates.foldlM (handleMsgRate signedChar) d

/-- What the driver sends when the handshake is over. -/
def sendDefaults (d : SerialDriver) : Except Fault SerialDriver := do
  let d := performAll signedChar d (dynamicModelEffects ⟨settings.dynModel⟩)
  let d := performAll signedChar d (setAopEffects ⟨true, 0⟩)
  let d ← initAllUbxMsgRate signedChar d
  let d := performAll signedChar d pollAllUbxMsg
  let d := performAll signedChar d pollAllUbxMsgRate
  let d ← handleVersionDependent signedChar d navSvInfoRates
  handleVersionDependent signedChar d navSatRates

def measRate : UInt16 := 100
def navRate : UInt16 := 1

/-- The source tests the three states one after the other; only the last test changes
the state, so at most one of them applies. -/
def handleConfigDefault (d : SerialDriver) : Except Crash SerialDriver :=
  match d.initState with
  | .connecting => .ok (perform signedChar d (.enqueue (protSelCmd settings.baud) true))
  | .receivedProtoAck =>
    match rateSelCmd measRate navRate with
    | none => .error .invalidRate
    | some msg => .ok (perform signedChar d (.enqueue msg true))
  | .receivedRateAck =>
    (sendDefaults signedChar settings { d with initState := .ready }).mapError .fault
  | .ready => .ok d

def handle (d : SerialDriver) : Command → Except Crash SerialDriver
  | .dynamicModel cmd => .ok (performAll signedChar d (dynamicModelEffects cmd))
  | .gnssConfig cmd => (handleGnssConfig signedChar d cmd).mapError .fault
  | .minCno cmd => .ok (performAll signedChar d (minCnoEffects cmd))
  | .minMaxSv cmd => .ok (performAll signedChar d (minMaxSvEffects cmd))
  | .msgPoll cmd => .ok (performAll signedChar d (msgPollEffects cmd))
  | .msgPollRate cmd => .ok (performAll signedChar d (msgPollRateEffects cmd))
  | .reset cmd => .ok (performAll signedChar d (resetEffects cmd))
  | .save cmd => .ok (performAll signedChar d (saveEffects cmd))
  | .setAop cmd => .ok (performAll signedChar d (setAopEffects cmd))
  | .versionDependent cmd => (handleVersionDependent signedChar d cmd).mapError .fault
  | .tp5 cmd => .ok (performAll signedChar d (tp5Effects cmd))
  | .configDefault => handleConfigDefault signedChar settings d
  | .gpsVersion version => (handleGpsVersion signedChar d version).mapError .fault

/-! ## Acknowledgements -/

def hasPending (d : SerialDriver) (id : UInt16) : Bool := d.pending.any (·.1 = id)

/-- `pending_.erase(range.first)`, which removes one element if there is one. -/
def erasePending (d : SerialDriver) (id : UInt16) : SerialDriver :=
  { d with pending := d.pending.eraseP (·.1 = id) }

/-- An acknowledgement of nothing pending is logged and goes on like the others. -/
def handleAckAck (d : SerialDriver) (ack : UbxAckAck) : SerialDriver :=
  let d := erasePending d ack.msgID
  if d.initState = .ready then d
  else if ack.msgID = MsgId.cfgPrt then
    { d with
      initState := .receivedProtoAck
      announced := d.announced ++ [.configDefault] }
  else if ack.msgID = MsgId.cfgRate then
    { d with
      initState := .receivedRateAck
      announced := d.announced ++ [.configDefault] }
  else d

def handleAckNak (d : SerialDriver) (ackNak : UbxAckNak) : SerialDriver :=
  let d := { d with announced := d.announced ++ [.storeCfgMsg ⟨ackNak.msgID, -1⟩] }
  erasePending d ackNak.msgID

/-! ## Writing -/

/-- Starts the write of the front element. -/
def doWrite (d : SerialDriver) : SerialDriver :=
  match d.txQueue with
  | [] => d
  | data :: _ => { d with writing := true, written := d.written ++ [(d.initState, data)] }

/-- The task that `send` has posted. -/
def onTxTask (d : SerialDriver) (data : UbxMessage) : SerialDriver :=
  let writeInProgress := !d.txQueue.isEmpty
  let d := { d with txTasks := d.txTasks.tail, txQueue := d.txQueue ++ [data] }
  if writeInProgress then d else doWrite d

def onWriteDone (d : SerialDriver) : SerialDriver :=
  let d := { d with txQueue := d.txQueue.tail, writing := false }
  if d.txQueue.isEmpty then d else doWrite d

/-- The element stays in the queue, and nothing is written any more. -/
def onWriteError (d : SerialDriver) : SerialDriver := { d with writing := false }

/-! ## The connection -/

def startAsyncRead (d : SerialDriver) : SerialDriver := { d with reads := d.reads + 1 }

/-- To open an open port is an error, and the error is thrown. Nothing closes the port. -/
def makeConnection (d : SerialDriver) : SerialDriver :=
  if d.isOpen then { d with crashed := some .alreadyOpen }
  else
    let d := startAsyncRead { d with isOpen := true }
    perform signedChar d (.enqueue (protSelCmd settings.baud) true)

/-- The driver as its constructor leaves it, with the port opened. -/
def start : SerialDriver := makeConnection signedChar settings {}

/-- The handler of a read that brought bytes. What it makes of them is `onRead`, and
what the events lead to comes back as labels. -/
def onReadDone (d : SerialDriver) : SerialDriver := startAsyncRead { d with reads := d.reads - 1 }

def onReadError (d : SerialDriver) : SerialDriver :=
  { d with toSerialUblox := retryLater d.toSerialUblox, reads := d.reads - 1 }

def onRetry (d : SerialDriver) : SerialDriver :=
  makeConnection signedChar settings { d with fired := d.fired + 1 }

def step (d : SerialDriver) (l : Label) : Option SerialDriver :=
  if d.crashed ≠ none then none
  else
    match l with
    | .command cmd =>
      match handle signedChar settings d cmd with
      | .ok d => some d
      | .error crash => some { d with crashed := some crash }
    | .ackAck _ read => some (handleAckAck d read)
    | .ackNak _ read => some (handleAckNak d read)
    | .txTask =>
      match d.txTasks with
      | [] => none
      | data :: _ => some (onTxTask d data)
    | .writeDone => if d.writing then some (onWriteDone d) else none
    | .writeError => if d.writing then some (onWriteError d) else none
    | .readDone => if 0 < d.reads then some (onReadDone d) else none
    | .readError => if 0 < d.reads then some (onReadError d) else none
    | .retry => if d.fired < d.retries then some (onRetry signedChar settings d) else none

/-! ## What a handler does

A handler updates the queue, or ends the handshake, and has effects in the state that
this leaves. Both follow from the state before it and the command. -/

/-- What the effects leave alone and the queue works on. -/
structure Book where
  protocolVersion : Option GpsVersion
  queuedCmds : List UbxVersionDependentCmd
  accepted : List UbxVersionDependentCmd
  ran : List Ran

def book (d : SerialDriver) : Book :=
  ⟨d.protocolVersion, d.queuedCmds, d.accepted, d.ran⟩

def withBook (d : SerialDriver) (b : Book) : SerialDriver :=
  { d with
    protocolVersion := b.protocolVersion
    queuedCmds := b.queuedCmds
    accepted := b.accepted
    ran := b.ran }

/-- The state in which a handler has its effects, and the effects. -/
abbrev Plan := SerialDriver × List Effect

def Plan.run (p : Plan) : SerialDriver := performAll signedChar p.1 p.2

def versionedEffects (gps : GpsVersion) : VersionedCmd → Except Fault (List Effect)
  | .msgRate cmd => msgRateEffects cmd
  | .gnssConfig cmd => gnssConfigEffects (getProtVersion gps.prot) cmd

def entriesEffects (gps : GpsVersion) (version : UbxProtVersion) :
    List UbxVersionDependentCmd.Entry → Except Fault (List Effect)
  | [] => .ok []
  | entry :: rest =>
    if applies entry version then do
      let es ← versionedEffects gps entry.cmd
      let fs ← entriesEffects gps version rest
      pure (es ++ fs)
    else entriesEffects gps version rest

def queueEffects (gps : GpsVersion) (version : UbxProtVersion) :
    List UbxVersionDependentCmd → Except Fault (List Effect)
  | [] => .ok []
  | command :: rest => do
    let es ← entriesEffects gps version command.config
    let fs ← queueEffects gps version rest
    pure (es ++ fs)

/-- The entries of the commands that the version is in range of. -/
def entriesFor (version : UbxProtVersion) (queue : List UbxVersionDependentCmd) :
    List UbxVersionDependentCmd.Entry :=
  queue.flatMap fun command => command.config.filter (applies · version)

/-- What effects give to `send` in a state. -/
def sentIn (state : InitState) (es : List Effect) : List (InitState × UbxMessage) :=
  ((messages es).filter (isAllowed { initState := state })).map fun msg => (state, msg)

/-- The record of an entry whose handler does not throw. -/
def recordOf (state : InitState) (gps : GpsVersion) (entry : UbxVersionDependentCmd.Entry) : Ran :=
  ⟨entry, ((versionedEffects gps entry.cmd).toOption.map (sentIn state)).getD []⟩

/-- The queue run to its end. -/
def drained (gps : GpsVersion) (version : UbxProtVersion) (d : SerialDriver) : SerialDriver :=
  { d with
    queuedCmds := []
    ran := d.ran ++ (entriesFor version d.queuedCmds).map (recordOf d.initState gps) }

def planQueue (d : SerialDriver) : Except Fault Plan :=
  match d.protocolVersion with
  | none => .ok (d, [.publish (.msgPoll MsgId.monVer)])
  | some gps =>
    match getProtVersion gps.prot with
    | none => .ok (d, [])
    | some version => do
      let es ← queueEffects gps version d.queuedCmds
      pure (drained gps version d, es)

def planGnssConfig (d : SerialDriver) (cmd : UbxGnssConfigCmd) : Except Fault Plan :=
  match d.protocolVersion with
  | none =>
    .ok (emplace d ⟨[⟨⟨0, 1⟩, ⟨99, 0⟩, .gnssConfig cmd⟩]⟩, [.publish (.msgPoll MsgId.monVer)])
  | some gps => do
    let es ← gnssConfigEffects (getProtVersion gps.prot) cmd
    pure (d, es)

def planGpsVersion (d : SerialDriver) (version : GpsVersion) : Except Fault Plan :=
  if d.protocolVersion.isSome then .ok (d, [])
  else planQueue { d with protocolVersion := some version }

def ratesEffects : List UbxMsgRateCmd → Except Fault (List Effect)
  | [] => .ok []
  | cmd :: rest => do
    let es ← msgRateEffects cmd
    let fs ← ratesEffects rest
    pure (es ++ fs)

def planDefaults (d : SerialDriver) : Except Fault Plan := do
  let rates ← ratesEffects defaultRates
  let es := dynamicModelEffects ⟨settings.dynModel⟩ ++ setAopEffects ⟨true, 0⟩ ++ rates ++
    pollAllUbxMsg ++ pollAllUbxMsgRate
  let p ← planQueue (emplace d navSvInfoRates)
  let q ← planQueue (emplace p.1 navSatRates)
  pure (q.1, es ++ p.2 ++ q.2)

def planConfigDefault (d : SerialDriver) : Except Crash Plan :=
  match d.initState with
  | .connecting => .ok (d, [.enqueue (protSelCmd settings.baud) true])
  | .receivedProtoAck =>
    match rateSelCmd measRate navRate with
    | none => .error .invalidRate
    | some msg => .ok (d, [.enqueue msg true])
  | .receivedRateAck => (planDefaults settings { d with initState := .ready }).mapError .fault
  | .ready => .ok (d, [])

def plan (d : SerialDriver) : Command → Except Crash Plan
  | .dynamicModel cmd => .ok (d, dynamicModelEffects cmd)
  | .gnssConfig cmd => (planGnssConfig d cmd).mapError .fault
  | .minCno cmd => .ok (d, minCnoEffects cmd)
  | .minMaxSv cmd => .ok (d, minMaxSvEffects cmd)
  | .msgPoll cmd => .ok (d, msgPollEffects cmd)
  | .msgPollRate cmd => .ok (d, msgPollRateEffects cmd)
  | .reset cmd => .ok (d, resetEffects cmd)
  | .save cmd => .ok (d, saveEffects cmd)
  | .setAop cmd => .ok (d, setAopEffects cmd)
  | .versionDependent cmd => (planQueue (emplace d cmd)).mapError .fault
  | .tp5 cmd => .ok (d, tp5Effects cmd)
  | .configDefault => planConfigDefault settings d
  | .gpsVersion version => (planGpsVersion d version).mapError .fault

/-! ## What the effects do to the state -/

structure Performed (d : SerialDriver) (es : List Effect) (d' : SerialDriver) : Prop where
  initState : d'.initState = d.initState
  connection : (d'.isOpen, d'.reads, d'.fired, d'.crashed) = (d.isOpen, d.reads, d.fired, d.crashed)
  pending : d.pending <+: d'.pending
  sent : d'.sent = d.sent ++ sentIn d.initState es
  txTasks : d'.txTasks = d.txTasks ++ (messages es).filter (isAllowed d.toSerialUblox)
  writes : (d'.txQueue, d'.writing, d'.written) = (d.txQueue, d.writing, d.written)
  refused : d'.refused = d.refused ++ (messages es).filter (!isAllowed d.toSerialUblox ·)
  retries : d'.retries + d.refused.length = d.retries + d'.refused.length

/-- What may be sent depends on the state of the handshake only. -/
theorem isAllowed_eq (s : SerialUblox) : isAllowed { initState := s.initState } = isAllowed s := rfl

theorem sentIn_append (state : InitState) (es fs : List Effect) :
    sentIn state (es ++ fs) = sentIn state es ++ sentIn state fs := by
  simp [sentIn, messages_append]

theorem perform_performed (d : SerialDriver) (e : Effect) :
    Performed d [e] (perform signedChar d e) := by
  cases e with
  | publish cmd => constructor <;> simp [perform, publish, messages, Effect.message?, sentIn]
  | enqueue msg trackAck =>
    have hsent : sentIn d.initState [.enqueue msg trackAck] =
        ([msg].filter (isAllowed d.toSerialUblox)).map fun msg => (d.initState, msg) := rfl
    cases h : isAllowed d.toSerialUblox msg with
    | true =>
      constructor <;> simp [perform, enqueueMessage, h, send, messages, Effect.message?, hsent]
      split
      · exact List.prefix_append ..
      · exact List.prefix_rfl
    | false =>
      constructor <;> simp [perform, enqueueMessage, h, retryLater, messages, Effect.message?, hsent]
      omega

theorem performAll_performed (d : SerialDriver) (es : List Effect) :
    Performed d es (performAll signedChar d es) := by
  induction es generalizing d with
  | nil => constructor <;> simp [performAll, sentIn]
  | cons e es ih =>
    have hfirst := perform_performed signedChar d e
    have hrest := ih (perform signedChar d e)
    have hallowed : isAllowed (perform signedChar d e).toSerialUblox =
        isAllowed d.toSerialUblox := by
      rw [← isAllowed_eq, hfirst.initState, isAllowed_eq]
    have hmessages : messages (e :: es) = messages [e] ++ messages es := messages_append [e] es
    have hall : performAll signedChar d (e :: es) =
        performAll signedChar (perform signedChar d e) es :=
      rfl
    rw [hall]
    constructor
    · rw [hrest.initState, hfirst.initState]
    · rw [hrest.connection, hfirst.connection]
    · exact hfirst.pending.trans hrest.pending
    · rw [hrest.sent, hfirst.sent, hfirst.initState, List.append_assoc, ← sentIn_append]
      rfl
    · rw [hrest.txTasks, hfirst.txTasks, hallowed, hmessages]
      simp
    · rw [hrest.writes, hfirst.writes]
    · rw [hrest.refused, hfirst.refused, hallowed, hmessages]
      simp
    · have h₁ := hfirst.retries
      have h₂ := hrest.retries
      omega

/-! ## The handlers follow their plans -/

theorem perform_withBook (d : SerialDriver) (b : Book) (e : Effect) :
    perform signedChar (withBook d b) e = withBook (perform signedChar d e) b := by
  cases e with
  | publish cmd => rfl
  | enqueue msg trackAck =>
    have hallowed : isAllowed (withBook d b).toSerialUblox msg = isAllowed d.toSerialUblox msg := rfl
    simp only [perform, enqueueMessage, hallowed]
    split <;> rfl

theorem performAll_withBook (d : SerialDriver) (b : Book) (es : List Effect) :
    performAll signedChar (withBook d b) es = withBook (performAll signedChar d es) b := by
  induction es generalizing d with
  | nil => rfl
  | cons e es ih =>
    simp only [performAll, List.foldl_cons] at ih ⊢
    rw [perform_withBook, ih]

theorem book_performAll (d : SerialDriver) (es : List Effect) :
    book (performAll signedChar d es) = book d := by
  have h : withBook d (book d) = d := rfl
  calc book (performAll signedChar d es)
      = book (performAll signedChar (withBook d (book d)) es) := by rw [h]
    _ = book d := by rw [performAll_withBook]; rfl

theorem performAll_append (d : SerialDriver) (es fs : List Effect) :
    performAll signedChar d (es ++ fs) = performAll signedChar (performAll signedChar d es) fs :=
  List.foldl_append ..

theorem protocolVersion_performAll (d : SerialDriver) (es : List Effect) :
    (performAll signedChar d es).protocolVersion = d.protocolVersion :=
  congrArg Book.protocolVersion (book_performAll signedChar d es)

theorem queuedCmds_performAll (d : SerialDriver) (es : List Effect) :
    (performAll signedChar d es).queuedCmds = d.queuedCmds :=
  congrArg Book.queuedCmds (book_performAll signedChar d es)

theorem handleVersioned_eq {d : SerialDriver} {gps : GpsVersion}
    (h : d.protocolVersion = some gps) (cmd : VersionedCmd) :
    handleVersioned signedChar d cmd =
      (versionedEffects gps cmd).map (performAll signedChar d) := by
  cases cmd with
  | msgRate cmd => rfl
  | gnssConfig cmd =>
    simp only [handleVersioned, handleGnssConfig, h, versionedEffects]
    rfl

/-- The record of the handlers that have run, with more of it. -/
def withRan (d : SerialDriver) (records : List Ran) : SerialDriver :=
  { d with ran := d.ran ++ records }

theorem withRan_performAll (d : SerialDriver) (records : List Ran) (es : List Effect) :
    withRan (performAll signedChar d es) records = performAll signedChar (withRan d records) es := by
  have hbook := book_performAll signedChar d es
  simp only [book, Book.mk.injEq] at hbook
  obtain ⟨hversion, hqueue, haccepted, hran⟩ := hbook
  have h : withRan d records = withBook d ⟨d.protocolVersion, d.queuedCmds, d.accepted,
    d.ran ++ records⟩ := rfl
  rw [h, performAll_withBook, withRan, hran, ← hversion, ← haccepted, ← hqueue]
  rfl

/-- The queue can as well be run before the effects. -/
theorem drained_performAll (gps : GpsVersion) (version : UbxProtVersion) (d : SerialDriver)
    (es : List Effect) :
    drained gps version (performAll signedChar d es) =
      performAll signedChar (drained gps version d) es := by
  have hbook := book_performAll signedChar d es
  simp only [book, Book.mk.injEq] at hbook
  obtain ⟨hversion, hqueue, haccepted, hran⟩ := hbook
  have hrecord : recordOf (performAll signedChar d es).initState = recordOf d.initState := by
    rw [(performAll_performed signedChar d es).initState]
  have h : drained gps version d = withBook d ⟨d.protocolVersion, [], d.accepted,
    d.ran ++ (entriesFor version d.queuedCmds).map (recordOf d.initState gps)⟩ := rfl
  rw [h, performAll_withBook, drained, hqueue, hran, hrecord, ← hversion, ← haccepted]
  rfl

theorem runEntries_eq {d : SerialDriver} {gps : GpsVersion} (version : UbxProtVersion)
    (h : d.protocolVersion = some gps) (entries : List UbxVersionDependentCmd.Entry) :
    runEntries signedChar version d entries =
      (entriesEffects gps version entries).map (performAll signedChar
        (withRan d ((entries.filter (applies · version)).map (recordOf d.initState gps)))) := by
  induction entries generalizing d with
  | nil =>
    have hnil : withRan d [] = d := by
      rw [withRan, List.append_nil]
    rw [runEntries, entriesEffects, List.filter_nil, List.map_nil, hnil]
    rfl
  | cons entry rest ih =>
    rw [runEntries, entriesEffects]
    split
    · rename_i happlies
      rw [handleVersioned_eq signedChar h]
      cases hes : versionedEffects gps entry.cmd with
      | error e => rfl
      | ok es =>
        -- the handler has given to `send` what the record of its entry says
        have hperformed := performAll_performed signedChar d es
        have hrecord : (⟨entry, (performAll signedChar d es).sent.drop d.sent.length⟩ : Ran) =
            recordOf d.initState gps entry := by
          rw [hperformed.sent, List.drop_left, recordOf, hes]
          rfl
        have hmore : withRan (withRan d [recordOf d.initState gps entry])
            ((rest.filter (applies · version)).map (recordOf d.initState gps)) =
            withRan d (((entry :: rest).filter (applies · version)).map
              (recordOf d.initState gps)) := by
          rw [List.filter_cons, if_pos happlies, withRan, withRan, withRan]
          simp
        have hversion : (performAll signedChar (withRan d [recordOf d.initState gps entry])
            es).protocolVersion = some gps :=
          (protocolVersion_performAll signedChar _ es).trans h
        have hstate : (performAll signedChar (withRan d [recordOf d.initState gps entry])
            es).initState = d.initState :=
          (performAll_performed signedChar _ es).initState
        change runEntries signedChar version (withRan (performAll signedChar d es)
          [⟨entry, (performAll signedChar d es).sent.drop d.sent.length⟩]) rest = _
        rw [hrecord, withRan_performAll, ih hversion, hstate, withRan_performAll, hmore]
        cases entriesEffects gps version rest with
        | error e => rfl
        | ok fs => exact congrArg Except.ok (performAll_append signedChar _ es fs).symm
    · rename_i hnot
      rw [ih h, List.filter_cons, if_neg hnot]

theorem runQueue_eq {d : SerialDriver} {gps : GpsVersion} (version : UbxProtVersion)
    (h : d.protocolVersion = some gps) {queue : List UbxVersionDependentCmd}
    (hqueue : d.queuedCmds = queue) :
    runQueue signedChar version d queue =
      (queueEffects gps version queue).map (performAll signedChar (drained gps version d)) := by
  induction queue generalizing d with
  | nil =>
    have hd : drained gps version d = d := by
      rw [drained, hqueue, entriesFor, List.flatMap_nil, List.map_nil, List.append_nil, ← hqueue]
    rw [runQueue, queueEffects, hd]
    rfl
  | cons command rest ih =>
    rw [runQueue, queueEffects]
    have h₁ : ({ d with queuedCmds := rest } : SerialDriver).protocolVersion = some gps := h
    rw [runEntries_eq signedChar version h₁]
    set d₁ : SerialDriver := withRan { d with queuedCmds := rest }
      ((command.config.filter (applies · version)).map (recordOf d.initState gps)) with hd₁
    have hd : drained gps version d₁ = drained gps version d := by
      rw [drained, drained, hqueue, hd₁, withRan, entriesFor, entriesFor]
      simp
    cases entriesEffects gps version command.config with
    | error e => rfl
    | ok es =>
      have hversion : (performAll signedChar d₁ es).protocolVersion = some gps :=
        (protocolVersion_performAll signedChar d₁ es).trans h
      have hrest := ih hversion (queuedCmds_performAll signedChar d₁ es)
      change runQueue signedChar version (performAll signedChar d₁ es) rest = _
      rw [hrest, drained_performAll, hd]
      cases queueEffects gps version rest with
      | error e => rfl
      | ok fs => exact congrArg Except.ok (performAll_append signedChar _ es fs).symm

theorem processQueuedCmds_eq (d : SerialDriver) :
    processQueuedCmds signedChar d = (planQueue d).map (Plan.run signedChar) := by
  rw [processQueuedCmds, planQueue]
  cases h : d.protocolVersion with
  | none => rfl
  | some gps =>
    cases hv : getProtVersion gps.prot with
    | none => simp only [hv]; rfl
    | some version =>
      simp only [hv, runQueue_eq signedChar version h rfl]
      cases queueEffects gps version d.queuedCmds <;> rfl

theorem emplace_performAll (d : SerialDriver) (es : List Effect) (cmd : UbxVersionDependentCmd) :
    emplace (performAll signedChar d es) cmd = performAll signedChar (emplace d cmd) es := by
  have hbook := book_performAll signedChar d es
  simp only [book, Book.mk.injEq] at hbook
  obtain ⟨hversion, hqueue, haccepted, hran⟩ := hbook
  have h : emplace d cmd = withBook d ⟨d.protocolVersion, d.queuedCmds ++ [cmd],
    d.accepted ++ [cmd], d.ran⟩ := rfl
  rw [h, performAll_withBook, emplace, hqueue, haccepted, ← hversion, ← hran]
  rfl

theorem planQueue_performAll (d : SerialDriver) (es : List Effect) :
    planQueue (performAll signedChar d es) =
      (planQueue d).map fun p => (performAll signedChar p.1 es, p.2) := by
  rw [planQueue, planQueue, protocolVersion_performAll, queuedCmds_performAll]
  cases d.protocolVersion with
  | none => rfl
  | some gps =>
    cases hv : getProtVersion gps.prot with
    | none => simp only [hv]; rfl
    | some version =>
      simp only [hv]
      cases queueEffects gps version d.queuedCmds with
      | error e => rfl
      | ok fs =>
        rw [drained_performAll]
        rfl

/-- A version-dependent command after some effects. -/
theorem handleVersionDependent_performAll (d : SerialDriver) (es : List Effect)
    (cmd : UbxVersionDependentCmd) :
    handleVersionDependent signedChar (performAll signedChar d es) cmd =
      (planQueue (emplace d cmd)).map fun p => performAll signedChar p.1 (es ++ p.2) := by
  rw [handleVersionDependent, processQueuedCmds_eq, emplace_performAll, planQueue_performAll]
  cases planQueue (emplace d cmd) with
  | error e => rfl
  | ok p => exact congrArg Except.ok (performAll_append signedChar p.1 es p.2).symm

theorem initAllUbxMsgRate_eq (d : SerialDriver) (cmds : List UbxMsgRateCmd) :
    cmds.foldlM (handleMsgRate signedChar) d =
      (ratesEffects cmds).map (performAll signedChar d) := by
  induction cmds generalizing d with
  | nil => rfl
  | cons cmd rest ih =>
    rw [List.foldlM_cons, ratesEffects, handleMsgRate]
    cases msgRateEffects cmd with
    | error e => rfl
    | ok es =>
      change rest.foldlM (handleMsgRate signedChar) (performAll signedChar d es) = _
      rw [ih]
      cases ratesEffects rest with
      | error e => rfl
      | ok fs => exact congrArg Except.ok (performAll_append signedChar d es fs).symm

theorem sendDefaults_eq (d : SerialDriver) :
    sendDefaults signedChar settings d =
      (planDefaults settings d).map (Plan.run signedChar) := by
  simp only [sendDefaults, planDefaults, initAllUbxMsgRate, initAllUbxMsgRate_eq]
  cases ratesEffects defaultRates with
  | error e => rfl
  | ok rates =>
    simp only [← performAll_append, Except.map, bind, Except.bind,
      handleVersionDependent_performAll]
    cases planQueue (emplace d navSvInfoRates) with
    | error e => rfl
    | ok p =>
      simp only [handleVersionDependent_performAll]
      cases planQueue (emplace p.1 navSatRates) with
      | error e => rfl
      | ok q => simp only [Except.map, pure, Except.pure, Plan.run, List.append_assoc]

/-- **Every handler follows its plan.** -/
theorem handle_eq (d : SerialDriver) (cmd : Command) :
    handle signedChar settings d cmd = (plan settings d cmd).map (Plan.run signedChar) := by
  cases cmd with
  | dynamicModel cmd => rfl
  | gnssConfig cmd =>
    rw [handle, plan, handleGnssConfig, planGnssConfig]
    cases d.protocolVersion with
    | none => rfl
    | some gps =>
      simp only
      cases gnssConfigEffects (getProtVersion gps.prot) cmd <;> rfl
  | minCno cmd => rfl
  | minMaxSv cmd => rfl
  | msgPoll cmd => rfl
  | msgPollRate cmd => rfl
  | reset cmd => rfl
  | save cmd => rfl
  | setAop cmd => rfl
  | versionDependent cmd =>
    rw [handle, plan, handleVersionDependent, processQueuedCmds_eq]
    cases planQueue (emplace d cmd) <;> rfl
  | tp5 cmd => rfl
  | configDefault =>
    rw [handle, plan, handleConfigDefault, planConfigDefault]
    cases d.initState with
    | connecting => rfl
    | receivedProtoAck =>
      simp only
      cases rateSelCmd measRate navRate <;> rfl
    | receivedRateAck =>
      simp only [sendDefaults_eq]
      cases planDefaults settings { d with initState := .ready } <;> rfl
    | ready => rfl
  | gpsVersion version =>
    rw [handle, plan, handleGpsVersion, planGpsVersion]
    split
    · rfl
    · rw [processQueuedCmds_eq]
      cases planQueue { d with protocolVersion := some version } <;> rfl

/-! ## One step -/

/-- A result of a bind has a result of its first part behind it. -/
theorem bind_eq_ok {ε α β : Type} {x : Except ε α} {f : α → Except ε β} {b : β}
    (h : (x >>= f) = .ok b) : ∃ a, x = .ok a ∧ f a = .ok b := by
  cases x with
  | error e => cases h
  | ok a => exact ⟨a, rfl, h⟩

theorem mapError_eq_ok {ε ε' α : Type} {x : Except ε α} {f : ε → ε'} {a : α}
    (h : x.mapError f = .ok a) : x = .ok a := by
  cases x with
  | error e => cases h
  | ok b =>
    cases h
    rfl

theorem planQueue_state {d : SerialDriver} {p : Plan} (h : planQueue d = .ok p) :
    ∃ b, p.1 = withBook d b := by
  have hself : d = withBook d (book d) := rfl
  rw [planQueue] at h
  cases hversion : d.protocolVersion with
  | none =>
    rw [hversion] at h
    cases h
    exact ⟨_, hself⟩
  | some gps =>
    simp only [hversion] at h
    cases hv : getProtVersion gps.prot with
    | none =>
      rw [hv] at h
      cases h
      exact ⟨_, hself⟩
    | some version =>
      rw [hv] at h
      obtain ⟨es, -, h⟩ := bind_eq_ok h
      cases h
      exact ⟨⟨d.protocolVersion, _, d.accepted, _⟩, rfl⟩

theorem planDefaults_state {d : SerialDriver} {p : Plan} (h : planDefaults settings d = .ok p) :
    ∃ b, p.1 = withBook d b := by
  obtain ⟨rates, -, h⟩ := bind_eq_ok h
  obtain ⟨q, hq, h⟩ := bind_eq_ok h
  obtain ⟨r, hr, h⟩ := bind_eq_ok h
  cases h
  obtain ⟨b, hb⟩ := planQueue_state hq
  obtain ⟨b', hb'⟩ := planQueue_state hr
  refine ⟨b', ?_⟩
  rw [hb', hb]
  rfl

theorem planGnssConfig_cases {d : SerialDriver} {cmd : UbxGnssConfigCmd} {p : Plan}
    (h : planGnssConfig d cmd = .ok p) :
    (d.protocolVersion = none ∧ p = (emplace d ⟨[⟨⟨0, 1⟩, ⟨99, 0⟩, .gnssConfig cmd⟩]⟩,
        [.publish (.msgPoll MsgId.monVer)])) ∨
      ∃ gps es, d.protocolVersion = some gps ∧
        gnssConfigEffects (getProtVersion gps.prot) cmd = .ok es ∧ p = (d, es) := by
  rw [planGnssConfig] at h
  cases hversion : d.protocolVersion with
  | none =>
    rw [hversion] at h
    cases h
    exact .inl ⟨rfl, rfl⟩
  | some gps =>
    rw [hversion] at h
    obtain ⟨es, hes, h⟩ := bind_eq_ok h
    cases h
    exact .inr ⟨gps, es, rfl, hes, rfl⟩

theorem planGpsVersion_cases {d : SerialDriver} {version : GpsVersion} {p : Plan}
    (h : planGpsVersion d version = .ok p) :
    p = (d, []) ∨ d.protocolVersion = none ∧
      planQueue { d with protocolVersion := some version } = .ok p := by
  rw [planGpsVersion] at h
  split at h
  · cases h
    exact .inl rfl
  · next hnone => exact .inr ⟨by simpa using hnone, h⟩

/-- A handler leaves the state of the handshake as it is, or it ends the handshake. -/
theorem plan_state {d : SerialDriver} {cmd : Command} {p : Plan}
    (h : plan settings d cmd = .ok p) :
    (∃ b, p.1 = withBook d b) ∨
      (cmd = .configDefault ∧ d.initState = .receivedRateAck ∧
        ∃ b, p.1 = withBook { d with initState := .ready } b) := by
  have hself : d = withBook d (book d) := rfl
  cases cmd with
  | gnssConfig cmd =>
    obtain ⟨-, rfl⟩ | ⟨gps, es, -, -, rfl⟩ := planGnssConfig_cases (mapError_eq_ok h)
    · exact .inl ⟨⟨d.protocolVersion, _, _, d.ran⟩, rfl⟩
    · exact .inl ⟨_, hself⟩
  | versionDependent cmd =>
    obtain ⟨b, hb⟩ := planQueue_state (mapError_eq_ok h)
    exact .inl ⟨b, hb⟩
  | gpsVersion version =>
    obtain rfl | ⟨-, hplan⟩ := planGpsVersion_cases (mapError_eq_ok h)
    · exact .inl ⟨_, hself⟩
    · obtain ⟨b, hb⟩ := planQueue_state hplan
      exact .inl ⟨b, hb⟩
  | configDefault =>
    rw [plan, planConfigDefault] at h
    cases hstate : d.initState with
    | connecting =>
      rw [hstate] at h
      cases h
      exact .inl ⟨_, hself⟩
    | receivedProtoAck =>
      rw [hstate] at h
      cases h
      exact .inl ⟨_, hself⟩
    | receivedRateAck =>
      rw [hstate] at h
      exact .inr ⟨rfl, rfl, planDefaults_state settings (mapError_eq_ok h)⟩
    | ready =>
      rw [hstate] at h
      cases h
      exact .inl ⟨_, hself⟩
  | _ =>
    cases h
    exact .inl ⟨_, hself⟩

/-- What a handler leaves to its effects: the connection, what is on its way to the receiver,
and the record of what was sent and refused. -/
structure Untouched (d d' : SerialDriver) : Prop where
  isOpen : d'.isOpen = d.isOpen
  reads : d'.reads = d.reads
  fired : d'.fired = d.fired
  crashed : d'.crashed = d.crashed
  sent : d'.sent = d.sent
  txTasks : d'.txTasks = d.txTasks
  txQueue : d'.txQueue = d.txQueue
  writing : d'.writing = d.writing
  written : d'.written = d.written
  refused : d'.refused = d.refused
  retries : d'.retries = d.retries

theorem untouched_withBook (d : SerialDriver) (b : Book) : Untouched d (withBook d b) := by
  constructor <;> rfl

theorem plan_untouched {d : SerialDriver} {cmd : Command} {p : Plan}
    (h : plan settings d cmd = .ok p) : Untouched d p.1 := by
  obtain ⟨b, hb⟩ | ⟨-, -, b, hb⟩ := plan_state settings h
  · rw [hb]
    exact untouched_withBook d b
  · rw [hb]
    constructor <;> rfl

theorem step_alive {d d' : SerialDriver} {l : Label} (h : step signedChar settings d l = some d') :
    d.crashed = none := by
  by_contra hcrashed
  simp [step, hcrashed] at h

/-- A command ends the run or follows its plan. -/
theorem step_command {d d' : SerialDriver} {cmd : Command}
    (h : step signedChar settings d (.command cmd) = some d') :
    (∃ p, plan settings d cmd = .ok p ∧ d' = p.run signedChar) ∨
      ∃ crash, plan settings d cmd = .error crash ∧ d' = { d with crashed := some crash } := by
  have halive := step_alive signedChar settings h
  simp only [step, halive, ne_eq, not_true_eq_false, if_false, handle_eq] at h
  cases hplan : plan settings d cmd with
  | error crash =>
    rw [hplan] at h
    cases h
    exact .inr ⟨crash, rfl, rfl⟩
  | ok p =>
    rw [hplan] at h
    cases h
    exact .inl ⟨p, rfl, rfl⟩

theorem mapError_fault_ne {α : Type} {x : Except Fault α} :
    x.mapError Crash.fault ≠ .error .alreadyOpen := by
  cases x <;> exact fun h => nomatch h

/-- No handler of a command opens the port. -/
theorem plan_ne_alreadyOpen {d : SerialDriver} {cmd : Command} :
    plan settings d cmd ≠ .error .alreadyOpen := by
  cases cmd with
  | gnssConfig cmd => exact mapError_fault_ne
  | versionDependent cmd => exact mapError_fault_ne
  | gpsVersion version => exact mapError_fault_ne
  | configDefault =>
    rw [plan, planConfigDefault]
    cases d.initState with
    | receivedRateAck => exact mapError_fault_ne
    | _ => exact fun h => nomatch h
  | _ => exact fun h => nomatch h

theorem step_ackAck {d d' : SerialDriver} {event read : UbxAckAck}
    (h : step signedChar settings d (.ackAck event read) = some d') : d' = handleAckAck d read := by
  have halive := step_alive signedChar settings h
  simp only [step, halive, ne_eq, not_true_eq_false, if_false, Option.some.injEq] at h
  exact h.symm

theorem step_ackNak {d d' : SerialDriver} {event read : UbxAckNak}
    (h : step signedChar settings d (.ackNak event read) = some d') : d' = handleAckNak d read := by
  have halive := step_alive signedChar settings h
  simp only [step, halive, ne_eq, not_true_eq_false, if_false, Option.some.injEq] at h
  exact h.symm

theorem step_txTask {d d' : SerialDriver} (h : step signedChar settings d .txTask = some d') :
    ∃ data rest, d.txTasks = data :: rest ∧ d' = onTxTask d data := by
  have halive := step_alive signedChar settings h
  simp only [step, halive, ne_eq, not_true_eq_false, if_false] at h
  cases htasks : d.txTasks with
  | nil => simp [htasks] at h
  | cons data rest =>
    simp only [htasks, Option.some.injEq] at h
    exact ⟨data, rest, rfl, h.symm⟩

theorem step_writeDone {d d' : SerialDriver}
    (h : step signedChar settings d .writeDone = some d') :
    d.writing = true ∧ d' = onWriteDone d := by
  have halive := step_alive signedChar settings h
  simp only [step, halive, ne_eq, not_true_eq_false, if_false] at h
  split at h
  · next hwriting => exact ⟨hwriting, (Option.some.inj h).symm⟩
  · cases h

theorem step_writeError {d d' : SerialDriver}
    (h : step signedChar settings d .writeError = some d') :
    d.writing = true ∧ d' = onWriteError d := by
  have halive := step_alive signedChar settings h
  simp only [step, halive, ne_eq, not_true_eq_false, if_false] at h
  split at h
  · next hwriting => exact ⟨hwriting, (Option.some.inj h).symm⟩
  · cases h

theorem step_readDone {d d' : SerialDriver} (h : step signedChar settings d .readDone = some d') :
    0 < d.reads ∧ d' = onReadDone d := by
  have halive := step_alive signedChar settings h
  simpa [step, halive, eq_comm] using h

theorem step_readError {d d' : SerialDriver}
    (h : step signedChar settings d .readError = some d') :
    0 < d.reads ∧ d' = onReadError d := by
  have halive := step_alive signedChar settings h
  simpa [step, halive, eq_comm] using h

theorem step_retry {d d' : SerialDriver} (h : step signedChar settings d .retry = some d') :
    d.fired < d.retries ∧ d' = onRetry signedChar settings d := by
  have halive := step_alive signedChar settings h
  simpa [step, halive, eq_comm] using h

theorem makeConnection_initState (d : SerialDriver) :
    (makeConnection signedChar settings d).initState = d.initState := by
  rw [makeConnection]
  split
  · rfl
  · exact (perform_performed signedChar _ (.enqueue (protSelCmd settings.baud) true)).initState

/-- A completion of the timer finds the port open. -/
theorem onRetry_open {d : SerialDriver} (h : d.isOpen = true) :
    onRetry signedChar settings d =
      { d with fired := d.fired + 1, crashed := some .alreadyOpen } := by
  rw [onRetry, makeConnection]
  exact if_pos h

/-! ## What is sent and what is written -/

/-- What was sent and is not yet written. -/
def unsent (d : SerialDriver) : List UbxMessage := d.txQueue.tail ++ d.txTasks

/-- What was sent is written in its order, up to what is on its way. -/
def WritesInOrder (d : SerialDriver) : Prop :=
  d.sent.map Prod.snd = d.written.map Prod.snd ++ unsent d

/-- The messages are sent in the state that the step leads to. -/
structure Sends (d d' : SerialDriver) (msgs : List UbxMessage) : Prop where
  allowed : ∀ msg ∈ msgs, isAllowed d'.toSerialUblox msg = true
  sent : d'.sent = d.sent ++ msgs.map fun msg => (d'.initState, msg)
  unsent : unsent d' = Driver.unsent d ++ msgs
  written : d'.written = d.written

/-- The messages, which were sent before, are written in the state that the step finds. -/
structure Writes (d d' : SerialDriver) (msgs : List UbxMessage) : Prop where
  initState : d'.initState = d.initState
  sent : d'.sent = d.sent
  unsent : unsent d = msgs ++ Driver.unsent d'
  written : d'.written = d.written ++ msgs.map fun msg => (d.initState, msg)

theorem sends_performAll {d p : SerialDriver} (es : List Effect) (hsent : p.sent = d.sent)
    (hunsent : unsent p = unsent d) (hwritten : p.written = d.written) :
    ∃ msgs, Sends d (performAll signedChar p es) msgs := by
  have h := performAll_performed signedChar p es
  have hwrites := h.writes
  simp only [Prod.mk.injEq] at hwrites
  refine ⟨(messages es).filter (isAllowed p.toSerialUblox), ?_, ?_, ?_, ?_⟩
  · intro msg hmsg
    rw [← isAllowed_eq, h.initState, isAllowed_eq]
    exact (List.mem_filter.mp hmsg).2
  · rw [h.sent, hsent, h.initState]
    rfl
  · rw [unsent, hwrites.1, h.txTasks, ← List.append_assoc, ← unsent, hunsent]
  · rw [hwrites.2.2, hwritten]

/-- What sends nothing. -/
theorem sends_nothing {d d' : SerialDriver} (hsent : d'.sent = d.sent)
    (hunsent : unsent d' = unsent d) (hwritten : d'.written = d.written) :
    ∃ msgs, Sends d d' msgs :=
  ⟨[], by constructor <;> simp [hsent, hunsent, hwritten]⟩

theorem makeConnection_sends {d p : SerialDriver} (hsent : p.sent = d.sent)
    (hunsent : unsent p = unsent d) (hwritten : p.written = d.written) :
    ∃ msgs, Sends d (makeConnection signedChar settings p) msgs := by
  rw [makeConnection]
  split
  · exact sends_nothing hsent hunsent hwritten
  · exact sends_performAll signedChar [.enqueue (protSelCmd settings.baud) true] hsent hunsent
      hwritten

theorem handleAckAck_sends (d : SerialDriver) (ack : UbxAckAck) :
    ∃ msgs, Sends d (handleAckAck d ack) msgs := by
  rw [handleAckAck]
  split_ifs <;> exact sends_nothing rfl rfl rfl

theorem onTxTask_writes {d : SerialDriver} {data : UbxMessage} {rest : List UbxMessage}
    (h : d.txTasks = data :: rest) : ∃ msgs, Writes d (onTxTask d data) msgs := by
  cases hqueue : d.txQueue with
  | nil => exact ⟨[data], by constructor <;> simp [onTxTask, doWrite, hqueue, unsent, h]⟩
  | cons front queue => exact ⟨[], by constructor <;> simp [onTxTask, hqueue, unsent, h]⟩

theorem onWriteDone_writes (d : SerialDriver) : ∃ msgs, Writes d (onWriteDone d) msgs := by
  match hqueue : d.txQueue with
  | [] => exact ⟨[], by constructor <;> simp [onWriteDone, hqueue, unsent]⟩
  | [_] => exact ⟨[], by constructor <;> simp [onWriteDone, hqueue, unsent]⟩
  | _ :: next :: queue =>
    exact ⟨[next], by constructor <;> simp [onWriteDone, doWrite, hqueue, unsent]⟩

/-- The writes leave the queue of the commands alone. -/
theorem onTxTask_book (d : SerialDriver) (data : UbxMessage) :
    book (onTxTask d data) = book d ∧ (onTxTask d data).crashed = d.crashed := by
  rw [onTxTask]
  cases d.txQueue <;> exact ⟨rfl, rfl⟩

theorem onWriteDone_book (d : SerialDriver) :
    book (onWriteDone d) = book d ∧ (onWriteDone d).crashed = d.crashed := by
  rw [onWriteDone]
  match d.txQueue with
  | [] => exact ⟨rfl, rfl⟩
  | [_] => exact ⟨rfl, rfl⟩
  | _ :: _ :: _ => exact ⟨rfl, rfl⟩

/-- **A step sends, or it writes.** -/
theorem step_sends {d d' : SerialDriver} {l : Label}
    (hs : step signedChar settings d l = some d') :
    (∃ msgs, Sends d d' msgs) ∨ ∃ msgs, Writes d d' msgs := by
  cases l with
  | command cmd =>
    left
    obtain ⟨p, hp, rfl⟩ | ⟨crash, -, rfl⟩ := step_command signedChar settings hs
    · have h := plan_untouched settings hp
      refine sends_performAll signedChar p.2 h.sent ?_ h.written
      rw [unsent, h.txQueue, h.txTasks, unsent]
    · exact sends_nothing rfl rfl rfl
  | ackAck event read =>
    rw [step_ackAck signedChar settings hs]
    exact .inl (handleAckAck_sends d read)
  | ackNak event read =>
    rw [step_ackNak signedChar settings hs]
    exact .inl (sends_nothing rfl rfl rfl)
  | txTask =>
    obtain ⟨data, rest, htasks, rfl⟩ := step_txTask signedChar settings hs
    exact .inr (onTxTask_writes htasks)
  | writeDone =>
    rw [(step_writeDone signedChar settings hs).2]
    exact .inr (onWriteDone_writes d)
  | writeError =>
    rw [(step_writeError signedChar settings hs).2]
    exact .inl (sends_nothing rfl rfl rfl)
  | readDone =>
    rw [(step_readDone signedChar settings hs).2]
    exact .inl (sends_nothing rfl rfl rfl)
  | readError =>
    rw [(step_readError signedChar settings hs).2]
    exact .inl (sends_nothing rfl rfl rfl)
  | retry =>
    rw [(step_retry signedChar settings hs).2]
    exact .inl (makeConnection_sends signedChar settings rfl rfl rfl)

theorem map_snd_pair (state : InitState) (msgs : List UbxMessage) :
    (msgs.map fun msg => (state, msg)).map Prod.snd = msgs := by
  rw [List.map_map]
  exact List.map_id _

theorem Sends.writesInOrder {d d' : SerialDriver} {msgs : List UbxMessage}
    (hsends : Sends d d' msgs) (h : WritesInOrder d) : WritesInOrder d' := by
  have hd : d.sent.map Prod.snd = d.written.map Prod.snd ++ Driver.unsent d := h
  rw [WritesInOrder, hsends.sent, hsends.written, hsends.unsent, List.map_append, hd,
    map_snd_pair, List.append_assoc]

theorem step_writesInOrder {d d' : SerialDriver} {l : Label}
    (hs : step signedChar settings d l = some d') (h : WritesInOrder d) : WritesInOrder d' := by
  obtain ⟨msgs, hsends⟩ | ⟨msgs, hwrites⟩ := step_sends signedChar settings hs
  · exact hsends.writesInOrder h
  · have hd : d.sent.map Prod.snd = d.written.map Prod.snd ++ unsent d := h
    rw [WritesInOrder, hwrites.sent, hd, hwrites.unsent, hwrites.written, List.map_append,
      map_snd_pair, List.append_assoc]

/-- **What was sent is written in its order.** In every run, whatever fails. -/
theorem written_in_sent_order {as : List Label} {d : SerialDriver}
    (h : Machine.run (step signedChar settings) (start signedChar settings) as = some d) :
    WritesInOrder d := by
  refine Machine.run_history (I := fun _ d => WritesInOrder d) ?_ ?_ h
  · intro _ d l d' hd hs
    exact step_writesInOrder signedChar settings hs hd
  · obtain ⟨msgs, hsends⟩ := makeConnection_sends signedChar settings (d := {}) rfl rfl rfl
    exact hsends.writesInOrder rfl

end Handlers

end MuonDetector.Ublox.Driver
