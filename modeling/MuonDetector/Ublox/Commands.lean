import MuonDetector.Ublox.Serial

/-!
# The commands of the receiver driver

Most handlers of `SerialUblox` do nothing but enqueue messages and publish further
commands, whatever state the driver is in. Such a handler is the list of its effects
in the order of the source.
-/

namespace MuonDetector.Ublox.Commands

open MuonDetector.Ublox.Message MuonDetector.Ublox.Events MuonDetector.Ublox.ProtVersion
open MuonDetector.Ublox.Serial

/-! ## Command types -/

/-- The byte of a `UbxDynamicModel` that is sent. -/
structure UbxDynamicModelCmd where
  model : UInt8
  deriving DecidableEq, Repr

structure UbxMinCnoCmd where
  minCNO : UInt8
  deriving DecidableEq, Repr

structure UbxMinMaxSvCmd where
  minSVs : UInt8
  maxSVs : UInt8
  deriving DecidableEq, Repr

structure UbxMsgPollCmd where
  id : UInt16
  deriving DecidableEq, Repr

structure UbxMsgPollRateCmd where
  id : UInt16
  deriving DecidableEq, Repr

/-- The default is a warm reset of the software. -/
structure UbxResetCmd where
  resetFlags : UInt32 := 0x00010000 ||| 0x00000001
  deriving DecidableEq, Repr

/-- The default devices are the battery-backed memory and the flash. -/
structure UbxSaveCmd where
  devMask : UInt32 := 0x01 ||| 0x02
  deriving DecidableEq, Repr

structure UbxSetAopCmd where
  enable : Bool
  maxOrbErr : UInt16 := 0
  deriving DecidableEq, Repr

/-! ## Tables -/

/-- The ids of the messages whose rates are configured. -/
def rateCfgMsgID : List UInt16 :=
  [MsgId.timTM2, MsgId.timTP, MsgId.navClock, MsgId.navDgps,
    MsgId.navAopStatus, MsgId.navDop, MsgId.navPosEcef, MsgId.navPosLLH,
    MsgId.navPvt, MsgId.navSbas, MsgId.navSol, MsgId.navStatus,
    MsgId.navSVinfo, MsgId.navTimeGPS, MsgId.navTimeUTC, MsgId.navVelEcef,
    MsgId.navVelNed, MsgId.monHW, MsgId.monHW2, MsgId.monIO,
    MsgId.monMsgPp, MsgId.monRxBuf, MsgId.monRxr, MsgId.monTxBuf]

/-- The ids that the receiver acknowledges when they are polled. -/
def idsExpectedAck : List UInt16 :=
  [MsgId.cfgAnt, MsgId.cfgCfg, MsgId.cfgDat, MsgId.cfgDosc,
    MsgId.cfgDynSeed, MsgId.cfgEsrc, MsgId.cfgFixSeed, MsgId.cfgGeofence,
    MsgId.cfgGNSS, MsgId.cfgInf, MsgId.cfgItfm, MsgId.cfgLogFilter,
    MsgId.cfgMsg, MsgId.cfgNav5, MsgId.cfgNavX5, MsgId.cfgNmea,
    MsgId.cfgOdo, MsgId.cfgPm2, MsgId.cfgPms, MsgId.cfgPrt,
    MsgId.cfgPwr, MsgId.cfgRate, MsgId.cfgRinv, MsgId.cfgRst,
    MsgId.cfgRxm, MsgId.cfgSbas, MsgId.cfgSmgr, MsgId.cfgTMode2,
    MsgId.cfgTP5, MsgId.cfgTxSlot, MsgId.cfgUsb]

/-- Id, port and rate of the messages at start-up. The source keeps them in an unordered
map, so the order in which they are sent is not fixed. -/
def defaultRates : List UbxMsgRateCmd :=
  [⟨MsgId.timTM2, 1, 1⟩, ⟨MsgId.timTP, 1, 0⟩, ⟨MsgId.navTimeUTC, 1, 131⟩, ⟨MsgId.monHW, 1, 47⟩,
    ⟨MsgId.monHW2, 1, 49⟩, ⟨MsgId.navPosLLH, 1, 43⟩, ⟨MsgId.navTimeGPS, 1, 0⟩,
    ⟨MsgId.navStatus, 1, 71⟩, ⟨MsgId.navClock, 1, 189⟩, ⟨MsgId.monRxBuf, 1, 53⟩,
    ⟨MsgId.monTxBuf, 1, 51⟩, ⟨MsgId.navSbas, 1, 0⟩, ⟨MsgId.navDop, 1, 254⟩]

/-! ## Effects -/

inductive Effect where
  | enqueue (msg : UbxMessage) (trackAck : Bool)
  | publish (cmd : BusCmd)
  deriving DecidableEq, Repr

/-- The message that an effect asks to send. -/
def Effect.message? : Effect → Option UbxMessage
  | .enqueue msg _ => some msg
  | .publish _ => none

def messages (es : List Effect) : List UbxMessage := es.filterMap Effect.message?

@[simp] theorem messages_nil : messages [] = [] := rfl

@[simp] theorem messages_append (es fs : List Effect) :
    messages (es ++ fs) = messages es ++ messages fs := by
  simp [messages]

/-- Sends a configuration and asks for the one then in force. -/
def configure (id : UInt16) (payload : List UInt8) : List Effect :=
  [.enqueue ⟨id, payload⟩ true, .publish (.msgPoll id)]

def tp5Effects (tp : UbxTimePulseStruct) : List Effect := configure MsgId.cfgTP5 (tp5Payload tp)

def gnssConfigEffects (version : Option UbxProtVersion) (cmd : UbxGnssConfigCmd) :
    Except Fault (List Effect) := do
  let data ← gnssPayload version cmd.gnssConfigs
  pure (configure MsgId.cfgGNSS data)

def msgRateEffects (cmd : UbxMsgRateCmd) : Except Fault (List Effect) := do
  let data ← msgRatePayload cmd
  pure [.enqueue ⟨MsgId.cfgMsg, data⟩ true, .publish (.msgPollRate cmd.id)]

/-- Only the `CFG` messages are polled with an answer expected besides the message. -/
def msgPollEffects (cmd : UbxMsgPollCmd) : List Effect :=
  if cmd.id = 0 then []
  else if cmd.id = MsgId.cfgPrt then [.enqueue ⟨cmd.id, [1]⟩ true]
  else if cmd.id = MsgId.monVer then [.enqueue ⟨cmd.id, []⟩ false]
  else if cmd.id = MsgId.cfgTP5 then [.enqueue ⟨cmd.id, [0]⟩ true]
  else [.enqueue ⟨cmd.id, []⟩ (idsExpectedAck.contains cmd.id)]

def msgPollRateEffects (cmd : UbxMsgPollRateCmd) : List Effect :=
  [.enqueue ⟨MsgId.cfgMsg, [(cmd.id >>> 8 &&& 0xff).toUInt8, (cmd.id &&& 0xff).toUInt8]⟩ true]

/-- The navigation settings with the given mask, and the given bytes at their offsets. -/
def navX5Payload (mask1 mask2 : UInt8) (fields : List (Nat × UInt8)) : List UInt8 :=
  let data : List UInt8 := List.replicate 40 0
  let data := data.set 2 mask1
  let data := data.set 3 mask2
  fields.foldl (fun data field => data.set field.1 field.2) data

def setAopEffects (cmd : UbxSetAopCmd) : List Effect :=
  configure MsgId.cfgNavX5 (navX5Payload 0x00 0x40
    [(27, if cmd.enable then 1 else 0), (30, (cmd.maxOrbErr &&& 0xff).toUInt8),
      (31, (cmd.maxOrbErr >>> 8 &&& 0xff).toUInt8)])

def minMaxSvEffects (cmd : UbxMinMaxSvCmd) : List Effect :=
  configure MsgId.cfgNavX5 (navX5Payload 0x04 0x00 [(10, cmd.minSVs), (11, cmd.maxSVs)])

def minCnoEffects (cmd : UbxMinCnoCmd) : List Effect :=
  configure MsgId.cfgNavX5 (navX5Payload 0x08 0x00 [(12, cmd.minCNO)])

/-- `ioPort`, `msgCfg`, `navCfg`, `rxmCfg` and `antConf`. -/
def sectionMask : UInt32 := 0x01 ||| 0x02 ||| 0x08 ||| 0x10 ||| 0x400

/-- The clear mask and the load mask are zero. -/
def saveEffects (cmd : UbxSaveCmd) : List Effect :=
  let mask := [(sectionMask &&& 0xff).toUInt8, (sectionMask >>> 8 &&& 0xff).toUInt8,
    (sectionMask >>> 16 &&& 0xff).toUInt8, (sectionMask >>> 24 &&& 0xff).toUInt8]
  let data := List.replicate 4 0 ++ mask ++ List.replicate 4 0 ++ [cmd.devMask.toUInt8]
  [.enqueue ⟨MsgId.cfgCfg, data⟩ true]

def resetEffects (cmd : UbxResetCmd) : List Effect :=
  let navBbrMask : UInt16 := (cmd.resetFlags >>> 16 &&& 0xffff).toUInt16
  let resetMode : UInt8 := (cmd.resetFlags &&& 0xff).toUInt8
  let data := [(navBbrMask &&& 0xff).toUInt8, (navBbrMask >>> 8 &&& 0xff).toUInt8, resetMode, 0]
  [.enqueue ⟨MsgId.cfgRst, data⟩ true]

def dynamicModelEffects (cmd : UbxDynamicModelCmd) : List Effect :=
  let buf : List UInt8 := List.replicate 36 0
  let buf := buf.set 0 0x01
  let buf := buf.set 1 0x00
  configure MsgId.cfgNav5 (buf.set 2 cmd.model)

def pollAllUbxMsgRate : List Effect := rateCfgMsgID.flatMap fun id => msgPollRateEffects ⟨id⟩

def pollAllUbxMsg : List Effect :=
  msgPollEffects ⟨MsgId.monVer⟩ ++ msgPollEffects ⟨MsgId.cfgGNSS⟩ ++
    msgPollEffects ⟨MsgId.cfgTP5⟩ ++ rateCfgMsgID.flatMap fun id => msgPollEffects ⟨id⟩

/-! ## The messages of the handshake -/

/-- Selects the protocols of the serial port 1 at the given speed, UBX alone for output. -/
def protSelCmd (baud : UInt32) : UbxMessage :=
  ⟨MsgId.cfgPrt, [1, 0, 0, 0, 0b11000000, 0b00001000, 0, 0, (baud &&& 0xff).toUInt8,
    (baud >>> 8 &&& 0xff).toUInt8, (baud >>> 16 &&& 0xff).toUInt8, 0, 0b00100111, 0, 1, 0, 0, 0,
    0, 0]⟩

/-- Selects the measurement rate, or nothing where the source throws. -/
def rateSelCmd (measRate navRate : UInt16) : Option UbxMessage :=
  if measRate < 10 ∨ navRate < 1 ∨ navRate > 127 then none
  else some ⟨MsgId.cfgRate, [(measRate &&& 0xff).toUInt8, (measRate >>> 8 &&& 0xff).toUInt8,
    (navRate &&& 0xff).toUInt8, (navRate >>> 8 &&& 0xff).toUInt8, 0, 0]⟩

/-! ## The handlers with the whole state -/

section Handlers

variable (signedChar : Bool)

def perform (s : SerialUblox) : Effect → SerialUblox
  | .enqueue msg trackAck => enqueueMessage signedChar s msg trackAck
  | .publish cmd => publish s cmd

theorem handleTp5_eq (s : SerialUblox) (tp : UbxTimePulseStruct) :
    handleTp5 signedChar s tp = (tp5Effects tp).foldl (perform signedChar) s := rfl

theorem handleMsgRate_eq (s : SerialUblox) (cmd : UbxMsgRateCmd) :
    handleMsgRate signedChar s cmd =
      (msgRateEffects cmd).map fun es => es.foldl (perform signedChar) s := by
  rw [handleMsgRate, msgRateEffects]
  cases msgRatePayload cmd <;> rfl

/-- With a version at hand. -/
theorem handleGnssConfig_eq (s : SerialUblox) (cmd : UbxGnssConfigCmd) {gps : GpsVersion}
    (h : s.protocolVersion = some gps) :
    handleGnssConfig signedChar s cmd =
      (gnssConfigEffects (getProtVersion gps.prot) cmd).map fun es =>
        es.foldl (perform signedChar) s := by
  rw [handleGnssConfig, h, gnssConfigEffects]
  simp only
  cases gnssPayload (getProtVersion gps.prot) cmd.gnssConfigs <;> rfl

end Handlers

end MuonDetector.Ublox.Commands
