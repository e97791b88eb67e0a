import MuonDetector.Capnp.EventCodecs

/-!
# Codecs of the scalar events

The events of the receiver that are a few numbers or texts, and the state of the log. The
schema of the navigation status is that of the dilutions of precision, so its fields are
carried under other names and at half their width.
-/

namespace MuonDetector.Capnp.GnssCodecs

open MuonDetector.Capnp.EventCodecs MuonDetector.Library.Messages
open MuonDetector.Network.MessageKeys
open MuonDetector.Ublox.Events (CfgMsg GnssMonHwStruct GnssMonHw2Struct GnssPosStruct GpsVersion
  NavClock NavStatus UbxTimePulseStruct)

variable {lib : Serializer}

/-! ## Navigation -/

structure NavStatusCapnp where
  gDOP : UInt16 := 0
  pDOP : UInt16 := 0
  tDOP : UInt16 := 0
  vDOP : UInt16 := 0
  hDOP : UInt16 := 0
  nDOP : UInt16 := 0
  eDOP : UInt16 := 0
  deriving DecidableEq, Repr, Countable

instance : Message NavStatusCapnp where

def navStatus : CapnpCodec NavStatus where
  Root := NavStatusCapnp
  messageKey := TcpMsgKey.ubxNavstatus.number
  toRoot event := {
    gDOP := event.iTOW.toUInt16
    pDOP := event.gpsFix.toUInt16
    tDOP := event.flags.toUInt16
    vDOP := event.flags2.toUInt16
    hDOP := event.ttff.toUInt16
    nDOP := event.msss.toUInt16
    eDOP := 0 }
  ofRoot root := some {
    iTOW := root.gDOP.toUInt32
    gpsFix := root.pDOP.toUInt8
    flags := root.tDOP.toUInt8
    flags2 := root.vDOP.toUInt8
    ttff := root.hDOP.toUInt32
    msss := root.nDOP.toUInt32 }

theorem toUInt32_toUInt16_eq_self {n : UInt32} : n.toUInt16.toUInt32 = n ↔ n.toNat < 2 ^ 16 := by
  rw [← UInt32.toNat_inj, UInt16.toNat_toUInt32, UInt32.toNat_toUInt16, Nat.mod_eq_iff_lt]
  decide

/-- The three times fit into the fields that carry them. -/
@[mk_iff]
structure NavStatusFits (event : NavStatus) : Prop where
  iTOW : event.iTOW.toNat < 2 ^ 16
  ttff : event.ttff.toNat < 2 ^ 16
  msss : event.msss.toNat < 2 ^ 16

theorem navStatus_roundTrips {event : NavStatus} :
    navStatus.RoundTrips lib event ↔ NavStatusFits event := by
  obtain ⟨iTOW, gpsFix, flags, flags2, ttff, msss⟩ := event
  rw [Codec.roundTrips_iff]
  simp only [navStatus, Option.some.injEq, NavStatus.mk.injEq, toUInt32_toUInt16_eq_self,
    UInt8.toUInt8_toUInt16, true_and, navStatusFits_iff]

structure NavClockCapnp where
  iTOW : UInt32 := 0
  clkB : Int32 := 0
  clkD : Int32 := 0
  tAcc : UInt32 := 0
  fAcc : UInt32 := 0
  deriving DecidableEq, Repr, Countable

instance : Message NavClockCapnp where

def navClock : CapnpCodec NavClock where
  Root := NavClockCapnp
  messageKey := TcpMsgKey.ubxNavclock.number
  toRoot event := {
    iTOW := event.iTOW
    clkB := event.clkB
    clkD := event.clkD
    tAcc := event.tAcc
    fAcc := event.fAcc }
  ofRoot root := some {
    iTOW := root.iTOW
    clkB := root.clkB
    clkD := root.clkD
    tAcc := root.tAcc
    fAcc := root.fAcc }

structure GnssPosStructCapnp where
  iTOW : UInt32 := 0
  lon : Int32 := 0
  lat : Int32 := 0
  height : Int32 := 0
  hMSL : Int32 := 0
  hAcc : UInt32 := 0
  vAcc : UInt32 := 0
  deriving DecidableEq, Repr, Countable

instance : Message GnssPosStructCapnp where

def gnssPos : CapnpCodec GnssPosStruct where
  Root := GnssPosStructCapnp
  messageKey := TcpMsgKey.geoPos.number
  toRoot event := {
    iTOW := event.iTOW
    lon := event.lon
    lat := event.lat
    height := event.height
    hMSL := event.hMSL
    hAcc := event.hAcc
    vAcc := event.vAcc }
  ofRoot root := some {
    iTOW := root.iTOW
    lon := root.lon
    lat := root.lat
    height := root.height
    hMSL := root.hMSL
    hAcc := root.hAcc
    vAcc := root.vAcc }

/-! ## Configuration and hardware -/

structure UbxTimePulseStructCapnp where
  tpIndex : UInt8 := 0
  version : UInt8 := 0
  antCableDelay : Int16 := 0
  rfGroupDelay : Int16 := 0
  freqPeriod : UInt32 := 0
  freqPeriodLock : UInt32 := 0
  pulseLenRatio : UInt32 := 0
  pulseLenRatioLock : UInt32 := 0
  userConfigDelay : Int32 := 0
  flags : UInt32 := 0
  deriving DecidableEq, Repr, Countable

instance : Message UbxTimePulseStructCapnp where

def ubxTimePulse : CapnpCodec UbxTimePulseStruct where
  Root := UbxTimePulseStructCapnp
  messageKey := TcpMsgKey.ubxCfgTp5.number
  toRoot event := {
    tpIndex := event.tpIndex
    version := event.version
    antCableDelay := event.antCableDelay
    rfGroupDelay := event.rfGroupDelay
    freqPeriod := event.freqPeriod
    freqPeriodLock := event.freqPeriodLock
    pulseLenRatio := event.pulseLenRatio
    pulseLenRatioLock := event.pulseLenRatioLock
    userConfigDelay := event.userConfigDelay
    flags := event.flags }
  ofRoot root := some {
    tpIndex := root.tpIndex
    version := root.version
    antCableDelay := root.antCableDelay
    rfGroupDelay := root.rfGroupDelay
    freqPeriod := root.freqPeriod
    freqPeriodLock := root.freqPeriodLock
    pulseLenRatio := root.pulseLenRatio
    pulseLenRatioLock := root.pulseLenRatioLock
    userConfigDelay := root.userConfigDelay
    flags := root.flags }

structure GnssMonHwStructCapnp where
  noisePerMS : UInt16 := 0
  agcCnt : UInt16 := 0
  antStatus : UInt8 := 0
  antPower : UInt8 := 0
  flags : UInt8 := 0
  jamInd : UInt8 := 0
  deriving DecidableEq, Repr, Countable

instance : Message GnssMonHwStructCapnp where

def gnssMonHw : CapnpCodec GnssMonHwStruct where
  Root := GnssMonHwStructCapnp
  messageKey := TcpMsgKey.ubxMonhw.number
  toRoot event := {
    noisePerMS := event.noisePerMS
    agcCnt := event.agcCnt
    antStatus := event.antStatus
    antPower := event.antPower
    flags := event.flags
    jamInd := event.jamInd }
  ofRoot root := some {
    noisePerMS := root.noisePerMS
    agcCnt := root.agcCnt
    antStatus := root.antStatus
    antPower := root.antPower
    flags := root.flags
    jamInd := root.jamInd }

structure GnssMonHw2StructCapnp where
  ofsI : Int8 := 0
  magI : UInt8 := 0
  ofsQ : Int8 := 0
  magQ : UInt8 := 0
  cfgSrc : UInt8 := 0
  postStatus : UInt32 := 0
  deriving DecidableEq, Repr, Countable

instance : Message GnssMonHw2StructCapnp where

def gnssMonHw2 : CapnpCodec GnssMonHw2Struct where
  Root := GnssMonHw2StructCapnp
  messageKey := TcpMsgKey.ubxMonhw2.number
  toRoot event := {
    ofsI := event.ofsI
    magI := event.magI
    ofsQ := event.ofsQ
    magQ := event.magQ
    cfgSrc := event.cfgSrc
    postStatus := event.postStatus }
  ofRoot root := some {
    ofsI := root.ofsI
    magI := root.magI
    ofsQ := root.ofsQ
    magQ := root.magQ
    cfgSrc := root.cfgSrc
    postStatus := root.postStatus }

structure CfgMsgCapnp where
  msgID : UInt16 := 0
  rate : Int32 := 0
  deriving DecidableEq, Repr, Countable

instance : Message CfgMsgCapnp where

def cfgMsg : CapnpCodec CfgMsg where
  Root := CfgMsgCapnp
  messageKey := TcpMsgKey.ubxMsgRate.number
  toRoot event := { msgID := event.msgID, rate := .ofInt event.rate }
  ofRoot root := some { msgID := root.msgID, rate := root.rate.toInt }

theorem cfgMsg_roundTrips {event : CfgMsg} :
    cfgMsg.RoundTrips lib event ↔ -2 ^ 31 ≤ event.rate ∧ event.rate < 2 ^ 31 := by
  obtain ⟨msgID, rate⟩ := event
  rw [Codec.roundTrips_iff]
  simp only [cfgMsg, Option.some.injEq, CfgMsg.mk.injEq, true_and, int32_ofInt_eq_self]

structure GpsVersionCapnp where
  hwString : List UInt8 := []
  swString : List UInt8 := []
  prot : List UInt8 := []
  deriving DecidableEq, Repr, Countable

instance : Message GpsVersionCapnp where

def gpsVersion : CapnpCodec GpsVersion where
  Root := GpsVersionCapnp
  messageKey := TcpMsgKey.ubxVersion.number
  toRoot event := { hwString := event.hwString, swString := event.swString, prot := event.prot }
  ofRoot root := some {
    hwString := cStr root.hwString
    swString := cStr root.swString
    prot := cStr root.prot }

/-- No text of the version holds a zero byte. -/
@[mk_iff]
structure GpsVersionNulFree (event : GpsVersion) : Prop where
  hwString : 0 ∉ event.hwString
  swString : 0 ∉ event.swString
  prot : 0 ∉ event.prot

theorem gpsVersion_roundTrips {event : GpsVersion} :
    gpsVersion.RoundTrips lib event ↔ GpsVersionNulFree event := by
  obtain ⟨hwString, swString, prot⟩ := event
  rw [Codec.roundTrips_iff]
  simp only [gpsVersion, Option.some.injEq, GpsVersion.mk.injEq, cStr_eq_self,
    gpsVersionNulFree_iff]

/-! ## The log -/

/-- The status is an enumeration over a byte. Times are counts of seconds. -/
structure LogInfoStruct where
  logFileName : List UInt8
  dataFileName : List UInt8
  status : UInt8
  logFileSize : UInt32
  dataFileSize : UInt32
  logAge : Int64
  logRotationDuration : Int64 := 86400
  logEnabled : Bool := true
  deriving DecidableEq, Repr

structure LogInfoStructCapnp where
  logFileName : List UInt8 := []
  dataFileName : List UInt8 := []
  status : UInt8 := 0
  logFileSize : UInt32 := 0
  dataFileSize : UInt32 := 0
  logAge : UInt64 := 0
  logRotationDuration : UInt64 := 0
  deriving DecidableEq, Repr, Countable

instance : Message LogInfoStructCapnp where

/-- The schema has no field for `logEnabled`, so the reader leaves it at its default. -/
def logInfo : CapnpCodec LogInfoStruct where
  Root := LogInfoStructCapnp
  messageKey := TcpMsgKey.logInfo.number
  toRoot event := {
    logFileName := event.logFileName
    dataFileName := event.dataFileName
    status := event.status
    logFileSize := event.logFileSize
    dataFileSize := event.dataFileSize
    logAge := event.logAge.toUInt64
    logRotationDuration := event.logRotationDuration.toUInt64 }
  ofRoot root := some {
    logFileName := cStr root.logFileName
    dataFileName := cStr root.dataFileName
    status := root.status
    logFileSize := root.logFileSize
    dataFileSize := root.dataFileSize
    logAge := root.logAge.toInt64
    logRotationDuration := root.logRotationDuration.toInt64 }

/-- The names hold no zero byte, and logging is on. -/
@[mk_iff]
structure LogInfoKept (event : LogInfoStruct) : Prop where
  logFileName : 0 ∉ event.logFileName
  dataFileName : 0 ∉ event.dataFileName
  logEnabled : event.logEnabled = true

theorem logInfo_roundTrips {event : LogInfoStruct} :
    logInfo.RoundTrips lib event ↔ LogInfoKept event := by
  obtain ⟨logFileName, dataFileName, status, logFileSize, dataFileSize, logAge,
    logRotationDuration, logEnabled⟩ := event
  rw [Codec.roundTrips_iff]
  simp only [logInfo, Option.some.injEq, LogInfoStruct.mk.injEq, cStr_eq_self,
    Int64.toInt64_toUInt64, true_and, logInfoKept_iff, @eq_comm Bool true]

/-! ## All of them -/

/-- **When the scalar events come back as they were.** Those of plain numbers always do. A
navigation status does when its three times are below `2 ^ 16`, and the state of the log
when logging is on; texts are to hold no zero byte. -/
theorem scalar_events_roundTrip (lib : Serializer) :
    (∀ event : NavStatus, navStatus.RoundTrips lib event ↔ NavStatusFits event) ∧
    (∀ event : NavClock, navClock.RoundTrips lib event) ∧
    (∀ event : UbxTimePulseStruct, ubxTimePulse.RoundTrips lib event) ∧
    (∀ event : GnssPosStruct, gnssPos.RoundTrips lib event) ∧
    (∀ event : GnssMonHwStruct, gnssMonHw.RoundTrips lib event) ∧
    (∀ event : GnssMonHw2Struct, gnssMonHw2.RoundTrips lib event) ∧
    (∀ event : CfgMsg, cfgMsg.RoundTrips lib event ↔
      -2 ^ 31 ≤ event.rate ∧ event.rate < 2 ^ 31) ∧
    (∀ event : GpsVersion, gpsVersion.RoundTrips lib event ↔ GpsVersionNulFree event) ∧
    (∀ event : LogInfoStruct, logInfo.RoundTrips lib event ↔ LogInfoKept event) := by
  constructor
  · exact fun _ => navStatus_roundTrips
  constructor
  · exact fun _ => navClock.roundTrips_iff.mpr rfl
  constructor
  · exact fun _ => ubxTimePulse.roundTrips_iff.mpr rfl
  constructor
  · exact fun _ => gnssPos.roundTrips_iff.mpr rfl
  constructor
  · exact fun _ => gnssMonHw.roundTrips_iff.mpr rfl
  constructor
  · exact fun _ => gnssMonHw2.roundTrips_iff.mpr rfl
  constructor
  · exact fun _ => cfgMsg_roundTrips
  constructor
  · exact fun _ => gpsVersion_roundTrips
  · exact fun _ => logInfo_roundTrips

/-- A receiver that has run for 70 seconds is reported to have run for less than 5. -/
theorem navStatus_truncated : ¬∃ lib : Serializer,
    navStatus.RoundTrips lib ⟨0, 3, 0, 0, 0, 70000⟩ := by
  rintro ⟨lib, h⟩
  have hfits := navStatus_roundTrips.mp h
  exact absurd hfits.msss (by decide)

end MuonDetector.Capnp.GnssCodecs
