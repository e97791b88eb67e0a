import Mathlib.Data.List.Basic

/-!
# UBX message ids and the events made of them

The message ids that the daemon decodes or configures, and the structures that a
decoded message is stored in, with the defaults of their fields.
-/

namespace MuonDetector.Ublox.Events

namespace MsgId

def ackAck : UInt16 := 0x0501
def ackNak : UInt16 := 0x0500
def navClock : UInt16 := 0x0122
def navDop : UInt16 := 0x0104
def navPosLLH : UInt16 := 0x0102
def navSat : UInt16 := 0x0135
def navStatus : UInt16 := 0x0103
def navSVinfo : UInt16 := 0x0130
def navTimeGPS : UInt16 := 0x0120
def navTimeUTC : UInt16 := 0x0121
def cfgAnt : UInt16 := 0x0613
def cfgGNSS : UInt16 := 0x063e
def cfgMsg : UInt16 := 0x0601
def cfgNav5 : UInt16 := 0x0624
def cfgNavX5 : UInt16 := 0x0623
def cfgPrt : UInt16 := 0x0600
def cfgRate : UInt16 := 0x0608
def cfgTP5 : UInt16 := 0x0631
def timTP : UInt16 := 0x0d01
def timTM2 : UInt16 := 0x0d03
def monVer : UInt16 := 0x0a04
def monHW : UInt16 := 0x0a09
def monHW2 : UInt16 := 0x0a0b
def monRxBuf : UInt16 := 0x0a07
def monTxBuf : UInt16 := 0x0a08
def navDgps : UInt16 := 0x0131
def navAopStatus : UInt16 := 0x0160
def navPosEcef : UInt16 := 0x0101
def navPvt : UInt16 := 0x0107
def navSbas : UInt16 := 0x0132
def navSol : UInt16 := 0x0106
def navVelEcef : UInt16 := 0x0111
def navVelNed : UInt16 := 0x0112
def cfgCfg : UInt16 := 0x0609
def cfgDat : UInt16 := 0x0606
def cfgDosc : UInt16 := 0x0661
def cfgDynSeed : UInt16 := 0x0685
def cfgEsrc : UInt16 := 0x0660
def cfgFixSeed : UInt16 := 0x0684
def cfgGeofence : UInt16 := 0x0669
def cfgInf : UInt16 := 0x0602
def cfgItfm : UInt16 := 0x0639
def cfgLogFilter : UInt16 := 0x0647
def cfgNmea : UInt16 := 0x0617
def cfgOdo : UInt16 := 0x061e
def cfgPm2 : UInt16 := 0x063b
def cfgPms : UInt16 := 0x0686
def cfgPwr : UInt16 := 0x0657
def cfgRinv : UInt16 := 0x0634
def cfgRst : UInt16 := 0x0604
def cfgRxm : UInt16 := 0x0611
def cfgSbas : UInt16 := 0x0616
def cfgSmgr : UInt16 := 0x0662
def cfgTMode2 : UInt16 := 0x063d
def cfgTxSlot : UInt16 := 0x0653
def cfgUsb : UInt16 := 0x061b
def monIO : UInt16 := 0x0a02
def monMsgPp : UInt16 := 0x0a06
def monRxr : UInt16 := 0x0a21

end MsgId

/-- The number of communication targets, and the one in use. -/
def nrTargets : Nat := 6
def defaultTarget : Nat := 1

structure NavStatus where
  iTOW : UInt32
  gpsFix : UInt8
  flags : UInt8
  flags2 : UInt8
  ttff : UInt32
  msss : UInt32
  deriving DecidableEq, Repr

structure UbxDopStruct where
  gDOP : UInt16
  pDOP : UInt16
  tDOP : UInt16
  vDOP : UInt16
  hDOP : UInt16
  nDOP : UInt16
  eDOP : UInt16
  deriving DecidableEq, Repr

structure NavTimeGPS where
  iTOW : UInt32
  fTOW : Int32
  wnR : UInt16
  leapS : Int8
  flags : UInt8
  tAcc : UInt32
  deriving DecidableEq, Repr

structure NavTimeUTC where
  iTOW : UInt32
  tAcc : UInt32
  nano : Int32
  year : UInt16
  month : UInt16
  day : UInt16
  hour : UInt16
  min : UInt16
  sec : UInt16
  flags : UInt8 := 0
  deriving DecidableEq, Repr

structure NavClock where
  iTOW : UInt32
  clkB : Int32
  clkD : Int32
  tAcc : UInt32
  fAcc : UInt32
  deriving DecidableEq, Repr

/-- A quotient before it is rounded to a `float`. -/
structure FloatQuotient where
  num : Int
  den : Nat
  deriving DecidableEq, Repr

structure GnssSatellite where
  gnssId : UInt8
  satId : UInt8
  cnr : UInt8
  elev : Int8
  azim : Int16
  prRes : FloatQuotient
  quality : UInt8
  health : UInt8
  orbitSource : UInt8
  used : Bool
  diffCorr : Bool
  smoothed : Bool
  deriving DecidableEq, Repr

/-- The constructor that takes the fields out of a flags word. -/
def GnssSatellite.ofFlags (gnssId satId cnr : UInt8) (elev : Int8) (azim : Int16)
    (prRes : FloatQuotient) (flags : UInt32) : GnssSatellite where
  gnssId := gnssId
  satId := satId
  cnr := cnr
  elev := elev
  azim := azim
  prRes := prRes
  quality := (flags &&& 0x07).toUInt8
  health := (flags >>> 4 &&& 0x03).toUInt8
  orbitSource := (flags >>> 8 &&& 0x07).toUInt8
  used := flags &&& 0x08 ≠ 0
  diffCorr := flags &&& 0x40 ≠ 0
  smoothed := flags &&& 0x80 ≠ 0

structure NavSat where
  iTOW : UInt32
  version : Option UInt8 := none
  globFlags : Option UInt8 := none
  numSvs : UInt8 := 0
  goodSats : Nat := 0
  satellites : List GnssSatellite := []
  deriving DecidableEq, Repr

structure GnssPosStruct where
  iTOW : UInt32
  lon : Int32
  lat : Int32
  height : Int32
  hMSL : Int32
  hAcc : UInt32
  vAcc : UInt32
  deriving DecidableEq, Repr

structure CfgAnt where
  flags : UInt16
  pins : UInt16
  deriving DecidableEq, Repr

structure CfgNavX5 where
  version : UInt8
  minSVs : UInt8
  maxSVs : UInt8
  minCNO : UInt8
  iniFix3D : UInt8
  wknRollover : UInt16
  aopCfg : UInt8
  aopOrbMaxErr : UInt16
  deriving DecidableEq, Repr

structure CfgNav5 where
  mask : UInt16
  dynModel : UInt8
  fixMode : UInt8
  fixedAlt : Int32
  fixedAltVar : UInt32
  minElev : Int8
  cnoThreshNumSVs : UInt8
  cnoThresh : UInt8
  deriving DecidableEq, Repr

structure UbxTimePulseStruct where
  tpIndex : UInt8 := 0
  version : UInt8 := 0
  antCableDelay : Int16 := 0
  rfGroupDelay : Int16 := 0
  freqPeriod : UInt32 := 0
  freqPeriodLock : UInt32 := 0
  pulseLenRatio : UInt32 := 0
  pulseLenRatioLock : UInt32 := 0
  userConfigDelay : Int32 := 0
  flags : UInt32 := 0
  deriving DecidableEq, Repr

structure GnssConfigStruct where
  gnssId : UInt8
  resTrkCh : UInt8
  maxTrkCh : UInt8
  flags : UInt32
  deriving DecidableEq, Repr

structure CfgGNSS where
  version : UInt8
  numTrkChHw : UInt8
  numTrkChUse : UInt8
  numConfigBlocks : UInt8
  configs : List GnssConfigStruct
  deriving DecidableEq, Repr

structure CfgMsg where
  msgID : UInt16
  rate : Int
  deriving DecidableEq, Repr

structure MonRx where
  pending : List UInt16
  usage : List UInt8
  peakUsage : List UInt8
  tUsage : UInt8
  tPeakUsage : UInt8
  deriving DecidableEq, Repr

structure MonTx where
  pending : List UInt16
  usage : List UInt8
  peakUsage : List UInt8
  tUsage : UInt8
  tPeakUsage : UInt8
  deriving DecidableEq, Repr

structure GnssMonHwStruct where
  noisePerMS : UInt16
  agcCnt : UInt16
  antStatus : UInt8
  antPower : UInt8
  flags : UInt8
  jamInd : UInt8
  deriving DecidableEq, Repr

structure GnssMonHw2Struct where
  ofsI : Int8
  magI : UInt8
  ofsQ : Int8
  magQ : UInt8
  cfgSrc : UInt8
  postStatus : UInt32
  deriving DecidableEq, Repr

structure GpsVersion where
  hwString : List UInt8 := []
  swString : List UInt8 := []
  prot : List UInt8 := []
  deriving DecidableEq, Repr

structure TimTP where
  towMS : UInt32
  towSubMS : UInt32
  qErr : Int32
  week : UInt16
  flags : UInt8
  refInfo : UInt8
  deriving DecidableEq, Repr

structure Timespec where
  tvSec : Int
  tvNsec : Int
  deriving DecidableEq, Repr

structure UbxTimeMarkStruct where
  rising : Timespec
  falling : Timespec
  risingValid : Bool
  fallingValid : Bool
  accuracyNs : UInt32
  valid : Bool
  timeBase : UInt8
  utcAvailable : Bool
  flags : UInt8
  evtCounter : UInt16
  deriving DecidableEq, Repr

structure UbxAckNak where
  msgID : UInt16
  payload : UInt16 := 0
  deriving DecidableEq, Repr

structure UbxAckAck where
  msgID : UInt16
  deriving DecidableEq, Repr

inductive UbxEvent where
  | navStatus (data : NavStatus)
  | navDop (data : UbxDopStruct)
  | navTimeGPS (data : NavTimeGPS)
  | navTimeUTC (data : NavTimeUTC)
  | navClock (data : NavClock)
  | navSat (data : NavSat)
  | navPosLLH (data : GnssPosStruct)
  | cfgAnt (data : CfgAnt)
  | cfgNavX5 (data : CfgNavX5)
  | cfgNav5 (data : CfgNav5)
  | cfgTP5 (data : UbxTimePulseStruct)
  | cfgGNSS (data : CfgGNSS)
  | cfgMsg (data : CfgMsg)
  | monRx (data : MonRx)
  | monTx (data : MonTx)
  | monHW (data : GnssMonHwStruct)
  | monHW2 (data : GnssMonHw2Struct)
  | monVer (data : GpsVersion)
  | timTP (data : TimTP)
  | timTM2 (data : UbxTimeMarkStruct)
  | ackNak (data : UbxAckNak)
  | ackAck (data : UbxAckAck)
  deriving DecidableEq, Repr

end MuonDetector.Ublox.Events
