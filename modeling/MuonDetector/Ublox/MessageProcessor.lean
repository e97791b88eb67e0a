import MuonDetector.Ublox.Message
import MuonDetector.Ublox.Events
import MuonDetector.Utility.HelperFunctions
import Mathlib.Data.List.DropRight

/-!
# The decoders of UBX messages

`processMessage` looks up the decoder of a message id and runs it on the payload.
A decoder reads its fields at fixed offsets; those of lists also compute a number of
blocks from the payload size, in `std::size_t`. What is printed at debug level is left
out: it shows bytes that are decoded here as well, or those of a message that has no
decoder, up to its size. Whether plain `char` is signed is a parameter.
-/

namespace MuonDetector.Ublox.MessageProcessor

open MuonDetector.Library MuonDetector.Library.Reader MuonDetector.Library.Bytes
open MuonDetector.Utility.HelperFunctions MuonDetector.Ublox.Message MuonDetector.Ublox.Events

/-- The static variables: the last version received and the last pulse length. -/
structure ProcessorState where
  gpsVersion : Option GpsVersion := none
  lastPulseLength : Int := 0
  deriving DecidableEq, Repr

section Decoders

variable (signedChar : Bool)

/-- `static_cast<T>(msg[i])`. -/
def charAt (T : Type) [Integral T] (i : Nat) : Reader UInt8 T := do
  let ch ← index 0 i
  pure (castChar T signedChar ch)

def ubxNavStatus : Reader UInt8 NavStatus := do
  let iTOW ← get UInt32 signedChar 0
  let gpsFix ← get UInt8 signedChar 4
  let flags ← get UInt8 signedChar 5
  let flags2 ← get UInt8 signedChar 7
  let ttff ← get UInt32 signedChar 8
  let msss ← get UInt32 signedChar 12
  pure { iTOW, gpsFix, flags, flags2, ttff, msss }

def ubxNavDOP : Reader UInt8 UbxDopStruct := do
  let _iTOW ← get UInt32 signedChar 0
  let gDOP ← get UInt16 signedChar 4
  let pDOP ← get UInt16 signedChar 6
  let tDOP ← get UInt16 signedChar 8
  let vDOP ← get UInt16 signedChar 10
  let hDOP ← get UInt16 signedChar 12
  let nDOP ← get UInt16 signedChar 14
  let eDOP ← get UInt16 signedChar 16
  pure { gDOP, pDOP, tDOP, vDOP, hDOP, nDOP, eDOP }

def ubxNavTimeGPS : Reader UInt8 NavTimeGPS := do
  let iTOW ← get UInt32 signedChar 0
  let fTOW ← get Int32 signedChar 4
  let wnR ← get UInt16 signedChar 8
  let leapS ← get Int8 signedChar 10
  let flags ← get UInt8 signedChar 11
  let tAcc ← get UInt32 signedChar 12
  pure { iTOW, fTOW, wnR, leapS, flags, tAcc }

/-- The flags are read, but only to be printed: the field keeps its default. -/
def ubxNavTimeUTC : Reader UInt8 NavTimeUTC := do
  let iTOW ← get UInt32 signedChar 0
  let tAcc ← get UInt32 signedChar 4
  let nano ← get Int32 signedChar 8
  let year ← get UInt16 signedChar 12
  let month ← charAt signedChar UInt16 14
  let day ← charAt signedChar UInt16 15
  let hour ← charAt signedChar UInt16 16
  let min ← charAt signedChar UInt16 17
  let sec ← charAt signedChar UInt16 18
  let _flags ← charAt signedChar UInt16 19
  pure { iTOW, tAcc, nano, year, month, day, hour, min, sec }

def ubxNavClock : Reader UInt8 NavClock := do
  let iTOW ← get UInt32 signedChar 0
  let clkB ← get Int32 signedChar 4
  let clkD ← get Int32 signedChar 8
  let tAcc ← get UInt32 signedChar 12
  let fAcc ← get UInt32 signedChar 16
  pure { iTOW, clkB, clkD, tAcc, fAcc }

/-- `(msg.size() - header) / block`, which wraps around for a size below the header. -/
def blockCount (header block : UInt64) : Reader UInt8 Nat := do
  let size ← Reader.size
  let n := ((UInt64.ofNat size - header) / block).toNat
  bound n
  pure n

def svinfoGnssId (satId : UInt8) : UInt8 :=
  if satId < 33 then 0
  else if satId < 65 then 3
  else if satId < 97 ∨ satId = 255 then 6
  else if satId < 159 then 1
  else if satId < 164 then 3
  else if satId < 183 then 4
  else if satId < 198 then 5
  else if satId < 247 then 2
  else 7

def svinfoOrbitSource (flags : UInt8) : UInt8 :=
  if flags &&& 0x04 ≠ 0 then
    if flags &&& 0x08 ≠ 0 then 1
    else if flags &&& 0x20 ≠ 0 then 2
    else if flags &&& 0x40 ≠ 0 then 3
    else 0
  else 0

def svinfoBlock (i : Nat) : Reader UInt8 GnssSatellite := do
  let n := 8 + i * 12
  let satId ← get UInt8 signedChar (n + 1)
  let flags ← get UInt8 signedChar (n + 2)
  let quality ← get UInt8 signedChar (n + 3)
  let cnr ← get UInt8 signedChar (n + 4)
  let elev ← get Int8 signedChar (n + 5)
  let azim ← get Int16 signedChar (n + 6)
  let prRes ← get Int32 signedChar (n + 8)
  pure {
    gnssId := svinfoGnssId satId
    satId := satId
    cnr := cnr
    elev := elev
    azim := azim
    prRes := ⟨prRes.toInt, 100⟩
    quality := quality
    health := (flags >>> 4 &&& 0x01) + 1
    orbitSource := svinfoOrbitSource flags
    used := flags &&& 0x01 ≠ 0
    diffCorr := flags &&& 0x02 ≠ 0
    smoothed := flags &&& 0x80 ≠ 0 }

def goodSats (satellites : List GnssSatellite) : Nat :=
  satellites.countP fun sat => sat.cnr > 0

def ubxNavSVinfo : Reader UInt8 NavSat := do
  let iTOW ← get UInt32 signedChar 0
  let numSvs ← get UInt8 signedChar 4
  let globFlags ← get UInt8 signedChar 5
  let n ← blockCount 8 12
  let satellites ← times n fun i => svinfoBlock signedChar i
  pure {
    iTOW := iTOW
    numSvs := numSvs
    globFlags := some globFlags
    goodSats := goodSats satellites
    satellites := satellites }

def satBlock (i : Nat) : Reader UInt8 GnssSatellite := do
  let n := 8 + i * 12
  let gnssId ← get UInt8 signedChar n
  let satId ← get UInt8 signedChar (n + 1)
  let cnr ← get UInt8 signedChar (n + 2)
  let elev ← get Int8 signedChar (n + 3)
  let azim ← get Int16 signedChar (n + 4)
  let prRes ← get Int16 signedChar (n + 6)
  let flags ← get UInt32 signedChar (n + 8)
  pure (GnssSatellite.ofFlags gnssId satId cnr elev azim ⟨prRes.toInt, 10⟩ flags)

/-- The version and the number of satellites are read, but only to be printed. -/
def ubxNavSat : Reader UInt8 NavSat := do
  let iTOW ← get UInt32 signedChar 0
  let _version ← get UInt8 signedChar 4
  let _numSvs ← get UInt8 signedChar 5
  let n ← blockCount 8 12
  let satellites ← times n fun i => satBlock signedChar i
  pure {
    iTOW := iTOW
    goodSats := goodSats satellites
    satellites := satellites }

def ubxNavPosLLH : Reader UInt8 GnssPosStruct := do
  let iTOW ← get UInt32 signedChar 0
  let lon ← get Int32 signedChar 4
  let lat ← get Int32 signedChar 8
  let height ← get Int32 signedChar 12
  let hMSL ← get Int32 signedChar 16
  let hAcc ← get UInt32 signedChar 20
  let vAcc ← get UInt32 signedChar 24
  pure { iTOW, lon, lat, height, hMSL, hAcc, vAcc }

def ubxCfgAnt : Reader UInt8 CfgAnt := do
  let flags ← get UInt16 signedChar 0
  let pins ← get UInt16 signedChar 2
  pure { flags, pins }

def ubxCfgNavX5 : Reader UInt8 CfgNavX5 := do
  let version ← get UInt8 signedChar 0
  let minSVs ← get UInt8 signedChar 10
  let maxSVs ← get UInt8 signedChar 11
  let minCNO ← get UInt8 signedChar 12
  let iniFix3D ← get UInt8 signedChar 14
  let wknRollover ← get UInt16 signedChar 18
  let aopCfg ← get UInt8 signedChar 27
  let aopOrbMaxErr ← get UInt16 signedChar 30
  pure { version, minSVs, maxSVs, minCNO, iniFix3D, wknRollover, aopCfg, aopOrbMaxErr }

def ubxCfgNav5 : Reader UInt8 CfgNav5 := do
  let mask ← get UInt16 signedChar 0
  let dynModel ← get UInt8 signedChar 2
  let fixMode ← get UInt8 signedChar 3
  let fixedAlt ← get Int32 signedChar 4
  let fixedAltVar ← get UInt32 signedChar 8
  let minElev ← get Int8 signedChar 12
  let cnoThreshNumSVs ← get UInt8 signedChar 24
  let cnoThresh ← get UInt8 signedChar 25
  pure { mask, dynModel, fixMode, fixedAlt, fixedAltVar, minElev, cnoThreshNumSVs, cnoThresh }

def ubxCfgTP5 : Reader UInt8 UbxTimePulseStruct := do
  let tpIndex ← get UInt8 signedChar 0
  let version ← get UInt8 signedChar 1
  let antCableDelay ← get Int16 signedChar 4
  let rfGroupDelay ← get Int16 signedChar 6
  let freqPeriod ← get UInt32 signedChar 8
  let freqPeriodLock ← get UInt32 signedChar 12
  let pulseLenRatio ← get UInt32 signedChar 16
  let pulseLenRatioLock ← get UInt32 signedChar 20
  let userConfigDelay ← get Int32 signedChar 24
  let flags ← get UInt32 signedChar 28
  pure {
    tpIndex, version, antCableDelay, rfGroupDelay, freqPeriod, freqPeriodLock, pulseLenRatio,
    pulseLenRatioLock, userConfigDelay, flags }

def gnssBlock (i : Nat) : Reader UInt8 GnssConfigStruct := do
  let n := 8 * i
  let gnssId ← get UInt8 signedChar (n + 4)
  let resTrkCh ← get UInt8 signedChar (n + 5)
  let maxTrkCh ← get UInt8 signedChar (n + 6)
  let flags ← get UInt32 signedChar (n + 8)
  pure { gnssId, resTrkCh, maxTrkCh, flags }

def ubxCfgGNSS : Reader UInt8 CfgGNSS := do
  let version ← get UInt8 signedChar 0
  let numTrkChHw ← get UInt8 signedChar 1
  let numTrkChUse ← get UInt8 signedChar 2
  let numConfigBlocks ← get UInt8 signedChar 3
  let n ← blockCount 4 8
  let configs ← times n fun i => gnssBlock signedChar i
  pure { version, numTrkChHw, numTrkChUse, numConfigBlocks, configs }

/-- The message id is big-endian: the class comes first. -/
def ubxCfgMSG : Reader UInt8 CfgMsg := do
  let msgID ← getEndian UInt16 .big signedChar 0
  let rate ← get UInt8 signedChar (2 + defaultTarget)
  pure { msgID := msgID, rate := rate.toNat }

def bufTarget (target : Nat) : Reader UInt8 (UInt16 × UInt8 × UInt8) := do
  let pending ← get UInt16 signedChar (2 * target)
  let usage ← get UInt8 signedChar (target + 12)
  let peakUsage ← get UInt8 signedChar (target + 18)
  pure (pending, usage, peakUsage)

/-- The totals are sums of bytes in a byte. -/
def ubxMonRx : Reader UInt8 MonRx := do
  let targets ← times nrTargets fun target => bufTarget signedChar target
  pure {
    pending := targets.map fun t => t.1
    usage := targets.map fun t => t.2.1
    peakUsage := targets.map fun t => t.2.2
    tUsage := targets.foldl (fun sum t => sum + t.2.1) 0
    tPeakUsage := targets.foldl (fun sum t => sum + t.2.2) 0 }

def ubxMonTx : Reader UInt8 MonTx := do
  let targets ← times nrTargets fun target => bufTarget signedChar target
  let tUsage ← get UInt8 signedChar 24
  let tPeakUsage ← get UInt8 signedChar 25
  pure {
    pending := targets.map fun t => t.1
    usage := targets.map fun t => t.2.1
    peakUsage := targets.map fun t => t.2.2
    tUsage := tUsage
    tPeakUsage := tPeakUsage }

def ubxMonHW : Reader UInt8 GnssMonHwStruct := do
  let noisePerMS ← get UInt16 signedChar 16
  let agcCnt ← get UInt16 signedChar 18
  let antStatus ← get UInt8 signedChar 20
  let antPower ← get UInt8 signedChar 21
  let flags ← get UInt8 signedChar 22
  let jamInd ← get UInt8 signedChar 45
  pure { noisePerMS, agcCnt, antStatus, antPower, flags, jamInd }

def ubxMonHW2 : Reader UInt8 GnssMonHw2Struct := do
  let ofsI ← get Int8 signedChar 0
  let magI ← get UInt8 signedChar 1
  let ofsQ ← get Int8 signedChar 2
  let magQ ← get UInt8 signedChar 3
  let cfgSrc ← get UInt8 signedChar 4
  let postStatus ← get UInt32 signedChar 20
  pure { ofsI, magI, ofsQ, magQ, cfgSrc, postStatus }

/-- The reference info is read from the byte of the flags. -/
def ubxTimTP : Reader UInt8 TimTP := do
  let towMS ← get UInt32 signedChar 0
  let towSubMS ← get UInt32 signedChar 4
  let qErr ← get Int32 signedChar 8
  let week ← get UInt16 signedChar 12
  let flags ← get UInt8 signedChar 14
  let refInfo ← get UInt8 signedChar 14
  pure { towMS, towSubMS, qErr, week, flags, refInfo }

end Decoders

/-! ## The version message -/

/-- `for (; msg[i] != 0 && i < stop; i++)`, with `left` turns until `stop`. The character
is read before the bound is tested. -/
def textFrom (i : Nat) : Nat → Reader UInt8 (List UInt8)
  | 0 => do
    let _ch ← index 0 i
    pure []
  | left + 1 => do
    let ch ← index 0 i
    if ch = 0 then pure []
    else do
      let rest ← textFrom (i + 1) left
      pure (ch :: rest)

def isDigit (ch : UInt8) : Bool := 0x30 ≤ ch && ch ≤ 0x39

def isGraph (ch : UInt8) : Bool := 0x21 ≤ ch && ch ≤ 0x7e

/-- The characters of `PROTVER`. -/
def protver : List UInt8 := [0x50, 0x52, 0x4f, 0x54, 0x56, 0x45, 0x52]

/-- What is kept of an extension: the text from its eighth character on, if `PROTVER`
occurs in it anywhere, without leading non-digits and trailing blanks. -/
def protOf (extension : List UInt8) : Option (List UInt8) :=
  let s := extension.dropWhile fun ch => ch = 0
  if s.tails.any fun t => protver.isPrefixOf t then
    some (((s.drop 7).dropWhile fun ch => !isDigit ch).rdropWhile fun ch =>
      ch = 0x20 || !isGraph ch)
  else none

/-- `std::string::npos`, and a place in a string with it as the absent one. -/
def npos : Nat := 2 ^ 64 - 1

def position (place : Option Nat) : Nat := place.getD npos

/-- The body of the loop over the extensions, at the place `i`: the version found so far
and the place of the next turn. -/
def scanTurn (i : Nat) (prot : List UInt8) : Reader UInt8 (List UInt8 × Option Nat) := do
  let place ← find 0 (i + 1)
  let s ← substr i ((position place + 2 ^ 64 - i + 1) % 2 ^ 64)
  let next ← find 0 (i + 1)
  pure ((protOf s).getD prot, next)

theorem scanTurn_next {buf : List UInt8} {i j : Nat} {prot prot' : List UInt8}
    (h : Gives buf (scanTurn i prot) (prot', some j)) : i < j ∧ j < buf.length := by
  obtain ⟨place, -, h⟩ := h.of_bind
  obtain ⟨s, -, h⟩ := h.of_bind
  obtain ⟨next, hnext, h⟩ := h.of_bind
  obtain ⟨-, rfl⟩ := Prod.mk.inj (Option.some.inj h)
  obtain ⟨hle, hlt⟩ := find_bounds hnext
  omega

/-- The loop over the extensions. -/
def scanExtensions (buf : List UInt8) (i : Nat) (prot : List UInt8) :
    Option (List UInt8) × Trace :=
  if i < buf.length then
    match _h : scanTurn i prot buf with
    | (none, t) => (none, t)
    | (some (prot', none), t) => (some prot', t)
    | (some (prot', some j), t) =>
      let rest := scanExtensions buf j prot'
      (rest.1, t.append rest.2)
  else (some prot, Trace.empty)
termination_by buf.length - i
decreasing_by
  have hnext := scanTurn_next (congrArg Prod.fst _h)
  omega

/-- One turn of the loop and the turns after it. -/
theorem scanExtensions_turn {buf : List UInt8} {i : Nat} (hi : i < buf.length)
    (prot : List UInt8) :
    scanExtensions buf i prot = (do
      let (prot', next) ← scanTurn i prot
      match next with
      | none => pure prot'
      | some j => fun buf => scanExtensions buf j prot' : Reader UInt8 (List UInt8)) buf := by
  rw [scanExtensions, if_pos hi]
  split
  · next h => rw [bind_none h]
  · next prot' t h =>
    rw [bind_some h]
    exact congrArg (Prod.mk (some prot')) (Trace.append_empty t).symm
  · next h => rw [bind_some h]

theorem scanExtensions_end {buf : List UInt8} {i : Nat} (hi : ¬ i < buf.length)
    (prot : List UInt8) : scanExtensions buf i prot = (some prot, Trace.empty) := by
  rw [scanExtensions, if_neg hi]

def ubxMonVer : Reader UInt8 GpsVersion := do
  let swString ← textFrom 0 30
  let hwString ← textFrom 30 10
  let size ← Reader.size
  bound size
  let prot ← fun buf => scanExtensions buf 0 []
  pure { hwString, swString, prot }

/-! ## The time mark message -/

def gpsUnixEpochOffset : Int := 315964800

/-- `time_t` is taken to have 64 bits. -/
def unixtimeFromGps (weekNr sOfWeek ns : Int) : Timespec where
  tvSec := gpsUnixEpochOffset + weekNr * 7 * 24 * 3600 + sOfWeek
  tvNsec := ns

/-- The fraction of a second in `towMs` with `sub`, in nanoseconds. The source calculates it with
doubles and cuts the result, which may differ by one: of 31904 ms it makes 903999999. -/
def nsOfSecond (towMs sub : UInt32) : Int := towMs.toNat % 1000 * 1000000 + sub.toNat

/-- The time stamp of a missing edge from the other one, and the length to remember. -/
def recoverEdges (lastPulseLength : Int) (tm : UbxTimeMarkStruct) : UbxTimeMarkStruct × Int :=
  if ¬ tm.risingValid ∧ tm.fallingValid then
    let sec := tm.falling.tvSec - lastPulseLength.tdiv 1000000000
    let nsec := tm.falling.tvNsec - lastPulseLength.tmod 1000000000
    if nsec ≥ 1000000000 then
      ({ tm with rising := ⟨sec + 1, nsec - 1000000000⟩ }, lastPulseLength)
    else if nsec < 0 then
      ({ tm with rising := ⟨sec - 1, nsec + 1000000000⟩ }, lastPulseLength)
    else ({ tm with rising := ⟨sec, nsec⟩ }, lastPulseLength)
  else if ¬ tm.fallingValid ∧ tm.risingValid then
    let sec := tm.rising.tvSec + lastPulseLength.tdiv 1000000000
    let nsec := tm.rising.tvNsec + lastPulseLength.tmod 1000000000
    if nsec ≥ 1000000000 then
      ({ tm with falling := ⟨sec + 1, nsec - 1000000000⟩ }, lastPulseLength)
    else ({ tm with falling := ⟨sec, nsec⟩ }, lastPulseLength)
  else if ¬ tm.fallingValid ∧ ¬ tm.risingValid then (tm, lastPulseLength)
  else
    let dts := (tm.falling.tvSec - tm.rising.tvSec) * 1000000000 +
      (tm.falling.tvNsec - tm.rising.tvNsec)
    (tm, if dts > 0 ∧ dts < 1000000 then dts else lastPulseLength)

/-- The channel is stored in a time stamp that is dropped. -/
def ubxTimTM2 (signedChar : Bool) (lastPulseLength : Int) :
    Reader UInt8 (UbxTimeMarkStruct × Int) := do
  let _ch ← get UInt8 signedChar 0
  let flags ← get UInt8 signedChar 1
  let count ← get UInt16 signedChar 2
  let wnR ← get UInt16 signedChar 4
  let wnF ← get UInt16 signedChar 6
  let towMsR ← get UInt32 signedChar 8
  let towSubMsR ← get UInt32 signedChar 12
  let towMsF ← get UInt32 signedChar 16
  let towSubMsF ← get UInt32 signedChar 20
  let accEst ← get UInt32 signedChar 24
  pure (recoverEdges lastPulseLength {
    rising := unixtimeFromGps wnR.toNat (towMsR / 1000).toNat (nsOfSecond towMsR towSubMsR)
    falling := unixtimeFromGps wnF.toNat (towMsF / 1000).toNat (nsOfSecond towMsF towSubMsF)
    risingValid := flags &&& 0x80 ≠ 0
    fallingValid := flags &&& 0x04 ≠ 0
    accuracyNs := accEst
    valid := flags &&& 0x40 ≠ 0
    timeBase := (flags &&& 0x18) >>> 3
    utcAvailable := flags &&& 0x20 ≠ 0
    flags := flags
    evtCounter := count })

/-! ## The lookup -/

/-- The message id that an acknowledge is about, with the check of its size. -/
def ubxAck (signedChar : Bool) (fullId : UInt16) : Reader UInt8 (Option UbxEvent) := do
  let size ← Reader.size
  if size < 2 then pure none
  else do
    let isNak : Bool := (fullId &&& 0xff).toUInt8 = 0
    let hi ← charAt signedChar UInt16 0
    let lo ← charAt signedChar UInt16 1
    let ackedMsgID := hi <<< 8 ||| lo
    if isNak then pure (some (.ackNak { msgID := ackedMsgID }))
    else pure (some (.ackAck { msgID := ackedMsgID }))

/-- A decoder that leaves the static variables alone. -/
def stateless {α : Type} (s : ProcessorState) (r : Reader UInt8 α) (event : α → UbxEvent) :
    Reader UInt8 (UbxEvent × ProcessorState) := do
  let data ← r
  pure (event data, s)

def monVerHandler (s : ProcessorState) : Reader UInt8 (UbxEvent × ProcessorState) := do
  let data ← ubxMonVer
  pure (.monVer data, { s with gpsVersion := some data })

def timTM2Handler (signedChar : Bool) (s : ProcessorState) :
    Reader UInt8 (UbxEvent × ProcessorState) := do
  let (tm, lastPulseLength) ← ubxTimTM2 signedChar s.lastPulseLength
  pure (.timTM2 tm, { s with lastPulseLength := lastPulseLength })

/-- The table `handlerLookup`. -/
def handlers (c : Bool) (s : ProcessorState) :
    List (UInt16 × Reader UInt8 (UbxEvent × ProcessorState)) :=
  [(MsgId.navStatus, stateless s (ubxNavStatus c) .navStatus),
    (MsgId.navDop, stateless s (ubxNavDOP c) .navDop),
    (MsgId.navTimeGPS, stateless s (ubxNavTimeGPS c) .navTimeGPS),
    (MsgId.navTimeUTC, stateless s (ubxNavTimeUTC c) .navTimeUTC),
    (MsgId.navClock, stateless s (ubxNavClock c) .navClock),
    (MsgId.navSVinfo, stateless s (ubxNavSVinfo c) .navSat),
    (MsgId.navSat, stateless s (ubxNavSat c) .navSat),
    (MsgId.navPosLLH, stateless s (ubxNavPosLLH c) .navPosLLH),
    (MsgId.cfgAnt, stateless s (ubxCfgAnt c) .cfgAnt),
    (MsgId.cfgNavX5, stateless s (ubxCfgNavX5 c) .cfgNavX5),
    (MsgId.cfgNav5, stateless s (ubxCfgNav5 c) .cfgNav5),
    (MsgId.cfgTP5, stateless s (ubxCfgTP5 c) .cfgTP5),
    (MsgId.cfgGNSS, stateless s (ubxCfgGNSS c) .cfgGNSS),
    (MsgId.cfgMsg, stateless s (ubxCfgMSG c) .cfgMsg),
    (MsgId.monRxBuf, stateless s (ubxMonRx c) .monRx),
    (MsgId.monTxBuf, stateless s (ubxMonTx c) .monTx),
    (MsgId.monHW, stateless s (ubxMonHW c) .monHW),
    (MsgId.monHW2, stateless s (ubxMonHW2 c) .monHW2),
    (MsgId.monVer, monVerHandler s),
    (MsgId.timTP, stateless s (ubxTimTP c) .timTP),
    (MsgId.timTM2, timTM2Handler c s)]

def decode (c : Bool) (s : ProcessorState) (fullId : UInt16) :
    Reader UInt8 (Option UbxEvent × ProcessorState) :=
  match (handlers c s).lookup fullId with
  | some handle => do
    let (event, s') ← handle
    pure (some event, s')
  | none =>
    if (fullId >>> 8 &&& 0xff).toUInt8 = 0x05 then do
      let event ← ubxAck c fullId
      pure (event, s)
    else pure (none, s)

theorem decode_of_handler {c : Bool} {s : ProcessorState} {fullId : UInt16}
    {handle : Reader UInt8 (UbxEvent × ProcessorState)}
    (h : (handlers c s).lookup fullId = some handle) :
    decode c s fullId = (do
      let (event, s') ← handle
      pure (some event, s')) := by
  unfold decode
  rw [h]

theorem gives_stateless {c : Bool} {ps : ProcessorState} {id : UInt16} {payload : List UInt8}
    {α : Type} {r : Reader UInt8 α} (event : α → UbxEvent) {data : α}
    (hlookup : (handlers c ps).lookup id = some (stateless ps r event)) (h : Gives payload r data) :
    Gives payload (decode c ps id) (some (event data), ps) := by
  have hhandler : Gives payload (stateless ps r event) (event data, ps) :=
    h.bind (Gives.pure payload (event data, ps))
  rw [decode_of_handler hlookup]
  exact hhandler.bind (Gives.pure payload (some (event data), ps))

theorem decode_of_no_handler {c : Bool} {s : ProcessorState} {fullId : UInt16}
    (h : (handlers c s).lookup fullId = none) :
    decode c s fullId =
      if (fullId >>> 8 &&& 0xff).toUInt8 = 0x05 then (do
        let event ← ubxAck c fullId
        pure (event, s))
      else pure (none, s) := by
  unfold decode
  rw [h]

/-- The event of a message, if there is one, with the static variables after it, and what
was read of the payload for it. -/
def processMessage (c : Bool) (s : ProcessorState) (msg : UbxMessage) :
    Option (Option UbxEvent × ProcessorState) × Trace :=
  decode c s msg.fullId msg.payload

end MuonDetector.Ublox.MessageProcessor
