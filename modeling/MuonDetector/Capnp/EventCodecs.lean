import Mathlib.Tactic.MkIffOfInductiveProp
import Mathlib.Tactic.Ring
import MuonDetector.Library.Maps
import MuonDetector.Library.Messages
import MuonDetector.Network.MessageKeys
import MuonDetector.Ublox.Events

/-!
# Codecs of the compound events

The events that hold lists, maps, texts or values that may be missing. A codec builds a
message of an event field by field and makes an event of a message again. Message types
have the names and the widths of the schemas; a field that is not set has its default.
-/

namespace MuonDetector.Capnp.EventCodecs

open MuonDetector.Library.Maps MuonDetector.Library.Messages MuonDetector.Network.MessageKeys
open MuonDetector.Ublox.Events (CfgGNSS GnssConfigStruct MonRx MonTx Timespec UbxTimeMarkStruct
  nrTargets)

/-- A codec, and the key of the packets that carry its messages. -/
structure CapnpCodec (T : Type) extends Codec T where
  messageKey : UInt16

variable {lib : Serializer}

/-! ## Satellites -/

/-- A satellite as it is sent, with the residual as the `float` that it is rounded to. -/
structure GnssSatellite where
  gnssId : UInt8
  satId : UInt8
  cnr : UInt8
  elev : Int8
  azim : Int16
  prRes : Binary32
  quality : UInt8
  health : UInt8
  orbitSource : UInt8
  used : Bool
  diffCorr : Bool
  smoothed : Bool
  deriving DecidableEq, Repr

/-- The size type of the platform has 64 bits. -/
structure NavSat where
  iTOW : UInt32
  version : Option UInt8
  globFlags : Option UInt8
  numSvs : UInt8
  goodSats : UInt64
  satellites : List GnssSatellite
  deriving DecidableEq, Repr

structure GnssSatelliteCapnp where
  gnssId : UInt8 := 0
  satId : UInt8 := 0
  cnr : UInt8 := 0
  elev : Int8 := 0
  azim : Int16 := 0
  prRes : Binary32 := {}
  quality : UInt8 := 0
  health : UInt8 := 0
  orbitSource : UInt8 := 0
  used : Bool := false
  diffCorr : Bool := false
  smoothed : Bool := false
  deriving DecidableEq, Repr, Countable

structure NavSatCapnp where
  iTOW : UInt32 := 0
  version : UInt8 := 0
  hasVersion : Bool := false
  globFlags : UInt8 := 0
  hasGlobFlags : Bool := false
  numSvs : UInt8 := 0
  goodSats : UInt64 := 0
  satellites : List GnssSatelliteCapnp := []
  deriving DecidableEq, Repr, Countable

instance : Message NavSatCapnp where

def GnssSatellite.toCapnp (satellite : GnssSatellite) : GnssSatelliteCapnp where
  gnssId := satellite.gnssId
  satId := satellite.satId
  cnr := satellite.cnr
  elev := satellite.elev
  azim := satellite.azim
  prRes := satellite.prRes
  quality := satellite.quality
  health := satellite.health
  orbitSource := satellite.orbitSource
  used := satellite.used
  diffCorr := satellite.diffCorr
  smoothed := satellite.smoothed

def GnssSatellite.ofCapnp (item : GnssSatelliteCapnp) : GnssSatellite where
  gnssId := item.gnssId
  satId := item.satId
  cnr := item.cnr
  elev := item.elev
  azim := item.azim
  prRes := item.prRes
  quality := item.quality
  health := item.health
  orbitSource := item.orbitSource
  used := item.used
  diffCorr := item.diffCorr
  smoothed := item.smoothed

/-- An optional value is a flag and a field that is set when there is a value. -/
def navSat : CapnpCodec NavSat where
  Root := NavSatCapnp
  messageKey := TcpMsgKey.gnssSats.number
  toRoot event := {
    iTOW := event.iTOW
    hasVersion := event.version.isSome
    version := event.version.getD 0
    hasGlobFlags := event.globFlags.isSome
    globFlags := event.globFlags.getD 0
    numSvs := event.numSvs
    goodSats := event.goodSats
    satellites := event.satellites.map GnssSatellite.toCapnp }
  ofRoot root := some {
    iTOW := root.iTOW
    version := if root.hasVersion then some root.version else none
    globFlags := if root.hasGlobFlags then some root.globFlags else none
    numSvs := root.numSvs
    goodSats := root.goodSats
    satellites := root.satellites.map GnssSatellite.ofCapnp }

theorem optional_roundTrip {α : Type} (value : Option α) (fallback : α) :
    (if value.isSome then some (value.getD fallback) else none) = value := by
  cases value <;> rfl

theorem navSat_roundTrips (event : NavSat) : navSat.RoundTrips lib event := by
  have hsatellites : (event.satellites.map GnssSatellite.toCapnp).map GnssSatellite.ofCapnp =
      event.satellites := by
    rw [List.map_map, map_eq_self_iff]
    exact fun _ _ => rfl
  rw [Codec.roundTrips_iff]
  simp only [navSat, optional_roundTrip, hsatellites]

/-! ## Calibration -/

structure CalibStruct where
  name : List UInt8
  type : List UInt8
  address : UInt16
  value : List UInt8
  deriving DecidableEq, Repr

structure CalibEvent where
  valid : Bool
  eepromValid : Bool
  id : UInt64
  calibList : List CalibStruct
  deriving DecidableEq, Repr

structure CalibStructCapnp where
  name : List UInt8 := []
  type : List UInt8 := []
  address : UInt16 := 0
  value : List UInt8 := []
  deriving DecidableEq, Repr, Countable

structure CalibEventCapnp where
  valid : Bool := false
  eepromValid : Bool := false
  id : UInt64 := 0
  calibList : List CalibStructCapnp := []
  deriving DecidableEq, Repr, Countable

instance : Message CalibEventCapnp where

def CalibStruct.toCapnp (calib : CalibStruct) : CalibStructCapnp where
  name := calib.name
  type := calib.type
  address := calib.address
  value := calib.value

def CalibStruct.ofCapnp (item : CalibStructCapnp) : CalibStruct where
  name := cStr item.name
  type := cStr item.type
  address := item.address
  value := cStr item.value

def calibEvent : CapnpCodec CalibEvent where
  Root := CalibEventCapnp
  messageKey := TcpMsgKey.calibSet.number
  toRoot event := {
    valid := event.valid
    eepromValid := event.eepromValid
    id := event.id
    calibList := event.calibList.map CalibStruct.toCapnp }
  ofRoot root := some {
    valid := root.valid
    eepromValid := root.eepromValid
    id := root.id
    calibList := root.calibList.map CalibStruct.ofCapnp }

/-- No text holds a zero byte. -/
@[mk_iff]
structure CalibStruct.NulFree (calib : CalibStruct) : Prop where
  name : 0 ∉ calib.name
  type : 0 ∉ calib.type
  value : 0 ∉ calib.value

theorem CalibStruct.ofCapnp_toCapnp {calib : CalibStruct} :
    ofCapnp calib.toCapnp = calib ↔ calib.NulFree := by
  obtain ⟨name, type, address, value⟩ := calib
  simp only [toCapnp, ofCapnp, mk.injEq, cStr_eq_self, true_and, nulFree_iff]

theorem calibEvent_roundTrips {event : CalibEvent} :
    calibEvent.RoundTrips lib event ↔ ∀ calib ∈ event.calibList, calib.NulFree := by
  obtain ⟨valid, eepromValid, id, calibList⟩ := event
  rw [Codec.roundTrips_iff]
  simp only [calibEvent, Option.some.injEq, CalibEvent.mk.injEq, true_and, List.map_map,
    map_eq_self_iff, Function.comp_apply, CalibStruct.ofCapnp_toCapnp]

/-! ## GNSS configuration -/

structure GnssConfigStructCapnp where
  gnssId : UInt8 := 0
  resTrkCh : UInt8 := 0
  maxTrkCh : UInt8 := 0
  flags : UInt32 := 0
  deriving DecidableEq, Repr, Countable

structure CfgGNSSCapnp where
  version : UInt8 := 0
  numTrkChHw : UInt8 := 0
  numTrkChUse : UInt8 := 0
  numConfigBlocks : UInt8 := 0
  configs : List GnssConfigStructCapnp := []
  deriving DecidableEq, Repr, Countable

instance : Message CfgGNSSCapnp where

def gnssConfigToCapnp (config : GnssConfigStruct) : GnssConfigStructCapnp where
  gnssId := config.gnssId
  resTrkCh := config.resTrkCh
  maxTrkCh := config.maxTrkCh
  flags := config.flags

def gnssConfigOfCapnp (cfg : GnssConfigStructCapnp) : GnssConfigStruct where
  gnssId := cfg.gnssId
  resTrkCh := cfg.resTrkCh
  maxTrkCh := cfg.maxTrkCh
  flags := cfg.flags

def cfgGNSS : CapnpCodec CfgGNSS where
  Root := CfgGNSSCapnp
  messageKey := TcpMsgKey.ubxGnssConfig.number
  toRoot event := {
    version := event.version
    numTrkChHw := event.numTrkChHw
    numTrkChUse := event.numTrkChUse
    numConfigBlocks := event.numConfigBlocks
    configs := event.configs.map gnssConfigToCapnp }
  ofRoot root := some {
    version := root.version
    numTrkChHw := root.numTrkChHw
    numTrkChUse := root.numTrkChUse
    numConfigBlocks := root.numConfigBlocks
    configs := root.configs.map gnssConfigOfCapnp }

theorem gnssConfigs_roundTrip (configs : List GnssConfigStruct) :
    (configs.map gnssConfigToCapnp).map gnssConfigOfCapnp = configs := by
  rw [List.map_map, map_eq_self_iff]
  exact fun _ _ => rfl

theorem cfgGNSS_roundTrips (event : CfgGNSS) : cfgGNSS.RoundTrips lib event := by
  rw [Codec.roundTrips_iff]
  simp only [cfgGNSS, gnssConfigs_roundTrip]

/-! ## Rates and samples -/

structure GpioRateEvent where
  whichRate : UInt8
  rate : List (Binary32 × Binary32)
  deriving DecidableEq, Repr

structure FloatPair where
  first : Binary32 := {}
  second : Binary32 := {}
  deriving DecidableEq, Repr, Countable

structure GpioRateEventCapnp where
  whichRate : UInt8 := 0
  rate : List FloatPair := []
  deriving DecidableEq, Repr, Countable

instance : Message GpioRateEventCapnp where

def gpioRateEvent : CapnpCodec GpioRateEvent where
  Root := GpioRateEventCapnp
  messageKey := TcpMsgKey.gpioRate.number
  toRoot event := {
    whichRate := event.whichRate
    rate := event.rate.map fun point => { first := point.1, second := point.2 } }
  ofRoot root := some {
    whichRate := root.whichRate
    rate := root.rate.map fun r => (r.first, r.second) }

theorem gpioRateEvent_roundTrips (event : GpioRateEvent) : gpioRateEvent.RoundTrips lib event := by
  rw [Codec.roundTrips_iff]
  simp only [gpioRateEvent, List.map_map]
  congr
  rw [map_eq_self_iff]
  exact fun _ _ => rfl

structure AdcTraceEvent where
  adcSampleBuffer : List Binary32
  deriving DecidableEq, Repr

structure AdcTraceEventCapnp where
  adcSampleBuffer : List Binary32 := []
  deriving DecidableEq, Repr, Countable

instance : Message AdcTraceEventCapnp where

def adcTraceEvent : CapnpCodec AdcTraceEvent where
  Root := AdcTraceEventCapnp
  messageKey := TcpMsgKey.adcTrace.number
  toRoot event := { adcSampleBuffer := event.adcSampleBuffer }
  ofRoot root := some { adcSampleBuffer := root.adcSampleBuffer }

theorem adcTraceEvent_roundTrips (event : AdcTraceEvent) : adcTraceEvent.RoundTrips lib event := by
  rw [Codec.roundTrips_iff]
  rfl

/-! ## Devices on the I2C bus -/

structure I2cDeviceEntry where
  address : UInt8
  name : List UInt8
  status : UInt8
  nrBytesWritten : UInt32
  nrBytesRead : UInt32
  nrIoErrors : UInt32
  lastTransactionTime : UInt32
  deriving DecidableEq, Repr

structure I2CStatsEvent where
  nrDevices : UInt8
  bytesRead : UInt32
  bytesWritten : UInt32
  deviceList : List I2cDeviceEntry
  deriving DecidableEq, Repr

structure I2cDeviceEntryCapnp where
  address : UInt8 := 0
  name : List UInt8 := []
  status : UInt8 := 0
  nrBytesWritten : UInt32 := 0
  nrBytesRead : UInt32 := 0
  nrIoErrors : UInt32 := 0
  lastTransactionTime : UInt32 := 0
  deriving DecidableEq, Repr, Countable

structure I2cStatsEventCapnp where
  nrDevices : UInt8 := 0
  bytesRead : UInt32 := 0
  bytesWritten : UInt32 := 0
  deviceList : List I2cDeviceEntryCapnp := []
  deriving DecidableEq, Repr, Countable

instance : Message I2cStatsEventCapnp where

def I2cDeviceEntry.toCapnp (device : I2cDeviceEntry) : I2cDeviceEntryCapnp where
  address := device.address
  name := device.name
  status := device.status
  nrBytesWritten := device.nrBytesWritten
  nrBytesRead := device.nrBytesRead
  nrIoErrors := device.nrIoErrors
  lastTransactionTime := device.lastTransactionTime

def I2cDeviceEntry.ofCapnp (d : I2cDeviceEntryCapnp) : I2cDeviceEntry where
  address := d.address
  name := cStr d.name
  status := d.status
  nrBytesWritten := d.nrBytesWritten
  nrBytesRead := d.nrBytesRead
  nrIoErrors := d.nrIoErrors
  lastTransactionTime := d.lastTransactionTime

def i2cStatsEvent : CapnpCodec I2CStatsEvent where
  Root := I2cStatsEventCapnp
  messageKey := TcpMsgKey.i2cStats.number
  toRoot event := {
    nrDevices := event.nrDevices
    bytesRead := event.bytesRead
    bytesWritten := event.bytesWritten
    deviceList := event.deviceList.map I2cDeviceEntry.toCapnp }
  ofRoot root := some {
    nrDevices := root.nrDevices
    bytesRead := root.bytesRead
    bytesWritten := root.bytesWritten
    deviceList := root.deviceList.map I2cDeviceEntry.ofCapnp }

theorem I2cDeviceEntry.ofCapnp_toCapnp {device : I2cDeviceEntry} :
    ofCapnp device.toCapnp = device ↔ 0 ∉ device.name := by
  obtain ⟨⟩ := device
  simp only [toCapnp, ofCapnp, mk.injEq, cStr_eq_self, true_and, and_true]

theorem i2cStatsEvent_roundTrips {event : I2CStatsEvent} :
    i2cStatsEvent.RoundTrips lib event ↔ ∀ device ∈ event.deviceList, 0 ∉ device.name := by
  obtain ⟨nrDevices, bytesRead, bytesWritten, deviceList⟩ := event
  rw [Codec.roundTrips_iff]
  simp only [i2cStatsEvent, Option.some.injEq, I2CStatsEvent.mk.injEq, true_and, List.map_map,
    map_eq_self_iff, Function.comp_apply, I2cDeviceEntry.ofCapnp_toCapnp]

/-! ## Settings of the converter -/

/-- An unordered map is what it holds for each channel. -/
structure MCP4728Event where
  dacValues : UInt8 → Option UInt16
  eepromValues : Option (UInt8 → Option UInt16)
  voltages : UInt8 → Option Binary32

structure DacEntry where
  channel : UInt8 := 0
  value : UInt16 := 0
  deriving DecidableEq, Repr, Countable

structure EepromEntry where
  channel : UInt8 := 0
  value : UInt16 := 0
  deriving DecidableEq, Repr, Countable

structure VoltageEntry where
  channel : UInt8 := 0
  value : Binary32 := {}
  deriving DecidableEq, Repr, Countable

structure MCP4728EventCapnp where
  dacValues : List DacEntry := []
  eepromValues : List EepromEntry := []
  voltages : List VoltageEntry := []
  hasEepromValue : Bool := false
  deriving DecidableEq, Repr, Countable

instance : Message MCP4728EventCapnp where

/-- Each of the maps is gone through in an order of its own. -/
structure MapOrders where
  dac : IterationOrder UInt8 UInt16
  eeprom : IterationOrder UInt8 UInt16
  voltage : IterationOrder UInt8 Binary32

instance finiteUInt8 : Finite UInt8 :=
  Finite.of_injective UInt8.toFin fun _ _ h => UInt8.toNat_inj.mp (congrArg Fin.val h)

theorem MapOrders.nonempty : Nonempty MapOrders := by
  obtain ⟨ints⟩ := IterationOrder.nonempty (K := UInt8) (V := UInt16)
  obtain ⟨floats⟩ := IterationOrder.nonempty (K := UInt8) (V := Binary32)
  exact ⟨⟨ints, ints, floats⟩⟩

def mcp4728Event (orders : MapOrders) : CapnpCodec MCP4728Event where
  Root := MCP4728EventCapnp
  messageKey := TcpMsgKey.dacReadback.number
  toRoot event := {
    dacValues := (orders.dac.entries event.dacValues).map fun entry => ⟨entry.1, entry.2⟩
    hasEepromValue := event.eepromValues.isSome
    eepromValues := match event.eepromValues with
      | some values => (orders.eeprom.entries values).map fun entry => ⟨entry.1, entry.2⟩
      | none => []
    voltages := (orders.voltage.entries event.voltages).map fun entry => ⟨entry.1, entry.2⟩ }
  ofRoot root := some {
    dacValues := assign (fun _ => none) (root.dacValues.map fun e => (e.channel, e.value))
    eepromValues :=
      if root.hasEepromValue then
        some (assign (fun _ => none) (root.eepromValues.map fun e => (e.channel, e.value)))
      else none
    voltages := assign (fun _ => none) (root.voltages.map fun e => (e.channel, e.value)) }

theorem mcp4728Event_roundTrips (orders : MapOrders) (event : MCP4728Event) :
    (mcp4728Event orders).RoundTrips lib event := by
  obtain ⟨dacValues, eepromValues, voltages⟩ := event
  rw [Codec.roundTrips_iff]
  cases eepromValues with
  | none =>
    simp [mcp4728Event, Function.comp_def, IterationOrder.assign_entries]
  | some values =>
    simp [mcp4728Event, Function.comp_def, IterationOrder.assign_entries]

/-! ## Buffers of the receiver -/

/-- The fields that both buffer statistics and both their messages have. -/
structure MonBuffer where
  pending : List UInt16 := []
  usage : List UInt8 := []
  peakUsage : List UInt8 := []
  tUsage : UInt8 := 0
  tPeakUsage : UInt8 := 0
  deriving DecidableEq, Repr, Countable

structure MonRxCapnp extends MonBuffer where
  deriving DecidableEq, Repr, Countable

structure MonTxCapnp extends MonBuffer where
  deriving DecidableEq, Repr, Countable

instance : Message MonRxCapnp where
instance : Message MonTxCapnp where

/-- An array of zeros for the targets, the first of them set to the items. -/
def fillArray {α : Type} (zero : α) (items : List α) : List α :=
  items.take nrTargets ++ List.replicate (nrTargets - items.length) zero

theorem fillArray_eq_self {α : Type} {zero : α} {items : List α} :
    fillArray zero items = items ↔ items.length = nrTargets := by
  constructor
  · intro h
    have hlength := congrArg List.length h
    rw [fillArray, List.length_append, List.length_take, List.length_replicate] at hlength
    omega
  · intro h
    rw [fillArray, ← h, List.take_length, Nat.sub_self, List.replicate_zero, List.append_nil]

/-- Each list of the message is as long as the array that is copied into it. -/
def encodeMonBuffer (event : MonBuffer) : MonBuffer where
  pending := event.pending
  usage := event.usage
  peakUsage := event.peakUsage
  tUsage := event.tUsage
  tPeakUsage := event.tPeakUsage

def decodeMonBuffer (root : MonBuffer) : MonBuffer where
  pending := fillArray 0 root.pending
  usage := fillArray 0 root.usage
  peakUsage := fillArray 0 root.peakUsage
  tUsage := root.tUsage
  tPeakUsage := root.tPeakUsage

/-- The arrays have a place for each target. -/
@[mk_iff]
structure MonBuffer.FullLength (event : MonBuffer) : Prop where
  pending : event.pending.length = nrTargets
  usage : event.usage.length = nrTargets
  peakUsage : event.peakUsage.length = nrTargets

theorem decodeMonBuffer_encodeMonBuffer {event : MonBuffer} :
    decodeMonBuffer (encodeMonBuffer event) = event ↔ event.FullLength := by
  obtain ⟨pending, usage, peakUsage, tUsage, tPeakUsage⟩ := event
  simp only [decodeMonBuffer, encodeMonBuffer, MonBuffer.mk.injEq, fillArray_eq_self, and_true,
    MonBuffer.fullLength_iff]

def bufferOfRx (event : MonRx) : MonBuffer :=
  ⟨event.pending, event.usage, event.peakUsage, event.tUsage, event.tPeakUsage⟩

def rxOfBuffer (buffer : MonBuffer) : MonRx :=
  ⟨buffer.pending, buffer.usage, buffer.peakUsage, buffer.tUsage, buffer.tPeakUsage⟩

def bufferOfTx (event : MonTx) : MonBuffer :=
  ⟨event.pending, event.usage, event.peakUsage, event.tUsage, event.tPeakUsage⟩

def txOfBuffer (buffer : MonBuffer) : MonTx :=
  ⟨buffer.pending, buffer.usage, buffer.peakUsage, buffer.tUsage, buffer.tPeakUsage⟩

def monRx : CapnpCodec MonRx where
  Root := MonRxCapnp
  messageKey := TcpMsgKey.ubxRxbuf.number
  toRoot event := ⟨encodeMonBuffer (bufferOfRx event)⟩
  ofRoot root := some (rxOfBuffer (decodeMonBuffer root.toMonBuffer))

def monTx : CapnpCodec MonTx where
  Root := MonTxCapnp
  messageKey := TcpMsgKey.ubxTxbuf.number
  toRoot event := ⟨encodeMonBuffer (bufferOfTx event)⟩
  ofRoot root := some (txOfBuffer (decodeMonBuffer root.toMonBuffer))

/-- Either statistics come back when the buffer does. -/
theorem monBuffer_roundTrip {T : Type} {toBuffer : T → MonBuffer} {ofBuffer : MonBuffer → T}
    (hof : ∀ event, ofBuffer (toBuffer event) = event)
    (hto : ∀ buffer, toBuffer (ofBuffer buffer) = buffer) {event : T} :
    some (ofBuffer (decodeMonBuffer (encodeMonBuffer (toBuffer event)))) = some event ↔
      (toBuffer event).FullLength := by
  rw [Option.some.injEq, ← decodeMonBuffer_encodeMonBuffer]
  constructor
  · intro h
    exact (hto _).symm.trans (congrArg toBuffer h)
  · intro h
    rw [h]
    exact hof event

theorem monRx_roundTrips {event : MonRx} :
    monRx.RoundTrips lib event ↔ (bufferOfRx event).FullLength := by
  rw [Codec.roundTrips_iff]
  exact monBuffer_roundTrip (fun _ => rfl) (fun _ => rfl)

theorem monTx_roundTrips {event : MonTx} :
    monTx.RoundTrips lib event ↔ (bufferOfTx event).FullLength := by
  rw [Codec.roundTrips_iff]
  exact monBuffer_roundTrip (fun _ => rfl) (fun _ => rfl)

/-! ## Versions -/

structure Version where
  major : Int32
  minor : Int32
  patch : Int32
  additional : List UInt8 := []
  hash : List UInt8 := []
  deriving DecidableEq, Repr

structure VersionEvent where
  hwVer : Version
  swVer : Version
  deriving DecidableEq, Repr

structure VersionCapnp where
  major : Int32 := 0
  minor : Int32 := 0
  patch : Int32 := 0
  additional : List UInt8 := []
  hash : List UInt8 := []
  deriving DecidableEq, Repr, Countable

structure VersionEventCapnp where
  hwVer : VersionCapnp := {}
  swVer : VersionCapnp := {}
  deriving DecidableEq, Repr, Countable

instance : Message VersionEventCapnp where

def Version.toCapnp (version : Version) : VersionCapnp where
  major := version.major
  minor := version.minor
  patch := version.patch
  additional := version.additional
  hash := version.hash

def Version.ofCapnp (item : VersionCapnp) : Version where
  major := item.major
  minor := item.minor
  patch := item.patch
  additional := cStr item.additional
  hash := cStr item.hash

def versionEvent : CapnpCodec VersionEvent where
  Root := VersionEventCapnp
  messageKey := TcpMsgKey.version.number
  toRoot event := { hwVer := event.hwVer.toCapnp, swVer := event.swVer.toCapnp }
  ofRoot root := some { hwVer := .ofCapnp root.hwVer, swVer := .ofCapnp root.swVer }

@[mk_iff]
structure Version.NulFree (version : Version) : Prop where
  additional : 0 ∉ version.additional
  hash : 0 ∉ version.hash

theorem Version.ofCapnp_toCapnp {version : Version} :
    ofCapnp version.toCapnp = version ↔ version.NulFree := by
  obtain ⟨⟩ := version
  simp only [toCapnp, ofCapnp, mk.injEq, cStr_eq_self, true_and, nulFree_iff]

theorem versionEvent_roundTrips {event : VersionEvent} :
    versionEvent.RoundTrips lib event ↔ event.hwVer.NulFree ∧ event.swVer.NulFree := by
  obtain ⟨hwVer, swVer⟩ := event
  rw [Codec.roundTrips_iff]
  simp only [versionEvent, Option.some.injEq, VersionEvent.mk.injEq, Version.ofCapnp_toCapnp]

/-! ## Position model -/

structure GeoPosition where
  longitude : Binary64 := {}
  latitude : Binary64 := {}
  altitude : Binary64 := {}
  horError : Binary64 := {}
  vertError : Binary64 := {}
  deriving DecidableEq, Repr

inductive Mode where
  | static
  | lockIn
  | auto
  deriving DecidableEq, Repr

inductive FilterType where
  | none
  | kalman
  | histoMean
  | histoMedian
  | histoMpv
  deriving DecidableEq, Repr

structure PositionModeConfig where
  mode : Mode
  staticPosition : GeoPosition := {}
  lockInMaxDop : Binary64 := ⟨0x4008000000000000⟩
  lockInMinErrorMeters : Binary64 := ⟨0x401e000000000000⟩
  filterConfig : FilterType
  deriving DecidableEq, Repr

structure GeoPositionCapnp where
  longitude : Binary64 := {}
  latitude : Binary64 := {}
  altitude : Binary64 := {}
  horError : Binary64 := {}
  vertError : Binary64 := {}
  deriving DecidableEq, Repr, Countable

/-- The values of the two enumerations are numbers of 16 bits. -/
structure PositionModeConfigCapnp where
  mode : UInt16 := 0
  staticPosition : GeoPositionCapnp := {}
  lockInMaxDop : Binary64 := ⟨0x4008000000000000⟩
  lockInMinErrorMeters : Binary64 := ⟨0x401e000000000000⟩
  filterConfig : UInt16 := 0
  deriving DecidableEq, Repr, Countable

instance : Message PositionModeConfigCapnp where

def Mode.number : Mode → UInt16
  | .static => 0
  | .lockIn => 1
  | .auto => 2

def Mode.ofNumber : UInt16 → Option Mode
  | 0 => some .static
  | 1 => some .lockIn
  | 2 => some .auto
  | _ => Option.none

def FilterType.number : FilterType → UInt16
  | .none => 0
  | .kalman => 1
  | .histoMean => 2
  | .histoMedian => 3
  | .histoMpv => 4

def FilterType.ofNumber : UInt16 → Option FilterType
  | 0 => some .none
  | 1 => some .kalman
  | 2 => some .histoMean
  | 3 => some .histoMedian
  | 4 => some .histoMpv
  | _ => Option.none

theorem Mode.ofNumber_number (mode : Mode) : ofNumber mode.number = some mode := by
  cases mode <;> rfl

theorem FilterType.ofNumber_number (filter : FilterType) :
    ofNumber filter.number = some filter := by
  cases filter <;> rfl

/-- A number that the enumeration has no name for makes no value here. -/
def positionModeConfig : CapnpCodec PositionModeConfig where
  Root := PositionModeConfigCapnp
  messageKey := TcpMsgKey.positionModel.number
  toRoot event := {
    mode := event.mode.number
    staticPosition := {
      longitude := event.staticPosition.longitude
      latitude := event.staticPosition.latitude
      altitude := event.staticPosition.altitude
      horError := event.staticPosition.horError
      vertError := event.staticPosition.vertError }
    lockInMaxDop := event.lockInMaxDop
    lockInMinErrorMeters := event.lockInMinErrorMeters
    filterConfig := event.filterConfig.number }
  ofRoot root := do
    let mode ← Mode.ofNumber root.mode
    let filterConfig ← FilterType.ofNumber root.filterConfig
    pure {
      mode
      staticPosition := {
        longitude := root.staticPosition.longitude
        latitude := root.staticPosition.latitude
        altitude := root.staticPosition.altitude
        horError := root.staticPosition.horError
        vertError := root.staticPosition.vertError }
      lockInMaxDop := root.lockInMaxDop
      lockInMinErrorMeters := root.lockInMinErrorMeters
      filterConfig }

theorem positionModeConfig_roundTrips (event : PositionModeConfig) :
    positionModeConfig.RoundTrips lib event := by
  rw [Codec.roundTrips_iff]
  simp only [positionModeConfig, Mode.ofNumber_number, FilterType.ofNumber_number,
    Option.bind_eq_bind, Option.bind_some]
  rfl

/-! ## Time marks -/

structure TimeSpecCapnp where
  seconds : Int64 := 0
  nanoseconds : Int32 := 0
  deriving DecidableEq, Repr, Countable

structure UbxTimeMarkStructCapnp where
  rising : TimeSpecCapnp := {}
  falling : TimeSpecCapnp := {}
  risingValid : Bool := false
  fallingValid : Bool := false
  accuracyNs : UInt32 := 0
  valid : Bool := false
  timeBase : UInt8 := 0
  utcAvailable : Bool := false
  flags : UInt8 := 0
  evtCounter : UInt16 := 0
  deriving DecidableEq, Repr, Countable

instance : Message UbxTimeMarkStructCapnp where

def timespecToCapnp (ts : Timespec) : TimeSpecCapnp where
  seconds := .ofInt ts.tvSec
  nanoseconds := .ofInt ts.tvNsec

def timespecOfCapnp (item : TimeSpecCapnp) : Timespec where
  tvSec := item.seconds.toInt
  tvNsec := item.nanoseconds.toInt

def ubxTimeMark : CapnpCodec UbxTimeMarkStruct where
  Root := UbxTimeMarkStructCapnp
  messageKey := TcpMsgKey.ubxTimemark.number
  toRoot event := {
    rising := timespecToCapnp event.rising
    falling := timespecToCapnp event.falling
    risingValid := event.risingValid
    fallingValid := event.fallingValid
    accuracyNs := event.accuracyNs
    valid := event.valid
    timeBase := event.timeBase
    utcAvailable := event.utcAvailable
    flags := event.flags
    evtCounter := event.evtCounter }
  ofRoot root := some {
    rising := timespecOfCapnp root.rising
    falling := timespecOfCapnp root.falling
    risingValid := root.risingValid
    fallingValid := root.fallingValid
    accuracyNs := root.accuracyNs
    valid := root.valid
    timeBase := root.timeBase
    utcAvailable := root.utcAvailable
    flags := root.flags
    evtCounter := root.evtCounter }

/-- The seconds fit into 64 bits and the nanoseconds into 32. -/
@[mk_iff]
structure TimespecFits (ts : Timespec) : Prop where
  tvSec : -2 ^ 63 ≤ ts.tvSec ∧ ts.tvSec < 2 ^ 63
  tvNsec : -2 ^ 31 ≤ ts.tvNsec ∧ ts.tvNsec < 2 ^ 31

theorem int64_ofInt_eq_self {n : Int} : (Int64.ofInt n).toInt = n ↔ -2 ^ 63 ≤ n ∧ n < 2 ^ 63 := by
  constructor
  · intro h
    rw [← h]
    exact ⟨Int64.le_toInt _, Int64.toInt_lt _⟩
  · rintro ⟨hlow, hhigh⟩
    exact Int64.toInt_ofInt_of_le hlow hhigh

theorem int32_ofInt_eq_self {n : Int} : (Int32.ofInt n).toInt = n ↔ -2 ^ 31 ≤ n ∧ n < 2 ^ 31 := by
  constructor
  · intro h
    rw [← h]
    exact ⟨Int32.le_toInt _, Int32.toInt_lt _⟩
  · rintro ⟨hlow, hhigh⟩
    exact Int32.toInt_ofInt_of_le hlow hhigh

theorem timespecOfCapnp_toCapnp {ts : Timespec} :
    timespecOfCapnp (timespecToCapnp ts) = ts ↔ TimespecFits ts := by
  obtain ⟨tvSec, tvNsec⟩ := ts
  simp only [timespecOfCapnp, timespecToCapnp, Timespec.mk.injEq, int64_ofInt_eq_self,
    int32_ofInt_eq_self, timespecFits_iff]

theorem ubxTimeMark_roundTrips {event : UbxTimeMarkStruct} :
    ubxTimeMark.RoundTrips lib event ↔ TimespecFits event.rising ∧ TimespecFits event.falling := by
  obtain ⟨rising, falling⟩ := event
  rw [Codec.roundTrips_iff]
  simp only [ubxTimeMark, Option.some.injEq, UbxTimeMarkStruct.mk.injEq, and_true,
    timespecOfCapnp_toCapnp]

/-! ## All of them -/

/-- **Every compound event comes back as it was**, whatever the library and the orders of
the maps, exactly when its texts hold no zero byte, its arrays have a place for each target
and its time stamps fit into the types of the platform. -/
theorem compound_events_roundTrip (lib : Serializer) (orders : MapOrders) :
    (∀ event : NavSat, navSat.RoundTrips lib event) ∧
    (∀ event : CalibEvent, calibEvent.RoundTrips lib event ↔
      ∀ calib ∈ event.calibList, calib.NulFree) ∧
    (∀ event : CfgGNSS, cfgGNSS.RoundTrips lib event) ∧
    (∀ event : GpioRateEvent, gpioRateEvent.RoundTrips lib event) ∧
    (∀ event : I2CStatsEvent, i2cStatsEvent.RoundTrips lib event ↔
      ∀ device ∈ event.deviceList, 0 ∉ device.name) ∧
    (∀ event : MCP4728Event, (mcp4728Event orders).RoundTrips lib event) ∧
    (∀ event : AdcTraceEvent, adcTraceEvent.RoundTrips lib event) ∧
    (∀ event : MonRx, monRx.RoundTrips lib event ↔ (bufferOfRx event).FullLength) ∧
    (∀ event : MonTx, monTx.RoundTrips lib event ↔ (bufferOfTx event).FullLength) ∧
    (∀ event : VersionEvent, versionEvent.RoundTrips lib event ↔
      event.hwVer.NulFree ∧ event.swVer.NulFree) ∧
    (∀ event : PositionModeConfig, positionModeConfig.RoundTrips lib event) ∧
    (∀ event : UbxTimeMarkStruct, ubxTimeMark.RoundTrips lib event ↔
      TimespecFits event.rising ∧ TimespecFits event.falling) := by
  constructor
  · exact navSat_roundTrips
  constructor
  · exact fun _ => calibEvent_roundTrips
  constructor
  · exact cfgGNSS_roundTrips
  constructor
  · exact gpioRateEvent_roundTrips
  constructor
  · exact fun _ => i2cStatsEvent_roundTrips
  constructor
  · exact mcp4728Event_roundTrips orders
  constructor
  · exact adcTraceEvent_roundTrips
  constructor
  · exact fun _ => monRx_roundTrips
  constructor
  · exact fun _ => monTx_roundTrips
  constructor
  · exact fun _ => versionEvent_roundTrips
  constructor
  · exact positionModeConfig_roundTrips
  · exact fun _ => ubxTimeMark_roundTrips

end MuonDetector.Capnp.EventCodecs
